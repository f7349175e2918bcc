/-
# Packets, requests and the management information base

The data the router works on, and the validation of requests
(`data_confirm.cpp`). Lengths, areas and distances are rationals; the geometry
is left to whoever runs the router. A signed PDU carries the secured message,
with the ticket that signed it and the plain message (`Pdu.length`).
-/
import VanetzaIdf.Basic
import VanetzaIdf.Geonet.Lifetime
import VanetzaIdf.Geonet.PacketBuffer

namespace VanetzaIdf.Geonet

/-! ### Addresses and positions -/

structure Address where
  isManuallyConfigured : Bool := false
  stationType : BitVec 5 := 0
  countryCode : BitVec 10 := 0
  mid : MacAddress := Vector.replicate 6 0
deriving DecidableEq, Repr

def broadcastMacAddress : MacAddress := Vector.replicate 6 0xff

/-- Latitude and longitude in tenths of a microdegree. -/
structure GeodeticPosition where
  latitude : ℤ
  longitude : ℤ
deriving DecidableEq, Repr

/-- `Timestamp` of a time point: milliseconds in 32 bits. -/
def timestamp (tp : TimePoint) : UInt32 := UInt32.ofNat (tp.tdiv 1000 % 2 ^ 32).toNat

structure LongPositionVector where
  gnAddr : Address := {}
  timestamp : UInt32 := 0
  latitude : ℤ := 0
  longitude : ℤ := 0
  positionAccuracyIndicator : Bool := false
  speed : ℕ := 0
  heading : ℕ := 0
deriving DecidableEq, Repr

def LongPositionVector.position (v : LongPositionVector) : GeodeticPosition := ⟨v.latitude, v.longitude⟩

/-- `Area::shape`. -/
inductive Shape
  | rectangle (a b : ℚ)
  | ellipse (a b : ℚ)
  | circle (r : ℚ)
deriving DecidableEq, Repr

structure Area where
  shape : Shape
  position : GeodeticPosition
  angle : ℚ
deriving DecidableEq, Repr

/-! ### Headers -/

inductive NextHeaderBasic
  | any | common | secured
deriving DecidableEq, Repr

inductive NextHeaderCommon
  | any | btpA | btpB | ipv6
deriving DecidableEq, Repr

inductive HeaderType
  | any | beacon | geoBroadcastCircle | geoBroadcastRect | geoBroadcastElip | tsbSingleHop | tsbMultiHop
deriving DecidableEq, Repr

structure TrafficClass where
  storeCarryForward : Bool := false
  channelOffload : Bool := false
  tcId : BitVec 6 := 0
deriving DecidableEq, Repr

inductive DccProfile
  | dp0 | dp1 | dp2 | dp3
deriving DecidableEq, Repr

/-- `map_tc_onto_profile`. -/
def TrafficClass.profile (tc : TrafficClass) : DccProfile :=
  match tc.tcId.toNat with
  | 0 => .dp0
  | 1 => .dp1
  | 2 => .dp2
  | _ => .dp3

structure BasicHeader where
  nextHeader : NextHeaderBasic
  lifetime : Lifetime
  hopLimit : UInt8
deriving DecidableEq, Repr

structure CommonHeader where
  nextHeader : NextHeaderCommon
  headerType : HeaderType
  trafficClass : TrafficClass
  isMobile : Bool
  payload : UInt16
  maximumHopLimit : UInt8
deriving DecidableEq, Repr

inductive ExtendedHeader
  | shb (sourcePosition : LongPositionVector)
  | tsb (sequenceNumber : UInt16) (sourcePosition : LongPositionVector)
  | gbc (sequenceNumber : UInt16) (sourcePosition : LongPositionVector) (destination : Area)
  | beacon (sourcePosition : LongPositionVector)
deriving DecidableEq, Repr

namespace ExtendedHeader

def sourcePosition : ExtendedHeader → LongPositionVector
  | shb v | tsb _ v | gbc _ v _ | beacon v => v

def withSource (v : LongPositionVector) : ExtendedHeader → ExtendedHeader
  | shb _ => shb v
  | tsb n _ => tsb n v
  | gbc n _ a => gbc n v a
  | beacon _ => beacon v

/-- `length_bytes` of the extended headers. -/
def length : ExtendedHeader → ℕ
  | shb _ => 28
  | tsb _ _ => 28
  | gbc _ _ _ => 44
  | beacon _ => 24

@[simp] theorem sourcePosition_withSource (v : LongPositionVector) (x : ExtendedHeader) :
    (x.withSource v).sourcePosition = v := by
  cases x <;> rfl

end ExtendedHeader

/-! ### Signed messages -/

/-- `SignRequest`; the plain message is the headers after the basic one and
the payload. -/
structure SignRequest where
  common : CommonHeader
  extended : ExtendedHeader
  payload : ByteBuffer
  itsAid : ℕ
  permissions : ByteBuffer
  contextInformation : ByteBuffer
deriving DecidableEq, Repr

/-- `SecuredMessage`: what was signed, the digest of the ticket that signed
it, and `get_size`. -/
structure SecuredMessage where
  request : SignRequest
  signer : HashedId8
  size : ℕ
deriving DecidableEq, Repr

/-- The interface `security::SecurityEntity`, as far as the router sends:
`encapsulate_packet` answers with a secured message or an error. -/
class SecurityEntity (S : Type) where
  encapsulatePacket : S → SignRequest → Option SecuredMessage × S

/-! ### PDUs -/

structure Pdu where
  basic : BasicHeader
  common : CommonHeader
  extended : ExtendedHeader
  secured : Option SecuredMessage := none
deriving DecidableEq, Repr

/-- `get_length`. -/
def Pdu.length (p : Pdu) : ℕ :=
  match p.secured with
  | some m => 4 + m.size
  | none => 4 + 8 + p.extended.length

/-! ### The management information base -/

inductive UnicastForwarding
  | unspecified | greedy | cbf
deriving DecidableEq, Repr

inductive BroadcastForwarding
  | unspecified | simple | cbf | advanced
deriving DecidableEq, Repr

inductive AddrConfMethod
  | auto | managed | anonymous
deriving DecidableEq, Repr

/-- `InterfaceType`, which is also `CommunicationProfile`. -/
inductive InterfaceType
  | unspecified | itsG5 | lteV2x
deriving DecidableEq, Repr

/-- `ManagementInformationBase`, with the defaults of `mib.cpp`. -/
structure Mib where
  itsGnLocalGnAddr : Address := {}
  itsGnLocalAddrConfMethod : AddrConfMethod := .managed
  itsGnIsMobile : Bool := true
  itsGnIfType : InterfaceType := .itsG5
  itsGnPaiInterval : ℚ := 80
  itsGnMaxSduSize : ℕ := 1398
  itsGnSecurity : Bool := false
  itsGnBeaconServiceRetransmitTimer : Units.Duration := 3
  itsGnBeaconServiceMaxJitter : Units.Duration := 3 / 4
  itsGnDefaultHopLimit : UInt8 := 10
  itsGnMaxPacketLifetime : Lifetime := ⟨.hundredSeconds, 6⟩
  itsGnDefaultPacketLifetime : Lifetime := ⟨.tenSeconds, 6⟩
  itsGnMaxGeoAreaSize : ℚ := 10000000
  itsGnMinPacketRepetitionInterval : Units.Duration := 1 / 10
  itsGnNonAreaForwardingAlgorithm : UnicastForwarding := .greedy
  itsGnAreaForwardingAlgorithm : BroadcastForwarding := .cbf
  itsGnBcForwardingPacketBufferSize : ℕ := 1024
  itsGnDefaultTrafficClass : TrafficClass := {}
  vanetzaDeferInitialBeacon : Duration := 0
  vanetzaDisableBeaconing : Bool := false
deriving DecidableEq, Repr

/-- `detect_duplicate_address`: the router chose its address itself, and another
station uses it. -/
abbrev Mib.AddressTaken (mib : Mib) (own source : Address) (sender : MacAddress) : Prop :=
  mib.itsGnLocalAddrConfMethod = .auto ∧ (source = own ∨ sender = own.mid)

/-! ### Requests -/

inductive UpperProtocol
  | unknown | btpA | btpB | ipv6
deriving DecidableEq, Repr

/-- `DataRequest::Repetition`. -/
structure Repetition where
  interval : Units.Duration
  maximum : Units.Duration
deriving DecidableEq, Repr

/-- `decrement_by_one`, without the rounding of the source's doubles. -/
def Repetition.decrementByOne (r : Repetition) : Repetition :=
  if 0 < r.maximum ∧ 0 < r.interval ∧ r.interval < r.maximum then { r with maximum := r.maximum - r.interval }
  else { r with maximum := 0 }

def Repetition.hasFurtherRepetition (r : Repetition) : Bool :=
  decide (0 < r.maximum ∧ 0 < r.interval ∧ r.interval ≤ r.maximum)

/-- `DataRequest`; `destination` is the area of a `GbcDataRequest` and
missing in a `ShbDataRequest`. -/
structure DataRequest where
  upperProtocol : UpperProtocol
  communicationProfile : InterfaceType
  itsAid : ℕ
  permissions : ByteBuffer
  securityContext : ByteBuffer
  maximumLifetime : Lifetime
  repetition : Option Repetition
  maxHopLimit : UInt8
  trafficClass : TrafficClass
  destination : Option Area
deriving DecidableEq, Repr

/-- `DataConfirm::ResultCode`. -/
inductive ResultCode
  | accepted | rejectedMaxSduSize | rejectedMaxLifetime | rejectedMinRepetitionInterval
  | rejectedUnsupportedTrafficClass | rejectedMaxGeoAreaSize | rejectedUnspecified
deriving DecidableEq, Repr

/-- `operator ^=` of a `DataConfirm`: a new error replaces the code. -/
def ResultCode.replace (lhs rhs : ResultCode) : ResultCode := if rhs ≠ .accepted then rhs else lhs

/-- `validate_data_request(const DataRequest&)`. -/
def validateDataRequest (req : DataRequest) (mib : Mib) : ResultCode :=
  if mib.itsGnMaxPacketLifetime.decode < req.maximumLifetime.decode then .rejectedMaxLifetime
  else if req.repetition.any fun r => decide (r.interval < mib.itsGnMinPacketRepetitionInterval) then
    .rejectedMinRepetitionInterval
  else .accepted

/-- `validate_data_request(const DataRequestWithArea&)`. -/
def validateAreaRequest (areaSize : Area → ℚ) (req : DataRequest) (area : Area) (mib : Mib) : ResultCode :=
  if mib.itsGnMaxGeoAreaSize < areaSize area then .rejectedMaxGeoAreaSize else validateDataRequest req mib

/-- `validate_payload`; the payload is never null here. -/
def validatePayload (payload : ByteBuffer) (mib : Mib) : ResultCode :=
  if mib.itsGnMaxSduSize < payload.length then .rejectedMaxSduSize else .accepted

end VanetzaIdf.Geonet
