/-
# Forwarding received packets

The router of `geonet/router.cpp` behind the parser: the forwarding algorithms
with their buffers, and the copies handed to the access layer. Functions stored
with a packet are names. A copy differs from its packet in hop limit and lifetime
only (`IsCopy`), which whatever makes one has to show; so the checks of
`pass_down` never fail. What becomes of own packets in the broadcast buffer is
left open here (`Geonet/Router.lean`).
-/
import VanetzaIdf.Geonet.Wire.CohesivePacket
import VanetzaIdf.Geonet.Wire.LocationTable

namespace VanetzaIdf.Geonet.Wire

open Lib BufferData VanetzaIdf.Units

/-! ### Surroundings -/

inductive SecurityDecapHandling
  | strict | nonStrict
deriving DecidableEq, Repr

/-- What reception reads of the management information base. -/
structure Mib extends Geonet.Mib where
  itsGnProtocolVersion : ℕ := 1
  itsGnLifetimeLocTE : Units.Duration := 20
  itsGnSnDecapResultHandling : SecurityDecapHandling := .strict
  itsGnDPLLength : ℕ := 8
  itsGnMaxPacketDataRate : UInt32 := 100
  itsGnMaxPacketDataRateEmaBeta : ℚ := 9 / 10
  itsGnCbfMinTime : Units.Duration := 1 / 1000
  itsGnCbfMaxTime : Units.Duration := 1 / 10
  itsGnDefaultMaxCommunicationRange : ℚ := 1000
  itsGnBroadcastCBFDefSectorAngle : ℚ := 30
  itsGnUcForwardingPacketBufferSize : ℕ := 256
  itsGnCbfPacketBufferSize : ℕ := 256
  vanetzaCbfMaxCounter : ℕ := 1
  vanetzaMultiHopDuplicateAddressDetection : Bool := false
  vanetzaNeighbourFlagExpiry : Duration := 0
  vanetzaGbcMemoryCapacity : ℕ := 0
  vanetzaGbcPassUpOutsideDestination : Bool := false

/-- The arc cosine in degrees, and the addresses of timers, are open too. -/
structure Environment extends Geonet.Environment where
  acos : ℚ → ℚ
  allocator : CbfPacketBuffer.Allocator

structure LinkLayer where
  sender : MacAddress
  destination : MacAddress
deriving DecidableEq, Repr

def GbcHeader.position (h : GbcHeader) : GeodeticPosition := ⟨h.geoAreaPosLatitude.toInt, h.geoAreaPosLongitude.toInt⟩

/-- `GeoBroadcastHeader::destination`; `none` is the exception for other types. -/
def GbcHeader.destination (h : GbcHeader) (ht : HeaderType) : Option Area :=
  let area (shape : Shape) : Area := ⟨shape, h.position, h.angle.toNat⟩
  if ht = .geoBroadcastCircle then some (area (.circle h.distanceA.toNat))
  else if ht = .geoBroadcastRect then some (area (.rectangle h.distanceA.toNat h.distanceB.toNat))
  else if ht = .geoBroadcastElip then some (area (.ellipse h.distanceA.toNat h.distanceB.toNat))
  else none

def GbcHeader.identifier (h : GbcHeader) : CbfPacketIdentifier := ⟨h.sourcePosition.gnAddr, h.sequenceNumber⟩

/-! ### Copies -/

/-- A packet as it was received: its headers, and the octets above them. -/
structure Received (M : Type) where
  pdu : Pdu M
  payload : ByteBuffer

/-- A copy to be forwarded: a hop less, perhaps another lifetime, and no
payload besides a secured message. -/
structure IsCopy {M : Type} (o : Received M) (pdu : Pdu M) (payload : ByteBuffer) : Prop where
  hopLimit_pos : 0 < pdu.basic.hopLimit.toNat
  hopLimit : pdu.basic.hopLimit.toNat + 1 = o.pdu.basic.hopLimit.toNat
  basic : pdu.basic = { o.pdu.basic with hopLimit := pdu.basic.hopLimit, lifetime := pdu.basic.lifetime }
  common : pdu.common = o.pdu.common
  extended : pdu.extended = o.pdu.extended
  secured : pdu.secured = o.pdu.secured
  payload : payload = if o.pdu.secured.isSome then [] else o.payload

/-- A packet to be handed to the access layer. -/
structure Packet (M : Type) where
  pdu : Pdu M
  payload : DownPacket
  origin : Received M
  isCopy : IsCopy origin pdu payload.upper
  marked : pdu.secured.isSome ↔ pdu.basic.nextHeader = .secured

namespace Packet

variable {M : Type} (p : Packet M)

def withLifetime (l : Lifetime) : Packet M where
  pdu := { p.pdu with basic := { p.pdu.basic with lifetime := l } }
  payload := p.payload
  origin := p.origin
  isCopy :=
    { hopLimit_pos := p.isCopy.hopLimit_pos
      hopLimit := p.isCopy.hopLimit
      basic := congrArg (fun b : BasicHeader => { b with lifetime := l }) p.isCopy.basic
      common := p.isCopy.common
      extended := p.isCopy.extended
      secured := p.isCopy.secured
      payload := p.isCopy.payload }
  marked := p.marked

def reduceLifetime (queuingTime : Duration) : Duration × Packet M :=
  let r := p.pdu.basic.lifetime.reduce queuingTime
  (r.1, p.withLifetime r.2)

def length [SecuredCodec M] : ℕ := p.pdu.getLength + p.payload.upper.length

end Packet

/-- A packet with a GeoBroadcast header, and its destination. -/
structure GbcPacket (M : Type) extends Packet M where
  header : GbcHeader
  extended_eq : pdu.extended = .gbc header
  area : Area
  area_eq : header.destination pdu.common.headerType = some area

namespace GbcPacket

variable {M : Type}

def reduceLifetime (p : GbcPacket M) (queuingTime : Duration) : Duration × GbcPacket M :=
  let r := p.toPacket.reduceLifetime queuingTime
  (r.1, { p with toPacket := r.2, extended_eq := p.extended_eq, area_eq := p.area_eq })

/-- `duplicate`: without the payload if there is a secured message. -/
def duplicate (p : GbcPacket M) : GbcPacket M :=
  if h : p.pdu.secured.isSome then
    { p with
      payload := .empty
      isCopy := { p.isCopy with payload := by rw [← p.isCopy.secured, if_pos h]; rfl } }
  else p

theorem origin_duplicate (p : GbcPacket M) : p.duplicate.origin = p.origin := by
  unfold duplicate
  split_ifs <;> rfl

end GbcPacket

/-- What a GeoBroadcast packet in the broadcast buffer waits for: the
`forwarding` of its reception, or `greedy_fwd`. -/
inductive GbcAction
  | forwarding (linkLayer : LinkLayer)
  | greedy

/-- A packet in a forwarding buffer. -/
inductive Pending (M : Type)
  | own (p : PendingPacket)
  | tsb (p : Packet M)
  | gbc (p : GbcPacket M) (action : GbcAction)

/-- `CbfPacket`; a silent one contends without being transmitted. -/
structure CbfPacket (M : Type) where
  packet : GbcPacket M
  sender : MacAddress
  silent : Bool := false

section Buffers

variable {M : Type} [SecuredCodec M]

instance : BufferData (Pending M) where
  length
    | .own p => length p
    | .tsb p => p.length
    | .gbc p _ => p.length
  reduceLifetime
    | .own p, d => let r := reduceLifetime p d; (r.1, .own r.2)
    | .tsb p, d => let r := p.reduceLifetime d; (r.1, .tsb r.2)
    | .gbc p a, d => let r := p.reduceLifetime d; (r.1, .gbc r.2 a)

instance : CbfData (CbfPacket M) where
  length p := p.packet.length
  reduceLifetime p d := let r := p.packet.reduceLifetime d; (r.1, { p with packet := r.2 })
  identifier p := p.packet.header.identifier

end Buffers

inductive NextHop (M : Type)
  | transmit (p : GbcPacket M) (destination : MacAddress)
  | buffer
  | discard

/-! ### What the router gives out -/

inductive PacketDropReason
  | parseBasicHeader | parseCommonHeader | parseSecuredHeader | parseExtendedHeader | itsProtocolVersion
  | decapUnsuccessfulStrict | hopLimit | payloadSize | securityEntityMissing
deriving DecidableEq, Repr

inductive ForwardingStopReason
  | hopLimit | sourcePdr | senderPdr | outsideDestinationArea | geoAreaSize
deriving DecidableEq, Repr

inductive TransportType
  | shb | tsb | gbc
deriving DecidableEq, Repr

/-- `DataIndication`; the security report with what comes with it is missing
if the packet was not secured. -/
structure DataIndication (R : Type) where
  upperProtocol : UpperProtocol
  transportType : TransportType
  destination : Option Area
  sourcePosition : ShortPositionVector
  security : Option R
  trafficClass : TrafficClass
  remainingPacketLifetime : Lifetime
  remainingHopLimit : UInt8

/-- `dcc::DataRequest` with its packet; the network layer is the PDU. -/
structure Handed (M : Type) where
  destination : MacAddress
  source : MacAddress
  dccProfile : DccProfile
  lifetime : Duration
  pdu : Pdu M
  packet : DownPacket
  origin : Received M
  isCopy : IsCopy origin pdu packet.upper

inductive Output (M R : Type)
  | passUp (indication : DataIndication R) (packet : CohesivePacket)
  | handed (x : Handed M)
  /-- A packet of this station is sent. -/
  | own (p : PendingPacket) (destination : MacAddress)
  | dropped (reason : PacketDropReason)
  | stopped (reason : ForwardingStopReason)
  /-- An exception leaves `indicate`. -/
  | threw
  | aborted

/-- The body of the loop of `greedy_forwarding` over the neighbours, for a
distance in any linear order. -/
def closer {L : Type} [LinearOrder L] (distance : GeodeticPosition → GeodeticPosition → L) (dest : GeodeticPosition)
    (best : L × MacAddress) (e : LocationTableEntry) : L × MacAddress :=
  match e.positionVector with
  | some v => if distance dest v.position < best.1 then (distance dest v.position, v.gnAddr.mid) else best
  | none => best

/-! ### The router -/

/-- `Router` as far as it receives; `E` is the security entity, `κ` the
counter of contention based forwarding. -/
structure Router (M E R κ : Type) where
  mib : Mib
  localPositionVector : LongPositionVector := {}
  locationTable : LocationTable
  bcForwardBuffer : PacketBuffer (Pending M)
  ucForwardBuffer : PacketBuffer (Pending M)
  cbfBuffer : CbfPacketBuffer (CbfPacket M) κ
  gbcMemory : GbcMemory := {}
  securityEntity : Option E := none
  transportHandlers : UpperProtocol → Bool := fun _ => false
  draws : ℕ := 0
  decisions : ℕ := 0
  outputs : List (Output M R) := []

namespace Router

variable {M E R κ : Type} (r : Router M E R κ)

def now : TimePoint := r.cbfBuffer.now

/-- `Router(Runtime&, const MIB&)`. -/
def init (mib : Mib) (runtime : SharedRuntime) (counter : κ) : Router M E R κ where
  mib := mib
  locationTable := .init mib.itsGnLifetimeLocTE
  bcForwardBuffer := { capacity := mib.itsGnBcForwardingPacketBufferSize * 1024 }
  ucForwardBuffer := { capacity := mib.itsGnUcForwardingPacketBufferSize * 1024 }
  cbfBuffer := { counter, capacity := mib.itsGnCbfPacketBufferSize * 1024, runtime }
  gbcMemory := { capacity := max 1 mib.vanetzaGbcMemoryCapacity }

def output (x : Output M R) : Router M E R κ := { r with outputs := r.outputs ++ [x] }

def withTable (f : LocationTable → LocationTable) : Router M E R κ :=
  { r with locationTable := f r.locationTable }

/-- The entry of this station changed. -/
def modifyEntry (key : MacAddress) (f : LocationTableEntry → LocationTableEntry) : Router M E R κ :=
  r.withTable fun t => t.modify key f

def detectDuplicateAddress (env : Environment) (r : Router M E R κ) (source : Address) (sender : MacAddress) :
    Router M E R κ :=
  let own := r.localPositionVector.gnAddr
  if r.mib.AddressTaken own source sender then
    { r with
      draws := r.draws + 1
      localPositionVector := { r.localPositionVector with gnAddr := { own with mid := env.randomMacAddress r.draws } } }
  else r

def detectDuplicatePacket (source : Address) (sn : UInt16) : Bool × Router M E R κ :=
  let t := r.locationTable.getData r.now source.mid (LocationTable.newEntry r.now)
  let l := ((t.getDataPtr source.mid).bind (·.value.duplicatePacketList)).getD
    (CircularBuffer.empty r.mib.itsGnDPLLength)
  let c := DuplicatePacketList.check l sn
  (c.1, { r with locationTable := t.modify source.mid fun e => { e with duplicatePacketList := some c.2 } })

section Forwarding

variable [SecuredCodec M] (r : Router M E R κ)

/-- `transmit` of a TSB or GBC packet, down to the request interface. -/
def transmit (p : Packet M) (destination : MacAddress) : Router M E R κ :=
  r.output (.handed {
    destination
    source := r.localPositionVector.gnAddr.mid
    dccProfile := .dp3
    lifetime := clockCast p.pdu.basic.lifetime.decode
    pdu := p.pdu
    packet := Function.update p.payload .network p.pdu.serialize
    origin := p.origin
    isCopy := p.isCopy })

/-- Into `m_bc_forward_buffer`. -/
def store (p : Pending M) : Router M E R κ :=
  { r with bcForwardBuffer := (r.bcForwardBuffer.push p r.now).2 }

variable [CbfCounter κ] (env : Environment)

/-- Into `m_cbf_buffer`. -/
def contend (r : Router M E R κ) (p : CbfPacket M) (timeout : Units.Duration) : Router M E R κ :=
  { r with cbfBuffer := r.cbfBuffer.add p (clockCast timeout) env.allocator }

/-- `m_cbf_buffer.remove`. -/
def removeContending (id : CbfPacketIdentifier) : Bool × Router M E R κ :=
  let b := r.cbfBuffer.remove id
  (b.1, { r with cbfBuffer := b.2 })

/-- `timeout_cbf(units::Length)`. -/
def timeoutCbf (prog : ℚ) : Units.Duration :=
  let distMax := r.mib.itsGnDefaultMaxCommunicationRange
  if distMax < prog then r.mib.itsGnCbfMinTime
  else if 0 < prog then r.mib.itsGnCbfMaxTime + (r.mib.itsGnCbfMinTime - r.mib.itsGnCbfMaxTime) / distMax * prog
  else r.mib.itsGnCbfMaxTime

def accuratePosition (mac : MacAddress) : Option GeodeticPosition :=
  ((r.locationTable.getPosition r.now mac).filter (·.positionAccuracyIndicator)).map (·.position)

/-- `timeout_cbf(const MacAddress&)`. -/
def timeoutCbfSender (r : Router M E R κ) (sender : MacAddress) : Units.Duration :=
  match r.accuratePosition sender with
  | some position => r.timeoutCbf (env.distance position r.localPositionVector.position)
  | none => r.mib.itsGnCbfMaxTime

def greedyForwarding (r : Router M E R κ) (p : GbcPacket M) : NextHop M × Router M E R κ :=
  let dest := p.header.position
  let own := env.distance dest r.localPositionVector.position
  let mfr := (r.locationTable.neighbours r.now).foldl (closer env.distance dest) (own, Vector.replicate 6 0)
  if mfr.1 < own then (.transmit p mfr.2, r)
  else if p.pdu.common.trafficClass.storeCarryForward then (.buffer, r.store (.gbc p .greedy))
  else (.transmit p broadcastMacAddress, r)

def nonAreaContentionBasedForwarding (r : Router M E R κ) (p : GbcPacket M) (sender : MacAddress) :
    NextHop M × Router M E R κ :=
  let removed := r.removeContending p.header.identifier
  if removed.1 then (.discard, removed.2)
  else
    match r.accuratePosition sender with
    | some position =>
      let distSender := env.distance p.area.position position
      let distLocal := env.distance p.area.position r.localPositionVector.position
      if distLocal < distSender then
        (.buffer, removed.2.contend env ⟨p, sender, false⟩ (r.timeoutCbf (distSender - distLocal)))
      else (.discard, removed.2)
    | none => (.buffer, removed.2.contend env ⟨p, sender, false⟩ r.mib.itsGnCbfMaxTime)

def areaContentionBasedForwarding (r : Router M E R κ) (p : GbcPacket M) (sender : MacAddress) :
    NextHop M × Router M E R κ :=
  let removed := r.removeContending p.header.identifier
  if removed.1 || r.mib.vanetzaCbfMaxCounter ≤ removed.2.cbfBuffer.count p.header.identifier then (.discard, removed.2)
  else (.buffer, removed.2.contend env ⟨p, sender, false⟩ (r.timeoutCbfSender env sender))

def outsideSectorialContentionArea (r : Router M E R κ) (sender forwarder : MacAddress) : Bool :=
  match r.locationTable.getPosition r.now sender, r.locationTable.getPosition r.now forwarder with
  | some s, some f =>
    let distR := env.distance s.position r.localPositionVector.position
    let distF := env.distance f.position s.position
    let distRf := env.distance f.position r.localPositionVector.position
    let angle :=
      if 0 < distR ∧ 0 < distF then env.acos ((distRf * distRf - distR * distR - distF * distF) / (-2 * distR * distF))
      else 0
    !decide (distR < distF ∧ distF < r.mib.itsGnDefaultMaxCommunicationRange ∧
      angle < r.mib.itsGnBroadcastCBFDefSectorAngle)
  | _, _ => true

def areaAdvancedForwarding (r : Router M E R κ) (p : GbcPacket M) (ll : LinkLayer) :
    NextHop M × Router M E R κ :=
  let id := p.header.identifier
  match r.cbfBuffer.lookup id with
  | some (_, buffered) =>
    if r.mib.vanetzaCbfMaxCounter ≤ r.cbfBuffer.count id then (.discard, (r.removeContending id).2)
    else if !r.outsideSectorialContentionArea env buffered.sender ll.sender then (.discard, (r.removeContending id).2)
    else
      (.buffer, { r with cbfBuffer := r.cbfBuffer.update id (clockCast (r.timeoutCbfSender env ll.sender)) })
  | none =>
    if ll.destination = r.localPositionVector.gnAddr.mid then
      let greedy := r.greedyForwarding env p.duplicate
      -- a broadcast by greedy forwarding is not repeated at the end of the contention
      let silent := match greedy.1 with
        | .transmit _ mac => decide (mac = broadcastMacAddress)
        | _ => false
      (greedy.1, greedy.2.contend env ⟨p, ll.sender, silent⟩ r.mib.itsGnCbfMaxTime)
    else (.buffer, r.contend env ⟨p, ll.sender, false⟩ (r.timeoutCbfSender env ll.sender))

/-- `forwarding_algorithm_selection` of a packet with a link layer. -/
def forwardingAlgorithmSelection (r : Router M E R κ) (p : GbcPacket M) (ll : LinkLayer) :
    NextHop M × Router M E R κ :=
  if env.insideOrAtBorder p.area r.localPositionVector.position then
    match r.mib.itsGnAreaForwardingAlgorithm with
    | .unspecified | .simple => (.transmit p broadcastMacAddress, r)
    | .cbf => r.areaContentionBasedForwarding env p ll.sender
    | .advanced => r.areaAdvancedForwarding env p ll
  else if (r.accuratePosition ll.sender).any (env.insideOrAtBorder p.area) then
    (.discard, r.output (.stopped .outsideDestinationArea))
  else
    match r.mib.itsGnNonAreaForwardingAlgorithm with
    | .unspecified | .greedy => r.greedyForwarding env p
    | .cbf => r.nonAreaContentionBasedForwarding env p ll.sender

/-- `NextHop::process`. -/
def processNextHop : NextHop M × Router M E R κ → Router M E R κ
  | (.transmit p mac, r) => r.transmit p.toPacket mac
  | (_, r) => r

/-- `PendingPacket::process` of a packet in a forwarding buffer. -/
def process (r : Router M E R κ) : Pending M → Router M E R κ
  | .own p =>
    let r' := { r with decisions := r.decisions + 1 }
    match env.forward r.decisions with
    | .transmit mac => r'.output (.own p mac)
    | .store => r'.store (.own p)
    | .gone => r'
  | .tsb p => r.transmit p broadcastMacAddress
  | .gbc p (.forwarding ll) => processNextHop (r.forwardingAlgorithmSelection env p ll)
  | .gbc p .greedy => processNextHop (r.greedyForwarding env p)

def flushBroadcastForwardingBuffer (r : Router M E R κ) : Router M E R κ :=
  let t := r.bcForwardBuffer.take r.now
  t.1.foldl (process env) { r with bcForwardBuffer := t.2 }

def flushUnicastForwardingBuffer (r : Router M E R κ) : Router M E R κ :=
  let t := r.ucForwardBuffer.take r.now
  t.1.foldl (process env) { r with ucForwardBuffer := t.2 }

/-- The callback of the contention based buffer. -/
def processContended (p : CbfPacket M) : Router M E R κ :=
  if p.silent then r else r.transmit p.packet.toPacket broadcastMacAddress

/-! ### Extended headers -/

/-- A received packet whose extended header is processed: its headers, and the layers as
`duplicate` has them. -/
structure Reception (M : Type) where
  pdu : Pdu M
  packetSize : ℕ
  packet : DownPacket
  linkLayer : LinkLayer
  marked : pdu.secured.isSome ↔ pdu.basic.nextHeader = .secured

def Reception.received (rx : Reception M) : Received M := ⟨rx.pdu, rx.packet.upper⟩

def Reception.forwardingDuplicate (rx : Reception M) (h : ¬ rx.pdu.basic.hopLimit ≤ 1) : Packet M where
  pdu := { rx.pdu with basic := { rx.pdu.basic with hopLimit := rx.pdu.basic.hopLimit - 1 } }
  payload := if rx.pdu.secured.isSome then .empty else rx.packet
  origin := rx.received
  isCopy := by
    have hlt : 1 < rx.pdu.basic.hopLimit.toNat := by simpa [UInt8.le_iff_toNat_le] using h
    have hsub : (rx.pdu.basic.hopLimit - 1).toNat = rx.pdu.basic.hopLimit.toNat - 1 :=
      UInt8.toNat_sub_of_le _ _ (UInt8.le_iff_toNat_le.mpr hlt.le)
    refine ⟨?_, ?_, rfl, rfl, rfl, rfl, ?_⟩
    · show 0 < (rx.pdu.basic.hopLimit - 1).toNat
      omega
    · show (rx.pdu.basic.hopLimit - 1).toNat + 1 = rx.pdu.basic.hopLimit.toNat
      omega
    · show DownPacket.upper _ = if rx.pdu.secured.isSome then [] else rx.packet.upper
      split_ifs <;> rfl
  marked := rx.marked

/-- The packet data rate checks of a TSB or GBC packet. -/
def rateExceeded (source sender : MacAddress) : Option ForwardingStopReason :=
  let limit : ℚ := r.mib.itsGnMaxPacketDataRate.toNat * 1000
  if r.mib.itsGnMaxPacketDataRate < 0xffffffff then
    if (r.locationTable.getDataPtr source).any (·.value.exceeds limit) then some .sourcePdr
    else if (r.locationTable.getValuePtr r.now sender).any (·.exceeds limit) then some .senderPdr
    else none
  else none

/-- `process_extended` of an SHB or beacon header up to the neighbour flag. -/
def noteNeighbour (r : Router M E R κ) (rx : Reception M) (v : LongPositionVector) : Router M E R κ :=
  let r := r.detectDuplicateAddress env v.gnAddr rx.linkLayer.sender
  let r := r.withTable fun t => t.update r.now v
  let r := r.modifyEntry v.gnAddr.mid fun e => e.updatePdr r.now rx.packetSize r.mib.itsGnMaxPacketDataRateEmaBeta
  r.modifyEntry v.gnAddr.mid fun e => e.setNeighbourFor r.now true r.mib.vanetzaNeighbourFlagExpiry

/-- `process_extended` of an SHB header. -/
def processShb (r : Router M E R κ) (rx : Reception M) (shb : ShbHeader) : Bool × Router M E R κ :=
  let v := shb.sourcePosition
  let r := r.noteNeighbour env rx v
  let r := if r.mib.itsGnIfType = .itsG5 then
      r.modifyEntry v.gnAddr.mid fun e =>
        { e with locTexG5 := some ⟨timestamp r.now, v.timestamp, shb.dcc.getDccMco⟩ }
    else r
  (true, r)

/-- `process_extended` of a beacon header. -/
def processBeacon (r : Router M E R κ) (rx : Reception M) (beacon : BeaconHeader) :
    Bool × Router M E R κ :=
  (false, r.noteNeighbour env rx beacon.sourcePosition)

/-- What is noted of the source of a TSB or GBC packet; `known` is whether it had an entry before.
(For GBC the packet data rate comes before the neighbour flag.) -/
def noteSource (r : Router M E R κ) (rx : Reception M) (v : LongPositionVector) (known : Bool) :
    Router M E R κ :=
  let r := if r.mib.vanetzaMultiHopDuplicateAddressDetection then
      r.detectDuplicateAddress env v.gnAddr rx.linkLayer.sender
    else r
  let r := r.withTable fun t => t.update r.now v
  let r := if known then r else r.modifyEntry v.gnAddr.mid fun e => e.setNeighbour false
  let r := r.modifyEntry v.gnAddr.mid fun e => e.updatePdr r.now rx.packetSize r.mib.itsGnMaxPacketDataRateEmaBeta
  r.flushUnicastForwardingBuffer env

/-- Steps 9 to 12 for a TSB packet. -/
def forwardTsb (rx : Reception M) (source : MacAddress) : Router M E R κ :=
  if h : rx.pdu.basic.hopLimit ≤ 1 then r.output (.stopped .hopLimit)
  else
    match r.rateExceeded source rx.linkLayer.sender with
    | some reason => r.output (.stopped reason)
    | none =>
      let copy := rx.forwardingDuplicate h
      if rx.pdu.common.trafficClass.storeCarryForward && !r.locationTable.hasNeighbours r.now then r.store (.tsb copy)
      else r.transmit copy broadcastMacAddress

/-- `process_extended` of a TSB header. -/
def processTsb (r : Router M E R κ) (rx : Reception M) (tsb : TsbHeader) : Bool × Router M E R κ :=
  let v := tsb.sourcePosition
  let known := r.locationTable.hasValue r.now v.gnAddr.mid
  let d := r.detectDuplicatePacket v.gnAddr tsb.sequenceNumber
  if d.1 then (false, d.2) else (true, (d.2.noteSource env rx v known).forwardTsb rx v.gnAddr.mid)

/-- Steps 9 to 14 for a GBC packet. -/
def forwardGbc (r : Router M E R κ) (rx : Reception M) (gbc : GbcHeader)
    (hgbc : rx.pdu.extended = .gbc gbc) (area : Area) (harea : gbc.destination rx.pdu.common.headerType = some area) :
    Router M E R κ :=
  if h : rx.pdu.basic.hopLimit ≤ 1 then r.output (.stopped .hopLimit)
  else if r.mib.itsGnMaxGeoAreaSize < env.areaSize area then r.output (.stopped .geoAreaSize)
  else
    match r.rateExceeded gbc.sourcePosition.gnAddr.mid rx.linkLayer.sender with
    | some reason => r.output (.stopped reason)
    | none =>
      let copy : GbcPacket M := ⟨rx.forwardingDuplicate h, gbc, hgbc, area, harea⟩
      let pending : Pending M := .gbc copy (.forwarding rx.linkLayer)
      if rx.pdu.common.trafficClass.storeCarryForward && !r.locationTable.hasNeighbours r.now then r.store pending
      else r.process env pending

def decidePassUp (withinDestination : Bool) (gbc : GbcHeader) : Bool × Router M E R κ :=
  let accept := withinDestination || r.mib.vanetzaGbcPassUpOutsideDestination
  if r.mib.vanetzaGbcMemoryCapacity = 0 then (accept, r)
  else if accept then
    let m := r.gbcMemory.remember gbc.identifier
    (!m.1, { r with gbcMemory := m.2 })
  else (false, r)

/-- Whether the forwarding algorithm in charge wants duplicates detected. -/
def detectsDuplicates (withinDestination : Bool) : Bool :=
  if withinDestination then
    r.mib.itsGnAreaForwardingAlgorithm = .unspecified || r.mib.itsGnAreaForwardingAlgorithm = .simple
  else r.mib.itsGnNonAreaForwardingAlgorithm = .unspecified || r.mib.itsGnNonAreaForwardingAlgorithm = .greedy

/-- `process_extended` of a GBC header. -/
def processGbc (r : Router M E R κ) (rx : Reception M) (gbc : GbcHeader)
    (hgbc : rx.pdu.extended = .gbc gbc) (area : Area) (harea : gbc.destination rx.pdu.common.headerType = some area) :
    Bool × Router M E R κ :=
  let v := gbc.sourcePosition
  let known := r.locationTable.hasValue r.now v.gnAddr.mid
  let within := env.insideOrAtBorder area r.localPositionVector.position
  let d := if r.detectsDuplicates within then r.detectDuplicatePacket v.gnAddr gbc.sequenceNumber else (false, r)
  if d.1 then (false, d.2)
  else ((d.2.noteSource env rx v known).forwardGbc env rx gbc hgbc area harea).decidePassUp within gbc

end Forwarding

end Router

end VanetzaIdf.Geonet.Wire
