/-
# The GeoNetworking router

The sending side of `geonet/router.cpp`: SHB and GBC requests, the forwarding of
own packets, the broadcast forwarding buffer, beacons, and the encapsulation
before every transmission.

A buffered packet holds the name of a function (`Action`), which `process` runs.
What a packet of another station comes to (`Environment.forward`), what a
reception leaves in the location table, geometry and random draws are left open.
No function reads `requests`, `number` and `origin`.
-/
import VanetzaIdf.Geonet.Packet

namespace VanetzaIdf.Geonet

open VanetzaIdf.Units

/-! ### What the router does not decide -/

/-- What becomes of a packet of another station that is processed. -/
inductive ForwardDecision
  | transmit (destination : MacAddress)
  | store
  | gone
deriving DecidableEq, Repr

/-- The geometry, the draws of the random generator and the decisions about packets of other
stations. -/
structure Environment where
  distance : GeodeticPosition → GeodeticPosition → ℚ
  insideOrAtBorder : Area → GeodeticPosition → Bool
  areaSize : Area → ℚ
  jitter : ℕ → ℚ
  jitter_nonneg : ∀ n, 0 ≤ jitter n
  jitter_lt_one : ∀ n, jitter n < 1
  randomMacAddress : ℕ → MacAddress
  forward : ℕ → ForwardDecision

/-- Every station is inside every area, there is no jitter, and packets of other stations are not
forwarded. -/
def sampleEnvironment : Environment where
  distance _ _ := 0
  insideOrAtBorder _ _ := true
  areaSize _ := 0
  jitter _ := 0
  jitter_nonneg _ := le_rfl
  jitter_lt_one _ := one_pos
  randomMacAddress _ := Vector.replicate 6 0
  forward _ := .gone

/-! ### Packets that wait -/

structure ControlInfo where
  communicationProfile : InterfaceType
  itsAid : ℕ
  permissions : ByteBuffer
  securityContext : ByteBuffer
deriving DecidableEq, Repr

def DataRequest.controlInfo (r : DataRequest) : ControlInfo :=
  ⟨r.communicationProfile, r.itsAid, r.permissions, r.securityContext⟩

/-- The function of a `PendingPacket`: that of an own request, `greedy_fwd` around the `transmit`
of a GBC request, or the forwarding of another packet. -/
inductive Action
  | shb (ctrl : ControlInfo)
  | gbc (ctrl : ControlInfo)
  | greedy (ctrl : ControlInfo)
  | forward
deriving DecidableEq, Repr

def Action.own : Action → Bool
  | .forward => false
  | _ => true

theorem Action.eq_forward {a : Action} (h : a.own = false) : a = .forward := by
  cases a with
  | forward => rfl
  | _ => cases h

structure PendingPacket where
  pdu : Pdu
  payload : ByteBuffer
  action : Action
  number : ℕ
deriving DecidableEq, Repr

namespace PendingPacket

variable (p : PendingPacket)

def length : ℕ := p.pdu.length + p.payload.length

def withLifetime (l : Lifetime) : PendingPacket :=
  { p with pdu := { p.pdu with basic := { p.pdu.basic with lifetime := l } } }

def reduceLifetime (queuingTime : Duration) : Duration × PendingPacket :=
  let packetLifetime := clockCast p.pdu.basic.lifetime.decode
  if queuingTime ≤ 0 then (packetLifetime, p)
  else if queuingTime < packetLifetime then
    let remaining := packetLifetime - queuingTime
    (remaining, p.withLifetime (.encode (ofClock remaining)))
  else (0, p.withLifetime .zero)

instance : BufferData PendingPacket := ⟨length, reduceLifetime⟩

theorem reduceLifetime_cases (d : Duration) :
    ∃ l, (BufferData.reduceLifetime p d).2 = p.withLifetime l := by
  show ∃ l, (p.reduceLifetime d).2 = p.withLifetime l
  unfold reduceLifetime
  by_cases h0 : d ≤ 0
  · exact ⟨p.pdu.basic.lifetime, by simp only [h0, if_true]; rfl⟩
  · by_cases h1 : d < clockCast p.pdu.basic.lifetime.decode
    · exact ⟨_, by simp only [h0, h1, if_true, if_false]; rfl⟩
    · exact ⟨_, by simp only [h0, h1, if_false]; rfl⟩

instance : LawfulBufferData PendingPacket where
  length_reduceLifetime p d := by
    obtain ⟨l, hl⟩ := p.reduceLifetime_cases d
    rw [hl]
    rfl
  reduceLifetime_nonneg p := by
    show 0 ≤ (p.reduceLifetime 0).1
    unfold reduceLifetime
    dsimp only
    rw [if_pos le_rfl]
    exact clockCast_nonneg p.pdu.basic.lifetime.decode_nonneg

end PendingPacket

/-! ### The router -/

/-- An entry of the location table: it counts as a neighbour until `isNeighbour`. -/
structure LocationTableEntry where
  isNeighbour : TimePoint
  positionVector : Option LongPositionVector
deriving DecidableEq, Repr

/-- Where a packet handed to the request interface comes from. -/
inductive Origin
  | beacon
  | request (number : ℕ)
  | other
deriving DecidableEq, Repr

/-- `dcc::DataRequest` with its packet. -/
structure DownRequest where
  source : MacAddress
  destination : MacAddress
  dccProfile : DccProfile
  lifetime : Duration
  pdu : Pdu
  payload : ByteBuffer
  origin : Origin
deriving DecidableEq, Repr

/-- `Router` with the runtime and the security entity it refers to. -/
structure Router (S : Type) where
  mib : Mib
  runtime : Runtime
  securityEntity : Option S
  localPositionVector : LongPositionVector := {}
  locationTable : List LocationTableEntry := []
  bcForwardBuffer : PacketBuffer PendingPacket
  localSequenceNumber : UInt16 := 0
  repetitions : List (ℕ × DataRequest × ByteBuffer) := []
  nextRepetition : ℕ := 0
  draws : ℕ := 0
  decisions : ℕ := 0
  nextNumber : ℕ := 0
  requests : List DownRequest := []

namespace Router

variable {S : Type}

/-! ### The beacon timer -/

variable (r : Router S)

def resetBeaconTimerIn (nextBeacon : Duration) : Router S :=
  { r with runtime := (r.runtime.cancel (some .router)).scheduleIn nextBeacon .beacon (some .router) }

variable (env : Environment)

def resetBeaconTimer (r : Router S) : Router S :=
  resetBeaconTimerIn { r with draws := r.draws + 1 } (clockCast
    (r.mib.itsGnBeaconServiceRetransmitTimer + env.jitter r.draws * r.mib.itsGnBeaconServiceMaxJitter))

def init (mib : Mib) (rt : Runtime) (securityEntity : Option S) : Router S :=
  let r : Router S :=
    { mib := mib, runtime := rt, securityEntity := securityEntity
      bcForwardBuffer := { capacity := mib.itsGnBcForwardingPacketBufferSize * 1024 } }
  if mib.vanetzaDisableBeaconing then r
  else if 0 < mib.vanetzaDeferInitialBeacon then
    resetBeaconTimerIn { r with draws := r.draws + 1 } (mib.vanetzaDeferInitialBeacon +
      clockCast (env.jitter r.draws * mib.itsGnBeaconServiceMaxJitter))
  else r.resetBeaconTimerIn 0

/-! ### Passing down -/

/-- `pass_down`; its checks of the next header against the secured message
hold for every PDU the router makes. -/
def passDown (destination : MacAddress) (dccProfile : DccProfile) (pdu : Pdu) (payload : ByteBuffer)
    (origin : Origin) : Router S :=
  { r with
    requests :=
      { source := r.localPositionVector.gnAddr.mid
        destination := destination
        dccProfile := dccProfile
        lifetime := clockCast pdu.basic.lifetime.decode
        pdu := pdu
        payload := payload
        origin := origin } :: r.requests }

/-! ### Headers of own packets -/

/-- The source position is updated right before transmission. -/
def updatedPdu (pdu : Pdu) : Pdu :=
  { pdu with extended := pdu.extended.withSource r.localPositionVector }

def UpperProtocol.nextHeader : UpperProtocol → NextHeaderCommon
  | .btpA => .btpA
  | .btpB => .btpB
  | .ipv6 => .ipv6
  | .unknown => .any

def gbcHeaderType (a : Area) : HeaderType :=
  match a.shape with
  | .circle _ => .geoBroadcastCircle
  | .rectangle _ _ => .geoBroadcastRect
  | .ellipse _ _ => .geoBroadcastElip

def createPdu (mib : Mib) (req : DataRequest) (payload : ByteBuffer) (headerType : HeaderType) (hopLimit : UInt8)
    (extended : ExtendedHeader) : Pdu where
  basic := ⟨if mib.itsGnSecurity then .secured else .common, req.maximumLifetime, hopLimit⟩
  common := ⟨UpperProtocol.nextHeader req.upperProtocol, headerType, req.trafficClass, mib.itsGnIsMobile,
    UInt16.ofNat payload.length, hopLimit⟩
  extended := extended

/-- `create_beacon_pdu`, with the next header `on_beacon_timer_expired` sets. -/
def createBeaconPdu : Pdu where
  basic := ⟨if r.mib.itsGnSecurity then .secured else .common, r.mib.itsGnDefaultPacketLifetime, 1⟩
  common := ⟨.any, .beacon, r.mib.itsGnDefaultTrafficClass, r.mib.itsGnIsMobile, 0, 1⟩
  extended := .beacon r.localPositionVector

def beaconControlInfo (mib : Mib) : ControlInfo := ⟨mib.itsGnIfType, 141, [], []⟩

variable (ctrl : ControlInfo)

/-- The `SignRequest` of `encap_packet`. -/
def signRequest (pdu : Pdu) (payload : ByteBuffer) : SignRequest where
  common := pdu.common
  extended := pdu.extended
  payload := payload
  itsAid := ctrl.itsAid
  permissions := ctrl.permissions
  contextInformation := ctrl.securityContext

/-! ### Forwarding an own GBC packet -/

inductive NextHop
  | transmit (destination : MacAddress)
  | buffer
  | discard
deriving DecidableEq, Repr

def hasNeighbours : Bool := r.locationTable.any fun e => decide (r.runtime.now < e.isNeighbour)

/-- The loop of `greedy_forwarding` over the neighbours: the least distance
so far and the address of its station. -/
def mostForward (env : Environment) (now : TimePoint) (dest : GeodeticPosition) :
    List LocationTableEntry → ℚ × MacAddress → ℚ × MacAddress
  | [], best => best
  | e :: es, best =>
    match decide (now < e.isNeighbour), e.positionVector with
    | true, some v =>
      let dist := env.distance dest v.position
      mostForward env now dest es (if dist < best.1 then (dist, v.gnAddr.mid) else best)
    | _, _ => mostForward env now dest es best

variable (p : PendingPacket)

/-- Into `m_bc_forward_buffer`; what `push` returns is not looked at. -/
def store : Router S :=
  { r with bcForwardBuffer := (r.bcForwardBuffer.push p r.runtime.now).2 }

def greedyForwarding (r : Router S) (p : PendingPacket) (ctrl : ControlInfo) (area : Area) :
    NextHop × Router S :=
  let own := env.distance area.position r.localPositionVector.position
  let mfr := mostForward env r.runtime.now area.position r.locationTable (own, Vector.replicate 6 0)
  if mfr.1 < own then (.transmit mfr.2, r)
  else if p.pdu.common.trafficClass.storeCarryForward then (.buffer, r.store { p with action := .greedy ctrl })
  else (.transmit broadcastMacAddress, r)

/-- `forwarding_algorithm_selection` without a link layer, that is, for a packet of this station.
-/
def forwardingAlgorithmSelection (r : Router S) (p : PendingPacket) (ctrl : ControlInfo)
    (area : Area) : NextHop × Router S :=
  if env.insideOrAtBorder area r.localPositionVector.position then
    match r.mib.itsGnAreaForwardingAlgorithm with
    | .unspecified | .simple => (.transmit broadcastMacAddress, r)
    | .cbf => (.transmit broadcastMacAddress, r)
    | .advanced => (.transmit broadcastMacAddress, r)
  else
    match r.mib.itsGnNonAreaForwardingAlgorithm with
    | .unspecified | .greedy => r.greedyForwarding env p ctrl area
    | .cbf => (.transmit broadcastMacAddress, r)

/-! ### Repetition, position and address -/

/-- `Repeater::add`. -/
def addRepetition (req : DataRequest) (payload : ByteBuffer) : Router S :=
  match req.repetition with
  | none => r
  | some rep =>
    if rep.hasFurtherRepetition then
      { r with
        runtime := r.runtime.schedule (r.runtime.now + clockCast rep.interval) (.repetition r.nextRepetition)
          (some .repeater)
        repetitions := (r.nextRepetition, req, payload) :: r.repetitions
        nextRepetition := r.nextRepetition + 1 }
    else r

/-- The part of a `PositionFix` the router reads. -/
structure PositionFix where
  timestamp : TimePoint
  latitude : ℚ
  longitude : ℚ
  speed : ℚ
  course : ℚ
  semiMajor : ℚ
deriving DecidableEq, Repr

def sampleFix : PositionFix := ⟨0, 0, 0, 0, 0, 0⟩

/-- `update_position`; the angles of a position vector are in tenths of a
microdegree, its speed in hundredths of a metre per second. -/
def updatePosition (fix : PositionFix) : Router S :=
  { r with
    localPositionVector := { r.localPositionVector with
      timestamp := timestamp r.runtime.now
      latitude := truncate (fix.latitude * 10000000)
      longitude := truncate (fix.longitude * 10000000)
      speed := if r.mib.itsGnIsMobile then (truncate (fix.speed * 100)).toNat % 2 ^ 15 else 0
      heading := if r.mib.itsGnIsMobile then (truncate (fix.course * 10)).toNat else 0
      positionAccuracyIndicator := decide (fix.semiMajor * 2 < r.mib.itsGnPaiInterval) } }

def setAddress (addr : Address) : Router S :=
  { r with localPositionVector := { r.localPositionVector with gnAddr := addr } }

/-! ### Transmission -/

variable [SecurityEntity S]

/-- `encap_packet`: the PDU with the secured message, which has taken in the
payload; none without a security entity or when it refuses. -/
def encapPacket (pdu : Pdu) (payload : ByteBuffer) : Option Pdu × Router S :=
  match r.securityEntity with
  | none => (none, r)
  | some e =>
    let confirm := SecurityEntity.encapsulatePacket e (signRequest ctrl pdu payload)
    (confirm.1.map fun m => { pdu with secured := some m }, { r with securityEntity := some confirm.2 })

/-- Encapsulation if security is on, then `pass_down`; the media-dependent procedures are empty.
The flag says whether the packet went down. -/
def secureAndPassDown (destination : MacAddress) (pdu : Pdu) (payload : ByteBuffer)
    (origin : Origin) : Bool × Router S :=
  if r.mib.itsGnSecurity then
    match r.encapPacket ctrl pdu payload with
    | (none, r') => (false, r')
    | (some pdu', r') => (true, r'.passDown destination pdu.common.trafficClass.profile pdu' [] origin)
  else (true, r.passDown destination pdu.common.trafficClass.profile pdu payload origin)

/-- `transmit` of an SHB request; the beacon timer is reset once the packet is down. -/
def transmitShb (r : Router S) (p : PendingPacket) (ctrl : ControlInfo) : Router S :=
  match r.secureAndPassDown ctrl broadcastMacAddress (r.updatedPdu p.pdu) p.payload (.request p.number) with
  | (false, r') => r'
  | (true, r') => r'.resetBeaconTimer env

def transmitGbc (ctrl : ControlInfo) (mac : MacAddress) : Router S :=
  (r.secureAndPassDown ctrl mac (r.updatedPdu p.pdu) p.payload (.request p.number)).2

/-- `NextHop::process`. -/
def processNextHop (ctrl : ControlInfo) : NextHop × Router S → Router S
  | (.transmit mac, r) => r.transmitGbc p ctrl mac
  | (.buffer, r) => r
  | (.discard, r) => r

/-- `PendingPacket::process`. -/
def process (r : Router S) (p : PendingPacket) : Router S :=
  match p.action, p.pdu.extended with
  | .shb ctrl, _ => r.transmitShb env p ctrl
  | .gbc ctrl, .gbc _ _ area => processNextHop p ctrl (r.forwardingAlgorithmSelection env p ctrl area)
  | .greedy ctrl, .gbc _ _ area => processNextHop p ctrl (r.greedyForwarding env p ctrl area)
  -- only GBC packets carry these two
  | .gbc _, _ | .greedy _, _ => r
  | .forward, _ =>
    let r' := { r with decisions := r.decisions + 1 }
    match env.forward r.decisions with
    | .transmit mac => r'.passDown mac .dp3 p.pdu p.payload .other
    | .store => r'.store p
    | .gone => r'

/-- Store and carry forwarding: without a neighbour the packet waits. -/
def submit (r : Router S) (p : PendingPacket) : Router S :=
  if p.pdu.common.trafficClass.storeCarryForward && !r.hasNeighbours then r.store p else r.process env p

/-- `flush_forwarding_buffers`; nothing is ever put into the unicast buffer. -/
def flushForwardingBuffers (r : Router S) : Router S :=
  let t := r.bcForwardBuffer.take r.runtime.now
  t.1.foldl (process env) { r with bcForwardBuffer := t.2 }

/-! ### Requests -/

/-- `request(const ShbDataRequest&)`. -/
def requestShb (r : Router S) (req : DataRequest) (payload : ByteBuffer) : ResultCode × Router S :=
  let result := (ResultCode.accepted.replace (validateDataRequest req r.mib)).replace (validatePayload payload r.mib)
  if result = .accepted then
    let pdu := createPdu r.mib req payload .tsbSingleHop 1 (.shb r.localPositionVector)
    let r' := { r.addRepetition req payload with nextNumber := r.nextNumber + 1 }
    (result, r'.submit env ⟨pdu, payload, .shb req.controlInfo, r.nextNumber⟩)
  else (result, r)

/-- `request(const GbcDataRequest&)`. -/
def requestGbc (r : Router S) (req : DataRequest) (area : Area) (payload : ByteBuffer) :
    ResultCode × Router S :=
  let result := (ResultCode.accepted.replace (validateAreaRequest env.areaSize req area r.mib)).replace
    (validatePayload payload r.mib)
  if result = .accepted then
    let pdu := createPdu r.mib req payload (gbcHeaderType area) req.maxHopLimit
      (.gbc r.localSequenceNumber r.localPositionVector area)
    let r' := { r.addRepetition req payload with
      nextNumber := r.nextNumber + 1
      localSequenceNumber := r.localSequenceNumber + 1 }
    (result, r'.submit env ⟨pdu, payload, .gbc req.controlInfo, r.nextNumber⟩)
  else (result, r)

/-- `request` of either kind. -/
def request (r : Router S) (req : DataRequest) (payload : ByteBuffer) : ResultCode × Router S :=
  match req.destination with
  | none => r.requestShb env req payload
  | some area => r.requestGbc env req area payload

/-- `Repeater::trigger`: again, with what is left of the repetition after this turn and after the
delay of its callback. -/
def triggerRepetition (r : Router S) (number : ℕ) (invocation : TimePoint) : Router S :=
  match r.repetitions.lookup number with
  | none => r
  | some (req, payload) =>
    let rep := req.repetition.map fun p =>
      let p' := p.decrementByOne
      { p' with maximum := p'.maximum - ofClock (r.runtime.now - invocation) }
    let r' := (r.request env { req with repetition := rep.filter (·.hasFurtherRepetition) } payload).2
    { r' with repetitions := r'.repetitions.filter (·.1 ≠ number) }

/-! ### Beacons -/

def onBeaconTimerExpired (r : Router S) : Router S :=
  if r.mib.vanetzaDisableBeaconing then r
  else if r.localPositionVector.timestamp = 0 then r.resetBeaconTimer env
  else
    match r.secureAndPassDown (beaconControlInfo r.mib) broadcastMacAddress r.createBeaconPdu [] .beacon with
    -- stop because encapsulation failed
    | (false, r') => r'
    | (true, r') => r'.resetBeaconTimer env

/-! ### The surroundings -/

def detectDuplicateAddress (r : Router S) (source : Address) (sender : MacAddress) : Router S :=
  let own := r.localPositionVector.gnAddr
  if r.mib.AddressTaken own source sender then
    { r with
      draws := r.draws + 1
      localPositionVector := { r.localPositionVector with gnAddr := { own with mid := env.randomMacAddress r.draws } } }
  else r

/-- What a packet leaves behind: the location table before and after its extended header, the
addresses to check, and the copy to be forwarded. -/
structure Reception where
  dropped : List LocationTableEntry
  checked : Option (Address × MacAddress)
  updated : List LocationTableEntry
  copy : Option (Pdu × ByteBuffer)

/-- `indicate_common` from the location table on. -/
def indicate (r : Router S) (x : Reception) : Router S :=
  let r' := flushForwardingBuffers env { r with locationTable := x.dropped }
  let r' := x.checked.elim r' fun c => r'.detectDuplicateAddress env c.1 c.2
  let r' := { r' with locationTable := x.updated }
  match x.copy with
  | none => r'
  | some (pdu, payload) => r'.submit env ⟨pdu, payload, .forward, 0⟩

end Router
end VanetzaIdf.Geonet
