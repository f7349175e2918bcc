/-
# The stack of a station

`Stack` of `ports/esp_idf/src/stack.cpp` over the router, with a security entity
whose identity manager is the stack's identifier-change service. The runtime is
shared and the pool belongs to the manager: `load` hands them to the router,
`save` takes the runtime back. The manager's step and the hook (`on_id_change`) are
one step (`managerStep`). Handle and responder of the hook are the stack's own
(`Permitted`).
-/
import VanetzaIdf.Identity.Manager
import VanetzaIdf.Geonet.Router
import VanetzaIdf.SecurityEntity

namespace VanetzaIdf.Stack

open Geonet

/-! ### Requests -/

inductive TransportType
  | guc | gac | gbc | tsb | shb
deriving DecidableEq, Repr

/-- `geonet::DestinationVariant`. -/
inductive Destination
  | null
  | address (a : Address)
  | area (a : Area)
deriving DecidableEq, Repr

structure GnRequest where
  transport : TransportType := .shb
  destination : Destination := .null
  communicationProfile : InterfaceType := .itsG5
  trafficClass : TrafficClass := {}
  maximumLifetime : Option Lifetime := none
  maximumHopLimit : Option ℕ := none
  repetition : Option Repetition := none
  itsAid : ℕ := 0
  permissions : ByteBuffer := []
  securityContext : ByteBuffer := []
  data : ByteBuffer := []
deriving DecidableEq, Repr

inductive BtpType
  | a | b
deriving DecidableEq, Repr

/-- `BtpRequest`: the fields of a `GnRequest`, the ports and the profile. -/
structure BtpRequest extends GnRequest where
  type : BtpType := .b
  sourcePort : Option UInt16 := none
  destinationPort : UInt16 := 0
  destinationPortInfo : Option UInt16 := none
  securityProfile : Option ℕ := none
deriving DecidableEq, Repr

/-! ### The access layer -/

/-- `StackConfig` but for the MIB, which the router refers to; of the radio
parameters `validate` reads whether the power is finite and the bandwidth. -/
structure StackConfig where
  maximumGnpdu : ℕ := 4096
  securityProfile : ℕ := 0
  transmitPowerFinite : Bool := true
  bandwidthMhz : ℕ := 10
deriving DecidableEq, Repr

/-- `user_priority` of the access category of a DCC profile. -/
def priority : DccProfile → ℕ
  | .dp0 => 7
  | .dp1 => 5
  | .dp2 => 3
  | .dp3 => 1

/-- `validate` of the request the stack makes of a packet for the access layer. -/
def validate (cfg : StackConfig) (d : DownRequest) : Result :=
  let size := d.pdu.length + d.payload.length
  if size = 0 ∨ cfg.maximumGnpdu < size ∨ 7 < priority d.dccProfile ∨ cfg.transmitPowerFinite = false ∨
      cfg.bandwidthMhz = 0 then .invalidArgument
  else .accepted

/-! ### The stack -/

/-- `Stack::Impl`, with the identity manager of its security entity. -/
structure State where
  cfg : StackConfig
  manager : IdentityManager.State
  router : Router Security.Entity
  positionValid : Bool := false
  changePending : Bool := false
  subscription : Option SubscriptionHandle := none

namespace State

/-- The router, with the runtime, the pool and the pending change as they are now. -/
def load (s : State) : Router Security.Entity :=
  { s.router with
    runtime := s.manager.runtime
    securityEntity := s.router.securityEntity.map fun e =>
      { e with pool := s.manager.pool, changePending := s.manager.round.isSome } }

def save (s : State) (r : Router Security.Entity) : State :=
  { s with router := r, manager := { s.manager with runtime := r.runtime } }

end State

/-- The MID of an identifier: its six last octets, individual and locally
administered. -/
def midOf (id : Identifier) : MacAddress :=
  #v[(id[2] &&& 0xfe) ||| 0x02, id[3], id[4], id[5], id[6], id[7]]

namespace State

def applyIdentifier (s : State) (id : Identifier) : State :=
  let addr := { s.router.mib.itsGnLocalGnAddr with mid := midOf id }
  { s with
    router := Router.setAddress { s.router with mib := { s.router.mib with itsGnLocalGnAddr := addr } } addr }

/-- `responder->respond(true)`. -/
def respond (s : State) (command : IdChangeCommand) (r : IdentityManager.Responder) : Option State :=
  (IdentityManager.step s.manager (.respond command r true)).map fun m => { s with manager := m }

def onIdChange (env : Environment) (s : State) (command : IdChangeCommand) (id : Identifier)
    (r : IdentityManager.Responder) : Option State :=
  match command with
  | .prepare =>
    let s' := { s with changePending := true }
    (s'.save (s'.load.flushForwardingBuffers env)).respond .prepare r
  | .commit => { s.applyIdentifier id with changePending := false }.respond .commit r
  | .abort => some { s with changePending := false }
  | .dereg => some { s with changePending := false, subscription := none }

/-- A step of the manager. When it calls the stack's hook, the hook runs and
returns. -/
def managerStep (env : Environment) (s : State) (e : IdentityManager.Event) : Option State :=
  match IdentityManager.step s.manager e with
  | none => none
  | some m =>
    match m.control, m.frames with
    | .user, .hook n h :: _ =>
      if s.subscription = some h then
        ({ s with manager := m }.onIdChange env n.command n.id ⟨n.subject, h⟩).bind fun t =>
          (IdentityManager.step t.manager .ret).map fun m => { t with manager := m }
      else some { s with manager := m }
    | _, _ => some { s with manager := m }

/-- The stack keeps its handle and its responder to itself. -/
def Permitted (s : State) : IdentityManager.Event → Prop
  | .unsubscribe h => s.subscription ≠ some h
  | .respond _ r _ => s.subscription ≠ some r.handle
  | _ => True

instance (s : State) : ∀ e, Decidable (s.Permitted e)
  | .unsubscribe h => inferInstanceAs (Decidable (s.subscription ≠ some h))
  | .respond _ r _ => inferInstanceAs (Decidable (s.subscription ≠ some r.handle))
  | .subscribe _ | .trigger | .lock _ | .unlock _ | .setResponseTimeout _ | .onCommitted _ | .ret | .tick _
  | .fire | .add _ _ _ | .prune _ | .proceed => inferInstanceAs (Decidable True)

end State

variable (env : Environment)

/-- The constructor: a stack over a manager in any state user code may find
it in. -/
def init (cfg : StackConfig) (mib : Mib) (m : IdentityManager.State) (e : Security.Entity) : State :=
  let r := (Router.init env mib m.runtime (some e)).setAddress mib.itsGnLocalGnAddr
  let s : State := { cfg := cfg, manager := { m with runtime := r.runtime }, router := r }
  if mib.itsGnLocalAddrConfMethod = .anonymous then
    let sub := s.manager.subscribe []
    let s := { s with manager := sub.2, subscription := some sub.1 }
    if m.currentIdentifier ≠ Identifier.none then s.applyIdentifier m.currentIdentifier else s
  else s

namespace State

/-! ### Calls of the stack -/

variable (s : State)

def check (req : GnRequest) : Option Result :=
  if s.router.mib.itsGnSecurity && s.router.securityEntity.isNone then some .securityUnavailable
  else if s.changePending then some .identityChangePending
  else if !s.positionValid then some .rejected
  else if req.maximumHopLimit.any fun n => n = 0 || 255 < n then some .invalidArgument
  else if req.transport ≠ .shb ∧ req.transport ≠ .gbc then some .unsupported
  else
    match req.transport, req.destination with
    | .gbc, .area _ => none
    | .gbc, _ => some .invalidArgument
    | _, .null => none
    | _, _ => some .invalidArgument

def dataRequest (mib : Mib) (req : GnRequest) (upperProtocol : UpperProtocol) : DataRequest where
  upperProtocol := upperProtocol
  communicationProfile := req.communicationProfile
  itsAid := req.itsAid
  permissions := req.permissions
  securityContext := req.securityContext
  maximumLifetime := req.maximumLifetime.getD mib.itsGnDefaultPacketLifetime
  repetition := req.repetition
  maxHopLimit := (req.maximumHopLimit.map UInt8.ofNat).getD mib.itsGnDefaultHopLimit
  trafficClass := req.trafficClass
  destination :=
    match req.transport, req.destination with
    | .gbc, .area a => some a
    | _, _ => none

variable (env : Environment)

/-- The router is asked, and what it confirms is the result. -/
def submit (req : GnRequest) (upperProtocol : UpperProtocol) (payload : ByteBuffer) :
    Result × State :=
  let confirm := s.load.request env (dataRequest s.router.mib req upperProtocol) payload
  (if confirm.1 = .accepted then .accepted else .rejected, s.save confirm.2)

def unsupportedProfile (req : GnRequest) : Bool :=
  req.communicationProfile ≠ .itsG5 && req.communicationProfile ≠ .unspecified

/-- `request(GnRequest)`. -/
def requestGn (req : GnRequest) : Result × State :=
  if s.router.mib.itsGnMaxSduSize < req.data.length then (.resourceLimit, s)
  else if unsupportedProfile req then (.unsupported, s)
  else
    match s.check req with
    | some result => (result, s)
    | none => s.submit env req .unknown req.data

/-- A 16-bit field of a BTP header. -/
def octets (n : UInt16) : ByteBuffer := [(n >>> 8).toUInt8, n.toUInt8]

def btpPayload (req : BtpRequest) : ByteBuffer :=
  octets req.destinationPort ++
    octets (match req.type with
      | .a => req.sourcePort.getD 0
      | .b => req.destinationPortInfo.getD 0) ++ req.data

/-- `request(BtpRequest)`. -/
def request (req : BtpRequest) : Result × State :=
  if req.type = .a ∧ (req.sourcePort.isNone ∨ req.destinationPortInfo.isSome) ∨ req.type = .b ∧
    req.sourcePort.isSome then
    (.invalidArgument, s)
  else if s.router.mib.itsGnMaxSduSize - 4 < req.data.length then (.resourceLimit, s)
  else if unsupportedProfile req.toGnRequest then (.unsupported, s)
  else if req.securityProfile.any (· ≠ s.cfg.securityProfile) then (.unsupported, s)
  else
    match s.check req.toGnRequest with
    | some result => (result, s)
    | none =>
      s.submit env req.toGnRequest
        (match req.type with
          | .a => .btpA
          | .b => .btpB) (btpPayload req)

def updatePosition (fix : Router.PositionFix) : Result × State :=
  if fix.latitude < -90 ∨ 90 < fix.latitude ∨ fix.longitude < -180 ∨ 180 < fix.longitude ∨
      s.manager.runtime.now < fix.timestamp then (.invalidArgument, s)
  else (.accepted, { s.save (s.load.updatePosition fix) with positionValid := true })

def setAddress (addr : Address) : Result × State :=
  if s.router.mib.itsGnLocalAddrConfMethod ≠ .managed then (.unsupported, s)
  else if s.changePending then (.identityChangePending, s)
  else
    (.accepted, { s with
      router := Router.setAddress { s.router with mib := { s.router.mib with itsGnLocalGnAddr := addr } } addr })

def fireRouter : Option State :=
  match s.manager.runtime.pop with
  | none => none
  | some (c, rt) =>
    let r := { s.load with runtime := rt }
    match c.callback with
    | .beacon => some (s.save (r.onBeaconTimerExpired env))
    | .repetition n => some (s.save (r.triggerRepetition env n c.deadline))
    | .roundTimeout | .lockTimer => none

end State

/-! ### Steps -/

inductive Event
  /-- A step of the identity manager, of its user, its timers or its pool. -/
  | manager (e : IdentityManager.Event)
  | request (req : BtpRequest)
  | requestGn (req : GnRequest)
  | indicate (x : Router.Reception)
  | updatePosition (fix : Router.PositionFix)
  | setAddress (addr : Address)
  | fire

/-- A step of user code, which has the control. -/
def user (s : State) : Event → Option State
  | .manager _ => none
  | .request req => some (s.request env req).2
  | .requestGn req => some (s.requestGn env req).2
  | .indicate x => some (s.save (s.load.indicate env x))
  | .updatePosition fix => some (s.updatePosition fix).2
  | .setAddress addr => some (s.setAddress addr).2
  | .fire => s.fireRouter env

def step (s : State) (e : Event) : Option State :=
  match e with
  | .manager e => if s.Permitted e then s.managerStep env e else none
  | e => if s.manager.control = .user then user env s e else none

/-! ### A station for runs that are computed -/

/-- An anonymously addressed station with security on. -/
def sampleMib : Mib := { itsGnSecurity := true, itsGnLocalAddrConfMethod := .anonymous }

def sampleStation (pool : CertificatePool) : State :=
  init env {} sampleMib (IdentityManager.init pool 0) (Security.sampleEntity false)

end VanetzaIdf.Stack
