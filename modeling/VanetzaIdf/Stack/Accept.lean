/-
# What becomes of an accepted request

The router confirms a request from its validation alone. The security entity may
refuse to sign the packet, or the buffer may have no room for it. `Fate` lists what
can become of it during the call (`request_fate`, `accepted_fate`).
-/
import VanetzaIdf.Stack.Steps

namespace VanetzaIdf.Stack

open Lib Geonet Router Security

variable {env : Environment} {cfg : StackConfig} {r r' : Router Entity} {n : ℕ} {payload : ByteBuffer}

/-! ### Fates -/

/-- How often the router's security entity has refused to sign. -/
def refusals (r : Router Entity) : UInt32 := (r.securityEntity.map (·.stats.refusals)).getD 0

/-- The packet with number `n` went down signed, and nothing else happened. -/
structure Signs (r : Router Entity) (n : ℕ) (payload : ByteBuffer) (r' : Router Entity) (d : DownRequest) : Prop where
  requests : r'.requests = d :: r.requests
  origin : d.origin = .request n
  secured : ∃ m, d.pdu.secured = some m ∧ m.request.payload = payload
  buffer : r'.bcForwardBuffer = r.bcForwardBuffer
  refusals : refusals r' = refusals r

/-- What became of packet `n` with this payload between two states of the router. -/
inductive Fate (cfg : StackConfig) (r : Router Entity) (n : ℕ) (payload : ByteBuffer) (r' : Router Entity) : Prop
  /-- It was handed to the access layer. -/
  | handed (d : DownRequest) : Signs r n payload r' d → validate cfg d = .accepted → Fate cfg r n payload r'
  /-- It was signed, but is no valid request to the access layer; that is reported. -/
  | reported (d : DownRequest) : Signs r n payload r' d → validate cfg d ≠ .accepted → Fate cfg r n payload r'
  | stored (kept : List (Expiry × PendingPacket)) (x : Expiry × PendingPacket) : r'.requests = r.requests →
      r'.bcForwardBuffer.nodes = kept ++ [x] → kept.Sublist r.bcForwardBuffer.nodes → x.2.number = n →
      x.2.payload = payload → refusals r' = refusals r → Fate cfg r n payload r'
  | unsigned (e : Entity) : r.securityEntity = some e → e.Unable → r'.requests = r.requests →
      r'.bcForwardBuffer = r.bcForwardBuffer → refusals r' = refusals r + 1 → Fate cfg r n payload r'
  | noRoom (p : PendingPacket) : p.number = n → p.payload = payload →
      (r.bcForwardBuffer.push p r.runtime.now).1 = false →
      (r.bcForwardBuffer.Wf → r.bcForwardBuffer.capacity < p.length) → r'.requests = r.requests →
      r'.bcForwardBuffer.nodes.Sublist r.bcForwardBuffer.nodes → refusals r' = refusals r → Fate cfg r n payload r'

theorem Signs.fate {d : DownRequest} (h : Signs r n payload r' d) : Fate cfg r n payload r' := by
  by_cases hv : validate cfg d = .accepted
  · exact .handed d h hv
  · exact .reported d h hv

/-- Two states of a router that differ in nothing a fate tells. -/
structure Alike (r r' : Router Entity) : Prop where
  requests : r'.requests = r.requests
  buffer : r'.bcForwardBuffer = r.bcForwardBuffer
  entity : r'.securityEntity = r.securityEntity
  now : r'.runtime.now = r.runtime.now

theorem Alike.refusals (h : Alike r r') : Stack.refusals r' = Stack.refusals r := by
  unfold Stack.refusals
  rw [h.entity]

theorem alike_reset (r : Router Entity) : Alike r (r.resetBeaconTimer env) :=
  ⟨rfl, rfl, rfl, ManualRuntime.cancel_now _ _⟩

theorem Fate.congr {r₁ r₁' : Router Entity} (h : Fate cfg r₁ n payload r₁') (hl : Alike r r₁) (hr : Alike r₁' r') :
    Fate cfg r n payload r' := by
  have hsigns : ∀ {d}, Signs r₁ n payload r₁' d → Signs r n payload r' d := fun hs =>
    ⟨by rw [hr.requests, hs.requests, hl.requests], hs.origin, hs.secured, by rw [hr.buffer, hs.buffer, hl.buffer],
      by rw [hr.refusals, hs.refusals, hl.refusals]⟩
  cases h with
  | handed d hs hv => exact .handed d (hsigns hs) hv
  | reported d hs hv => exact .reported d (hsigns hs) hv
  | stored kept x hq hn hk hx hp hf =>
    rw [hl.requests] at hq
    rw [hl.buffer] at hk
    rw [hl.refusals] at hf
    exact .stored kept x (hr.requests.trans hq) (by rw [hr.buffer, hn]) hk hx hp (hr.refusals.trans hf)
  | unsigned e he hu hq hb hf =>
    rw [hl.requests] at hq
    rw [hl.buffer] at hb
    rw [hl.refusals] at hf
    exact .unsigned e (hl.entity ▸ he) hu (hr.requests.trans hq) (hr.buffer.trans hb) (hr.refusals.trans hf)
  | noRoom p hn hp hpush hlong hq hk hf =>
    rw [hl.requests] at hq
    rw [hl.buffer] at hk hlong hpush
    rw [hl.refusals] at hf
    rw [hl.now] at hpush
    exact .noRoom p hn hp hpush hlong (hr.requests.trans hq) (by rwa [hr.buffer]) (hr.refusals.trans hf)

/-! ### One packet -/

theorem transmission_fate {e : Entity} (hs : r.mib.itsGnSecurity = true) (he : r.securityEntity = some e)
    (ctrl : ControlInfo) (mac : MacAddress) (pdu : Pdu) :
    Fate cfg r n payload (r.secureAndPassDown ctrl mac pdu payload (.request n)).2 := by
  have h := r.secureAndPassDown_spec ctrl mac pdu payload (.request n)
  generalize r.secureAndPassDown ctrl mac pdu payload (.request n) = x at h
  cases h with
  | plain hoff => simp [hs] at hoff
  | missing _ hnone => simp [he] at hnone
  | refused e' _ he' hm =>
    refine .unsigned e' he' (Entity.encapsulatePacket_eq_none.mp hm) rfl rfl ?_
    simp only [refusals, he', Option.map_some, Option.getD_some]
    exact Entity.encapsulatePacket_none hm
  | signed e' m _ he' hm =>
    refine Signs.fate ⟨rfl, rfl, ⟨m, rfl, ?_⟩, rfl, ?_⟩
    · rw [(Entity.encapsulatePacket_some hm).2.1]
      rfl
    · simp only [refusals, passDown, he', Option.map_some, Option.getD_some]
      exact Entity.refusals_of_some hm

theorem store_fate (r : Router Entity) (p : PendingPacket) : Fate cfg r p.number p.payload (r.store p) := by
  obtain ⟨kept, hk, hn⟩ := r.bcForwardBuffer.push_nodes p r.runtime.now
  split_ifs at hn with hp
  · obtain ⟨l, hl⟩ := p.reduceLifetime_cases 0
    refine .stored kept _ rfl hn hk ?_ ?_ rfl
    · rw [hl]
      rfl
    · rw [hl]
      rfl
  · rw [List.append_nil] at hn
    refine .noRoom p rfl rfl (by simpa using hp) (fun hw => ?_) rfl ?_ rfl
    · by_contra hle
      exact hp (hw.push_fits (not_lt.mp hle))
    · show (r.bcForwardBuffer.push p r.runtime.now).2.nodes.Sublist _
      rwa [hn]

section Secured

variable {e : Entity}

theorem transmitShb_fate (hs : r.mib.itsGnSecurity = true) (he : r.securityEntity = some e) (p : PendingPacket)
    (ctrl : ControlInfo) : Fate cfg r p.number p.payload (r.transmitShb env p ctrl) := by
  have h : Fate cfg r p.number p.payload
      (r.secureAndPassDown ctrl broadcastMacAddress (r.updatedPdu p.pdu) p.payload (.request p.number)).2 :=
    transmission_fate hs he ctrl broadcastMacAddress _
  rw [transmitShb_eq]
  unfold resetIfSent
  split_ifs
  · exact h.congr ⟨rfl, rfl, rfl, rfl⟩ (alike_reset _)
  · exact h

theorem transmitGbc_fate (hs : r.mib.itsGnSecurity = true) (he : r.securityEntity = some e) (p : PendingPacket)
    (ctrl : ControlInfo) (mac : MacAddress) : Fate cfg r p.number p.payload (r.transmitGbc p ctrl mac) :=
  transmission_fate hs he ctrl mac _

theorem selection_fate (hs : r.mib.itsGnSecurity = true) (he : r.securityEntity = some e) (p : PendingPacket)
    (ctrl : ControlInfo) (area : Area) :
    Fate cfg r p.number p.payload (processNextHop p ctrl (r.forwardingAlgorithmSelection env p ctrl area)) := by
  have hgreedy : Fate cfg r p.number p.payload (processNextHop p ctrl (r.greedyForwarding env p ctrl area)) := by
    rcases greedyForwarding_cases env r p ctrl area with ⟨mac, h⟩ | h
    · rw [h]
      exact transmitGbc_fate hs he p ctrl mac
    · rw [h]
      exact store_fate r { p with action := .greedy ctrl }
  unfold forwardingAlgorithmSelection
  split_ifs
  · split <;> exact transmitGbc_fate hs he p ctrl _
  · split
    · exact hgreedy
    · exact hgreedy
    · exact transmitGbc_fate hs he p ctrl _

/-- A packet of an own request, not a forwarded one. -/
def Requested (p : PendingPacket) : Prop :=
  ∃ ctrl, p.action = .shb ctrl ∨ p.action = .gbc ctrl ∧ ∃ seq v area, p.pdu.extended = .gbc seq v area

theorem process_fate (hs : r.mib.itsGnSecurity = true) (he : r.securityEntity = some e) {p : PendingPacket}
    (hp : Requested p) : Fate cfg r p.number p.payload (r.process env p) := by
  unfold process
  obtain ⟨ctrl, ha | ⟨ha, seq, v, area, hx⟩⟩ := hp
  · simp only [ha]
    exact transmitShb_fate hs he p ctrl
  · simp only [ha, hx]
    exact selection_fate hs he p ctrl area

theorem submit_fate (hs : r.mib.itsGnSecurity = true) (he : r.securityEntity = some e) {p : PendingPacket}
    (hp : Requested p) : Fate cfg r p.number p.payload (r.submit env p) := by
  unfold submit
  split_ifs
  · exact store_fate r p
  · exact process_fate hs he hp

/-! ### One request -/

def confirmation (env : Environment) (mib : Mib) (req : DataRequest) (payload : ByteBuffer) : ResultCode :=
  (ResultCode.accepted.replace
    (match req.destination with
      | none => validateDataRequest req mib
      | some area => validateAreaRequest env.areaSize req area mib)).replace (validatePayload payload mib)

theorem request_confirmation (r : Router Entity) (req : DataRequest) (payload : ByteBuffer) :
    (r.request env req payload).1 = confirmation env r.mib req payload := by
  unfold Router.request confirmation
  cases req.destination with
  | none =>
    unfold requestShb
    dsimp only
    split_ifs <;> rfl
  | some area =>
    unfold requestGbc
    dsimp only
    split_ifs <;> rfl

theorem alike_repetition (r : Router Entity) (req : DataRequest) (payload : ByteBuffer) :
    Alike r (r.addRepetition req payload) ∧ (r.addRepetition req payload).mib = r.mib := by
  rcases r.addRepetition_cases req payload with h | ⟨tp, reps, h⟩
  · rw [h]
    exact ⟨⟨rfl, rfl, rfl, rfl⟩, rfl⟩
  · rw [h]
    exact ⟨⟨rfl, rfl, rfl, rfl⟩, rfl⟩

theorem request_fate (hs : r.mib.itsGnSecurity = true) (he : r.securityEntity = some e) {req : DataRequest}
    (h : (r.request env req payload).1 = .accepted) :
    Fate cfg r r.nextNumber payload (r.request env req payload).2 := by
  obtain ⟨halike, hmib⟩ := alike_repetition r req payload
  -- the repetition is set up and the numbers are taken before the packet is submitted
  have hsubmit : ∀ {r₁ : Router Entity} {p : PendingPacket}, Alike r r₁ → r₁.mib = r.mib → Requested p →
      Fate cfg r p.number p.payload (r₁.submit env p) := fun hl hm hp =>
    (submit_fate (hm ▸ hs) (hl.entity.trans he) hp).congr hl ⟨rfl, rfl, rfl, rfl⟩
  rw [request_confirmation] at h
  unfold confirmation at h
  unfold Router.request
  cases hd : req.destination with
  | none =>
    simp only [hd] at h ⊢
    simp only [requestShb, if_pos h]
    refine hsubmit (p := ⟨_, payload, _, r.nextNumber⟩) ?_ hmib ⟨_, .inl rfl⟩
    exact ⟨halike.requests, halike.buffer, halike.entity, halike.now⟩
  | some area =>
    simp only [hd] at h ⊢
    simp only [requestGbc, if_pos h]
    refine hsubmit (p := ⟨_, payload, _, r.nextNumber⟩) ?_ hmib ⟨_, .inr ⟨rfl, _, _, _, rfl⟩⟩
    exact ⟨halike.requests, halike.buffer, halike.entity, halike.now⟩

end Secured

/-! ### Requests of the stack -/

variable {s t : State}

/-- What the checks of a request read of the station. -/
structure Agrees (s t : State) : Prop where
  cfg : t.cfg = s.cfg
  mib : t.router.mib = s.router.mib
  positionValid : t.positionValid = s.positionValid
  changePending : t.changePending = s.changePending
  entity : t.router.securityEntity.isNone = s.router.securityEntity.isNone

theorem Agrees.check (h : Agrees s t) (req : GnRequest) : t.check req = s.check req := by
  unfold State.check
  rw [h.mib, h.entity, h.changePending, h.positionValid]

theorem Agrees.submit (h : Agrees s t) (req : GnRequest) (proto : UpperProtocol) (payload : ByteBuffer) :
    (t.submit env req proto payload).1 = (s.submit env req proto payload).1 := by
  unfold State.submit
  dsimp only
  rw [request_confirmation, request_confirmation, h.mib]
  show (if confirmation env t.router.mib _ _ = _ then _ else _) =
    (if confirmation env s.router.mib _ _ = _ then _ else _)
  rw [h.mib]

theorem Agrees.request (h : Agrees s t) (req : BtpRequest) : (t.request env req).1 = (s.request env req).1 := by
  unfold State.request
  rw [h.mib, h.cfg, h.check]
  split_ifs
  · rfl
  · rfl
  · rfl
  · rfl
  · split
    · rfl
    · exact h.submit _ _ _

theorem Agrees.requestGn (h : Agrees s t) (req : GnRequest) : (t.requestGn env req).1 = (s.requestGn env req).1 := by
  unfold State.requestGn
  rw [h.mib, h.check]
  split_ifs
  · rfl
  · rfl
  · split
    · rfl
    · exact h.submit _ _ _

theorem entity_of_check {req : GnRequest} (hs : s.router.mib.itsGnSecurity = true) (h : s.check req = none) :
    ∃ e, s.load.securityEntity = some e := by
  cases he : s.router.securityEntity with
  | none => simp [State.check, hs, he] at h
  | some e =>
    refine ⟨{ e with pool := s.manager.pool, changePending := s.manager.round.isSome }, ?_⟩
    simp [State.load, he]

theorem check_ne_accepted (req : GnRequest) : s.check req ≠ some .accepted := by
  unfold State.check
  split_ifs
  · simp
  · simp
  · simp
  · simp
  · simp
  · split <;> simp

theorem submit_accepted {req : GnRequest} {proto : UpperProtocol} (hs : s.router.mib.itsGnSecurity = true)
    (hc : s.check req = none) (h : (s.submit env req proto payload).1 = .accepted) :
    Fate s.cfg s.load s.router.nextNumber payload (s.submit env req proto payload).2.router := by
  obtain ⟨e, he⟩ := entity_of_check hs hc
  unfold State.submit at h ⊢
  dsimp only at h ⊢
  split_ifs at h with hcode
  exact request_fate (r := s.load) hs he hcode

/-- **Acceptance says that the request is valid**, and no more: the packet was sent, or found
invalid and reported, or waits, or was refused a signature, which is counted, or the buffer has no
room for it. -/
theorem accepted_fate (env : Environment) (s : State) (hs : s.router.mib.itsGnSecurity = true) :
    (∀ req : BtpRequest, (s.request env req).1 = .accepted →
      Fate s.cfg s.load s.router.nextNumber (State.btpPayload req) (s.request env req).2.router) ∧
    (∀ req : GnRequest, (s.requestGn env req).1 = .accepted →
      Fate s.cfg s.load s.router.nextNumber req.data (s.requestGn env req).2.router) ∧
    ∀ t, Agrees s t → (∀ req, (t.request env req).1 = (s.request env req).1) ∧
      ∀ req, (t.requestGn env req).1 = (s.requestGn env req).1 := by
  refine ⟨fun req h => ?_, fun req h => ?_, fun t ht => ⟨ht.request, ht.requestGn⟩⟩
  · unfold State.request at h ⊢
    split_ifs at h ⊢
    cases hc : s.check req.toGnRequest with
    | some result =>
      simp only [hc] at h
      exact absurd (h ▸ hc) (check_ne_accepted _)
    | none =>
      simp only [hc] at h ⊢
      exact submit_accepted hs hc h
  · unfold State.requestGn at h ⊢
    split_ifs at h ⊢
    cases hc : s.check req with
    | some result =>
      simp only [hc] at h
      exact absurd (h ▸ hc) (check_ne_accepted _)
    | none =>
      simp only [hc] at h ⊢
      exact submit_accepted hs hc h

def sampleReady (pool : CertificatePool) : State := ((sampleStation sampleEnvironment pool).updatePosition sampleFix).2

theorem accepted_fate_sample :
    ((sampleReady (samplePool .years)).request sampleEnvironment {}).1 = .accepted ∧
      Fate {} (sampleReady (samplePool .years)).load 0 [0, 0, 0, 0]
        ((sampleReady (samplePool .years)).request sampleEnvironment {}).2.router := by
  have haccepted : ((sampleReady (samplePool .years)).request sampleEnvironment {}).1 = .accepted := by decide +kernel
  exact ⟨haccepted, (accepted_fate sampleEnvironment _ (by decide +kernel)).1 {} haccepted⟩

theorem accepted_without_packet : ∃ s, Run (step sampleEnvironment) Anything (sampleStation sampleEnvironment {}) s ∧
    s.router.mib.itsGnSecurity = true ∧ (s.request sampleEnvironment {}).1 = .accepted ∧
    (s.request sampleEnvironment {}).2.router.requests = [] ∧
    (s.request sampleEnvironment {}).2.router.bcForwardBuffer.nodes = [] := by
  obtain ⟨s, hs, hp⟩ := exists_run_of_exec (f := step sampleEnvironment) (C := Anything)
    (s := sampleStation sampleEnvironment {})
    (p := fun s => decide (s.router.mib.itsGnSecurity = true ∧ (s.request sampleEnvironment {}).1 = .accepted ∧
      (s.request sampleEnvironment {}).2.router.requests = [] ∧
      (s.request sampleEnvironment {}).2.router.bcForwardBuffer.nodes = []))
    (l := [.updatePosition sampleFix]) (by decide +kernel)
  exact ⟨s, hs, of_decide_eq_true hp⟩

end VanetzaIdf.Stack
