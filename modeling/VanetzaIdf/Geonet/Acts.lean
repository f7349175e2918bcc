/-
# What the router can do

Every operation of the router is a sequence of a few acts (`Act`), each with its
guard: it resets its beacon timer, sets up a repetition, asks the security
entity, hands a PDU over, stores a packet or empties the buffer. What an
operation keeps is proved by cases on one act (`Acts.invariant`).

The lists of an act are the numbers of own packets in the router's hand before
and after it: numbered or taken from the buffer, and not yet sent or stored.
-/
import VanetzaIdf.Geonet.Router
import Mathlib.Logic.Relation

namespace VanetzaIdf.Geonet.Router

variable {S : Type} {env : Environment} {H H' : List ℕ}

/-! ### Pieces of the operations -/

theorem addRepetition_cases (r : Router S) (req : DataRequest) (payload : ByteBuffer) :
    r.addRepetition req payload = r ∨ ∃ (tp : TimePoint) (reps : List (ℕ × DataRequest × ByteBuffer)),
      r.addRepetition req payload =
        { r with
          runtime := r.runtime.schedule tp (.repetition r.nextRepetition) (some .repeater)
          repetitions := reps
          nextRepetition := r.nextRepetition + 1 } := by
  unfold addRepetition
  split
  · exact .inl rfl
  · split_ifs
    · exact .inr ⟨_, _, rfl⟩
    · exact .inl rfl

variable {r r' : Router S} {c : ScheduledCallback Scope Callback} {p : PendingPacket} {n : ℕ} {pdu : Pdu}
  {o : Origin} {x : Bool × Router S}

theorem resetBeaconTimerIn_timers {d : Duration}
    (hc : c ∈ (r.resetBeaconTimerIn d).runtime.queue) (hb : c.callback ≠ .beacon) : c ∈ r.runtime.queue := by
  rcases ManualRuntime.mem_schedule.mp hc with rfl | hc
  · exact absurd rfl hb
  · exact (ManualRuntime.mem_cancel.mp hc).1

theorem init_frame (env : Environment) (mib : Mib) (rt : Runtime) (e : Option S) :
    (init env mib rt e).mib = mib ∧ (init env mib rt e).requests = [] ∧
      (init env mib rt e).bcForwardBuffer = { capacity := mib.itsGnBcForwardingPacketBufferSize * 1024 } := by
  unfold init
  dsimp only
  split_ifs <;> exact ⟨rfl, rfl, rfl⟩

theorem init_timers {mib : Mib} {rt : Runtime} {e : Option S}
    (hc : c ∈ (init env mib rt e).runtime.queue) (hb : c.callback ≠ .beacon) : c ∈ rt.queue := by
  unfold init at hc
  dsimp only at hc
  split_ifs at hc
  · exact hc
  · exact resetBeaconTimerIn_timers hc hb
  · exact resetBeaconTimerIn_timers hc hb

theorem greedyForwarding_cases (env : Environment) (r : Router S) (p : PendingPacket) (ctrl : ControlInfo)
    (area : Area) :
    (∃ mac, r.greedyForwarding env p ctrl area = (.transmit mac, r)) ∨
      r.greedyForwarding env p ctrl area = (.buffer, r.store { p with action := .greedy ctrl }) := by
  unfold greedyForwarding
  dsimp only
  split_ifs
  · exact .inl ⟨_, rfl⟩
  · exact .inr rfl
  · exact .inl ⟨_, rfl⟩

def numbersOf (l : List PendingPacket) : List ℕ := (l.filter (·.action.own)).map (·.number)

theorem numbersOf_own (h : p.action.own = true) (l : List PendingPacket) :
    numbersOf (p :: l) = p.number :: numbersOf l := by
  simp [numbersOf, h]

theorem numbersOf_other (h : p.action.own = false) (l : List PendingPacket) : numbersOf (p :: l) = numbersOf l := by
  simp [numbersOf, h]

theorem mem_numbersOf {l : List PendingPacket} : n ∈ numbersOf l ↔ ∃ p ∈ l, p.action.own = true ∧ p.number = n := by
  simp [numbersOf, and_assoc]

/-- What no operation of the router changes. -/
structure Keeps (r r' : Router S) : Prop where
  mib : r'.mib = r.mib
  position : r'.localPositionVector.position = r.localPositionVector.position
  address : r.mib.itsGnLocalAddrConfMethod ≠ .auto → r'.localPositionVector.gnAddr = r.localPositionVector.gnAddr
  now : r'.runtime.now = r.runtime.now
  timers : ∀ c ∈ r'.runtime.queue, c.callback ≠ .beacon → (∀ n, c.callback ≠ .repetition n) → c ∈ r.runtime.queue

theorem Keeps.of_runtime (hm : r'.mib = r.mib) (hp : r'.localPositionVector = r.localPositionVector)
    (hr : r'.runtime = r.runtime) : Keeps r r' :=
  ⟨hm, by rw [hp], fun _ => by rw [hp], by rw [hr], fun c hc _ _ => hr ▸ hc⟩

theorem Keeps.trans {r r' r'' : Router S} (h : Keeps r r') (h' : Keeps r' r'') : Keeps r r'' where
  mib := h'.mib.trans h.mib
  position := h'.position.trans h.position
  address ha := (h'.address (h.mib ▸ ha)).trans (h.address ha)
  now := h'.now.trans h.now
  timers c hc hb hr := h.timers c (h'.timers c hc hb hr) hb hr

/-! ### Acts -/

variable [SecurityEntity S]

open SecurityEntity

/-- It goes down plain if security is off. Else the security entity is missing, refuses, or signs
it. -/
inductive Transmission (r : Router S) (ctrl : ControlInfo) (mac : MacAddress) (pdu : Pdu) (payload : ByteBuffer)
    (o : Origin) : Bool × Router S → Prop
  | plain : r.mib.itsGnSecurity = false →
      Transmission r ctrl mac pdu payload o (true, r.passDown mac pdu.common.trafficClass.profile pdu payload o)
  | missing : r.mib.itsGnSecurity = true → r.securityEntity = none → Transmission r ctrl mac pdu payload o (false, r)
  | refused (e : S) : r.mib.itsGnSecurity = true → r.securityEntity = some e →
      (encapsulatePacket e (signRequest ctrl pdu payload)).1 = none →
      Transmission r ctrl mac pdu payload o
        (false, { r with securityEntity := some (encapsulatePacket e (signRequest ctrl pdu payload)).2 })
  | signed (e : S) (m : SecuredMessage) : r.mib.itsGnSecurity = true → r.securityEntity = some e →
      (encapsulatePacket e (signRequest ctrl pdu payload)).1 = some m →
      Transmission r ctrl mac pdu payload o
        (true, passDown { r with securityEntity := some (encapsulatePacket e (signRequest ctrl pdu payload)).2 } mac
          pdu.common.trafficClass.profile { pdu with secured := some m } [] o)

theorem secureAndPassDown_spec (r : Router S) (ctrl : ControlInfo) (mac : MacAddress) (pdu : Pdu)
    (payload : ByteBuffer) (o : Origin) :
    Transmission r ctrl mac pdu payload o (r.secureAndPassDown ctrl mac pdu payload o) := by
  unfold secureAndPassDown
  split_ifs with hs
  · unfold encapPacket
    rcases Option.eq_none_or_eq_some r.securityEntity with he | ⟨e, he⟩
    · simp only [he]
      exact .missing hs he
    · simp only [he]
      rcases Option.eq_none_or_eq_some (encapsulatePacket e (signRequest ctrl pdu payload)).1 with hm | ⟨m, hm⟩
      · simp only [hm, Option.map_none]
        exact .refused e hs he hm
      · simp only [hm, Option.map_some]
        exact .signed e m hs he hm
  · exact .plain (by simpa using hs)

theorem Transmission.frame {ctrl : ControlInfo} {mac : MacAddress} {payload : ByteBuffer}
    (h : Transmission r ctrl mac pdu payload o x) :
    x.2.mib = r.mib ∧ x.2.runtime = r.runtime ∧ x.2.bcForwardBuffer = r.bcForwardBuffer ∧
      (x.1 = false → r.mib.itsGnSecurity = true ∧ (r.encapPacket ctrl pdu payload).1 = none) := by
  cases h with
  | plain | signed => exact ⟨rfl, rfl, rfl, by simp⟩
  | missing hs he => exact ⟨rfl, rfl, rfl, fun _ => ⟨hs, by simp [encapPacket, he]⟩⟩
  | refused e hs he hm => exact ⟨rfl, rfl, rfl, fun _ => ⟨hs, by simp [encapPacket, he, hm]⟩⟩

/-- What follows a transmission that resets the beacon timer once it is down. -/
def resetIfSent (env : Environment) (x : Bool × Router S) : Router S := if x.1 then x.2.resetBeaconTimer env else x.2

theorem transmitShb_eq (env : Environment) (r : Router S) (p : PendingPacket) (ctrl : ControlInfo) :
    r.transmitShb env p ctrl = resetIfSent env
      (r.secureAndPassDown ctrl broadcastMacAddress (r.updatedPdu p.pdu) p.payload (.request p.number)) := by
  unfold transmitShb
  rcases r.secureAndPassDown ctrl broadcastMacAddress (r.updatedPdu p.pdu)
    p.payload (.request p.number) with ⟨_ | _, r'⟩
  · rfl
  · rfl

theorem onBeaconTimerExpired_eq (env : Environment) (hen : r.mib.vanetzaDisableBeaconing = false) :
    r.onBeaconTimerExpired env = if r.localPositionVector.timestamp = 0 then r.resetBeaconTimer env
      else resetIfSent env
        (r.secureAndPassDown (beaconControlInfo r.mib) broadcastMacAddress r.createBeaconPdu [] .beacon) := by
  unfold onBeaconTimerExpired
  rw [hen, if_neg Bool.false_ne_true]
  rcases r.secureAndPassDown (beaconControlInfo r.mib) broadcastMacAddress r.createBeaconPdu [] .beacon with ⟨_ | _, r'⟩
  · rfl
  · rfl

/-- A packet of this origin is dealt with: a requested one leaves the hand. -/
def Uses (H H' : List ℕ) (o : Origin) : Prop := o = .beacon ∧ H' = H ∨ ∃ n, o = .request n ∧ H = n :: H'

/-- One act of the router, with the numbers in hand before and after. -/
inductive Act (env : Environment) : List ℕ → Router S → List ℕ → Router S → Prop
  | quiet {H : List ℕ} {r r' : Router S} : r'.mib = r.mib → r'.runtime = r.runtime →
      r'.securityEntity = r.securityEntity → r'.localPositionVector = r.localPositionVector →
      r'.bcForwardBuffer = r.bcForwardBuffer → r'.requests = r.requests → r'.nextNumber = r.nextNumber →
      Act env H r H r'
  | numbered {H : List ℕ} (r : Router S) : Act env H r (r.nextNumber :: H) { r with nextNumber := r.nextNumber + 1 }
  | givenUp {H : List ℕ} (n : ℕ) (r : Router S) : Act env (n :: H) r H r
  | reset {H : List ℕ} (r : Router S) : Act env H r H (r.resetBeaconTimer env)
  | repetition {H : List ℕ} (r : Router S) (tp : TimePoint) (reps : List (ℕ × DataRequest × ByteBuffer)) :
      Act env H r H { r with
        runtime := r.runtime.schedule tp (.repetition r.nextRepetition) (some .repeater)
        repetitions := reps
        nextRepetition := r.nextRepetition + 1 }
  | readdressed {H : List ℕ} {r : Router S} (draws : ℕ) (mac : MacAddress) : r.mib.itsGnLocalAddrConfMethod = .auto →
      Act env H r H { r with
        draws := draws
        localPositionVector := { r.localPositionVector with gnAddr :=
          { r.localPositionVector.gnAddr with mid := mac } } }
  | refused {H : List ℕ} {r : Router S} (e : S) (q : SignRequest) : r.mib.itsGnSecurity = true →
      r.securityEntity = some e → (encapsulatePacket e q).1 = none →
      Act env H r H { r with securityEntity := some (encapsulatePacket e q).2 }
  | signed {H H' : List ℕ} {r : Router S} (e : S) (q : SignRequest) (m : SecuredMessage) (d : DownRequest) :
      r.mib.itsGnSecurity = true → r.securityEntity = some e → (encapsulatePacket e q).1 = some m →
      d.pdu.secured = some m → d.pdu.extended = q.extended → q.extended.sourcePosition = r.localPositionVector →
      d.source = r.localPositionVector.gnAddr.mid → Uses H H' d.origin →
      Act env H r H' { r with securityEntity := some (encapsulatePacket e q).2, requests := d :: r.requests }
  | plain {H H' : List ℕ} {r : Router S} (d : DownRequest) : r.mib.itsGnSecurity = false →
      d.pdu.extended.sourcePosition = r.localPositionVector → Uses H H' d.origin →
      Act env H r H' { r with requests := d :: r.requests }
  | forwarded {H : List ℕ} {r : Router S} (d : DownRequest) : d.origin = .other →
      Act env H r H { r with requests := d :: r.requests }
  | stored {H : List ℕ} {r : Router S} (p : PendingPacket) :
    p.action.own = true → Act env (p.number :: H) r H (r.store p)
  | storedOther {H : List ℕ} {r : Router S} (p : PendingPacket) : p.action.own = false → Act env H r H (r.store p)
  | taken {H : List ℕ} (r : Router S) :
      Act env H r (numbersOf (r.bcForwardBuffer.take r.runtime.now).1 ++ H)
        { r with bcForwardBuffer := (r.bcForwardBuffer.take r.runtime.now).2 }

/-- Several acts, one after the other. -/
abbrev Acts (env : Environment) (H : List ℕ) (r : Router S) (H' : List ℕ) (r' : Router S) : Prop :=
  Relation.ReflTransGen (fun a b : List ℕ × Router S => Act env a.1 a.2 b.1 b.2) (H, r) (H', r')

theorem Act.acts (h : Act env H r H' r') : Acts env H r H' r' := .single h

theorem Acts.invariant {I : List ℕ → Router S → Prop} (h : Acts env H r H' r') (h0 : I H r)
    (hact : ∀ {K : List ℕ} {u : Router S} {K' : List ℕ} {v : Router S}, I K u → Act env K u K' v → I K' v) :
    I H' r' := by
  have hall : ∀ b : List ℕ × Router S,
      Relation.ReflTransGen (fun a b : List ℕ × Router S => Act env a.1 a.2 b.1 b.2) (H, r) b → I b.1 b.2 := by
    intro b hb
    induction hb with
    | refl => exact h0
    | tail _ ha ih => exact hact ih ha
  exact hall _ h

theorem Act.keeps (h : Act env H r H' r') : Keeps r r' := by
  cases h with
  | quiet hm hr _ hp _ _ _ => exact .of_runtime hm hp hr
  | reset =>
    refine ⟨rfl, rfl, fun _ => rfl, ?_, fun c hc hb _ => resetBeaconTimerIn_timers hc hb⟩
    show (r.runtime.cancel (some .router)).now = r.runtime.now
    rw [ManualRuntime.cancel_now]
  | repetition _ tp reps =>
    refine ⟨rfl, rfl, fun _ => rfl, rfl, fun c hc _ hr => ?_⟩
    rcases ManualRuntime.mem_schedule.mp hc with rfl | hc
    · exact absurd rfl (hr _)
    · exact hc
  | readdressed k mac hauto => exact ⟨rfl, rfl, fun hne => absurd hauto hne, rfl, fun c hc _ _ => hc⟩
  | _ => exact .of_runtime rfl rfl rfl

theorem Acts.keeps (h : Acts env H r H' r') : Keeps r r' :=
  h.invariant (I := fun _ => Keeps r) (.of_runtime rfl rfl rfl) fun hu ha => hu.trans ha.keeps

theorem Act.entity {P : S → Prop} (hP : ∀ e q, P e → P (encapsulatePacket e q).2)
    (h : Act env H r H' r') (hr : ∀ e, r.securityEntity = some e → P e) : ∀ e, r'.securityEntity = some e → P e := by
  cases h with
  | quiet _ _ he _ _ _ _ => exact he ▸ hr
  | refused e q _ he | signed e q _ _ _ he => exact fun e' he' => Option.some.inj he' ▸ hP e q (hr e he)
  | _ => exact hr

/-! ### Operations -/

theorem Uses.givenUp (h : Uses H H' o) (r : Router S) : Acts env H r H' r := by
  rcases h with ⟨-, rfl⟩ | ⟨n, -, rfl⟩
  · exact .refl
  · exact (Act.givenUp n r).acts

theorem secureAndPassDown_acts (r : Router S) (ctrl : ControlInfo) (mac : MacAddress)
    (payload : ByteBuffer) (hp : pdu.extended.sourcePosition = r.localPositionVector)
    (ho : Uses H H' o) : Acts env H r H' (r.secureAndPassDown ctrl mac pdu payload o).2 := by
  have h := r.secureAndPassDown_spec ctrl mac pdu payload o
  generalize r.secureAndPassDown ctrl mac pdu payload o = x at h
  cases h with
  | plain hs => exact (Act.plain _ hs hp ho).acts
  | missing hs he => exact ho.givenUp r
  | refused e hs he hm => exact (Act.refused e _ hs he hm).acts.trans (ho.givenUp _)
  | signed e m hs he hm => exact (Act.signed e _ m _ hs he hm rfl rfl hp rfl ho).acts

theorem resetIfSent_acts (h : Acts env H r H' x.2) : Acts env H r H' (resetIfSent env x) := by
  unfold resetIfSent
  split_ifs
  · exact h.tail (.reset x.2)
  · exact h

theorem transmitShb_acts (r : Router S) (p : PendingPacket) (ctrl : ControlInfo) :
    Acts env (p.number :: H) r H (r.transmitShb env p ctrl) := by
  have h : Acts env (p.number :: H) r H (r.secureAndPassDown ctrl broadcastMacAddress (r.updatedPdu p.pdu) p.payload
      (.request p.number)).2 :=
    secureAndPassDown_acts r ctrl _ _ (by simp [updatedPdu]) (.inr ⟨_, rfl, rfl⟩)
  rw [transmitShb_eq]
  exact resetIfSent_acts h

theorem transmitGbc_acts (r : Router S) (p : PendingPacket) (ctrl : ControlInfo) (mac : MacAddress) :
    Acts env (p.number :: H) r H (r.transmitGbc p ctrl mac) :=
  secureAndPassDown_acts r ctrl mac p.payload (by simp [updatedPdu]) (.inr ⟨_, rfl, rfl⟩)

theorem greedy_acts (r : Router S) (p : PendingPacket) (ctrl : ControlInfo) (area : Area) :
    Acts env (p.number :: H) r H (processNextHop p ctrl (r.greedyForwarding env p ctrl area)) := by
  rcases greedyForwarding_cases env r p ctrl area with ⟨mac, h⟩ | h
  · rw [h]
    exact transmitGbc_acts r p ctrl mac
  · rw [h]
    exact (Act.stored { p with action := .greedy ctrl } rfl).acts

theorem selection_acts (r : Router S) (p : PendingPacket) (ctrl : ControlInfo) (area : Area) :
    Acts env (p.number :: H) r H (processNextHop p ctrl (r.forwardingAlgorithmSelection env p ctrl area)) := by
  unfold forwardingAlgorithmSelection
  split_ifs
  · split <;> exact transmitGbc_acts r p ctrl _
  · split
    · exact greedy_acts r p ctrl area
    · exact greedy_acts r p ctrl area
    · exact transmitGbc_acts r p ctrl _

theorem process_acts (r : Router S) (p : PendingPacket) (ho : p.action.own = true) :
    Acts env (p.number :: H) r H (r.process env p) := by
  unfold process
  split
  · exact transmitShb_acts r p _
  · exact selection_acts r p _ _
  · exact greedy_acts r p _ _
  · exact (Act.givenUp _ r).acts
  · exact (Act.givenUp _ r).acts
  · rename_i ha
    simp [ha, Action.own] at ho

theorem process_other_acts (r : Router S) (p : PendingPacket) (ho : p.action.own = false) :
    Acts env H r H (r.process env p) := by
  have ha := Action.eq_forward ho
  have hq : Act env H r H { r with decisions := r.decisions + 1 } := .quiet rfl rfl rfl rfl rfl rfl rfl
  unfold process
  simp only [ha]
  split
  · exact hq.acts.tail (.forwarded _ rfl)
  · exact hq.acts.tail (.storedOther p ho)
  · exact hq.acts

theorem submit_acts (r : Router S) (p : PendingPacket) (hn : p.number = n) (ho : p.action.own = true) :
    Acts env (n :: H) r H (r.submit env p) := by
  subst hn
  unfold submit
  split_ifs
  · exact (Act.stored p ho).acts
  · exact process_acts r p ho

theorem submit_other_acts (r : Router S) (p : PendingPacket) (ho : p.action.own = false) :
    Acts env H r H (r.submit env p) := by
  unfold submit
  split_ifs
  · exact (Act.storedOther p ho).acts
  · exact process_other_acts r p ho

theorem foldl_acts : ∀ (l : List PendingPacket) (r : Router S),
    Acts env (numbersOf l ++ H) r H (l.foldl (process env) r)
  | [], _ => .refl
  | p :: l, r => by
    cases ho : p.action.own with
    | true =>
      rw [numbersOf_own ho]
      exact (process_acts r p ho).trans (foldl_acts l _)
    | false =>
      rw [numbersOf_other ho]
      exact (process_other_acts r p ho).trans (foldl_acts l _)

theorem flush_acts (r : Router S) : Acts env H r H (r.flushForwardingBuffers env) := by
  unfold flushForwardingBuffers
  dsimp only
  exact (Act.taken r).acts.trans (foldl_acts _ _)

theorem numbered_acts (r : Router S) (req : DataRequest) (payload : ByteBuffer) :
    Acts env H r (r.nextNumber :: H) { r.addRepetition req payload with nextNumber := r.nextNumber + 1 } := by
  rcases r.addRepetition_cases req payload with he | ⟨tp, reps, he⟩
  · rw [he]
    exact (Act.numbered r).acts
  · rw [he]
    exact (Act.repetition r tp reps).acts.tail (.numbered _)

theorem request_acts (r : Router S) (req : DataRequest) (payload : ByteBuffer) :
    Acts env H r H (r.request env req payload).2 := by
  unfold request
  split
  · unfold requestShb
    dsimp only
    split_ifs
    · exact (numbered_acts r req payload).trans (submit_acts _ _ rfl rfl)
    · exact .refl
  · unfold requestGbc
    dsimp only
    split_ifs
    · refine ((numbered_acts r req payload).tail ?_).trans (submit_acts _ _ rfl rfl)
      exact .quiet rfl rfl rfl rfl rfl rfl rfl
    · exact .refl

theorem trigger_acts (r : Router S) (n : ℕ) (tp : TimePoint) : Acts env H r H (r.triggerRepetition env n tp) := by
  unfold triggerRepetition
  split
  · exact .refl
  · dsimp only
    exact (request_acts r _ _).tail (.quiet rfl rfl rfl rfl rfl rfl rfl)

theorem beacon_acts (r : Router S) : Acts env H r H (r.onBeaconTimerExpired env) := by
  have h : Acts env H r H (r.secureAndPassDown (beaconControlInfo r.mib) broadcastMacAddress r.createBeaconPdu []
      .beacon).2 :=
    secureAndPassDown_acts r _ _ _ rfl (.inl ⟨rfl, rfl⟩)
  by_cases hen : r.mib.vanetzaDisableBeaconing = true
  · unfold onBeaconTimerExpired
    rw [if_pos hen]
  · rw [onBeaconTimerExpired_eq env (by simpa using hen)]
    split_ifs
    · exact (Act.reset r).acts
    · exact resetIfSent_acts h

theorem detectDuplicateAddress_acts (r : Router S) (source : Address) (sender : MacAddress) :
    Acts env H r H (r.detectDuplicateAddress env source sender) := by
  unfold detectDuplicateAddress
  dsimp only
  split_ifs with h
  · exact (Act.readdressed (r.draws + 1) _ h.1).acts
  · exact .refl

theorem indicate_acts (r : Router S) (x : Reception) : Acts env H r H (r.indicate env x) := by
  have hdrop : Act env H r H { r with locationTable := x.dropped } := .quiet rfl rfl rfl rfl rfl rfl rfl
  have hflush := hdrop.acts.trans (flush_acts { r with locationTable := x.dropped })
  set r₁ := flushForwardingBuffers env { r with locationTable := x.dropped } with hr₁
  have hcheck : Acts env H r H (x.checked.elim r₁ fun c => r₁.detectDuplicateAddress env c.1 c.2) := by
    cases x.checked with
    | none => exact hflush
    | some c => exact hflush.trans (detectDuplicateAddress_acts r₁ c.1 c.2)
  set r₂ := x.checked.elim r₁ fun c => r₁.detectDuplicateAddress env c.1 c.2 with hr₂
  have hupdate : Act env H r₂ H { r₂ with locationTable := x.updated } := .quiet rfl rfl rfl rfl rfl rfl rfl
  unfold indicate
  dsimp only
  rw [← hr₁, ← hr₂]
  split
  · exact hcheck.tail hupdate
  · exact (hcheck.tail hupdate).trans (submit_other_acts _ _ rfl)

end VanetzaIdf.Geonet.Router
