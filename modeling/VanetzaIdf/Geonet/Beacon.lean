/-
# A beacon is always pending

Every expiry of the router's beacon callback schedules the next one, except
that the handler returns first if the security entity refuses to sign
(`beaconing_dies`). In every run in which no beacon is refused (`BeaconRefused`)
exactly one callback waits, at most the retransmit time and the maximum jitter
away (`beacon_pending`).
-/
import VanetzaIdf.Geonet.Acts
import VanetzaIdf.Lib.Run
import VanetzaIdf.SecurityEntity

namespace VanetzaIdf.Geonet.Router

open Lib Option VanetzaIdf.Units ManualRuntime

/-! ### One beacon waits -/

variable {S : Type} {env : Environment} {mib : Mib} {limit : Duration} {H H' : List ℕ}

/-- The beacon is what the router schedules in its own name. -/
def Scoped (r : Router S) : Prop := ∀ c ∈ r.runtime.queue, c.callback = .beacon ↔ c.scope = some .router

/-- One beacon is scheduled, and is due within the limit. -/
structure Beaconing (mib : Mib) (limit : Duration) (r : Router S) : Prop where
  mib : r.mib = mib
  scope : r.Scoped
  one : r.runtime.waiting .beacon = 1
  soon : ∀ c ∈ r.runtime.queue, c.callback = .beacon → c.deadline ≤ r.runtime.now + limit

/-- No reset of the timer goes beyond `limit`. -/
def Within (env : Environment) (mib : Mib) (limit : Duration) : Prop :=
  ∀ n, clockCast
    (mib.itsGnBeaconServiceRetransmitTimer + env.jitter n * mib.itsGnBeaconServiceMaxJitter) ≤ limit

variable {r r' : Router S}

theorem beaconing_resetIn {d : Duration} (hm : r.mib = mib) (hs : r.Scoped) (hd : d ≤ limit) :
    Beaconing mib limit (r.resetBeaconTimerIn d) := by
  have hnone : (r.runtime.cancel (some .router)).waiting .beacon = 0 := by
    refine List.countP_eq_zero.mpr fun c hc => ?_
    obtain ⟨hq, hsc⟩ := mem_cancel.mp hc
    simpa using fun hb => hsc ((hs c hq).mp hb)
  have hmem : ∀ c ∈ (r.resetBeaconTimerIn d).runtime.queue,
      c = ⟨r.runtime.now + d, .beacon, some .router⟩ ∨ c ∈ r.runtime.queue ∧ c.scope ≠ some .router := by
    intro c hc
    rcases mem_schedule.mp hc with rfl | hc
    · exact .inl (by simp)
    · exact .inr (mem_cancel.mp hc)
  refine ⟨hm, fun c hc => ?_, ?_, fun c hc hb => ?_⟩
  · rcases hmem c hc with rfl | ⟨hq, -⟩
    · simp
    · exact hs c hq
  · show ((r.runtime.cancel (some .router)).schedule _ _ _).waiting .beacon = 1
    rw [waiting_schedule, hnone]
    rfl
  · show c.deadline ≤ (r.runtime.cancel (some .router)).now + limit
    rw [cancel_now]
    rcases hmem c hc with rfl | ⟨hq, hne⟩
    · exact Int.add_le_add_left hd _
    · exact absurd ((hs c hq).mp hb) hne

theorem beaconing_reset (hw : Within env mib limit) (hm : r.mib = mib) (hs : r.Scoped) :
    Beaconing mib limit (r.resetBeaconTimer env) := by
  subst hm
  exact beaconing_resetIn (r := { r with draws := r.draws + 1 }) rfl hs (hw r.draws)

theorem Beaconing.of_runtime (hb : Beaconing mib limit r) (hm : r'.mib = r.mib)
    (hr : r'.runtime = r.runtime) : Beaconing mib limit r' := by
  refine ⟨hm.trans hb.mib, ?_, ?_, ?_⟩
  · unfold Scoped
    rw [hr]
    exact hb.scope
  · rw [hr]
    exact hb.one
  · rw [hr]
    exact hb.soon

theorem Beaconing.schedule (hb : Beaconing mib limit r) {tp : TimePoint} {cb : Callback}
    {scope : Option Scope} (hcb : cb ≠ .beacon) (hs : scope ≠ some .router) :
    Beaconing mib limit { r with runtime := r.runtime.schedule tp cb scope } := by
  refine ⟨hb.mib, fun c hc => ?_, ?_, fun c hc hcb' => ?_⟩
  · rcases mem_schedule.mp hc with rfl | hc
    · simp [hcb, hs]
    · exact hb.scope c hc
  · show (r.runtime.schedule tp cb scope).waiting .beacon = 1
    rw [waiting_schedule, hb.one, if_neg hcb]
  · rcases mem_schedule.mp hc with rfl | hc
    · exact absurd hcb' hcb
    · exact hb.soon c hc hcb'

theorem jitter_le (env : Environment) (mib : Mib) (n : ℕ) :
    mib.itsGnBeaconServiceRetransmitTimer + env.jitter n * mib.itsGnBeaconServiceMaxJitter ≤
      mib.itsGnBeaconServiceRetransmitTimer + max 0 mib.itsGnBeaconServiceMaxJitter := by
  have h0 := env.jitter_nonneg n
  have h1 := env.jitter_lt_one n
  refine add_le_add_right ?_ _
  rcases le_or_gt 0 mib.itsGnBeaconServiceMaxJitter with hJ | hJ
  · exact (mul_le_of_le_one_left hJ h1.le).trans (le_max_right _ _)
  · exact (mul_nonpos_of_nonneg_of_nonpos h0 hJ.le).trans (le_max_left _ _)

theorem beaconing_init {rt : Runtime} (e : Option S) (hen : mib.vanetzaDisableBeaconing = false)
    (hrt : ∀ c ∈ rt.queue, c.callback ≠ .beacon ∧ c.scope ≠ some .router) (h0 : 0 ≤ limit)
    (hd : mib.vanetzaDeferInitialBeacon + clockCast (env.jitter 0 * mib.itsGnBeaconServiceMaxJitter) ≤ limit) :
    Beaconing mib limit (init env mib rt e) := by
  have hs : ∀ c ∈ rt.queue, c.callback = .beacon ↔ c.scope = some .router := fun c hc => by simp [hrt c hc]
  unfold init
  dsimp only
  rw [hen, if_neg Bool.false_ne_true]
  split_ifs
  · exact beaconing_resetIn rfl hs hd
  · exact beaconing_resetIn rfl hs h0

/-! ### Runs of a router -/

inductive Event (S : Type)
  | request (req : DataRequest) (payload : ByteBuffer)
  | indicate (x : Reception)
  | updatePosition (fix : PositionFix)
  | setAddress (addr : Address)
  | flush
  /-- The security entity changes, by an identifier change or for any other reason. -/
  | entity (e : Option S)
  | tick (tp : TimePoint)
  | fire
  /-- Another component schedules one of its callbacks. -/
  | schedule (tp : TimePoint) (cb : Callback) (scope : Option Scope)
  | cancel (scope : Option Scope)

/-- Neither a callback nor a scope of the router. -/
def Foreign (cb : Callback) (scope : Option Scope) : Prop :=
  (cb = .roundTimeout ∨ cb = .lockTimer) ∧ scope ≠ some .router ∧ scope ≠ some .repeater

instance (cb : Callback) (scope : Option Scope) : Decidable (Foreign cb scope) := inferInstanceAs (Decidable (_ ∧ _))

variable [SecurityEntity S]

/-- The runtime runs the next due callback; those of other components do not
touch the router. -/
def fire (env : Environment) (r : Router S) : Option (Router S) :=
  match r.runtime.pop with
  | none => none
  | some (c, rt) =>
    match c.callback with
    | .beacon => some (onBeaconTimerExpired env { r with runtime := rt })
    | .repetition n => some (triggerRepetition env { r with runtime := rt } n c.deadline)
    | .roundTimeout | .lockTimer => some { r with runtime := rt }

def step (env : Environment) (r : Router S) : Event S → Option (Router S)
  | .request req payload => some (r.request env req payload).2
  | .indicate x => some (r.indicate env x)
  | .updatePosition fix => some (r.updatePosition fix)
  | .setAddress addr => some (r.setAddress addr)
  | .flush => some (r.flushForwardingBuffers env)
  | .entity e => some { r with securityEntity := e }
  | .tick tp => if r.runtime.now ≤ tp then some { r with runtime := r.runtime.setNow tp } else none
  | .fire => r.fire env
  | .schedule tp cb scope =>
    if Foreign cb scope then some { r with runtime := r.runtime.schedule tp cb scope } else none
  | .cancel scope =>
    if scope ≠ some .router ∧ scope ≠ some .repeater then some { r with runtime := r.runtime.cancel scope } else none

/-- A beacon is due, there is a position to send, and the security entity
does not sign it. -/
def BeaconRefused (r : Router S) : Event S → Prop
  | .fire => r.runtime.pop.any (fun x => x.1.callback = .beacon) = true ∧ r.localPositionVector.timestamp ≠ 0 ∧
      r.mib.itsGnSecurity = true ∧ (r.encapPacket (beaconControlInfo r.mib) r.createBeaconPdu []).1 = none
  | _ => False

instance (r : Router S) (e : Event S) : Decidable (BeaconRefused r e) := by
  cases e <;> unfold BeaconRefused <;> infer_instance

/-! ### One step -/

theorem beaconing_act (hw : Within env mib limit) (hb : Beaconing mib limit r)
    (h : Act env H r H' r') : Beaconing mib limit r' := by
  cases h with
  | quiet hm hr _ _ _ _ _ => exact hb.of_runtime hm hr
  | reset => exact beaconing_reset hw hb.mib hb.scope
  | repetition _ tp reps => exact (hb.schedule (by simp) (by simp)).of_runtime rfl rfl
  | _ => exact hb.of_runtime rfl rfl

theorem beaconing_acts (hw : Within env mib limit) (hb : Beaconing mib limit r)
    (h : Acts env H r H' r') : Beaconing mib limit r' :=
  h.invariant (I := fun _ => Beaconing mib limit) hb fun hu ha => beaconing_act hw hu ha

theorem encapPacket_congr (r r' : Router S) (h : r'.securityEntity = r.securityEntity) (ctrl : ControlInfo) (pdu : Pdu)
    (payload : ByteBuffer) : (r'.encapPacket ctrl pdu payload).1 = (r.encapPacket ctrl pdu payload).1 := by
  unfold encapPacket
  rw [h]
  cases r.securityEntity <;> rfl

theorem beaconing_expired (hw : Within env mib limit) (hm : r.mib = mib) (hs : r.Scoped)
    (hen : mib.vanetzaDisableBeaconing = false)
    (hok : r.localPositionVector.timestamp ≠ 0 → r.mib.itsGnSecurity = true →
      (r.encapPacket (beaconControlInfo r.mib) r.createBeaconPdu []).1 ≠ none) :
    Beaconing mib limit (r.onBeaconTimerExpired env) := by
  rw [onBeaconTimerExpired_eq env (hm ▸ hen)]
  split_ifs with ht
  · exact beaconing_reset hw hm hs
  · obtain ⟨hm', hr, -, hf⟩ := (r.secureAndPassDown_spec (beaconControlInfo r.mib) broadcastMacAddress
      r.createBeaconPdu [] .beacon).frame
    have hsent : (r.secureAndPassDown (beaconControlInfo r.mib) broadcastMacAddress r.createBeaconPdu [] .beacon).1 =
        true := by
      by_contra hno
      obtain ⟨hsec, hn⟩ := hf (by simpa using hno)
      exact hok ht hsec hn
    unfold resetIfSent
    rw [if_pos hsent]
    refine beaconing_reset hw (hm'.trans hm) ?_
    unfold Scoped
    rw [hr]
    exact hs

theorem beaconing_fire (hw : Within env mib limit) (hb : Beaconing mib limit r)
    (hen : mib.vanetzaDisableBeaconing = false) (hg : ¬ BeaconRefused r .fire) (h : r.fire env = some r') :
    Beaconing mib limit r' := by
  unfold fire at h
  cases hp : r.runtime.pop with
  | none => simp [hp] at h
  | some x =>
    obtain ⟨c, rt⟩ := x
    obtain ⟨hq, -, hnow⟩ := pop_some hp
    have hsub : ∀ d ∈ rt.queue, d ∈ r.runtime.queue := fun d hd => mem_of_pop hp hd
    have hs : Scoped { r with runtime := rt } := fun d hd => hb.scope d (hsub d hd)
    -- a callback other than the beacon leaves it in the queue
    have hrest : c.callback ≠ .beacon → Beaconing mib limit { r with runtime := rt } := by
      intro hc
      refine ⟨hb.mib, hs, ?_, fun d hd hbd => ?_⟩
      · have := hb.one
        unfold ManualRuntime.waiting at this ⊢
        rwa [hq, List.countP_cons_of_neg (by simpa using hc)] at this
      · show d.deadline ≤ rt.now + limit
        rw [hnow]
        exact hb.soon d (hsub d hd) hbd
    simp only [hp] at h
    cases hc : c.callback with
    | beacon =>
      simp only [hc, some.injEq] at h
      subst h
      refine beaconing_expired hw hb.mib hs hen fun ht hsec hn => hg ⟨by simp [hp, hc], ht, hsec, ?_⟩
      exact (encapPacket_congr { r with runtime := rt } r rfl _ _ _).trans hn
    | repetition n =>
      simp only [hc, some.injEq] at h
      subst h
      exact beaconing_acts hw (hrest (by simp [hc])) (trigger_acts (H := []) _ n c.deadline)
    | roundTimeout | lockTimer =>
      simp only [hc, some.injEq] at h
      exact h ▸ hrest (by simp [hc])

theorem beaconing_step (hw : Within env mib limit) {e : Event S} (hb : Beaconing mib limit r)
    (hen : mib.vanetzaDisableBeaconing = false) (hg : ¬ BeaconRefused r e) (h : step env r e = some r') :
    Beaconing mib limit r' := by
  cases e with
  | request req payload =>
    exact some.inj h ▸ beaconing_acts hw hb (request_acts (H := []) r req payload)
  | indicate x => exact some.inj h ▸ beaconing_acts hw hb (indicate_acts (H := []) r x)
  | updatePosition | setAddress | entity => exact some.inj h ▸ hb.of_runtime rfl rfl
  | flush => exact some.inj h ▸ beaconing_acts hw hb (flush_acts (H := []) r)
  | tick tp =>
    simp only [step] at h
    split_ifs at h with ht
    obtain rfl := some.inj h
    refine ⟨hb.mib, hb.scope, hb.one, fun c hc hcb => ?_⟩
    exact (hb.soon c hc hcb).trans (Int.add_le_add_right ht _)
  | fire => exact beaconing_fire hw hb hen hg h
  | schedule tp cb scope =>
    simp only [step] at h
    split_ifs at h with hf
    obtain ⟨hcb, hsc, -⟩ := hf
    exact some.inj h ▸ hb.schedule (by rcases hcb with rfl | rfl <;> simp) hsc
  | cancel scope =>
    simp only [step] at h
    split_ifs at h with hf
    obtain rfl := some.inj h
    cases scope with
    | none => exact hb.of_runtime rfl rfl
    | some sc =>
      have hkeep : ∀ c : ScheduledCallback Scope Callback, c ∈ r.runtime.queue → c.callback = .beacon →
          c.scope ≠ some sc := by
        intro c hc hcb he
        exact hf.1 (he.symm.trans ((hb.scope c hc).mp hcb))
      refine ⟨hb.mib, fun c hc => hb.scope c (mem_cancel.mp hc).1, ?_, fun c hc hcb => ?_⟩
      · rw [← hb.one]
        show List.countP _ (List.filter _ _) = List.countP _ _
        rw [List.countP_filter]
        refine List.countP_congr fun c hc => ?_
        simp only [decide_eq_true_eq, Bool.and_eq_true]
        exact ⟨fun h => h.1, fun h => ⟨h, by simpa using hkeep c hc h⟩⟩
      · show c.deadline ≤ (r.runtime.cancel (some sc)).now + limit
        rw [cancel_now]
        exact hb.soon c (mem_cancel.mp hc).1 hcb

/-- **A beacon is always pending**, exactly one, if beaconing is on and every beacon that is due
is signed. Unless the first is deferred for longer, it is at most the retransmit time and the
maximum jitter away. -/
theorem beacon_pending {rt : Runtime} {e : Option S} {r : Router S} (hen : mib.vanetzaDisableBeaconing = false)
    (hrt : ∀ c ∈ rt.queue, c.callback ≠ .beacon ∧ c.scope ≠ some .router)
    (h : Run (step env) (fun r e => ¬ BeaconRefused r e) (init env mib rt e) r) :
    r.runtime.waiting .beacon = 1 ∧
    (0 ≤ mib.itsGnBeaconServiceRetransmitTimer → 0 ≤ mib.itsGnBeaconServiceMaxJitter →
      mib.vanetzaDeferInitialBeacon ≤ clockCast mib.itsGnBeaconServiceRetransmitTimer →
      ∀ c ∈ r.runtime.queue, c.callback = .beacon → c.deadline ≤ r.runtime.now +
        clockCast (mib.itsGnBeaconServiceRetransmitTimer + mib.itsGnBeaconServiceMaxJitter)) := by
  have hall : ∀ limit, Within env mib limit → 0 ≤ limit →
      mib.vanetzaDeferInitialBeacon + clockCast (env.jitter 0 * mib.itsGnBeaconServiceMaxJitter) ≤ limit →
      Beaconing mib limit r := by
    intro limit hw h0 hd
    exact h.invariant (beaconing_init e hen hrt h0 hd) fun _ hb hg hs => beaconing_step hw hb hen hg hs
  refine ⟨?_, fun hT hJ hdef => (hall _ (fun n => ?_) ?_ ?_).soon⟩
  · -- some limit exceeds every reset and the first beacon
    set d := mib.vanetzaDeferInitialBeacon + clockCast (env.jitter 0 * mib.itsGnBeaconServiceMaxJitter)
    set c := clockCast (mib.itsGnBeaconServiceRetransmitTimer + max 0 mib.itsGnBeaconServiceMaxJitter)
    refine (hall (max c (max 0 d)) (fun n => ?_) (by simp) (by simp)).one
    exact (clockCast_mono (jitter_le env mib n)).trans (le_max_left _ _)
  · have := jitter_le env mib n
    rw [max_eq_right hJ] at this
    exact clockCast_mono this
  · exact clockCast_nonneg (add_nonneg hT hJ)
  · have hj := env.jitter_lt_one 0
    calc mib.vanetzaDeferInitialBeacon + clockCast (env.jitter 0 * mib.itsGnBeaconServiceMaxJitter)
        ≤ clockCast mib.itsGnBeaconServiceRetransmitTimer + clockCast mib.itsGnBeaconServiceMaxJitter :=
          add_le_add hdef (clockCast_mono (mul_le_of_le_one_left hJ hj.le))
      _ ≤ clockCast (mib.itsGnBeaconServiceRetransmitTimer + mib.itsGnBeaconServiceMaxJitter) :=
          clockCast_add_le hT hJ

/-! ### Two runs -/

/-- A router that signs with the tickets of the sample entity. -/
def sampleRouter : Router Security.Entity :=
  init sampleEnvironment { itsGnSecurity := true } { now := 0 } (some (Security.sampleEntity false))

/-- The first beacon goes out and the next one is pending. -/
theorem beacon_pending_sample : ∃ r, Run (step sampleEnvironment) (fun r e => ¬ BeaconRefused r e) sampleRouter r ∧
    r.requests.map (·.origin) = [.beacon] ∧ r.runtime.waiting .beacon = 1 := by
  obtain ⟨r, hr, hp⟩ := exists_run_of_exec (f := step sampleEnvironment) (C := fun r e => ¬ BeaconRefused r e)
    (s := sampleRouter) (p := fun r => decide (r.requests.map (·.origin) = [.beacon]))
    (l := [.tick 1000000, .updatePosition sampleFix, .fire])
    (by decide +kernel)
  exact ⟨r, hr, of_decide_eq_true hp, (beacon_pending rfl (by simp) hr).1⟩

/-- The beacon is due during an identifier change. The change ends and an
hour goes by, but no beacon is pending any more. -/
theorem beaconing_dies : ∃ r, Run (step sampleEnvironment) Anything sampleRouter r ∧
    r.mib.vanetzaDisableBeaconing = false ∧ r.runtime.now = 3600000000 ∧ r.runtime.waiting .beacon = 0 := by
  obtain ⟨r, hr, hp⟩ := exists_run_of_exec (f := step sampleEnvironment) (C := Anything) (s := sampleRouter)
    (p := fun r => decide (r.mib.vanetzaDisableBeaconing = false ∧ r.runtime.now = 3600000000 ∧
      r.runtime.waiting .beacon = 0))
    (l := [.tick 1000000, .updatePosition sampleFix, .entity (some (Security.sampleEntity true)), .fire,
      .entity (some (Security.sampleEntity false)), .tick 3600000000])
    (by decide +kernel)
  exact ⟨r, hr, of_decide_eq_true hp⟩

end VanetzaIdf.Geonet.Router
