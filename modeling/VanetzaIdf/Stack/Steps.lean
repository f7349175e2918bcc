/-
# What a step of the station can do

`Trans env s e s'` sorts the steps once: nothing changes, the router works
(`Router.Acts`), position or address is set, the manager makes a step of its own,
or it calls the stack's hook, which runs to its end (`hook_returns`).
`trans_of_step` reads it off the definitions in a sound state (`Sound`): the
manager's invariant holds and no call of the hook is still running.
-/
import VanetzaIdf.Identity.Subscriber
import VanetzaIdf.Geonet.Acts
import VanetzaIdf.Stack.Station

namespace VanetzaIdf.Stack

open Geonet Option
open IdentityManager

variable {env : Environment} {s s' : State}

/-- The manager's invariant holds, and the stack's hook is not running. -/
structure Sound (s : State) : Prop where
  inv : Inv s.manager
  idle : ∀ h, s.subscription = some h → h ∈ s.manager.handles ∧ ∀ n, .hook n h ∉ s.manager.frames

/-- The loop of `n` calls the hook of `h`. -/
structure Calls (m : IdentityManager.State) (n : Notification) (h : SubscriptionHandle) (m' : IdentityManager.State) :
    Prop where
  loop : m.control = .loop n
  inRound : n.expectResponse = true → m.inRound n.roundId = true
  step : IdentityManager.step m .proceed = some m'
  control : m'.control = .user
  frames : ∃ rest, n.handles = h :: rest ∧ m'.frames = .hook { n with handles := rest } h :: m.frames
  log : m'.log = .delivered n.command n.id ⟨n.subject, h⟩ :: m.log
  round : m'.round = m.round
  runtime : m'.runtime = m.runtime
  pool : m'.pool = m.pool

/-- What an event does to a station: an act of the router, or a step of the manager. -/
inductive Trans (env : Environment) (s : State) : Event → State → Prop
  | stay (e : Event) : Trans env s e s
  | router (e : Event) (rt : Runtime) (r : Router Security.Entity) : (∀ x, e ≠ .manager x) →
      s.manager.control = .user → rt.now = s.manager.runtime.now →
      (∀ c ∈ rt.queue, c ∈ s.manager.runtime.queue) →
      Router.Acts env [] { s.load with runtime := rt } [] r → Trans env s e (s.save r)
  | position (fix : Router.PositionFix) : s.manager.control = .user →
      Trans env s (.updatePosition fix) { s.save (s.load.updatePosition fix) with positionValid := true }
  | address (addr : Address) : s.manager.control = .user → s.router.mib.itsGnLocalAddrConfMethod = .managed →
      Trans env s (.setAddress addr)
        { s with
          router := Router.setAddress { s.router with mib := { s.router.mib with itsGnLocalGnAddr := addr } } addr }
  | manager (e : IdentityManager.Event) (m : IdentityManager.State) : s.Permitted e →
      IdentityManager.step s.manager e = some m →
      (∀ h, s.subscription = some h → ∀ n, .hook n h ∉ m.frames) → Trans env s (.manager e) { s with manager := m }
  | prepare (n : Notification) (h : SubscriptionHandle) (m₁ m₂ m₃ : IdentityManager.State)
      (r : Router Security.Entity) : s.subscription = some h → n.command = .prepare → Calls s.manager n h m₁ →
      r = s.load.flushForwardingBuffers env →
      IdentityManager.step { m₁ with runtime := r.runtime } (.respond .prepare ⟨n.subject, h⟩ true) = some m₂ →
      IdentityManager.step m₂ .ret = some m₃ →
      Trans env s (.manager .proceed) { s with manager := m₃, router := r, changePending := true }
  | commit (n : Notification) (h : SubscriptionHandle) (m₁ m₂ m₃ : IdentityManager.State) :
      s.subscription = some h → n.command = .commit → Calls s.manager n h m₁ →
      IdentityManager.step m₁ (.respond .commit ⟨n.subject, h⟩ true) = some m₂ →
      IdentityManager.step m₂ .ret = some m₃ →
      Trans env s (.manager .proceed) { s.applyIdentifier n.id with manager := m₃, changePending := false }
  | abort (n : Notification) (h : SubscriptionHandle) (m₁ m₃ : IdentityManager.State) :
      s.subscription = some h → n.command = .abort → Calls s.manager n h m₁ →
      IdentityManager.step m₁ .ret = some m₃ →
      Trans env s (.manager .proceed) { s with manager := m₃, changePending := false }

/-! ### The steps are those of the stack -/

variable {e : Event} {r r' : Router Security.Entity} {m m' : IdentityManager.State} {n : Notification}
  {h k : SubscriptionHandle} {fs : List Frame} {c : IdChangeCommand}

theorem trans_router (he : ∀ x, e ≠ .manager x)
    (hu : s.manager.control = .user) (h : Router.Acts env [] s.load [] r) : Trans env s e (s.save r) :=
  .router e s.manager.runtime r he hu rfl (fun _ hc => hc) h

theorem trans_submit (he : ∀ x, e ≠ .manager x) (hu : s.manager.control = .user) (req : GnRequest)
    (p : UpperProtocol) (payload : ByteBuffer) : Trans env s e (s.submit env req p payload).2 := by
  unfold State.submit
  exact trans_router he hu (Router.request_acts s.load _ _)

theorem trans_request (hu : s.manager.control = .user) (req : BtpRequest) :
    Trans env s (.request req) (s.request env req).2 := by
  unfold State.request
  split_ifs
  · exact .stay _
  · exact .stay _
  · exact .stay _
  · exact .stay _
  · split
    · exact .stay _
    · exact trans_submit (by simp) hu _ _ _

theorem trans_requestGn (hu : s.manager.control = .user) (req : GnRequest) :
    Trans env s (.requestGn req) (s.requestGn env req).2 := by
  unfold State.requestGn
  split_ifs
  · exact .stay _
  · exact .stay _
  · split
    · exact .stay _
    · exact trans_submit (by simp) hu _ _ _

theorem trans_updatePosition (hu : s.manager.control = .user) (fix : Router.PositionFix) :
    Trans env s (.updatePosition fix) (s.updatePosition fix).2 := by
  unfold State.updatePosition
  split_ifs
  · exact .stay _
  · exact .position fix hu

theorem trans_setAddress (hu : s.manager.control = .user) (addr : Address) :
    Trans env s (.setAddress addr) (s.setAddress addr).2 := by
  unfold State.setAddress
  split_ifs with hm hc
  · exact .stay _
  · exact .stay _
  · exact .address addr hu (not_not.mp hm)

theorem trans_fireRouter (hu : s.manager.control = .user) (h : s.fireRouter env = some s') : Trans env s .fire s' := by
  unfold State.fireRouter at h
  cases hp : s.manager.runtime.pop with
  | none => simp [hp] at h
  | some x =>
    obtain ⟨c, rt⟩ := x
    have hnow := (ManualRuntime.pop_some hp).2.2
    have hsub : ∀ d ∈ rt.queue, d ∈ s.manager.runtime.queue := fun d hd => ManualRuntime.mem_of_pop hp hd
    simp only [hp] at h
    cases hc : c.callback with
    | beacon =>
      simp only [hc, some.injEq] at h
      exact h ▸ .router _ rt _ (by simp) hu hnow hsub (Router.beacon_acts _)
    | repetition k =>
      simp only [hc, some.injEq] at h
      exact h ▸ .router _ rt _ (by simp) hu hnow hsub (Router.trigger_acts _ k c.deadline)
    | roundTimeout | lockTimer => simp [hc] at h

theorem trans_user (hu : s.manager.control = .user) (h : user env s e = some s') : Trans env s e s' := by
  cases e with
  | manager e => cases h
  | request req => exact some.inj h ▸ trans_request hu req
  | requestGn req => exact some.inj h ▸ trans_requestGn hu req
  | indicate x => exact some.inj h ▸ trans_router (by simp) hu (Router.indicate_acts s.load x)
  | updatePosition fix => exact some.inj h ▸ trans_updatePosition hu fix
  | setAddress addr => exact some.inj h ▸ trans_setAddress hu addr
  | fire => exact trans_fireRouter hu h

theorem calls_of_deliver {rest : List SubscriptionHandle} (hl : m.control = .loop n)
    (hh : n.handles = h :: rest) (hin : n.expectResponse = true → m.inRound n.roundId = true)
    (hs : IdentityManager.step m .proceed = some m')
    (he : m' = { m with
      control := .user
      frames := .hook { n with handles := rest } h :: m.frames
      log := .delivered n.command n.id ⟨n.subject, h⟩ :: m.log }) : Calls m n h m' := by
  subst he
  exact ⟨hl, hin, hs, rfl, ⟨rest, hh, rfl⟩, rfl, rfl, rfl, rfl⟩

theorem Calls.load_eq (hc : Calls s.manager n h m) : ({ s with manager := m } : State).load = s.load := by
  unfold State.load
  rw [hc.runtime, hc.pool, hc.round]

theorem managerStep_quiet {e : IdentityManager.Event} (hm : IdentityManager.step s.manager e = some m)
    (hno : ∀ h, s.subscription = some h → ∀ n, .hook n h ∉ m.frames) :
    s.managerStep env e = some { s with manager := m } := by
  unfold State.managerStep
  rw [hm]
  dsimp only
  split
  · rename_i n k fs hc hf
    rw [if_neg]
    exact fun hs => hno k hs n (hf ▸ List.mem_cons_self)
  · rfl

theorem managerStep_calls (hs : s.subscription = some h) (hc : Calls s.manager n h m) :
    s.managerStep env .proceed =
      (({ s with manager := m } : State).onIdChange env n.command n.id ⟨n.subject, h⟩).bind fun t =>
        (IdentityManager.step t.manager .ret).map fun m => { t with manager := m } := by
  obtain ⟨rest, -, hf⟩ := hc.frames
  unfold State.managerStep
  rw [hc.step]
  simp only [hc.control, hf, hs, if_true]

theorem calls_or_quiet (hs : Sound s) {e : IdentityManager.Event} (hm : IdentityManager.step s.manager e = some m) :
    (∃ n h, e = .proceed ∧ s.subscription = some h ∧ Calls s.manager n h m) ∨
      ∀ h, s.subscription = some h → ∀ n, .hook n h ∉ m.frames := by
  rcases hook_of_step hm with ⟨n, k, rest, rfl, hl, hh, hin, -, he⟩ | ⟨hfr, -⟩
  · by_cases hk : s.subscription = some k
    · exact .inl ⟨n, k, rfl, hk, calls_of_deliver hl hh hin hm he⟩
    · refine .inr fun h hsub n' hn => ?_
      rw [he] at hn
      rcases List.mem_cons.mp hn with hn | hn
      · obtain ⟨-, rfl⟩ : n' = { n with handles := rest } ∧ h = k := by simpa using hn
        exact hk hsub
      · exact (hs.idle h hsub).2 n' hn
  · exact .inr fun h hsub n hn => (hs.idle h hsub).2 n (hfr n h hn)

theorem Calls.command (hi : Inv m) (hc : Calls m n h m') :
    n.command = .prepare ∨ n.command = .commit ∨ n.command = .abort := by
  have hok := hi.notifications n (by rw [IdentityManager.State.active_loop hc.loop]; exact List.mem_cons_self)
  rcases hok.kind with ⟨-, -, hk | hk⟩ | ⟨-, -, hk⟩
  · exact .inl hk
  · exact .inr (.inl hk)
  · exact .inr (.inr hk)

theorem managerStep_prepare (hs : s.subscription = some h) (hc : Calls s.manager n h m) (hcmd : n.command = .prepare)
    (hst : s.managerStep env .proceed = some s') :
    ∃ m₂ m₃, IdentityManager.step { m with runtime := (s.load.flushForwardingBuffers env).runtime }
        (.respond .prepare ⟨n.subject, h⟩ true) = some m₂ ∧ IdentityManager.step m₂ .ret = some m₃ ∧
      s' = { s with manager := m₃, router := s.load.flushForwardingBuffers env, changePending := true } := by
  rw [managerStep_calls hs hc] at hst
  obtain ⟨t, ht, hst⟩ := bind_eq_some_iff.mp hst
  obtain ⟨m₃, hm₃, rfl⟩ := map_eq_some_iff.mp hst
  simp only [State.onIdChange, hcmd, State.respond, map_eq_some_iff] at ht
  obtain ⟨m₂, hm₂, rfl⟩ := ht
  have hload : ({ s with manager := m, changePending := true } : State).load = s.load := hc.load_eq
  refine ⟨m₂, m₃, ?_, hm₃, ?_⟩
  · rw [← hload]
    exact hm₂
  · rw [← hload]
    rfl

theorem trans_managerStep (hs : Sound s) {e : IdentityManager.Event} (hp : s.Permitted e)
    (h : s.managerStep env e = some s') : Trans env s (.manager e) s' := by
  cases hm : IdentityManager.step s.manager e with
  | none => simp [State.managerStep, hm] at h
  | some m =>
    rcases calls_or_quiet hs hm with ⟨n, k, rfl, hk, hc⟩ | hno
    · rcases hc.command hs.inv with hcmd | hcmd
      · obtain ⟨m₂, m₃, hm₂, hm₃, rfl⟩ := managerStep_prepare hk hc hcmd h
        exact .prepare n k m m₂ m₃ _ hk hcmd hc rfl hm₂ hm₃
      rw [managerStep_calls hk hc] at h
      obtain ⟨t, ht, h⟩ := bind_eq_some_iff.mp h
      obtain ⟨m₃, hm₃, rfl⟩ := map_eq_some_iff.mp h
      rcases hcmd with hcmd | hcmd
      · simp only [State.onIdChange, hcmd, State.respond, map_eq_some_iff] at ht
        obtain ⟨m₂, hm₂, rfl⟩ := ht
        exact .commit n k m m₂ m₃ hk hcmd hc hm₂ hm₃
      · simp only [State.onIdChange, hcmd, some.injEq] at ht
        subst ht
        exact .abort n k m m₃ hk hcmd hc hm₃
    · rw [managerStep_quiet hm hno] at h
      exact some.inj h ▸ .manager e m hp hm hno

theorem trans_of_step (hs : Sound s) (h : step env s e = some s') : Trans env s e s' := by
  unfold step at h
  split at h
  · split_ifs at h with hp
    exact trans_managerStep hs hp h
  · split_ifs at h with hu
    exact trans_user hu h

/-! ### The router's view -/

/-- The router's security entity works with this pool, and knows whether a
change is pending. -/
def Sees (p : CertificatePool) (b : Bool) (r : Router Security.Entity) : Prop :=
  ∀ e, r.securityEntity = some e → e.pool = p ∧ e.changePending = b

theorem sees_load (s : State) : Sees s.manager.pool s.manager.round.isSome s.load := by
  intro e he
  obtain ⟨e₀, -, rfl⟩ := map_eq_some_iff.mp he
  exact ⟨rfl, rfl⟩

theorem Sees.act {H H' : List ℕ} {p : CertificatePool} {b : Bool} (hs : Sees p b r)
    (h : Router.Act env H r H' r') : Sees p b r' := by
  refine h.entity (fun e q he => ?_) hs
  obtain ⟨h1, h2, -⟩ := Security.Entity.encapsulatePacket_frame e q
  exact ⟨h1.trans he.1, h2.trans he.2⟩

/-! ### Soundness -/

theorem roundTimeout_of_keeps (h : Router.Keeps r r') :
    ∀ c ∈ r'.runtime.queue, c.callback = .roundTimeout → c ∈ r.runtime.queue :=
  fun c hc hcb => h.timers c hc (by simp [hcb]) (by simp [hcb])

theorem flush_keeps (env : Environment) (r : Router Security.Entity) :
    Router.Keeps r (r.flushForwardingBuffers env) := by
  have h : Router.Acts env [] r [] (r.flushForwardingBuffers env) := Router.flush_acts r
  exact h.keeps

theorem ret_returns (hi : Inv m) (hu : m.control = .user)
    (hf : m.frames = .hook n k :: fs) (h : IdentityManager.step m .ret = some m') :
    Inv m' ∧ m'.frames = fs ∧ ∀ j ∈ m.handles, j ∈ m'.handles := by
  refine ⟨inv_step hi h, ?_, fun j hj => mem_handles_step h hj (by simp)⟩
  rw [ret_hook hu hf] at h
  obtain rfl := some.inj h
  rfl

theorem answer_returns {m m₂ m₃ : IdentityManager.State} {r : Responder} (hi : Inv m)
    (hf : m.frames = .hook n k :: fs) (h₂ : IdentityManager.step m (.respond c r true) = some m₂)
    (h₃ : IdentityManager.step m₂ .ret = some m₃) :
    Inv m₃ ∧ m₃.frames = fs ∧ ∀ j ∈ m.handles, j ∈ m₃.handles := by
  obtain ⟨hu, hf₂⟩ := respond_in_hook hi hf h₂
  obtain ⟨hi₃, hf₃, hh⟩ := ret_returns (inv_step hi h₂) hu (hf₂.trans hf) h₃
  exact ⟨hi₃, hf₃, fun j hj => hh j (mem_handles_step h₂ hj (by simp))⟩

theorem Sound.of_manager (hs : Sound s) (hi : Inv s'.manager) (hsub : s'.subscription = s.subscription)
    (hh : ∀ h, s.subscription = some h → h ∈ s.manager.handles → h ∈ s'.manager.handles)
    (hf : ∀ h, s.subscription = some h → ∀ n, .hook n h ∉ s'.manager.frames) : Sound s' := by
  refine ⟨hi, fun h hsome => ?_⟩
  rw [hsub] at hsome
  exact ⟨hh h hsome (hs.idle h hsome).1, hf h hsome⟩

theorem Sound.save (hs : Sound s)
    (hq : ∀ c ∈ r.runtime.queue, c.callback = .roundTimeout → c ∈ s.manager.runtime.queue) : Sound (s.save r) :=
  hs.of_manager (hs.inv.of_runtime hq) rfl (fun _ _ hh => hh) fun h hsub => (hs.idle h hsub).2

theorem Calls.inv (hi : Inv m)
    (hc : Calls m n h m') : Inv m' ∧ ∀ j ∈ m.handles, j ∈ m'.handles :=
  ⟨inv_step hi hc.step, fun _ hj => mem_handles_step hc.step hj (by simp)⟩

theorem Sound.of_return (hs : Sound s) {m₁ m₃ : IdentityManager.State} (hc : Calls s.manager n h m₁)
    (hr : Inv m₃ ∧ m₃.frames = s.manager.frames ∧ ∀ j ∈ m₁.handles, j ∈ m₃.handles)
    (hm : s'.manager = m₃) (hsub : s'.subscription = s.subscription) : Sound s' := by
  subst hm
  obtain ⟨hi, hf, hh⟩ := hr
  refine hs.of_manager hi hsub (fun j _ hj => hh j ((hc.inv hs.inv).2 j hj)) fun j hj n' => ?_
  rw [hf]
  exact (hs.idle j hj).2 n'

theorem sound_step (hs : Sound s) (h : Trans env s e s') : Sound s' := by
  have hidle := fun h hsub => (hs.idle h hsub).2
  cases h with
  | stay e => exact hs
  | router e rt r _ hu hnow hq ha =>
    exact hs.save fun c hc hcb => hq c (roundTimeout_of_keeps ha.keeps c hc hcb)
  | position fix hu =>
    exact (hs.save (r := s.load.updatePosition fix) fun c hc _ => hc).of_manager (hs.inv.of_runtime fun c hc _ => hc)
      rfl
      (fun _ _ hh => hh) hidle
  | address addr hu hm => exact hs.of_manager hs.inv rfl (fun _ _ hh => hh) hidle
  | manager e m hp hm hno =>
    refine hs.of_manager (inv_step hs.inv hm) rfl (fun h hsub hh => ?_) hno
    refine mem_handles_step hm hh ?_
    rintro rfl
    exact hp hsub
  | prepare n h m₁ m₂ m₃ r hsub hcmd hc hr h₂ h₃ =>
    obtain ⟨hi₁, -⟩ := hc.inv hs.inv
    obtain ⟨rest, -, hf⟩ := hc.frames
    have hi : Inv { m₁ with runtime := r.runtime } := by
      refine hi₁.of_runtime fun c hcq hcb => ?_
      subst hr
      rw [hc.runtime]
      exact roundTimeout_of_keeps (flush_keeps env s.load) c hcq hcb
    have hret := answer_returns hi hf h₂ h₃
    exact hs.of_return hc hret rfl rfl
  | commit n h m₁ m₂ m₃ hsub hcmd hc h₂ h₃ =>
    obtain ⟨hi₁, -⟩ := hc.inv hs.inv
    obtain ⟨rest, -, hf⟩ := hc.frames
    exact hs.of_return hc (answer_returns hi₁ hf h₂ h₃) rfl rfl
  | abort n h m₁ m₃ hsub hcmd hc h₃ =>
    obtain ⟨hi₁, -⟩ := hc.inv hs.inv
    obtain ⟨rest, -, hf⟩ := hc.frames
    exact hs.of_return hc (ret_returns hi₁ hc.control hf h₃) rfl rfl

theorem sound_init {C : IdentityManager.State → IdentityManager.Event → Prop} {pool : CertificatePool}
    {now : TimePoint} (cfg : StackConfig) (mib : Mib) (e : Security.Entity) (hp : pool.Wf)
    (hm : Lib.Run IdentityManager.step C (IdentityManager.init pool now) m) (hu : m.control = .user) :
    Sound (init env cfg mib m e) := by
  set rt := (Router.init env mib m.runtime (some e)).runtime with hrt
  have hi : Inv { m with runtime := rt } := by
    refine (inv_reach hp hm).of_runtime fun c hc hcb => ?_
    exact Router.init_timers hc (by simp [hcb])
  unfold init
  dsimp only
  by_cases ha : mib.itsGnLocalAddrConfMethod = .anonymous
  · rw [if_pos ha]
    have hidle : ∀ n, .hook n m.nextSubscription ∉ m.frames := fun n hn =>
      lt_irrefl _ (hook_below hp hm n _ hn)
    have hs : Sound
        { cfg := cfg
          manager := (IdentityManager.State.subscribe { m with runtime := rt } []).2
          router := (Router.init env mib m.runtime (some e)).setAddress mib.itsGnLocalGnAddr
          subscription := some m.nextSubscription } := by
      refine ⟨hi.subscribe hu [], fun h hh => ?_⟩
      obtain rfl := some.inj hh
      refine ⟨?_, hidle⟩
      rw [IdentityManager.State.handles_subscribe]
      exact List.mem_append_right _ List.mem_cons_self
    split_ifs
    · exact hs.of_manager hs.inv rfl (fun _ _ hh => hh) fun h hh => (hs.idle h hh).2
    · exact hs
  · rw [if_neg ha]
    exact ⟨hi, fun h hh => by simp at hh⟩

/-! ### The hook runs to its end -/

/-- The stack's hook has returned: the loop of `n` goes on after the stack, the answer to PREPARE
and COMMIT is taken, and ABORT leaves the round alone. -/
structure Returned (s : State) (n : Notification) (h : SubscriptionHandle) (s' : State) : Prop where
  control : s'.manager.control = .loop { n with handles := n.handles.tail }
  frames : s'.manager.frames = s.manager.frames
  round : s'.manager.round =
    if n.command = .abort then s.manager.round else (s.manager.eraseOutstanding h).round
  changePending : s'.changePending = decide (n.command = .prepare)
  address : n.command = .commit → s'.router.localPositionVector.gnAddr.mid = midOf n.id

theorem answer_taken {r : Responder} (hi : Inv m) (hu : m.control = .user)
    (hf : m.frames = .hook n k :: fs) (hh : m.handedOut c r = true) (hr : m.inRound r.round = true) :
    ∃ m₂ m₃, IdentityManager.step m (.respond c r true) = some m₂ ∧ IdentityManager.step m₂ .ret = some m₃ ∧
      m₃.control = .loop n ∧ m₃.frames = fs ∧ m₃.round = (m.eraseOutstanding r.handle).round := by
  obtain ⟨m₂, h₂⟩ := respond_isSome hu hh
  obtain ⟨hu₂, hf₂⟩ := respond_in_hook hi hf h₂
  have htaken := respond_taken hr h₂
  exact ⟨m₂, _, h₂, ret_hook hu₂ (hf₂.trans hf), rfl, rfl, htaken⟩

theorem calls_of_loop (hs : Sound s) (hsub : s.subscription = some h) (hl : s.manager.control = .loop n)
    {rest : List SubscriptionHandle} (hh : n.handles = h :: rest)
    (hin : n.expectResponse = true → s.manager.inRound n.roundId = true) : ∃ m, Calls s.manager n h m := by
  have hbreak : ¬ (n.expectResponse && !s.manager.inRound n.roundId) = true := by
    simpa using hin
  have hmem : s.manager.handles.contains h = true := by simpa using (hs.idle h hsub).1
  refine ⟨_, calls_of_deliver hl hh hin ?_ rfl⟩
  simp only [IdentityManager.step, hl, IdentityManager.State.proceed, IdentityManager.State.loop, hh]
  rw [if_neg hbreak, if_pos hmem]

theorem managerStep_returns (hs : Sound s) (hsub : s.subscription = some h) (hc : Calls s.manager n h m) :
    ∃ s', s.managerStep env .proceed = some s' ∧ Returned s n h s' := by
  obtain ⟨hi₁, -⟩ := hc.inv hs.inv
  obtain ⟨rest, hh, hf⟩ := hc.frames
  have hok := hs.inv.notifications n (by rw [IdentityManager.State.active_loop hc.loop]; exact List.mem_cons_self)
  -- PREPARE and COMMIT are answered in their round
  have hround : ∀ {m' : IdentityManager.State}, n.command ≠ .abort → m'.round = m.round →
    m'.inRound n.subject = true := by
    intro m' hne heq
    obtain ⟨hexpect, hsame⟩ := hok.expects hne
    have hin := hc.inRound hexpect
    rw [hsame] at hin
    unfold IdentityManager.State.inRound at hin ⊢
    rwa [heq, hc.round]
  have herase : ∀ {m' : IdentityManager.State}, m'.round = m.round →
      (m'.eraseOutstanding h).round = (s.manager.eraseOutstanding h).round := by
    intro m' heq
    simp only [IdentityManager.State.eraseOutstanding, heq, hc.round]
  have htail : n.handles.tail = rest := by rw [hh, List.tail_cons]
  rw [managerStep_calls hsub hc]
  rcases hc.command hs.inv with hcmd | hcmd | hcmd
  · set r := ({ s with manager := m, changePending := true } : State).load.flushForwardingBuffers env with hr
    have hi : Inv { m with runtime := r.runtime } :=
      hi₁.of_runtime (roundTimeout_of_keeps (flush_keeps env _))
    obtain ⟨m₂, m₃, h₂, h₃, hcontrol, hframes, htaken⟩ := answer_taken (c := .prepare) (r := ⟨n.subject, h⟩) hi
      hc.control hf (by simp [IdentityManager.State.handedOut, hc.log, hcmd]) (hround (by simp [hcmd]) rfl)
    refine ⟨{ s with manager := m₃, router := r, changePending := true }, ?_, ?_⟩
    · simp only [State.onIdChange, hcmd, State.respond, State.save, ← hr, h₂, map_some, bind_some, h₃]
    · exact ⟨htail ▸ hcontrol, hframes, by simp [hcmd, htaken.trans (herase rfl)], by simp [hcmd], by simp [hcmd]⟩
  · obtain ⟨m₂, m₃, h₂, h₃, hcontrol, hframes, htaken⟩ := answer_taken (c := .commit) (r := ⟨n.subject, h⟩) hi₁
      hc.control hf (by simp [IdentityManager.State.handedOut, hc.log, hcmd]) (hround (by simp [hcmd]) rfl)
    refine ⟨{ s.applyIdentifier n.id with manager := m₃, changePending := false }, ?_, ?_⟩
    · simp only [State.onIdChange, hcmd, State.respond, State.applyIdentifier, h₂, map_some, bind_some, h₃]
    · exact ⟨htail ▸ hcontrol, hframes, by simp [hcmd, htaken.trans (herase rfl)], by simp [hcmd], fun _ => rfl⟩
  · refine ⟨{ s with manager := { m with frames := s.manager.frames, control := .loop { n with handles := rest } }
                     changePending := false }, ?_, htail ▸ rfl, rfl, by simp [hcmd, hc.round], by
                       simp [hcmd], by simp [hcmd]⟩
    simp only [State.onIdChange, hcmd, bind_some, ret_hook hc.control hf, map_some]

/-- **The hook of the stack returns** in every run of a station: the loop of `notify` goes on
after it, and the round does not wait for the stack any more. -/
theorem hook_returns {C : IdentityManager.State → IdentityManager.Event → Prop} {D : State → Event → Prop}
    {pool : CertificatePool} {now : TimePoint} (cfg : StackConfig) (mib : Mib) (entity : Security.Entity) (hp : pool.Wf)
    (hm : Lib.Run IdentityManager.step C (IdentityManager.init pool now) m) (hu : m.control = .user)
    (hs : Lib.Run (step env) D (init env cfg mib m entity) s) (hsub : s.subscription = some h)
    (hl : s.manager.control = .loop n) (hh : n.handles.head? = some h)
    (hin : n.expectResponse = true → s.manager.inRound n.roundId = true) :
    ∃ s', step env s (.manager .proceed) = some s' ∧ Returned s n h s' := by
  have hsound : Sound s :=
    hs.invariant (sound_init cfg mib entity hp hm hu) fun _ h _ hstep => sound_step h (trans_of_step h hstep)
  obtain ⟨rest, hrest⟩ := List.head?_eq_some_iff.mp hh
  obtain ⟨m', hc⟩ := calls_of_loop hsound hsub hl hrest hin
  obtain ⟨s', hs', hreturned⟩ : ∃ s', s.managerStep env .proceed = some s' ∧ Returned s n h s' :=
    managerStep_returns hsound hsub hc
  have hpermitted : s.Permitted .proceed := True.intro
  refine ⟨s', ?_, hreturned⟩
  unfold step
  dsimp only
  rw [if_pos hpermitted, hs']

/-- PREPARE of the first round, at the only subscriber. -/
def samplePrepare : Notification :=
  { command := .prepare, id := Vector.replicate 8 2, expectResponse := true, roundId := 1, subject := 1,
    handles := [1] }

/-- The round waits for the stack, and after its hook for nobody. -/
theorem hook_returns_prepare : ∃ s s', step sampleEnvironment s (.manager .proceed) = some s' ∧
    s.manager.round = some ⟨1, .prepare, Vector.replicate 8 2, {1}⟩ ∧
    s'.manager.round = some ⟨1, .prepare, Vector.replicate 8 2, ∅⟩ ∧ Returned s samplePrepare 1 s' := by
  obtain ⟨s, hs, hp⟩ := Lib.exists_run_of_exec (f := step sampleEnvironment) (C := Lib.Anything)
    (s := sampleStation sampleEnvironment (samplePool .years))
    (p := fun s => decide (s.subscription = some 1 ∧ s.manager.control = .loop samplePrepare ∧
      s.manager.round = some ⟨1, .prepare, Vector.replicate 8 2, {1}⟩))
    (l := [.manager .trigger, .manager .proceed]) (by decide +kernel)
  obtain ⟨hsub, hl, hround⟩ := of_decide_eq_true hp
  obtain ⟨s', hstep, hreturned⟩ := hook_returns (C := Lib.Anything) {} sampleMib (Security.sampleEntity false)
    (samplePool_wf .years) .refl rfl hs hsub hl rfl
      (fun _ => by simp [IdentityManager.State.inRound, hround, samplePrepare])
  refine ⟨s, s', hstep, hround, ?_, hreturned⟩
  rw [hreturned.round, if_neg (by decide)]
  simp [IdentityManager.State.eraseOutstanding, hround]

end VanetzaIdf.Stack
