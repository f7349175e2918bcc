/-
# The invariant of the identity manager

The calls of `notify` that have not returned (`State.active`) carry the argument:
each stands for a command of one round, and bounds how far that round can be
while it runs (`Notification.Ok`). The depth counter counts them, a phase change
waits until it is zero, and the round timer runs only then (`Inv`, `inv_step`).
-/
import VanetzaIdf.Lib.Run
import VanetzaIdf.Identity.Steps

namespace VanetzaIdf.IdentityManager

open Lib List ManualRuntime

/-- The call of `notify` a hook was called from. -/
def Frame.notification : Frame → Option Notification
  | .hook n _ => some n
  | .committed => none

namespace State

/-- The calls of `notify` that have not returned, innermost first. -/
def active (s : State) : List Notification :=
  match s.control with
  | .loop n => n :: s.frames.filterMap Frame.notification
  | _ => s.frames.filterMap Frame.notification

/-- Where the round is: its number, its phase and the identifier it announces. -/
def stage (s : State) : Option (ℕ × Phase × Identifier) := s.round.map fun ρ => (ρ.id, ρ.phase, ρ.newIdentifier)

/-- A handle that was given out. -/
def Known (s : State) (h : SubscriptionHandle) : Prop := h ∈ s.handles ∨ .unsubscribed h ∈ s.log

variable {s : State}

theorem active_loop {n : Notification} (h : s.control = .loop n) :
    s.active = n :: s.frames.filterMap Frame.notification := by
  unfold active
  rw [h]

theorem active_of_not_loop (h : ∀ n, s.control ≠ .loop n) : s.active = s.frames.filterMap Frame.notification := by
  unfold active
  split
  · rename_i n hn
    exact absurd hn (h n)
  · rfl

theorem active_user (h : s.control = .user) : s.active = s.frames.filterMap Frame.notification :=
  active_of_not_loop fun n => by simp [h]

theorem stage_none : s.stage = none ↔ s.round = none := by simp [stage]

theorem stage_some {ρ : Round} (h : s.round = some ρ) :
    s.stage = some (ρ.id, ρ.phase, ρ.newIdentifier) := by simp [stage, h]

theorem stage_phase {ρ : Round} {p : Phase} (h : s.round = some ρ) (hp : ρ.phase = p) :
    s.stage = some (ρ.id, p, ρ.newIdentifier) :=
  hp ▸ stage_some h

theorem stage_congr {s' : State} (h : s'.round = s.round) : s'.stage = s.stage := by simp only [stage, h]

theorem round_of_stage {r : ℕ} {p : Phase} {id : Identifier} (h : s.stage = some (r, p, id)) :
    ∃ ρ, s.round = some ρ ∧ ρ.id = r ∧ ρ.phase = p ∧ ρ.newIdentifier = id := by
  simpa [stage] using h

@[simp] theorem stage_eraseOutstanding (s : State) (h : SubscriptionHandle) :
    (s.eraseOutstanding h).stage = s.stage := by
  simp [stage, eraseOutstanding, Function.comp_def]

theorem stage_erased {s' : State} {h : SubscriptionHandle} (hr : s'.round = (s.eraseOutstanding h).round) :
    s'.stage = s.stage :=
  (stage_congr hr).trans (stage_eraseOutstanding s h)

theorem handles_subscribe (s : State) (data : ByteBuffer) :
    (s.subscribe data).2.handles = s.handles ++ [s.nextSubscription] := by
  simp [handles, subscribe]

theorem handles_dropSubscription (s : State) (h : SubscriptionHandle) :
    (s.dropSubscription h).handles = s.handles.filter (· ≠ h) := by
  simp [handles, dropSubscription, filter_map, Function.comp_def]

@[simp] theorem stage_dropSubscription (s : State) (h : SubscriptionHandle) :
    (s.dropSubscription h).stage = s.stage :=
  stage_eraseOutstanding s h

@[simp] theorem stage_notify (s : State) (c : IdChangeCommand) (id : Identifier) (b : Bool) (r : ℕ) :
    (s.notify c id b r).stage = s.stage := by
  cases b <;> simp [stage, notify, Function.comp_def]

theorem mem_handles_dropSubscription {h k : SubscriptionHandle} :
    k ∈ (s.dropSubscription h).handles ↔ k ∈ s.handles ∧ k ≠ h := by
  rw [handles_dropSubscription]
  simp

end State

open State

/-! ### What a running notification knows -/

/-- A call of `notify` that has not returned. -/
structure Notification.Ok (s : State) (n : Notification) : Prop where
  kind : n.expectResponse = true ∧ n.roundId = n.subject ∧ (n.command = .prepare ∨ n.command = .commit) ∨
    n.expectResponse = false ∧ n.roundId = 0 ∧ n.command = .abort
  started : 1 ≤ n.subject ∧ n.subject ≤ s.roundCounter
  prepare : n.command = .prepare → ∀ p id, s.stage = some (n.subject, p, id) → p = .prepare ∧ id = n.id
  commit : n.command = .commit → s.stage = some (n.subject, .commit, n.id)
  abort : n.command = .abort → ∀ p id, s.stage ≠ some (n.subject, p, id)
  nodup : n.handles.Nodup
  known : ∀ h ∈ n.handles, s.Known h

namespace Notification.Ok

variable {s s' : State} {n : Notification}

theorem of_stage (hn : n.Ok s) (hs : s'.stage = s.stage) (hc : s'.roundCounter = s.roundCounter)
    (hk : ∀ h, s.Known h → s'.Known h) : n.Ok s' where
  kind := hn.kind
  started := by rw [hc]; exact hn.started
  prepare := by rw [hs]; exact hn.prepare
  commit := by rw [hs]; exact hn.commit
  abort := by rw [hs]; exact hn.abort
  nodup := hn.nodup
  known h hh := hk h (hn.known h hh)

theorem tail {h : SubscriptionHandle} {rest : List SubscriptionHandle} (hn : n.Ok s) (hh : n.handles = h :: rest) :
    ({ n with handles := rest } : Notification).Ok s :=
  { hn with
    nodup := (nodup_cons.mp (hh ▸ hn.nodup)).2
    known := fun k hk => hn.known k (hh ▸ mem_cons_of_mem h hk) }

theorem expects (hn : n.Ok s) (hc : n.command ≠ .abort) : n.expectResponse = true ∧ n.roundId = n.subject := by
  rcases hn.kind with h | h
  · exact ⟨h.1, h.2.1⟩
  · exact absurd h.2.2 hc

end Notification.Ok

/-! ### The invariant -/

/-- What the manager's own functions are called for. -/
def State.ControlOk (s : State) : Prop :=
  match s.control with
  | .advance => s.notifyDepth = 0 ∧ ∃ ρ, s.round = some ρ ∧ ρ.outstanding = ∅
  | .finish => s.notifyDepth = 0 ∧ ∃ ρ, s.round = some ρ ∧ ρ.phase = .commit
  | .abort => ∃ ρ, s.round = some ρ ∧ ρ.phase = .prepare
  | _ => True

/-- The invariant of the manager. -/
structure Inv (s : State) : Prop where
  wf : s.pool.Wf
  tickets : s.stage ≠ none → s.pool.tickets ≠ []
  depth : s.notifyDepth = s.active.length
  counter : ∀ r p id, s.stage = some (r, p, id) → r = s.roundCounter ∧ 1 ≤ r
  nodup : s.handles.Nodup
  below : ∀ h ∈ s.handles, h < s.nextSubscription
  gone : ∀ h, .unsubscribed h ∈ s.log → h ∉ s.handles ∧ h < s.nextSubscription
  notifications : ∀ n ∈ s.active, n.Ok s
  control : s.ControlOk
  timer : ∀ c ∈ s.runtime.queue, c.callback = .roundTimeout →
    c.scope = some .roundTimer ∧ s.stage ≠ none ∧ s.notifyDepth = 0

theorem inv_init {pool : CertificatePool} (hp : pool.Wf) (now : TimePoint) : Inv (init pool now) where
  wf := hp
  tickets h := absurd rfl h
  depth := rfl
  counter r p id h := by simp [init, stage] at h
  nodup := nodup_nil
  below h hh := by simp [init, handles] at hh
  gone h hh := by simp [init] at hh
  notifications n hn := by simp [init, active] at hn
  control := trivial
  timer c hc := by simp [init] at hc

/-- The stage of the round, the subscriptions and the depth of the notifications
are the same. -/
structure SameBooks (s s' : State) : Prop where
  stage : s'.stage = s.stage := by rfl
  counter : s'.roundCounter = s.roundCounter := by rfl
  handles : s'.handles = s.handles := by rfl
  next : s'.nextSubscription = s.nextSubscription := by rfl
  depth : s'.notifyDepth = s.notifyDepth := by rfl
  gone : ∀ h, .unsubscribed h ∈ s'.log ↔ .unsubscribed h ∈ s.log := by exact fun _ => Iff.rfl

namespace Inv

variable {s s' : State} {ρ : Round} {rt : Runtime} {h : SubscriptionHandle} {n : Notification}
  {rest : List SubscriptionHandle} {e : Entry} {fs : List Frame} {stats : IdentityStatistics} {k : Control}

theorem advance (hi : Inv s) (hc : s.control = .advance) (hr : s.round = some ρ) :
    s.notifyDepth = 0 ∧ ρ.outstanding = ∅ := by
  simpa [ControlOk, hc, hr] using hi.control

theorem finish (hi : Inv s) (hc : s.control = .finish) (hr : s.round = some ρ) :
    s.notifyDepth = 0 ∧ ρ.phase = .commit := by
  simpa [ControlOk, hc, hr] using hi.control

theorem abort (hi : Inv s) (hc : s.control = .abort) (hr : s.round = some ρ) : ρ.phase = .prepare := by
  simpa [ControlOk, hc, hr] using hi.control

theorem active_nil (hi : Inv s) (hd : s.notifyDepth = 0) : s.active = [] :=
  eq_nil_of_length_eq_zero (hi.depth ▸ hd)

theorem frames_nil (hi : Inv s) (hl : ∀ n, s.control ≠ .loop n) (hd : s.notifyDepth = 0) :
    s.frames.filterMap Frame.notification = [] := by
  rw [← active_of_not_loop hl, hi.active_nil hd]

theorem unsubscribed_mem_cons {l : List Entry} (he : ∀ k, e ≠ .unsubscribed k) :
    .unsubscribed h ∈ e :: l ↔ .unsubscribed h ∈ l := by
  simp [(he h).symm]

theorem round_id (hi : Inv s) (hr : s.round = some ρ) : ρ.id = s.roundCounter ∧ 1 ≤ ρ.id :=
  hi.counter _ _ _ (stage_some hr)

theorem keep (hi : Inv s) (hb : SameBooks s s') (ha : s'.active = s.active) (hwf : s'.pool.Wf)
    (ht : s.pool.tickets ≠ [] → s'.pool.tickets ≠ [])
    (hq : ∀ c ∈ s'.runtime.queue, c.callback = .roundTimeout → c ∈ s.runtime.queue)
    (hctl : s'.ControlOk) : Inv s' where
  wf := hwf
  tickets h := ht (hi.tickets (hb.stage ▸ h))
  depth := by rw [hb.depth, ha]; exact hi.depth
  counter := by rw [hb.stage, hb.counter]; exact hi.counter
  nodup := by rw [hb.handles]; exact hi.nodup
  below := by rw [hb.handles, hb.next]; exact hi.below
  gone h hg := by rw [hb.handles, hb.next]; exact hi.gone h ((hb.gone h).mp hg)
  notifications n hn := (hi.notifications n (ha ▸ hn)).of_stage hb.stage hb.counter fun h hk => by
    unfold Known at hk ⊢
    rwa [hb.handles, hb.gone]
  control := hctl
  timer c hc hcb := by rw [hb.stage, hb.depth]; exact hi.timer c (hq c hc hcb) hcb

theorem of_runtime (hi : Inv s)
    (hq : ∀ c ∈ rt.queue, c.callback = .roundTimeout → c ∈ s.runtime.queue) : Inv { s with runtime := rt } :=
  hi.keep {} rfl hi.wf id hq hi.control

theorem controlOk_user (hc : s.control = .user) : s.ControlOk := by
  unfold ControlOk
  rw [hc]
  trivial

theorem user_step (hi : Inv s) (hu : s.control = .user) (hb : SameBooks s s') (hf : s'.frames = s.frames)
    (hwf : s'.pool.Wf) (ht : s.pool.tickets ≠ [] → s'.pool.tickets ≠ [])
    (hq : ∀ c ∈ s'.runtime.queue, c.callback = .roundTimeout → c ∈ s.runtime.queue)
    (hctl : s'.ControlOk) (hl : ∀ n, s'.control ≠ .loop n) : Inv s' := by
  refine hi.keep hb ?_ hwf ht hq hctl
  rw [active_user hu, active_of_not_loop hl, hf]

/-! ### Subscriptions -/

theorem subscribe (hi : Inv s) (hu : s.control = .user) (data : ByteBuffer) : Inv (s.subscribe data).2 := by
  have hh := handles_subscribe s data
  have hfresh : s.nextSubscription ∉ s.handles := fun h => lt_irrefl _ (hi.below _ h)
  have hk : ∀ h, s.Known h → (s.subscribe data).2.Known h := by
    intro h hk
    unfold Known at hk ⊢
    rw [hh]
    exact hk.imp (mem_append_left _) id
  refine { hi with nodup := ?_, below := ?_, gone := ?_, notifications := ?_, control := controlOk_user hu }
  · rw [hh]
    refine hi.nodup.append (nodup_singleton _) ?_
    simpa using hfresh
  · intro h hm
    rw [hh] at hm
    have hn : (s.subscribe data).2.nextSubscription = s.nextSubscription + 1 := rfl
    rw [hn]
    rcases mem_append.mp hm with hm | hm
    · exact Nat.lt_succ_of_lt (hi.below h hm)
    · rw [mem_singleton.mp hm]
      exact Nat.lt_succ_self _
  · intro h hg
    obtain ⟨h1, h2⟩ := hi.gone h hg
    refine ⟨fun hm => ?_, Nat.lt_succ_of_lt h2⟩
    rw [hh] at hm
    rcases mem_append.mp hm with hm | hm
    · exact h1 hm
    · exact h2.ne (mem_singleton.mp hm)
  · intro n hn
    exact (hi.notifications n hn).of_stage rfl rfl hk

theorem dropSubscription (hi : Inv s) (hu : s.control = .user) (hm : h ∈ s.handles)
    {c : Control} (hl : ∀ n, c ≠ .loop n) (hctl : ({ s.dropSubscription h with control := c } : State).ControlOk) :
    Inv { s.dropSubscription h with control := c } := by
  set t : State := { s.dropSubscription h with control := c } with ht
  have hs : t.stage = s.stage := stage_dropSubscription s h
  have ha : t.active = s.active := by
    rw [active_user hu, active_of_not_loop (s := t) hl]
    rfl
  have hh : ∀ k, k ∈ t.handles ↔ k ∈ s.handles ∧ k ≠ h := fun k => mem_handles_dropSubscription
  have hlog : t.log = .unsubscribed h :: s.log := rfl
  refine
    { hi with
      tickets := by rw [hs]; exact hi.tickets
      depth := by rw [ha]; exact hi.depth
      counter := by rw [hs]; exact hi.counter
      nodup := ?_
      below := fun k hk => hi.below k ((hh k).mp hk).1
      gone := fun k hk => ?_
      notifications := fun n hn => (hi.notifications n (ha ▸ hn)).of_stage hs rfl fun k hk => ?_
      control := hctl
      timer := by rw [hs]; exact hi.timer }
  · have : t.handles = s.handles.filter (· ≠ h) := handles_dropSubscription s h
    rw [this]
    exact hi.nodup.filter _
  · rw [hlog] at hk
    rw [hh]
    rcases mem_cons.mp hk with hk | hk
    · obtain rfl : k = h := by simpa using hk
      exact ⟨fun hc => hc.2 rfl, hi.below k hm⟩
    · exact ⟨fun hc => (hi.gone k hk).1 hc.1, (hi.gone k hk).2⟩
  · unfold Known at hk ⊢
    rw [hh, hlog]
    by_cases hkh : k = h
    · exact .inr (hkh ▸ mem_cons_self)
    · exact hk.imp (⟨·, hkh⟩) (mem_cons_of_mem _)

/-! ### Notifications -/

theorem active_notify (hu : s.control = .user) (c : IdChangeCommand) (id : Identifier) (b : Bool) (r : ℕ) :
    (s.notify c id b r).active =
      { command := c, id := id, expectResponse := b, roundId := (s.round.map (·.id)).getD 0, subject := r,
        handles := s.handles } :: s.active := by
  rw [active_user hu]
  rfl

theorem notify (hi : Inv s) (hu : s.control = .user) {c : IdChangeCommand} {id : Identifier} {b : Bool} {r : ℕ}
    (hq : ¬ s.runtime.Waits .roundTimeout)
    (hkind : b = true ∧ (s.round.map (·.id)).getD 0 = r ∧ (c = .prepare ∨ c = .commit) ∨
      b = false ∧ (s.round.map (·.id)).getD 0 = 0 ∧ c = .abort)
    (hr : 1 ≤ r ∧ r ≤ s.roundCounter)
    (hp : c = .prepare → s.stage = some (r, .prepare, id)) (hcm : c = .commit → s.stage = some (r, .commit, id))
    (hab : c = .abort → s.stage = none) : Inv (s.notify c id b r) := by
  have hs := stage_notify s c id b r
  have ha := active_notify hu c id b r
  have hk : ∀ h, s.Known h → (s.notify c id b r).Known h := fun h hk => hk
  refine
    { hi with
      tickets := by rw [hs]; exact hi.tickets
      depth := by rw [ha, length_cons, ← hi.depth]; rfl
      counter := by rw [hs]; exact hi.counter
      notifications := ?_
      control := trivial
      timer := fun c hc hcb => absurd ⟨c, hc, hcb⟩ hq }
  intro n hn
  rw [ha] at hn
  rcases mem_cons.mp hn with rfl | hn
  · refine
      { kind := hkind
        started := hr
        prepare := fun h p i hst => ?_
        commit := fun h => by rw [hs]; exact hcm h
        abort := fun h p i => by rw [hs, hab h]; simp
        nodup := hi.nodup
        known := fun h hh => .inl hh }
    rw [hs, hp h] at hst
    have := Option.some.inj hst
    simp only [Prod.mk.injEq] at this
    exact ⟨this.2.1.symm, this.2.2.symm⟩
  · exact (hi.notifications n hn).of_stage hs rfl hk

theorem deliver (hi : Inv s) (hl : s.control = .loop n) (hh : n.handles = h :: rest) (he : ∀ k, e ≠ .unsubscribed k) :
    Inv { s with control := .user, frames := .hook { n with handles := rest } h :: s.frames, log := e :: s.log } := by
  set t : State :=
    { s with control := .user, frames := .hook { n with handles := rest } h :: s.frames, log := e :: s.log } with ht
  have ha : t.active = { n with handles := rest } :: s.frames.filterMap Frame.notification := rfl
  have hk : ∀ k, s.Known k → t.Known k := fun k hk => hk.imp id (unsubscribed_mem_cons he).mpr
  have hold := hi.notifications
  rw [active_loop hl] at hold
  refine
    { hi with
      depth := by rw [ha, length_cons, hi.depth, active_loop hl]; rfl
      gone := fun k hg => hi.gone k ((unsubscribed_mem_cons he).mp hg)
      notifications := fun m hm => ?_
      control := trivial }
  rw [ha] at hm
  rcases mem_cons.mp hm with rfl | hm
  · exact ((hold n mem_cons_self).tail hh).of_stage rfl rfl hk
  · exact (hold m (mem_cons_of_mem _ hm)).of_stage rfl rfl hk

theorem skip (hi : Inv s) (hl : s.control = .loop n) (hh : n.handles = h :: rest) {o : Option Round}
    (ho : o.map (fun ρ => (ρ.id, ρ.phase, ρ.newIdentifier)) = s.stage) :
    Inv { s with round := o, control := .loop { n with handles := rest } } := by
  have hold := hi.notifications
  rw [active_loop hl] at hold
  refine
    { hi with
      tickets := fun hs => hi.tickets (by rwa [← ho])
      depth := by rw [hi.depth, active_loop hl]; rfl
      counter := fun r p id hs => hi.counter r p id (ho ▸ hs)
      notifications := fun m hm => ?_
      control := trivial
      timer := fun c hc hcb => ?_ }
  swap
  · obtain ⟨h1, h2, h3⟩ := hi.timer c hc hcb
    exact ⟨h1, by rwa [← ho] at h2, h3⟩
  rcases mem_cons.mp hm with rfl | hm
  · exact ((hold n mem_cons_self).tail hh).of_stage ho rfl fun _ hk => hk
  · exact (hold m (mem_cons_of_mem _ hm)).of_stage ho rfl fun _ hk => hk

theorem retHook (hi : Inv s) (hu : s.control = .user)
    (hf : s.frames = .hook n h :: fs) : Inv { s with frames := fs, control := .loop n } := by
  refine hi.keep {} ?_ hi.wf id (fun c hc _ => hc) trivial
  rw [active_user hu, hf]
  rfl

theorem pop (hi : Inv s) (hl : s.control = .loop n) :
    Inv { s with notifyDepth := s.notifyDepth - 1, control := .user } := by
  have ha : s.active = n :: s.frames.filterMap Frame.notification := active_loop hl
  have hd : s.notifyDepth = (s.frames.filterMap Frame.notification).length + 1 := by
    rw [hi.depth, ha, length_cons]
  refine
    { hi with
      depth := by rw [hd]; rfl
      notifications := fun m hm => ?_
      control := trivial
      timer := fun c hc hcb => ?_ }
  · have hm' : m ∈ s.active := by
      rw [ha]
      exact mem_cons_of_mem _ hm
    exact (hi.notifications m hm').of_stage rfl rfl fun _ hk => hk
  · have := (hi.timer c hc hcb).2.2
    omega

theorem endNotifyAdvance (hi : Inv s) (hl : s.control = .loop n)
    (hd : s.notifyDepth - 1 = 0) (hr : s.round = some ρ) (ho : ρ.outstanding = ∅) :
    Inv { s with notifyDepth := s.notifyDepth - 1, control := .advance } :=
  have hp := hi.pop hl
  hp.user_step rfl {} rfl hp.wf id (fun _ hc _ => hc) ⟨hd, ρ, hr, ho⟩
    (fun _ => by simp)

theorem endNotifyArm (hi : Inv s) (hl : s.control = .loop n) (hd : s.notifyDepth - 1 = 0) (hr : s.round = some ρ) :
    Inv { s with notifyDepth := s.notifyDepth - 1, control := .user, runtime := s.armRoundTimer.runtime } := by
  have hp := hi.pop hl
  have hst : s.stage ≠ none := by simp [stage_some hr]
  refine
    { hp with
      control := trivial
      notifications := fun m hm => (hp.notifications m hm).of_stage rfl rfl fun _ hk => hk
      timer := fun c hc hcb => ?_ }
  rcases mem_schedule.mp hc with rfl | hc
  · exact ⟨rfl, hst, hd⟩
  · exact ⟨(hi.timer c (mem_cancel.mp hc).1 hcb).1, hst, hd⟩

/-! ### The phases of a round -/

theorem not_waits_cancelRoundTimer (hi : Inv s) : ¬ s.cancelRoundTimer.runtime.Waits .roundTimeout := by
  rintro ⟨c, hc, hcb⟩
  obtain ⟨hm, hs⟩ := mem_cancel.mp hc
  exact hs (hi.timer c hm hcb).1

theorem respond (hi : Inv s) (hu : s.control = .user) (c : IdChangeCommand) (r : Responder) (b : Bool)
    (hl : ∀ n, k ≠ .loop n)
    (hctl : ({ s.eraseOutstanding r.handle with log := .answered c r b :: s.log, stats := stats, control := k } :
      State).ControlOk) :
    Inv { s.eraseOutstanding r.handle with log := .answered c r b :: s.log, stats := stats, control := k } :=
  hi.user_step hu { stage := stage_eraseOutstanding s r.handle, gone := fun _ => by simp } rfl hi.wf id
    (fun _ hc _ => hc) hctl hl

theorem fireRound (hi : Inv s) (hu : s.control = .user) {c : ScheduledCallback Scope Callback}
    (hp : s.runtime.pop = some (c, rt)) (hcb : c.callback = .roundTimeout)
    (hr : s.round = some ρ) :
    Inv { s with
      runtime := rt
      stats := stats
      control := match ρ.phase with
        | .prepare => .abort
        | .commit => .finish } := by
  have hc : c ∈ s.runtime.queue := by
    rw [(pop_some hp).1]
    exact mem_cons_self
  have hd := (hi.timer c hc hcb).2.2
  refine hi.user_step hu {} rfl hi.wf id (fun d hd' _ => mem_of_pop hp hd') ?_ ?_
  · cases hph : ρ.phase with
    | prepare => exact ⟨ρ, hr, hph⟩
    | commit => exact ⟨hd, ρ, hr, hph⟩
  · intro n
    cases ρ.phase <;> simp

theorem commit (hi : Inv s) (ha : s.control = .advance) (hr : s.round = some ρ) (he : ∀ k, e ≠ .unsubscribed k) :
    Inv ({ s.cancelRoundTimer with
      round := some { ρ with phase := .commit }
      pool := (s.pool.select ρ.newIdentifier).2
      log := e :: s.log }.notify .commit ρ.newIdentifier true ρ.id) := by
  have hd := (hi.advance ha hr).1
  have hnil := hi.frames_nil (fun n => by simp [ha]) hd
  have hid := hi.round_id hr
  set t : State := { s.cancelRoundTimer with
    round := some { ρ with phase := .commit }
    pool := (s.pool.select ρ.newIdentifier).2
    log := e :: s.log
    control := .user } with ht
  have hact : t.active = [] := hnil
  have hinv : Inv t := by
    refine
      { hi with
        wf := hi.wf.select _
        tickets := fun _ => ?_
        depth := by rw [hact]; exact hd
        counter := fun r p id h => ?_
        gone := fun h hg => hi.gone h ((unsubscribed_mem_cons he).mp hg)
        notifications := fun n hn => by simp [hact] at hn
        control := trivial
        timer := fun c hc hcb => absurd ⟨c, hc, hcb⟩ hi.not_waits_cancelRoundTimer }
    · have : t.pool.tickets = s.pool.tickets := CertificatePool.select_tickets _ _
      rw [this]
      exact hi.tickets (by simp [stage_some hr])
    · have h' : t.stage = some (ρ.id, .commit, ρ.newIdentifier) := rfl
      rw [h'] at h
      obtain ⟨rfl, -, -⟩ := by simpa using h
      exact hid
  exact hinv.notify (s := t) rfl hi.not_waits_cancelRoundTimer (.inl ⟨rfl, rfl, .inr rfl⟩)
    ⟨hid.2, hid.1.le⟩ (by simp) (fun _ => rfl) (by simp)

theorem abort_notify (hi : Inv s) (ha : s.control = .abort) (hr : s.round = some ρ) (he : ∀ k, e ≠ .unsubscribed k) :
    Inv ({ s.cancelRoundTimer with round := none, stats := stats, log := e :: s.log }.notify
      .abort ρ.newIdentifier false ρ.id) := by
  have hl : ∀ n, s.control ≠ .loop n := fun n => by simp [ha]
  have hid := hi.round_id hr
  have hst := stage_phase hr (hi.abort ha hr)
  set t : State := { s.cancelRoundTimer with round := none, stats := stats, log := e :: s.log, control := .user }
    with ht
  have hact : t.active = s.active := by
    rw [active_of_not_loop hl]
    rfl
  have hnone : t.stage = none := rfl
  have hinv : Inv t := by
    refine
      { hi with
        tickets := fun h => absurd hnone h
        depth := by rw [hact]; exact hi.depth
        counter := fun r p id h => by simp [hnone] at h
        gone := fun h hg => hi.gone h ((unsubscribed_mem_cons he).mp hg)
        notifications := fun n hn => ?_
        control := trivial
        timer := fun c hc hcb => absurd ⟨c, hc, hcb⟩ hi.not_waits_cancelRoundTimer }
    have hn' := hi.notifications n (hact ▸ hn)
    exact
      { hn' with
        prepare := fun _ p id h => by simp [hnone] at h
        -- COMMIT is not sent while the round is still in PREPARE
        commit := fun h => by simpa [hst] using hn'.commit h
        abort := fun _ p id => by simp [hnone]
        known := fun h hh => (hn'.known h hh).imp id (unsubscribed_mem_cons he).mpr }
  exact hinv.notify (s := t) rfl hi.not_waits_cancelRoundTimer (.inr ⟨rfl, rfl, rfl⟩)
    ⟨hid.2, hid.1.le⟩ (by simp) (by simp) (fun _ => hnone)

theorem start (hi : Inv s) {next : Ticket} (htr : s.control = .tryStart) (hr : s.round = none)
    (hne : s.pool.tickets ≠ []) (he : ∀ k, e ≠ .unsubscribed k) :
    Inv ({ s with
      pendingTrigger := false
      roundCounter := s.roundCounter + 1
      round := some ⟨s.roundCounter + 1, .prepare, next.digest, ∅⟩
      log := e :: s.log }.notify .prepare next.digest true (s.roundCounter + 1)) := by
  have hl : ∀ n, s.control ≠ .loop n := fun n => by simp [htr]
  have hst : s.stage = none := stage_none.mpr hr
  set t : State := { s with
    pendingTrigger := false
    roundCounter := s.roundCounter + 1
    round := some ⟨s.roundCounter + 1, .prepare, next.digest, ∅⟩
    log := e :: s.log
    control := .user } with ht
  have hact : t.active = s.active := by
    rw [active_of_not_loop hl]
    rfl
  have hstage : t.stage = some (s.roundCounter + 1, .prepare, next.digest) := rfl
  have hq : ¬ s.runtime.Waits .roundTimeout := fun ⟨c, hc, hcb⟩ => (hi.timer c hc hcb).2.1 hst
  have hinv : Inv t := by
    refine
      { hi with
        tickets := fun _ => hne
        depth := by rw [hact]; exact hi.depth
        counter := fun r p id h => ?_
        gone := fun h hg => hi.gone h ((unsubscribed_mem_cons he).mp hg)
        notifications := fun n hn => ?_
        control := trivial
        timer := fun c hc hcb => absurd ⟨c, hc, hcb⟩ hq }
    · rw [hstage] at h
      obtain ⟨rfl, -, -⟩ := by simpa using h
      exact ⟨rfl, Nat.succ_pos _⟩
    · have hn' := hi.notifications n (hact ▸ hn)
      -- the new round has a number of its own
      have hnew : n.subject ≠ s.roundCounter + 1 := by
        have := hn'.started.2
        omega
      exact
        { hn' with
          started := ⟨hn'.started.1, Nat.le_succ_of_le hn'.started.2⟩
          prepare := fun _ p id h => by
            rw [hstage] at h
            simp [hnew.symm] at h
          commit := fun h => by simpa [hst] using hn'.commit h
          abort := fun _ p id h => by
            rw [hstage] at h
            simp [hnew.symm] at h
          known := fun h hh => (hn'.known h hh).imp id (unsubscribed_mem_cons he).mpr }
  exact hinv.notify (s := t) rfl hq (.inl ⟨rfl, rfl, .inl rfl⟩) ⟨Nat.succ_pos _, le_rfl⟩ (fun _ => rfl) (by simp)
    (by simp)

theorem finish_round (hi : Inv s) (hf : s.control = .finish) (hr : s.round = some ρ)
    (hfs : fs = .committed :: s.frames ∧ k = .user ∨ fs = s.frames ∧ k = .tryStart)
    (he : ∀ h, e ≠ .unsubscribed h) :
    Inv { s.cancelRoundTimer with round := none, stats := stats, log := e :: s.log, frames := fs, control := k } := by
  have hd := (hi.finish hf hr).1
  have hnil := hi.frames_nil (fun n => by simp [hf]) hd
  set t : State :=
    { s.cancelRoundTimer with round := none, stats := stats, log := e :: s.log, frames := fs, control := k } with ht
  have hact : t.active = [] := by
    rcases hfs with ⟨rfl, rfl⟩ | ⟨rfl, rfl⟩
    · exact hnil
    · exact hnil
  refine
    { hi with
      tickets := fun h => absurd rfl h
      depth := by rw [hact]; exact hd
      counter := fun r p id h => by simp [t, stage] at h
      gone := fun h hg => hi.gone h ((unsubscribed_mem_cons he).mp hg)
      notifications := fun n hn => by simp [hact] at hn
      control := ?_
      timer := fun c hc hcb => absurd ⟨c, hc, hcb⟩ hi.not_waits_cancelRoundTimer }
  rcases hfs with ⟨-, rfl⟩ | ⟨-, rfl⟩
  · trivial
  · trivial

end Inv

/-! ### Every run -/

theorem inv_step {s s' : State} {e : Event} (hi : Inv s) (h : step s e = some s') : Inv s' := by
  cases trans_of_step h with
  | subscribe data hu => exact hi.subscribe hu data
  | unsubscribeUnknown | triggerRejected | unlockUnknown => exact hi
  | unsubscribe k hu hm _ =>
    have := hi.dropSubscription hu hm (c := s.control) (fun n => by simp [hu]) (Inv.controlOk_user hu)
    exact this
  | unsubscribeLast k ρ hu hm hr ho hlast hd =>
    refine hi.dropSubscription hu hm (fun n => by simp) ⟨hd, { ρ with outstanding := ρ.outstanding.erase k }, ?_, hlast⟩
    simp [dropSubscription, eraseOutstanding, hr]
  | trigger t hu hn =>
    exact hi.user_step hu {} rfl hi.wf id (fun _ hc _ => hc) trivial (by simp)
  | lock d rt hu hd hrt =>
    exact hi.user_step hu {} rfl hi.wf id hrt.roundTimeout
      (Inv.controlOk_user hu) (by simp [hu])
  | lockZero _ hu hrt | unlock _ _ hu _ hrt =>
    exact hi.user_step hu {} rfl hi.wf id hrt.roundTimeout trivial (by simp)
  | respondIgnored c r b hu hh hw =>
    exact hi.user_step hu { gone := fun _ => by simp } rfl hi.wf id (fun _ hc _ => hc)
      (Inv.controlOk_user hu) (by simp [hu])
  | respondFalse c r ρ hu hh hr hid hm hp =>
    refine hi.respond hu c r false (fun n => by simp) ⟨{ ρ with outstanding := ρ.outstanding.erase r.handle }, ?_, hp⟩
    simp [eraseOutstanding, hr]
  | respond c r b ρ stats hu hh hr hid hm hb hc hl =>
    exact hi.respond hu c r b (k := s.control) (fun n => by simp [hu]) (Inv.controlOk_user hu)
  | respondLast c r b ρ stats hu hh hr hid hm hb hc hlast hd =>
    refine hi.respond hu c r b (fun n => by simp)
      ⟨hd, { ρ with outstanding := ρ.outstanding.erase r.handle }, ?_, hlast⟩
    simp [eraseOutstanding, hr]
  | setResponseTimeout _ hu | onCommitted _ hu | tick _ hu =>
    exact hi.user_step hu {} rfl hi.wf id (fun _ hc _ => hc)
      (Inv.controlOk_user hu) (by simp [hu])
  | retHook n k fs hu hf => exact hi.retHook hu hf
  | retCommitted fs hu hf =>
    refine hi.keep {} ?_ hi.wf id (fun _ hc _ => hc) trivial
    rw [active_user hu, hf]
    rfl
  | fireStale c rt hu hp hcb hr =>
    exact hi.user_step hu {} rfl hi.wf id (fun _ hd _ => mem_of_pop hp hd)
      (Inv.controlOk_user hu) (by simp [hu])
  | fireRound c rt ρ stats hu hp hcb hr hs => exact hi.fireRound hu hp hcb hr
  | fireLock c rt rt' hu hp hcb hrt =>
    exact hi.user_step hu {} rfl hi.wf id
      (fun d hd hdc => mem_of_pop hp (hrt.roundTimeout d hd hdc)) trivial (by simp)
  | add c k probe hu =>
    exact hi.user_step hu {} rfl (hi.wf.add c k probe)
      (fun hne => by
        obtain ⟨t, ht⟩ := exists_mem_of_ne_nil _ hne
        exact ne_nil_of_mem (CertificatePool.mem_add ht c k probe))
      (fun _ hc _ => hc) (Inv.controlOk_user hu) (by simp [hu])
  | prune now hu =>
    exact hi.user_step hu {} rfl (hi.wf.prune now)
      (CertificatePool.prune_ne_nil hi.wf now) (fun _ hc _ => hc) (Inv.controlOk_user hu) (by simp [hu])
  | endNotify n hl he hg => exact hi.pop hl
  | endNotifyAdvance n ρ hl he hx hd hr hid ho => exact hi.endNotifyAdvance hl hd hr ho
  | endNotifyArm n ρ hl he hx hd hr hid ho => exact hi.endNotifyArm hl hd hr
  | deliver n k rest hl hh hb hm => exact hi.deliver hl hh (fun _ => by simp)
  | skip n k rest hl hh hx hin hm => exact hi.skip hl hh rfl
  | skipErase n k rest hl hh hin hm => exact hi.skip hl hh (stage_eraseOutstanding s k)
  | commit ρ ha hr hp => exact hi.commit ha hr (fun _ => by simp)
  | advance ρ ha hr hp =>
    have hd := (hi.advance ha hr).1
    refine hi.keep {} ?_ hi.wf id
      (fun c hc hcb => absurd ⟨c, hc, hcb⟩ hi.not_waits_cancelRoundTimer) ⟨hd, ρ, hr, hp⟩
    rw [active_of_not_loop (s := s) fun n => by simp [ha]]
    rfl
  | finish ρ fs c hf hr hfs => exact hi.finish_round hf hr hfs (fun _ => by simp)
  | abort ρ ha hr => exact hi.abort_notify ha hr (fun _ => by simp)
  | startNot ht | startNone ht =>
    refine hi.keep {} ?_ hi.wf id (fun _ hc _ => hc) trivial
    rw [active_of_not_loop (s := s) fun n => by simp [ht]]
    rfl
  | start next ht hp hl hr hn =>
    refine hi.start ht hr ?_ (fun _ => by simp)
    exact ne_nil_of_mem (CertificatePool.nextValid_spec hn).1

theorem inv_reach {C : State → Event → Prop} {pool : CertificatePool} {now : TimePoint} {s : State}
    (hp : pool.Wf) (h : Run step C (init pool now) s) : Inv s :=
  h.invariant (inv_init hp now) fun _ hi _ hs => inv_step hi hs

end VanetzaIdf.IdentityManager
