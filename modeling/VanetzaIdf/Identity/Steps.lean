/-
# What a step of the identity manager can do

`Trans s e s'` lists the steps once, each with its guard and the state it leads
to; `trans_of_step` reads it off the functions of the source, and every invariant
is proved by cases on it.
-/
import VanetzaIdf.Identity.Manager

namespace VanetzaIdf.IdentityManager

/-- No timer but the one of the lock is scheduled or cancelled. -/
structure LockTimerOnly (rt rt' : Runtime) : Prop where
  now : rt'.now = rt.now
  new : ∀ c ∈ rt'.queue, c ∈ rt.queue ∨ c.callback = .lockTimer
  kept : ∀ c ∈ rt.queue, c.scope ≠ some .lockTimer → c ∈ rt'.queue

theorem LockTimerOnly.trans {rt rt' rt'' : Runtime} (h : LockTimerOnly rt rt') (h' : LockTimerOnly rt' rt'') :
    LockTimerOnly rt rt'' where
  now := h'.now.trans h.now
  new c hc := (h'.new c hc).elim (h.new c) .inr
  kept c hc hs := h'.kept c (h.kept c hc hs) hs

theorem LockTimerOnly.roundTimeout {rt rt' : Runtime} (h : LockTimerOnly rt rt')
    (c : ScheduledCallback Scope Callback) (hc : c ∈ rt'.queue) (hcb : c.callback = .roundTimeout) : c ∈ rt.queue :=
  (h.new c hc).resolve_right (by simp [hcb])

namespace State

theorem armLockTimer_eq (s : State) :
    ∃ rt, s.armLockTimer = { s with runtime := rt } ∧ LockTimerOnly s.runtime rt := by
  unfold armLockTimer
  cases s.locks with
  | nil =>
    refine ⟨_, rfl, by simp, fun c hc => ?_, fun c hc hs => ?_⟩
    · exact .inl (ManualRuntime.mem_cancel.mp hc).1
    · exact ManualRuntime.mem_cancel.mpr ⟨hc, hs⟩
  | cons l ls =>
    refine ⟨_, rfl, by simp, fun c hc => ?_, fun c hc hs => ?_⟩
    · rcases ManualRuntime.mem_schedule.mp hc with rfl | hc
      · exact .inr rfl
      · exact .inl (ManualRuntime.mem_cancel.mp hc).1
    · exact ManualRuntime.mem_schedule.mpr (.inr (ManualRuntime.mem_cancel.mpr ⟨hc, hs⟩))

/-- The subscription is gone and nobody waits for its answer. -/
def dropSubscription (s : State) (h : SubscriptionHandle) : State :=
  { s.eraseOutstanding h with
    subscriptions := s.subscriptions.filter (·.1 ≠ h)
    log := .unsubscribed h :: s.log }

def unexpired (now : TimePoint) (locks : List (LockHandle × TimePoint)) : List (LockHandle × TimePoint) :=
  locks.filter fun l => !decide (l.2 ≤ now)

end State

open State

/-- The branches of `step`, with what decides for each. -/
inductive Trans : State → Event → State → Prop
  | subscribe {s : State} (data : ByteBuffer) : s.control = .user → Trans s (.subscribe data) (s.subscribe data).2
  | unsubscribeUnknown {s : State} (h : SubscriptionHandle) : s.control = .user → h ∉ s.handles →
      Trans s (.unsubscribe h) s
  | unsubscribe {s : State} (h : SubscriptionHandle) : s.control = .user → h ∈ s.handles →
      (∀ ρ, s.round = some ρ → h ∈ ρ.outstanding → ρ.outstanding.erase h = ∅ → s.notifyDepth ≠ 0) →
      Trans s (.unsubscribe h) (s.dropSubscription h)
  | unsubscribeLast {s : State} (h : SubscriptionHandle) (ρ : Round) : s.control = .user → h ∈ s.handles →
      s.round = some ρ → h ∈ ρ.outstanding → ρ.outstanding.erase h = ∅ → s.notifyDepth = 0 →
      Trans s (.unsubscribe h) { s.dropSubscription h with control := .advance }
  | triggerRejected {s : State} : s.control = .user → s.pool.nextValid s.runtime.now = none → Trans s .trigger s
  | trigger {s : State} (t : Ticket) : s.control = .user → s.pool.nextValid s.runtime.now = some t →
      Trans s .trigger { s with pendingTrigger := true, control := .tryStart }
  | lock {s : State} (d : UInt8) (rt : Runtime) : s.control = .user → d ≠ 0 → LockTimerOnly s.runtime rt →
      Trans s (.lock d)
        { s with
          nextLock := s.nextLock + 1
          locks := s.locks ++ [(s.nextLock, s.runtime.now + seconds d.toNat)]
          runtime := rt }
  | lockZero {s : State} (rt : Runtime) : s.control = .user → LockTimerOnly s.runtime rt →
      Trans s (.lock 0)
        { s with
          nextLock := s.nextLock + 1
          locks := unexpired s.runtime.now (s.locks ++ [(s.nextLock, s.runtime.now)])
          runtime := rt
          control := .tryStart }
  | unlockUnknown {s : State} (h : LockHandle) : s.control = .user → h ∉ s.locks.map Prod.fst → Trans s (.unlock h) s
  | unlock {s : State} (h : LockHandle) (rt : Runtime) : s.control = .user → h ∈ s.locks.map Prod.fst →
      LockTimerOnly s.runtime rt →
      Trans s (.unlock h) { s with locks := s.locks.filter (·.1 ≠ h), runtime := rt, control := .tryStart }
  | respondIgnored {s : State} (c : IdChangeCommand) (r : Responder) (b : Bool) : s.control = .user →
      s.handedOut c r = true → (∀ ρ, s.round = some ρ → ρ.id = r.round → r.handle ∉ ρ.outstanding) →
      Trans s (.respond c r b) { s with log := .answered c r b :: s.log }
  | respondFalse {s : State} (c : IdChangeCommand) (r : Responder) (ρ : Round) : s.control = .user →
      s.handedOut c r = true → s.round = some ρ → ρ.id = r.round → r.handle ∈ ρ.outstanding → ρ.phase = .prepare →
      Trans s (.respond c r false)
        { s.eraseOutstanding r.handle with log := .answered c r false :: s.log, control := .abort }
  | respond {s : State} (c : IdChangeCommand) (r : Responder) (b : Bool) (ρ : Round) (stats : IdentityStatistics) :
      s.control = .user → s.handedOut c r = true → s.round = some ρ → ρ.id = r.round → r.handle ∈ ρ.outstanding →
      (ρ.phase = .prepare → b = true) → stats.committed = s.stats.committed →
      ¬ (ρ.outstanding.erase r.handle = ∅ ∧ s.notifyDepth = 0) →
      Trans s (.respond c r b) { s.eraseOutstanding r.handle with log := .answered c r b :: s.log, stats := stats }
  | respondLast {s : State} (c : IdChangeCommand) (r : Responder) (b : Bool) (ρ : Round)
      (stats : IdentityStatistics) : s.control = .user → s.handedOut c r = true → s.round = some ρ →
      ρ.id = r.round → r.handle ∈ ρ.outstanding → (ρ.phase = .prepare → b = true) →
      stats.committed = s.stats.committed → ρ.outstanding.erase r.handle = ∅ → s.notifyDepth = 0 →
      Trans s (.respond c r b)
        { s.eraseOutstanding r.handle with
          log := .answered c r b :: s.log, stats := stats, control := .advance }
  | setResponseTimeout {s : State} (d : Duration) : s.control = .user →
      Trans s (.setResponseTimeout d) { s with responseTimeout := d }
  | onCommitted {s : State} (b : Bool) : s.control = .user → Trans s (.onCommitted b) { s with committed := b }
  | retHook {s : State} (n : Notification) (h : SubscriptionHandle) (fs : List Frame) : s.control = .user →
      s.frames = .hook n h :: fs → Trans s .ret { s with frames := fs, control := .loop n }
  | retCommitted {s : State} (fs : List Frame) : s.control = .user → s.frames = .committed :: fs →
      Trans s .ret { s with frames := fs, control := .tryStart }
  | tick {s : State} (tp : TimePoint) : s.control = .user → s.runtime.now ≤ tp →
      Trans s (.tick tp) { s with runtime := s.runtime.setNow tp }
  | fireStale {s : State} (c : ScheduledCallback Scope Callback) (rt : Runtime) : s.control = .user →
      s.runtime.pop = some (c, rt) → c.callback = .roundTimeout → s.round = none →
      Trans s .fire { s with runtime := rt }
  | fireRound {s : State} (c : ScheduledCallback Scope Callback) (rt : Runtime) (ρ : Round)
      (stats : IdentityStatistics) : s.control = .user → s.runtime.pop = some (c, rt) → c.callback = .roundTimeout →
      s.round = some ρ → stats.committed = s.stats.committed →
      Trans s .fire
        { s with
          runtime := rt
          stats := stats
          control := match ρ.phase with
            | .prepare => .abort
            | .commit => .finish }
  | fireLock {s : State} (c : ScheduledCallback Scope Callback) (rt rt' : Runtime) : s.control = .user →
      s.runtime.pop = some (c, rt) → c.callback = .lockTimer → LockTimerOnly rt rt' →
      Trans s .fire
        { s with locks := unexpired s.runtime.now s.locks, runtime := rt', control := .tryStart }
  | add {s : State} (c : Certificate) (k : PrivateKey) (probe : Bool) : s.control = .user →
      Trans s (.add c k probe) { s with pool := (s.pool.add c k probe).2 }
  | prune {s : State} (now : TimePoint) : s.control = .user →
      Trans s (.prune now) { s with pool := (s.pool.prune now).2 }
  | endNotify {s : State} (n : Notification) : s.control = .loop n →
      (n.handles = [] ∨ n.expectResponse = true ∧ s.inRound n.roundId = false) →
      ¬ (n.expectResponse = true ∧ s.notifyDepth - 1 = 0 ∧ s.inRound n.roundId = true) →
      Trans s .proceed { s with notifyDepth := s.notifyDepth - 1, control := .user }
  | endNotifyAdvance {s : State} (n : Notification) (ρ : Round) : s.control = .loop n → n.handles = [] →
      n.expectResponse = true → s.notifyDepth - 1 = 0 → s.round = some ρ → ρ.id = n.roundId → ρ.outstanding = ∅ →
      Trans s .proceed { s with notifyDepth := s.notifyDepth - 1, control := .advance }
  | endNotifyArm {s : State} (n : Notification) (ρ : Round) : s.control = .loop n → n.handles = [] →
      n.expectResponse = true → s.notifyDepth - 1 = 0 → s.round = some ρ → ρ.id = n.roundId → ρ.outstanding ≠ ∅ →
      Trans s .proceed { s with notifyDepth := s.notifyDepth - 1, control := .user, runtime := s.armRoundTimer.runtime }
  | deliver {s : State} (n : Notification) (h : SubscriptionHandle) (rest : List SubscriptionHandle) :
      s.control = .loop n → n.handles = h :: rest →
      (n.expectResponse = true → s.inRound n.roundId = true) → h ∈ s.handles →
      Trans s .proceed
        { s with
          control := .user
          frames := .hook { n with handles := rest } h :: s.frames
          log := .delivered n.command n.id ⟨n.subject, h⟩ :: s.log }
  | skip {s : State} (n : Notification) (h : SubscriptionHandle) (rest : List SubscriptionHandle) :
      s.control = .loop n → n.handles = h :: rest → n.expectResponse = false → s.inRound n.roundId = false →
      h ∉ s.handles → Trans s .proceed { s with control := .loop { n with handles := rest } }
  | skipErase {s : State} (n : Notification) (h : SubscriptionHandle) (rest : List SubscriptionHandle) :
      s.control = .loop n → n.handles = h :: rest → s.inRound n.roundId = true → h ∉ s.handles →
      Trans s .proceed { s.eraseOutstanding h with control := .loop { n with handles := rest } }
  | commit {s : State} (ρ : Round) : s.control = .advance → s.round = some ρ → ρ.phase = .prepare →
      Trans s .proceed
        ({ s.cancelRoundTimer with
          round := some { ρ with phase := .commit }
          pool := (s.pool.select ρ.newIdentifier).2
          log := .selected ρ.id ρ.newIdentifier :: s.log }.notify .commit ρ.newIdentifier true ρ.id)
  | advance {s : State} (ρ : Round) : s.control = .advance → s.round = some ρ → ρ.phase = .commit →
      Trans s .proceed { s.cancelRoundTimer with control := .finish }
  | finish {s : State} (ρ : Round) (fs : List Frame) (c : Control) : s.control = .finish → s.round = some ρ →
      (fs = .committed :: s.frames ∧ c = .user ∨ fs = s.frames ∧ c = .tryStart) →
      Trans s .proceed
        { s.cancelRoundTimer with
          round := none
          stats := { s.stats with committed := s.stats.committed + 1 }
          log := .finished ρ.id ρ.newIdentifier s.pool.current :: s.log
          frames := fs
          control := c }
  | abort {s : State} (ρ : Round) : s.control = .abort → s.round = some ρ →
      Trans s .proceed
        ({ s.cancelRoundTimer with
          round := none
          stats := { s.stats with aborted := s.stats.aborted + 1 }
          log := .aborted ρ.id ρ.newIdentifier s.handles s.pool.current :: s.log }.notify
            .abort ρ.newIdentifier false ρ.id)
  | startNot {s : State} : s.control = .tryStart →
      (s.pendingTrigger = false ∨ s.locked = true ∨ s.round.isSome = true) →
      Trans s .proceed { s with control := .user }
  | startNone {s : State} : s.control = .tryStart → s.pendingTrigger = true → s.locked = false → s.round = none →
      s.pool.nextValid s.runtime.now = none →
      Trans s .proceed { s with pendingTrigger := false, control := .user }
  | start {s : State} (next : Ticket) : s.control = .tryStart → s.pendingTrigger = true → s.locked = false →
      s.round = none → s.pool.nextValid s.runtime.now = some next →
      Trans s .proceed
        ({ s with
          pendingTrigger := false
          roundCounter := s.roundCounter + 1
          round := some ⟨s.roundCounter + 1, .prepare, next.digest, ∅⟩
          log := .prepared (s.roundCounter + 1) s.handles s.pool.current :: s.log }.notify
            .prepare next.digest true (s.roundCounter + 1))

/-! ### The steps are those of the source -/

variable {s s' : State} {r : Responder} {ρ : Round} {e : Event}

theorem inRound_iff {id : ℕ} : s.inRound id = true ↔ ∃ ρ, s.round = some ρ ∧ ρ.id = id := by
  unfold State.inRound
  cases s.round <;> simp

theorem onLockTimer_eq (s : State) : ∃ rt, LockTimerOnly s.runtime rt ∧
    s.onLockTimer = { s with locks := unexpired s.runtime.now s.locks, runtime := rt, control := .tryStart } := by
  obtain ⟨rt, he, hrt⟩ := armLockTimer_eq { s with locks := unexpired s.runtime.now s.locks }
  refine ⟨rt, hrt, ?_⟩
  unfold onLockTimer
  simp only [unexpired] at he ⊢
  rw [he]

theorem trans_unsubscribe (s : State) (h : SubscriptionHandle) (hu : s.control = .user) :
    Trans s (.unsubscribe h) (s.unsubscribe h).2 := by
  unfold State.unsubscribe
  by_cases hm : h ∈ s.handles
  · simp only [List.contains_eq_mem, hm, decide_true, Bool.not_true, Bool.false_eq_true, if_false]
    by_cases hl : (s.round.any fun ρ => decide (h ∈ ρ.outstanding) && decide (ρ.outstanding.erase h = ∅)) = true ∧
        s.notifyDepth = 0
    · obtain ⟨ρ, hρ, h1⟩ : ∃ ρ, s.round = some ρ ∧ h ∈ ρ.outstanding ∧ ρ.outstanding.erase h = ∅ := by
        cases hr : s.round with
        | none => simp [hr] at hl
        | some ρ => exact ⟨ρ, rfl, by simpa [hr] using hl.1⟩
      rw [if_pos (by simpa [State.eraseOutstanding] using hl)]
      exact .unsubscribeLast h ρ hu hm hρ h1.1 h1.2 hl.2
    · rw [if_neg (by simpa [State.eraseOutstanding] using hl)]
      refine .unsubscribe h hu hm fun ρ hρ h1 h2 h3 => hl ⟨?_, h3⟩
      simp [hρ, h1, h2]
  · simp only [List.contains_eq_mem, hm, decide_false, Bool.not_false, if_true]
    exact .unsubscribeUnknown h hu hm

theorem trans_lock (s : State) (d : UInt8) (hu : s.control = .user) : Trans s (.lock d) (s.lock d).2 := by
  unfold State.lock
  set s' : State := { s with
    nextLock := s.nextLock + 1
    locks := s.locks ++ [(s.nextLock, s.runtime.now + seconds d.toNat)] } with hs'
  obtain ⟨rt, he, hrt⟩ := armLockTimer_eq s'
  by_cases hd : d = 0
  · subst hd
    simp only [if_true]
    obtain ⟨rt', hrt', he'⟩ := onLockTimer_eq s'.armLockTimer
    rw [he', he]
    have h0 : s.runtime.now + seconds ((0 : UInt8).toNat : ℤ) = s.runtime.now := by simp [seconds]
    rw [he] at hrt'
    have hnow : rt.now = s.runtime.now := hrt.now
    have := Trans.lockZero rt' hu (hrt.trans hrt')
    simpa only [hs', hnow, h0] using this
  · simp only [hd, if_false]
    rw [he]
    exact .lock d rt hu hd hrt

theorem trans_unlock (s : State) (h : LockHandle) (hu : s.control = .user) :
    Trans s (.unlock h) (s.unlock h).2 := by
  unfold State.unlock
  by_cases hm : h ∈ s.locks.map Prod.fst
  · simp only [List.contains_eq_mem, hm, decide_true, Bool.not_true, Bool.false_eq_true, if_false]
    obtain ⟨rt, he, hrt⟩ := armLockTimer_eq { s with locks := s.locks.filter (·.1 ≠ h) }
    rw [he]
    exact .unlock h rt hu hm hrt
  · simp only [List.contains_eq_mem, hm, decide_false, Bool.not_false, if_true]
    exact .unlockUnknown h hu hm

theorem trans_trigger (s : State) (hu : s.control = .user) : Trans s .trigger s.trigger.2 := by
  unfold State.trigger
  cases hn : s.pool.nextValid s.runtime.now with
  | none => exact .triggerRejected hu hn
  | some t => exact .trigger t hu hn

theorem handleResponse_ignored (b : Bool)
    (h : ∀ ρ, s.round = some ρ → ρ.id = r.round → r.handle ∉ ρ.outstanding) : s.handleResponse r b = s := by
  unfold State.handleResponse
  split
  · rfl
  · rename_i ρ hρ
    by_cases hid : ρ.id = r.round
    · rw [if_neg (not_not.mpr hid), if_pos (h ρ hρ hid)]
    · rw [if_pos hid]

theorem handleResponse_counted (b : Bool) (hr : s.round = some ρ)
    (hid : ρ.id = r.round) (hm : r.handle ∈ ρ.outstanding) :
    s.handleResponse r b =
      { s.eraseOutstanding r.handle with
        stats := if b = true ∨ ρ.phase = .prepare then s.stats
          else { s.stats with commitFailures := s.stats.commitFailures + 1 }
        control := if b = false ∧ ρ.phase = .prepare then .abort
          else if ρ.outstanding.erase r.handle = ∅ ∧ s.notifyDepth = 0 then .advance
          else s.control } := by
  unfold State.handleResponse
  rw [hr]
  simp only [hid, hm, ne_eq, not_true, if_false]
  cases b <;> cases hp : ρ.phase <;> simp [State.eraseOutstanding] <;> split_ifs <;> rfl

theorem trans_respond (s : State) (c : IdChangeCommand) (r : Responder) (b : Bool) (hu : s.control = .user)
    (hh : s.handedOut c r = true) :
    Trans s (.respond c r b) ({ s with log := .answered c r b :: s.log }.handleResponse r b) := by
  by_cases hw : ∃ ρ, s.round = some ρ ∧ ρ.id = r.round ∧ r.handle ∈ ρ.outstanding
  · obtain ⟨ρ, hr, hid, hm⟩ := hw
    rw [handleResponse_counted b (s := { s with log := .answered c r b :: s.log }) hr hid hm]
    by_cases hf : b = false ∧ ρ.phase = .prepare
    · have := Trans.respondFalse c r ρ hu hh hr hid hm hf.2
      simpa [State.eraseOutstanding, hf] using this
    · have hb : ρ.phase = .prepare → b = true := fun hp => by
        by_contra hb
        exact hf ⟨by simpa using hb, hp⟩
      set stats : IdentityStatistics := if b = true ∨ ρ.phase = .prepare then s.stats
        else { s.stats with commitFailures := s.stats.commitFailures + 1 } with hstats
      have hc : stats.committed = s.stats.committed := by
        rw [hstats]
        split_ifs <;> rfl
      by_cases hl : ρ.outstanding.erase r.handle = ∅ ∧ s.notifyDepth = 0
      · rw [if_neg hf, if_pos hl]
        exact .respondLast c r b ρ stats hu hh hr hid hm hb hc hl.1 hl.2
      · rw [if_neg hf, if_neg hl]
        exact .respond c r b ρ stats hu hh hr hid hm hb hc hl
  · have hi : ∀ ρ, s.round = some ρ → ρ.id = r.round → r.handle ∉ ρ.outstanding :=
      fun ρ hr hid hm => hw ⟨ρ, hr, hid, hm⟩
    rw [handleResponse_ignored b (s := { s with log := .answered c r b :: s.log }) hi]
    exact .respondIgnored c r b hu hh hi

theorem onRoundTimeout_none (h : s.round = none) : s.onRoundTimeout = s := by
  unfold State.onRoundTimeout
  rw [h]

theorem onRoundTimeout_some (h : s.round = some ρ) :
    ∃ stats : IdentityStatistics, stats.committed = s.stats.committed ∧
      s.onRoundTimeout = { s with
        stats := stats
        control := match ρ.phase with
          | .prepare => .abort
          | .commit => .finish } := by
  unfold State.onRoundTimeout
  rw [h]
  cases hp : ρ.phase with
  | prepare => exact ⟨{ s.stats with timedOut := s.stats.timedOut + 1 }, rfl, by simp [hp, ← h]⟩
  | commit =>
    exact ⟨{ s.stats with
        timedOut := s.stats.timedOut + 1
        commitFailures := s.stats.commitFailures + UInt32.ofNat ρ.outstanding.card }, rfl, by simp [hp, ← h]⟩

theorem trans_fire (hu : s.control = .user) (h : s.fire = some s') : Trans s .fire s' := by
  unfold State.fire at h
  cases hp : s.runtime.pop with
  | none => simp [hp] at h
  | some x =>
    obtain ⟨c, rt⟩ := x
    simp only [hp] at h
    cases hc : c.callback with
    | roundTimeout =>
      simp only [hc, Option.some.injEq] at h
      subst h
      rcases Option.eq_none_or_eq_some s.round with hr | ⟨ρ, hr⟩
      · rw [onRoundTimeout_none (s := { s with runtime := rt }) hr]
        exact .fireStale c rt hu hp hc hr
      · obtain ⟨stats, hs, he⟩ := onRoundTimeout_some (s := { s with runtime := rt }) hr
        rw [he]
        exact .fireRound c rt ρ stats hu hp hc hr hs
    | lockTimer =>
      simp only [hc, Option.some.injEq] at h
      subst h
      obtain ⟨rt', hrt, he⟩ := onLockTimer_eq { s with runtime := rt }
      rw [he]
      have hnow := (ManualRuntime.pop_some hp).2.2
      have := Trans.fireLock c rt rt' hu hp hc hrt
      simpa only [hnow] using this
    | beacon | repetition => simp [hc] at h

theorem trans_endNotify (s : State) (n : Notification) (hl : s.control = .loop n)
    (he : n.handles = [] ∨ n.expectResponse = true ∧ s.inRound n.roundId = false) :
    Trans s .proceed (s.endNotify n) := by
  set t : State := { s with notifyDepth := s.notifyDepth - 1, control := .user } with ht
  have hend : s.endNotify n = if n.expectResponse && t.notifyDepth == 0 && t.inRound n.roundId then
      if t.round.all (·.outstanding = ∅) then { t with control := .advance } else t.armRoundTimer
    else t := rfl
  rw [hend]
  by_cases hg : n.expectResponse = true ∧ s.notifyDepth - 1 = 0 ∧ s.inRound n.roundId = true
  · obtain ⟨hx, hd, hin⟩ := hg
    obtain ⟨ρ, hρ, hid⟩ := inRound_iff.mp hin
    have hh : n.handles = [] := he.resolve_right fun h => by simp [hin] at h
    have hr : t.round = some ρ := hρ
    rw [if_pos (by simp only [Bool.and_eq_true, beq_iff_eq]; exact ⟨⟨hx, hd⟩, hin⟩)]
    by_cases ho : ρ.outstanding = ∅
    · rw [if_pos (by simp [hr, ho])]
      exact .endNotifyAdvance n ρ hl hh hx hd hρ hid ho
    · rw [if_neg (by simp [hr, ho])]
      exact .endNotifyArm n ρ hl hh hx hd hρ hid ho
  · rw [if_neg]
    · exact .endNotify n hl he hg
    · intro h
      simp only [Bool.and_eq_true, beq_iff_eq] at h
      exact hg ⟨h.1.1, h.1.2, h.2⟩

theorem trans_loop (s : State) (n : Notification) (hl : s.control = .loop n) : Trans s .proceed (s.loop n) := by
  unfold State.loop
  cases hh : n.handles with
  | nil => exact trans_endNotify s n hl (.inl hh)
  | cons h rest =>
    simp only
    by_cases hb : (n.expectResponse && !s.inRound n.roundId) = true
    · rw [if_pos hb]
      exact trans_endNotify s n hl (.inr (by simpa using hb))
    · rw [if_neg hb]
      have hb' : n.expectResponse = true → s.inRound n.roundId = true := by simpa using hb
      by_cases hm : h ∈ s.handles
      · rw [if_pos (by simpa using hm)]
        exact .deliver n h rest hl hh hb' hm
      · rw [if_neg (by simpa using hm)]
        cases hin : s.inRound n.roundId with
        | true =>
          rw [if_pos rfl]
          exact .skipErase n h rest hl hh hin hm
        | false =>
          rw [if_neg Bool.false_ne_true]
          have hx : n.expectResponse = false := by
            by_contra hx
            simp [hb' (by simpa using hx)] at hin
          exact .skip n h rest hl hh hx hin hm

theorem trans_tryStart (s : State) (ht : s.control = .tryStart) : Trans s .proceed s.tryStart := by
  unfold State.tryStart
  split_ifs with hg
  · exact .startNot ht (by simpa [or_assoc] using hg)
  · have hg' : s.pendingTrigger = true ∧ s.locked = false ∧ s.round = none := by
      simpa [and_assoc] using hg
    cases hn : s.pool.nextValid s.runtime.now with
    | none => exact .startNone ht hg'.1 hg'.2.1 hg'.2.2 hn
    | some next => exact .start next ht hg'.1 hg'.2.1 hg'.2.2 hn

theorem trans_proceed (h : s.proceed = some s') : Trans s .proceed s' := by
  unfold State.proceed at h
  cases hc : s.control with
  | user => simp [hc] at h
  | loop n =>
    simp only [hc, Option.some.injEq] at h
    exact h ▸ trans_loop s n hc
  | tryStart =>
    simp only [hc, Option.some.injEq] at h
    exact h ▸ trans_tryStart s hc
  | advance =>
    simp only [hc, State.advance, Option.map_eq_some_iff] at h
    obtain ⟨ρ, hρ, rfl⟩ := h
    cases hp : ρ.phase with
    | prepare => exact .commit ρ hc hρ hp
    | commit => exact .advance ρ hc hρ hp
  | finish =>
    simp only [hc, State.finish, Option.map_eq_some_iff] at h
    obtain ⟨ρ, hρ, rfl⟩ := h
    by_cases hk : s.committed = true
    · have := Trans.finish ρ (.committed :: s.frames) .user hc hρ (.inl ⟨rfl, rfl⟩)
      simpa [State.cancelRoundTimer, hk] using this
    · have := Trans.finish ρ s.frames .tryStart hc hρ (.inr ⟨rfl, rfl⟩)
      simpa [State.cancelRoundTimer, hk] using this
  | abort =>
    simp only [hc, State.abort, Option.map_eq_some_iff] at h
    obtain ⟨ρ, hρ, rfl⟩ := h
    exact .abort ρ hc hρ

theorem trans_user (hu : s.control = .user) (h : s.user e = some s') : Trans s e s' := by
  cases e with
  | subscribe data => exact Option.some.inj h ▸ .subscribe data hu
  | unsubscribe k => exact Option.some.inj h ▸ trans_unsubscribe s k hu
  | trigger => exact Option.some.inj h ▸ trans_trigger s hu
  | lock d => exact Option.some.inj h ▸ trans_lock s d hu
  | unlock k => exact Option.some.inj h ▸ trans_unlock s k hu
  | respond c r b =>
    simp only [State.user] at h
    split_ifs at h with hh
    exact Option.some.inj h ▸ trans_respond s c r b hu hh
  | setResponseTimeout d => exact Option.some.inj h ▸ .setResponseTimeout d hu
  | onCommitted b => exact Option.some.inj h ▸ .onCommitted b hu
  | ret =>
    simp only [State.user, State.ret] at h
    split at h
    · cases h
    · rename_i n k fs hf
      exact Option.some.inj h ▸ .retHook n k fs hu hf
    · rename_i fs hf
      exact Option.some.inj h ▸ .retCommitted fs hu hf
  | tick tp =>
    simp only [State.user] at h
    split_ifs at h with ht
    exact Option.some.inj h ▸ .tick tp hu ht
  | fire => exact trans_fire hu h
  | add c k probe => exact Option.some.inj h ▸ .add c k probe hu
  | prune now => exact Option.some.inj h ▸ .prune now hu
  | proceed => cases h

theorem trans_of_step (h : step s e = some s') : Trans s e s' := by
  unfold step at h
  split at h
  · rename_i e' hu
    exact trans_user hu h
  · exact trans_proceed h
  · cases h

end VanetzaIdf.IdentityManager
