/-
# Rounds that end and triggers that are kept

`notify` arms the round timer when its outermost call ends, for the round it
began with. A round started from a hook of ABORT is left without timer
(`round_stuck`); without such a start (`StartsNested`) the timer runs whenever no
hook does (`round_not_stuck`).

A queued trigger is looked for at the end of a COMMIT and of a lock, not by
`abort` (`trigger_forgotten`). Where no round is aborted while one is queued
(`AbortsQueued`), it is kept and served (`accepted_trigger_kept`).
-/
import VanetzaIdf.Identity.TwoPhase

namespace VanetzaIdf.IdentityManager

open Lib State Option

/-! ### The round timer -/

/-- `try_start` is about to start a round while a hook runs. -/
def StartsNested (s : State) : Prop :=
  s.control = .tryStart ∧ 0 < s.notifyDepth ∧ s.pendingTrigger = true ∧ s.locked = false ∧ s.round = none ∧
    (s.pool.nextValid s.runtime.now).isSome = true

instance (s : State) : Decidable (StartsNested s) := inferInstanceAs (Decidable (_ ∧ _))

/-- The outermost notification is one that looks after the round when it ends. -/
def Attended (s : State) (ρ : Round) : Prop :=
  ∃ n, s.active.getLast? = some n ∧ n.expectResponse = true ∧ n.roundId = ρ.id

/-- A round is about to advance, waits for answers under its timer, or is
attended to. -/
def Progress (s : State) : Prop :=
  ∀ ρ, s.round = some ρ → s.control = .advance ∨ s.control = .finish ∨ s.control = .abort ∨
    (s.notifyDepth = 0 ∧ ρ.outstanding ≠ ∅ ∧ s.runtime.Waits .roundTimeout) ∨ Attended s ρ

variable {s s' : State} {ρ ρ' : Round} {h : SubscriptionHandle} {e : Event}

theorem Attended.of_active (h : Attended s ρ) (ha : s'.active = s.active) (hid : ρ'.id = ρ.id) : Attended s' ρ' := by
  obtain ⟨n, hn, hx, hr⟩ := h
  exact ⟨n, ha ▸ hn, hx, hr.trans hid.symm⟩

theorem Attended.of_tail {n : Notification} {act : List Notification}
    {hs : List SubscriptionHandle} (h : Attended s ρ) (ha : s.active = n :: act)
    (ha' : s'.active = { n with handles := hs } :: act) (hid : ρ'.id = ρ.id) : Attended s' ρ' := by
  obtain ⟨m, hm, hx, hr⟩ := h
  rw [ha] at hm
  cases act with
  | nil =>
    obtain rfl : n = m := by simpa using hm
    exact ⟨{ n with handles := hs }, by simp [ha'], hx, hr.trans hid.symm⟩
  | cons a act =>
    refine ⟨m, ?_, hx, hr.trans hid.symm⟩
    rw [ha']
    simpa using hm

theorem Progress.keep (hp : Progress s) (hc : s.control ≠ .advance ∧ s.control ≠ .finish ∧
    s.control ≠ .abort) (hr : s'.round = s.round) (hd : s'.notifyDepth = s.notifyDepth) (ha : s'.active = s.active)
    (hw : s.runtime.Waits .roundTimeout → s'.runtime.Waits .roundTimeout) : Progress s' := by
  intro ρ hρ
  rcases hp ρ (hr ▸ hρ) with h | h | h | h | h
  · exact absurd h hc.1
  · exact absurd h hc.2.1
  · exact absurd h hc.2.2
  · exact .inr (.inr (.inr (.inl ⟨hd.trans h.1, h.2.1, hw h.2.2⟩)))
  · exact .inr (.inr (.inr (.inr (h.of_active ha rfl))))

theorem Progress.user_step (hp : Progress s) (hu : s.control = .user) (hl : ∀ n, s'.control ≠ .loop n)
    (hr : s'.round = s.round) (hd : s'.notifyDepth = s.notifyDepth) (hf : s'.frames = s.frames)
    (hw : s.runtime.Waits .roundTimeout → s'.runtime.Waits .roundTimeout) : Progress s' := by
  refine hp.keep (by simp [hu]) hr hd ?_ hw
  rw [active_user hu, active_of_not_loop hl, hf]

theorem Progress.erase (hp : Progress s) (hu : s.control = .user) (hu' : s'.control = .user)
    (hr : s'.round = (s.eraseOutstanding h).round) (hd : s'.notifyDepth = s.notifyDepth)
    (hf : s'.frames = s.frames) (hq : s'.runtime = s.runtime)
    (ho : ∀ ρ, s.round = some ρ → s.notifyDepth = 0 → ρ.outstanding ≠ ∅ → ρ.outstanding.erase h ≠ ∅) :
    Progress s' := by
  intro ρ' hρ'
  obtain ⟨ρ, hρ, rfl⟩ := round_eraseOutstanding (hr ▸ hρ')
  have ha : s'.active = s.active := by rw [active_user hu, active_user hu', hf]
  rcases hp ρ hρ with h | h | h | ⟨h1, h2, h3⟩ | h
  · simp [hu] at h
  · simp [hu] at h
  · simp [hu] at h
  · exact .inr (.inr (.inr (.inl ⟨hd.trans h1, ho ρ hρ h1 h2, hq ▸ h3⟩)))
  · exact .inr (.inr (.inr (.inr (h.of_active ha rfl))))

theorem LockTimerOnly.waits {rt rt' : Runtime} (hi : Inv s) (hrt : LockTimerOnly rt rt')
    (hq : ∀ c ∈ rt.queue, c ∈ s.runtime.queue) (hw : rt.Waits .roundTimeout) : rt'.Waits .roundTimeout := by
  obtain ⟨c, hc, hcb⟩ := hw
  refine ⟨c, hrt.kept c hc ?_, hcb⟩
  rw [(hi.timer c (hq c hc) hcb).1]
  simp

theorem waits_of_pop {c : ScheduledCallback Scope Callback} {rt : Runtime} {cb : Callback}
    (hp : s.runtime.pop = some (c, rt)) (hc : c.callback ≠ cb) (hw : s.runtime.Waits cb) : rt.Waits cb := by
  obtain ⟨d, hd, rfl⟩ := hw
  exact ⟨d, ManualRuntime.mem_pop hp hc hd, rfl⟩

theorem attended_notify {c : IdChangeCommand} {id : Identifier} {r : ℕ}
    (hf : s.frames.filterMap Frame.notification = []) (hρ : (s.notify c id true r).round = some ρ) :
    Attended (s.notify c id true r) ρ := by
  have hround : (s.notify c id true r).round =
    s.round.map fun ρ => { ρ with outstanding := ρ.outstanding ∪ s.handles.toFinset } := rfl
  rw [hround] at hρ
  obtain ⟨ρ₁, hρ₁, rfl⟩ := map_eq_some_iff.mp hρ
  have hact : (s.notify c id true r).active = [⟨c, id, true, (s.round.map (·.id)).getD 0, r, s.handles⟩] := by
    simp only [active, State.notify, hf]
  refine ⟨_, by rw [hact]; rfl, rfl, ?_⟩
  simp [hρ₁]

theorem progress_step (hi : Inv s) (hp : Progress s) (hg : ¬ StartsNested s)
    (h : step s e = some s') : Progress s' := by
  have hu' : s.control = .user → ∀ n, s.control ≠ .loop n := fun hu n => by simp [hu]
  -- inside a notification nothing but an outermost one attends to the round
  have hloop : ∀ n, s.control = .loop n → ∀ ρ, s.round = some ρ → Attended s ρ := by
    intro n hl ρ hρ
    rcases hp ρ hρ with h | h | h | ⟨h, -⟩ | h
    · simp [hl] at h
    · simp [hl] at h
    · simp [hl] at h
    · have := hi.depth
      rw [active_loop hl, h] at this
      simp at this
    · exact h
  cases trans_of_step h with
  | subscribe _ hu | respondIgnored _ _ _ hu | setResponseTimeout _ hu | onCommitted _ hu | tick _ hu
  | add _ _ _ hu | prune _ hu => exact hp.user_step hu (hu' hu) rfl rfl rfl id
  | unsubscribeUnknown | triggerRejected | unlockUnknown => exact hp
  | unsubscribe k hu hm hlast =>
    refine hp.erase hu hu rfl rfl rfl rfl fun ρ hρ hd ho he => ?_
    by_cases hk : k ∈ ρ.outstanding
    · exact hlast ρ hρ hk he hd
    · exact ho (by rwa [Finset.erase_eq_of_notMem hk] at he)
  | unsubscribeLast | respondLast | endNotifyAdvance => exact fun _ _ => .inl rfl
  | trigger t hu hn => exact hp.user_step hu (by simp) rfl rfl rfl id
  | lock d rt hu hd hrt => exact hp.user_step hu (hu' hu) rfl rfl rfl (hrt.waits hi fun _ hc => hc)
  | lockZero _ hu hrt | unlock _ _ hu _ hrt =>
    exact hp.user_step hu (by simp) rfl rfl rfl (hrt.waits hi fun _ hc => hc)
  | respondFalse c r ρ hu hh hr hid hm hph => exact fun _ _ => .inr (.inr (.inl rfl))
  | respond c r b ρ stats hu hh hr hid hm hb hc hl =>
    refine hp.erase hu hu rfl rfl rfl rfl fun ρ' hρ hd _ he => hl ⟨?_, hd⟩
    obtain rfl := some.inj (hr.symm.trans hρ)
    exact he
  | retHook _ _ _ hu hf | retCommitted _ hu hf =>
    refine hp.keep (by simp [hu]) rfl rfl ?_ id
    rw [active_user hu, hf]
    rfl
  | fireStale _ _ _ _ _ hr | startNone _ _ _ hr => exact fun ρ hρ => by simp [hr] at hρ
  | fireRound c rt ρ stats hu hpop hcb hr hs =>
    intro _ _
    cases ρ.phase with
    | prepare => exact .inr (.inr (.inl rfl))
    | commit => exact .inr (.inl rfl)
  | fireLock c rt rt' hu hpop hcb hrt =>
    exact hp.user_step hu (by simp) rfl rfl rfl fun hw =>
      hrt.waits hi (fun _ hd => ManualRuntime.mem_of_pop hpop hd) (waits_of_pop hpop (by simp [hcb]) hw)
  | endNotify n hl he hx =>
    intro ρ hρ
    obtain ⟨m, hm, hxm, hid⟩ := hloop n hl ρ hρ
    rw [active_loop hl] at hm
    refine .inr (.inr (.inr (.inr ?_)))
    cases hfr : s.frames.filterMap Frame.notification with
    | nil =>
      -- it was the outermost one, and the round is its own
      obtain rfl : n = m := by simpa [hfr] using hm
      have hd : s.notifyDepth - 1 = 0 := by
        rw [hi.depth, active_loop hl, hfr]
        rfl
      exact absurd ⟨hxm, hd, inRound_iff.mpr ⟨ρ, hρ, hid.symm⟩⟩ hx
    | cons a act =>
      refine ⟨m, ?_, hxm, hid⟩
      have hact : (State.active { s with notifyDepth := s.notifyDepth - 1, control := .user }) = a :: act := hfr
      rw [hact]
      simpa [hfr] using hm
  | endNotifyArm n ρ hl he hx hd hr hid ho =>
    intro ρ' hρ'
    obtain rfl := some.inj (hr.symm.trans hρ')
    refine .inr (.inr (.inr (.inl ⟨hd, ho, ?_⟩)))
    exact ManualRuntime.waits_schedule.mpr (.inl rfl)
  | deliver n _ _ hl | skip n _ _ hl =>
    exact fun ρ hρ => .inr (.inr (.inr (.inr ((hloop n hl ρ hρ).of_tail (active_loop hl) rfl rfl))))
  | skipErase n k rest hl hh hin hm =>
    intro ρ' hρ'
    obtain ⟨ρ, hρ, rfl⟩ := round_eraseOutstanding hρ'
    exact .inr (.inr (.inr (.inr ((hloop n hl ρ hρ).of_tail (active_loop hl) rfl rfl))))
  | commit ρ ha hr hph =>
    have hfr := hi.frames_nil (fun n => by simp [ha]) (hi.advance ha hr).1
    exact fun ρ' hρ' => .inr (.inr (.inr (.inr (attended_notify hfr hρ'))))
  | advance ρ ha hr hph => exact fun _ _ => .inr (.inl rfl)
  | finish ρ fs c hf hr hfs => exact fun ρ' hρ' => by simp at hρ'
  | abort ρ ha hr => exact fun ρ' hρ' => by simp [State.notify] at hρ'
  | startNot ht hn =>
    refine hp.keep (by simp [ht]) rfl rfl ?_ id
    rw [active_of_not_loop (s := s) fun n => by simp [ht]]
    rfl
  | start next ht hpd hl hr hn =>
    have hd : s.notifyDepth = 0 := by
      by_contra hd
      exact hg ⟨ht, Nat.pos_of_ne_zero hd, hpd, hl, hr, by simp [hn]⟩
    have hfr := hi.frames_nil (fun n => by simp [ht]) hd
    exact fun ρ' hρ' => .inr (.inr (.inr (.inr (attended_notify hfr hρ'))))

/-- **No round is stuck.** In every run in which no round is started while a
hook runs: whenever no hook runs, a round waits for somebody and its timer
is scheduled. -/
theorem round_not_stuck {pool : CertificatePool} {now : TimePoint} {s : State} {ρ : Round} (hp : pool.Wf)
    (h : Run step (fun s _ => ¬ StartsNested s) (init pool now) s) (hu : s.control = .user)
    (hd : s.notifyDepth = 0) (hr : s.round = some ρ) : ρ.outstanding ≠ ∅ ∧ s.runtime.Waits .roundTimeout := by
  have hprogress : Progress s := by
    refine h.invariant_under (inv_reach hp) (fun ρ hρ => ?_) fun _ hi hp hc hs => progress_step hi hp hc hs
    simp [init] at hρ
  rcases hprogress ρ hr with h | h | h | h | ⟨n, hn, -⟩
  · simp [hu] at h
  · simp [hu] at h
  · simp [hu] at h
  · exact h.2
  · rw [(inv_reach hp h).active_nil hd] at hn
    simp at hn

theorem round_not_stuck_sample : ∃ s ρ, Run step (fun s _ => ¬ StartsNested s) (init (samplePool .years) 0) s ∧
    s.round = some ρ ∧ ρ.outstanding ≠ ∅ ∧ s.runtime.Waits .roundTimeout := by
  obtain ⟨s, hs, ht⟩ := exists_run_of_exec (f := step) (C := fun s _ => ¬ StartsNested s)
    (s := init (samplePool .years) 0)
    (p := fun s => decide (s.control = .user ∧ s.notifyDepth = 0 ∧ s.round.isSome = true))
    (l := [.subscribe [], .trigger, .proceed, .proceed, .ret, .proceed]) (by decide +kernel)
  obtain ⟨hu, hd, hr⟩ := of_decide_eq_true ht
  obtain ⟨ρ, hρ⟩ := isSome_iff_exists.mp hr
  exact ⟨s, ρ, hs, hρ, round_not_stuck (samplePool_wf .years) hs hu hd hρ⟩

/-- A trigger from a hook of ABORT: the new round is left without timer. -/
theorem round_stuck : ∃ s ρ, Run step Anything (init (samplePool .years) 0) s ∧ s.control = .user ∧
    s.frames = [] ∧ s.notifyDepth = 0 ∧ s.round = some ρ ∧ ¬ s.runtime.Waits .roundTimeout := by
  obtain ⟨s, hs, ht⟩ := exists_run_of_exec (f := step) (C := Anything) (s := init (samplePool .years) 0)
    (p := fun s => decide (s.control = .user ∧ s.frames = [] ∧ s.notifyDepth = 0 ∧ s.round.isSome = true ∧
      ¬ s.runtime.Waits .roundTimeout))
    (l := [.subscribe [], .trigger, .proceed, .proceed, .respond .prepare ⟨1, 1⟩ false, .proceed, .proceed,
      .trigger, .proceed, .proceed, .ret, .proceed, .ret, .proceed, .ret, .proceed])
    (by decide +kernel)
  obtain ⟨hu, hf, hd, hr, hw⟩ := of_decide_eq_true ht
  obtain ⟨ρ, hρ⟩ := isSome_iff_exists.mp hr
  exact ⟨s, ρ, hs, hu, hf, hd, hρ, hw⟩

/-! ### Queued triggers -/

/-- No code of the manager, of a hook or of the committed callback runs. -/
def Idle (s : State) : Prop := s.control = .user ∧ s.frames = []

instance (s : State) : Decidable (Idle s) := inferInstanceAs (Decidable (_ ∧ _))

/-- A trigger waits for the end of the abort. -/
def AbortsQueued (s : State) : Prop := s.control = .abort ∧ s.pendingTrigger = true

instance (s : State) : Decidable (AbortsQueued s) := inferInstanceAs (Decidable (_ ∧ _))

/-- `try_start` is about to look for another ticket and there is none. -/
def FindsNothing (s : State) : Prop :=
  s.control = .tryStart ∧ s.pendingTrigger = true ∧ s.locked = false ∧ s.round = none ∧
    s.pool.nextValid s.runtime.now = none

instance (s : State) : Decidable (FindsNothing s) := inferInstanceAs (Decidable (_ ∧ _))

/-- A queued trigger is looked for at the end of a round, at the end of a
lock, when the committed callback returns, or next. -/
def Kept (s : State) : Prop :=
  s.pendingTrigger = true → s.round ≠ none ∨ s.locked = true ∨ .committed ∈ s.frames ∨ s.control = .tryStart

theorem Kept.keep (hk : Kept s) (hc : s.control ≠ .tryStart)
    (hp : s'.pendingTrigger = s.pendingTrigger) (hr : s.round ≠ none → s'.round ≠ none)
    (hl : s'.locks = s.locks) (hf : .committed ∈ s.frames → .committed ∈ s'.frames) : Kept s' := by
  intro hpd
  rcases hk (hp ▸ hpd) with h | h | h | h
  · exact .inl (hr h)
  · exact .inr (.inl (by simpa [locked, hl] using h))
  · exact .inr (.inr (.inl (hf h)))
  · exact absurd h hc

theorem eraseOutstanding_round_ne_none (hr : s.round ≠ none) : (s.eraseOutstanding h).round ≠ none := by
  simpa [eraseOutstanding] using hr

theorem kept_step (hk : Kept s) (hg : ¬ AbortsQueued s) (h : step s e = some s') : Kept s' := by
  have user : s.control = .user → s.control ≠ .tryStart := fun hu => by simp [hu]
  have loop : ∀ n, s.control = .loop n → s.control ≠ .tryStart := fun n hl => by simp [hl]
  cases trans_of_step h with
  | subscribe _ hu | respondIgnored _ _ _ hu | setResponseTimeout _ hu | onCommitted _ hu | tick _ hu
  | fireStale _ _ hu | fireRound _ _ _ _ hu | add _ _ _ hu | prune _ hu => exact hk.keep (user hu) rfl id rfl id
  | unsubscribeUnknown | triggerRejected | unlockUnknown => exact hk
  | unsubscribe _ hu | unsubscribeLast _ _ hu | respondFalse _ _ _ hu =>
    exact hk.keep (user hu) rfl eraseOutstanding_round_ne_none rfl id
  | trigger | lockZero | unlock | retCommitted | fireLock => exact fun _ => .inr (.inr (.inr rfl))
  | lock d rt hu hd hrt => exact fun _ => .inr (.inl (by simp [locked]))
  | respond _ _ _ _ _ hu | respondLast _ _ _ _ _ hu =>
    exact hk.keep (user hu) rfl eraseOutstanding_round_ne_none rfl id
  | retHook n k fs hu hf => exact hk.keep (user hu) rfl id rfl fun h => by simpa [hf] using h
  | endNotify n hl | endNotifyAdvance n _ hl | endNotifyArm n _ hl | skip n _ _ hl =>
    exact hk.keep (loop n hl) rfl id rfl id
  | deliver n k rest hl hh hb hm => exact hk.keep (loop n hl) rfl id rfl (List.mem_cons_of_mem _)
  | skipErase n k rest hl hh hin hm => exact hk.keep (loop n hl) rfl eraseOutstanding_round_ne_none rfl id
  | commit ρ ha hr hp => exact hk.keep (by simp [ha]) rfl (fun _ => by simp [State.notify]) rfl id
  | advance ρ ha hr hp => exact hk.keep (by simp [ha]) rfl id rfl id
  | finish ρ fs c hf hr hfs =>
    intro _
    rcases hfs with ⟨rfl, rfl⟩ | ⟨rfl, rfl⟩
    · exact .inr (.inr (.inl List.mem_cons_self))
    · exact .inr (.inr (.inr rfl))
  | abort ρ ha hr => exact fun hp => absurd ⟨ha, hp⟩ hg
  | startNot ht hn =>
    intro hp
    rcases hn with hn | hn | hn
    · exact absurd hp (by simp [hn])
    · exact .inr (.inl hn)
    · exact .inl (isSome_iff_ne_none.mp hn)
  | startNone ht hp hl hr hn => exact fun h => by simp at h
  | start next ht hp hl hr hn => exact fun h => by simp [State.notify] at h

theorem pending_step (hg : ¬ FindsNothing s) (h : step s e = some s')
    (hp : s.pendingTrigger = true) : s'.pendingTrigger = true ∨ s'.roundCounter = s.roundCounter + 1 := by
  cases trans_of_step h with
  | trigger t hu hn => exact .inl rfl
  | startNone ht hpd hl hr hn => exact absurd ⟨ht, hpd, hl, hr, hn⟩ hg
  | start next ht hpd hl hr hn => exact .inr rfl
  | _ => exact .inl hp

/-- Every round that was counted has sent PREPARE. -/
def Begun (s : State) : Prop := ∀ r, 1 ≤ r → r ≤ s.roundCounter → ∃ snap cur, .prepared r snap cur ∈ s.log

theorem begun_step (hb : Begun s) (hm : Move s s') : Begun s' := by
  intro r h1 h2
  rcases hm.counter_cases with he | ⟨he, hp⟩
  · obtain ⟨snap, cur, h⟩ := hb r h1 (he ▸ h2)
    exact ⟨snap, cur, hm.log_mono h⟩
  · by_cases hr : r ≤ s.roundCounter
    · obtain ⟨snap, cur, h⟩ := hb r h1 hr
      exact ⟨snap, cur, hm.log_mono h⟩
    · obtain rfl : r = s.roundCounter + 1 := by omega
      exact ⟨_, _, hp⟩

/-- What the manager does with queued triggers, in runs without such aborts. -/
structure TriggerInv (s : State) : Prop where
  inv : Inv s
  kept : Kept s
  begun : Begun s

theorem triggerInv_init {pool : CertificatePool} (hp : pool.Wf) (now : TimePoint) : TriggerInv (init pool now) where
  inv := inv_init hp now
  kept h := by simp [init] at h
  begun r h1 h2 := by simp only [init] at h2; omega

theorem triggerInv_step (hi : TriggerInv s) (hg : ¬ AbortsQueued s) (h : step s e = some s') : TriggerInv s' where
  inv := inv_step hi.inv h
  kept := kept_step hi.kept hg h
  begun := begun_step hi.begun (move_of_step hi.inv h)

/-- **Accepted triggers are kept**, unless a round is aborted while one is queued: a queued
trigger waits for a round or a lock, and starts the next round if there is another valid ticket to
change to. -/
theorem accepted_trigger_kept {pool : CertificatePool} {now : TimePoint} {s : State} (hp : pool.Wf)
    (h : Run step (fun s _ => ¬ AbortsQueued s) (init pool now) s) :
    (Idle s → s.pendingTrigger = true → s.round ≠ none ∨ s.locked = true) ∧
    ∀ ρ t, s.round = some ρ → s.pendingTrigger = true →
      Run step (fun s _ => ¬ AbortsQueued s ∧ ¬ FindsNothing s) s t → Idle t → t.locked = false →
      (∀ ρ', t.round = some ρ' → ρ'.id ≠ ρ.id) → ∃ snap cur, .prepared (ρ.id + 1) snap cur ∈ t.log := by
  have hidle : ∀ u, TriggerInv u → Idle u → u.pendingTrigger = true → u.round ≠ none ∨ u.locked = true := by
    intro u hu ⟨hc, hf⟩ hpd
    rcases hu.kept hpd with h | h | h | h
    · exact .inl h
    · exact .inr h
    · simp [hf] at h
    · simp [hc] at h
  have hs : TriggerInv s := h.invariant (triggerInv_init hp now) fun e hu hc hs => triggerInv_step hu hc hs
  refine ⟨hidle s hs, fun ρ t hρ hpd hrun hti hlk hend => ?_⟩
  obtain ⟨ht, hcount, hq⟩ : TriggerInv t ∧ s.roundCounter ≤ t.roundCounter ∧
      (t.pendingTrigger = true ∨ s.roundCounter < t.roundCounter) := by
    refine hrun.invariant (I := fun u => TriggerInv u ∧ s.roundCounter ≤ u.roundCounter ∧
      (u.pendingTrigger = true ∨ s.roundCounter < u.roundCounter)) ⟨hs, le_rfl, .inl hpd⟩ ?_
    rintro u v e ⟨hu, hle, hq⟩ ⟨hg1, hg2⟩ hstep
    have hmono := (move_of_step hu.inv hstep).mono.1
    refine ⟨triggerInv_step hu hg1 hstep, le_trans hle hmono, ?_⟩
    rcases hq with hq | hq
    · rcases pending_step hg2 hstep hq with h | h
      · exact .inl h
      · exact .inr (by omega)
    · exact .inr (by omega)
  have hid := hs.inv.round_id hρ
  have hlt : s.roundCounter < t.roundCounter := by
    rcases hq with hq | hq
    · -- it is still queued: then another round runs
      have hr := (hidle t ht hti hq).resolve_right (by simp [hlk])
      obtain ⟨ρ', hρ'⟩ := ne_none_iff_exists'.mp hr
      have hid' := ht.inv.round_id hρ'
      have := hend ρ' hρ'
      omega
    · exact hq
  exact ht.begun (ρ.id + 1) (by omega) (by omega)

/-- A trigger during a round that commits: the next round follows. -/
theorem accepted_trigger_kept_sample : ∃ s t ρ, Run step (fun s _ => ¬ AbortsQueued s) (init (samplePool .years) 0) s ∧
    s.round = some ρ ∧ s.pendingTrigger = true ∧
    Run step (fun s _ => ¬ AbortsQueued s ∧ ¬ FindsNothing s) s t ∧
    ∃ snap cur, .prepared (ρ.id + 1) snap cur ∈ t.log := by
  obtain ⟨s, hs, hp⟩ := exists_run_of_exec (f := step) (C := fun s _ => ¬ AbortsQueued s)
    (s := init (samplePool .years) 0)
    (p := fun s => decide (s.round.map (·.id) = some 1 ∧ s.pendingTrigger = true) &&
      (exec step (fun s _ => ¬ AbortsQueued s ∧ ¬ FindsNothing s) s
        [.respond .prepare ⟨1, 1⟩ true, .proceed, .proceed, .respond .commit ⟨1, 1⟩ true, .ret, .proceed, .proceed,
          .proceed, .proceed, .proceed, .ret, .proceed]).any fun (t : State) =>
        decide (Idle t ∧ t.locked = false ∧ t.round.map (·.id) = some 2))
    (l := [.subscribe [], .trigger, .proceed, .proceed, .ret, .proceed, .trigger, .proceed]) (by decide +kernel)
  obtain ⟨hq, ht⟩ := Bool.and_eq_true_iff.mp hp
  obtain ⟨hr, hpd⟩ := of_decide_eq_true hq
  obtain ⟨t, hrun, ht⟩ := exists_run_of_exec ht
  obtain ⟨hi, hl, hr'⟩ := of_decide_eq_true ht
  obtain ⟨ρ, hρ, hid⟩ := map_eq_some_iff.mp hr
  refine ⟨s, t, ρ, hs, hρ, hpd, hrun,
    (accepted_trigger_kept (samplePool_wf .years) hs).2 ρ t hρ hpd hrun hi hl fun ρ' hρ' => ?_⟩
  rw [hρ', map_some, some.injEq] at hr'
  omega

/-- A trigger during a round that is refused: nothing looks for it afterwards. -/
theorem trigger_forgotten : ∃ s, Run step Anything (init (samplePool .years) 0) s ∧ Idle s ∧
    s.pendingTrigger = true ∧ s.round = none ∧ s.locked = false := by
  obtain ⟨s, hs, hp⟩ := exists_run_of_exec (f := step) (C := Anything) (s := init (samplePool .years) 0)
    (p := fun s => decide (Idle s ∧ s.pendingTrigger = true ∧ s.round = none ∧ s.locked = false))
    (l := [.subscribe [], .trigger, .proceed, .proceed, .ret, .proceed, .trigger, .proceed,
      .respond .prepare ⟨1, 1⟩ false, .proceed, .proceed, .ret, .proceed]) (by decide +kernel)
  exact ⟨s, hs, of_decide_eq_true hp⟩

end VanetzaIdf.IdentityManager
