/-
# Timers of the contention buffer

Is there a callback at or before the earliest expiry? After scheduling there is
(`scheduleTimer_onTime`), and `remove`, `fetch` and a flush keep it. `update`
moves a timer without looking at the callback (`update_fires_late`), and `add`
takes the address of the first timer for the timer. `timers_covered` is for runs
without these; `started` records the timers.
-/
import VanetzaIdf.Geonet.CbfPacketBuffer
import VanetzaIdf.Lib.Machine

namespace VanetzaIdf.Geonet.CbfPacketBuffer

open CbfData Lib ManualRuntime List

variable {α κ : Type} [CbfData α] [CbfCounter κ]

/-! ### The record of timers -/

/-- The timers that a run starts, in order: the packet and the expiry. -/
def started (b : CbfPacketBuffer α κ) (es : List (Event α)) : List (CbfPacketIdentifier × TimePoint) :=
  history step (fun _ outcome => outcome.timer) b es

variable (log : List (CbfPacketIdentifier × TimePoint))

def latest (id : CbfPacketIdentifier) : Option TimePoint :=
  (log.reverse.find? fun x => x.1 = id).map Prod.snd

theorem latest_snoc (x : CbfPacketIdentifier × TimePoint)
    (id : CbfPacketIdentifier) : latest (log ++ [x]) id = if x.1 = id then some x.2 else latest log id := by
  unfold latest
  rw [reverse_append, reverse_singleton, singleton_append]
  by_cases h : x.1 = id
  · rw [List.find?_cons_of_pos (by simp [h]), if_pos h]
    rfl
  · rw [List.find?_cons_of_neg (by simp [h]), if_neg h]

/-- A timer after a step is one from before that the step did not restart, or
the one that the step started. -/
def FromStep (b : CbfPacketBuffer α κ) (outcome : Outcome α) (x : TimerEntry) : Prop :=
  (x ∈ b.timers ∧ ∀ started ∈ outcome.timer, started.1 ≠ x.id) ∨ outcome.timer = some (x.id, x.expiry)

variable {b : CbfPacketBuffer α κ} {x : TimerEntry}
  {packet : α} {timeout : Duration} {allocator : Allocator} {id : CbfPacketIdentifier}
  {b' : CbfPacketBuffer α κ}

theorem add_fromStep (h : b.Wf) (hx : x ∈ (b.add packet timeout allocator).timers) :
    FromStep b (b.step (.add packet timeout allocator)).1 x := by
  have hsub := (makeRoom_matched h packet).2
  unfold FromStep step
  dsimp only
  rcases b.add_cases packet timeout allocator with ⟨ht, heq⟩ | ⟨ht, hadd⟩
  · rw [heq] at hx
    exact .inl ⟨hx, by simp [ht]⟩
  · rw [hadd.timers] at hx
    rcases (b.makeRoom packet).insert_cases packet timeout allocator with ⟨hany, heq, -⟩ | ⟨hany, hnew, heq, -⟩
    · rw [heq] at hx
      exact .inl ⟨hsub.subset hx, by simp [hany]⟩
    · rw [heq] at hx
      rw [if_neg (by simp [ht, hany])]
      rcases (mem_insertUpper _).mp hx with rfl | hold
      · refine .inr ?_
        simp [newTimer, Timer.after, TimerEntry.expiry, now, (b.makeRoom_frame packet).2.2]
      · refine .inl ⟨hsub.subset hold, fun s hs => ?_⟩
        obtain rfl := Option.some.inj hs
        exact (hnew x hold).symm

theorem update_fromStep (h : b.Wf)
    (hx : x ∈ (b.update id timeout).timers) : FromStep b (b.step (.update id timeout)).1 x := by
  unfold FromStep step
  dsimp only
  cases hl : b.lookup id with
  | none =>
    rw [update, hl] at hx
    exact .inl ⟨hx, by simp⟩
  | some found =>
    rcases update_timers h hl hx with ⟨hold, hne⟩ | ⟨hid, hnew⟩
    · refine .inl ⟨hold, fun s hs => ?_⟩
      obtain rfl := Option.some.inj hs
      exact hne.symm
    · exact .inr (by simp [hid, hnew, Timer.after, TimerEntry.expiry])

omit [CbfData α] [CbfCounter κ] in
theorem fromStep_of_mem {outcome : Outcome α} (ho : outcome.timer = none) (hx : x ∈ b.timers) : FromStep b outcome x :=
  .inl ⟨hx, by simp [ho]⟩

/-! ### The callback -/

/-- A callback of the buffer is scheduled at or before this time. -/
def Covered (rt : SharedRuntime) (t : TimePoint) : Prop := ∃ deadline ≤ t, own deadline ∈ rt.queue

/-- The runtime will call the buffer for every timer. -/
def OnTime (b : CbfPacketBuffer α κ) : Prop := ∀ x ∈ b.timers, Covered b.runtime x.expiry

omit [CbfCounter κ] in
theorem scheduleTimer_onTime (h : b.Wf) : b.scheduleTimer.OnTime := by
  intro x hx
  rw [b.scheduleTimer_rescheduled.timers] at hx
  cases ht : b.timers with
  | nil => simp [ht] at hx
  | cons e es =>
    have hle := h.inOrder.head_le (a := e) (by rw [ht]; rfl) hx
    refine ⟨e.expiry, hle, ?_⟩
    simp only [scheduleTimer, ht]
    exact mem_schedule.mpr (.inl rfl)

omit [CbfData α] [CbfCounter κ] in
theorem OnTime.of_subset (h : b.OnTime) (hsub : b'.timers ⊆ b.timers)
    (hrt : b'.runtime = b.runtime) : b'.OnTime := fun x hx => hrt ▸ h x (hsub hx)

theorem Covered.mono {rt : SharedRuntime} {t t' : TimePoint} (h : Covered rt t) (hle : t ≤ t') : Covered rt t' := by
  obtain ⟨deadline, hd, hmem⟩ := h
  exact ⟨deadline, hd.trans hle, hmem⟩

omit [CbfCounter κ] in
theorem OnTime.removeTimer (h : b.OnTime) (hwf : (b.removeTimer id).Wf) : (b.removeTimer id).OnTime := by
  unfold CbfPacketBuffer.removeTimer at hwf ⊢
  dsimp only at hwf ⊢
  split_ifs at hwf ⊢
  · refine scheduleTimer_onTime ?_
    unfold Wf at hwf
    rwa [(scheduleTimer_rescheduled _).timers, (scheduleTimer_rescheduled _).packets] at hwf
  · exact h.of_subset eraseP_sublist.subset rfl

theorem OnTime.leaves (h : b.OnTime) (hwf : b.Wf) (hl : b.Leaves id b') : b'.OnTime := by
  have hwf' := hl.wf hwf
  rcases hl with rfl | ⟨packet, -, rfl⟩
  · exact h
  · exact OnTime.removeTimer (h.of_subset (List.Subset.refl _) rfl) hwf'

/-- Where the buffer does not look at the callback, the new timer is covered
already: when a timer is updated, and when the first timer before and the
timer that is added have the same address. -/
def Timely (b : CbfPacketBuffer α κ) : Event α → Prop
  | .add packet timeout allocator =>
    0 < timeout → b.firstTimer = some ((b.makeRoom packet).newTimer packet timeout allocator).node →
      Covered b.runtime (b.now + timeout)
  | .update id timeout => (b.lookup id).isSome = true → Covered b.runtime (b.now + timeout)
  | _ => True

theorem OnTime.add (h : b.OnTime) (hwf : b.Wf)
    (ht : b.Timely (.add packet timeout allocator)) : (b.add packet timeout allocator).OnTime := by
  obtain ⟨hroom, hsub⟩ := makeRoom_matched hwf packet
  have hrt := (b.makeRoom_frame packet).2.2
  have hrt' : ((b.makeRoom packet).insert packet timeout allocator).runtime = b.runtime :=
    (insert_frame _ packet timeout allocator).2.trans hrt
  have hwf' := hroom.insert packet timeout allocator
  unfold CbfPacketBuffer.add
  dsimp only
  split_ifs with h0 hfirst
  · exact h
  · exact scheduleTimer_onTime hwf'
  have hnow : (b.makeRoom packet).now = b.now := congrArg ManualRuntime.now hrt
  rcases (b.makeRoom packet).insert_cases packet timeout allocator with ⟨-, heq, -⟩ | ⟨-, -, heq, -⟩
  · refine h.of_subset ?_ hrt'
    rw [heq]
    exact hsub.subset
  · intro x hx
    rw [hrt']
    have hmem := hx
    rw [heq] at hmem
    rcases (mem_insertUpper _).mp hmem with rfl | hold
    · -- the new timer: the first one of the index is not later
      obtain ⟨y, hy⟩ : ∃ y, ((b.makeRoom packet).insert packet timeout allocator).timers.head? = some y :=
        ⟨_, List.head?_eq_some_head (ne_nil_of_mem hx)⟩
      have hle := hwf'.inOrder.head_le hy hx
      have hyin := mem_of_head? hy
      rw [heq] at hyin
      rcases (mem_insertUpper _).mp hyin with rfl | hyold
      · have hsame : ((b.makeRoom packet).insert packet timeout allocator).firstTimer = b.firstTimer :=
          not_not.mp hfirst
        rw [firstTimer, hy] at hsame
        have hcov := ht (not_le.mp h0) hsame.symm
        rw [← hnow] at hcov
        exact hcov
      · exact (h y (hsub.subset hyold)).mono hle
    · exact h x (hsub.subset hold)

theorem OnTime.update (h : b.OnTime) (hwf : b.Wf)
    (ht : b.Timely (.update id timeout)) : (b.update id timeout).OnTime := by
  cases hl : b.lookup id with
  | none =>
    rw [CbfPacketBuffer.update, hl]
    exact h
  | some found =>
    have hcov := ht (by rw [hl]; rfl)
    have hrt : (b.update id timeout).runtime = b.runtime := by rw [CbfPacketBuffer.update, hl]
    intro x hx
    rw [hrt]
    rcases update_timers hwf hl hx with ⟨hold, -⟩ | ⟨-, hnew⟩
    · exact h x hold
    · rw [TimerEntry.expiry, hnew]
      exact hcov

/-! ### Whole runs -/

variable [LawfulCbfData α]

theorem step_timers (h : b.Wf) (e : Event α) (hx : x ∈ (b.step e).2.timers) : FromStep b (b.step e).1 x := by
  cases e with
  | add packet timeout allocator => exact add_fromStep h hx
  | remove id => exact fromStep_of_mem rfl ((b.remove_leaves id).timers hx)
  | update id timeout => exact update_fromStep h hx
  | fetch id => exact fromStep_of_mem rfl ((b.fetch_leaves id).timers hx)
  | fire =>
    rcases b.fire_cases with heq | ⟨c, runtime, -, ⟨-, heq⟩ | ⟨-, heq⟩⟩ <;> rw [heq] at hx ⊢
    · exact fromStep_of_mem rfl hx
    · rw [(flush_rescheduled _).timers] at hx
      exact fromStep_of_mem rfl ((flushTimers_matched (b := { b with runtime }) h).2.subset hx)
    · exact fromStep_of_mem rfl hx
  | outside what => exact fromStep_of_mem rfl hx

/-- Every timer has the expiry that was set last for its packet. -/
structure Recorded (b : CbfPacketBuffer α κ) (log : List (CbfPacketIdentifier × TimePoint)) : Prop where
  wf : b.Wf
  expiry : ∀ x ∈ b.timers, latest log x.id = some x.expiry

theorem Recorded.step {log : List (CbfPacketIdentifier × TimePoint)} (h : Recorded b log) (e : Event α) :
    Recorded (b.step e).2 (log ++ (b.step e).1.timer.toList) := by
  refine ⟨h.wf.step e, fun x hx => ?_⟩
  rcases step_timers h.wf e hx with ⟨hold, hother⟩ | hnew
  · cases ht : (b.step e).1.timer with
    | none => simpa using h.expiry x hold
    | some s => rw [Option.toList_some, latest_snoc, if_neg (hother s ht), h.expiry x hold]
  · rw [hnew, Option.toList_some, latest_snoc, if_pos rfl]

theorem recorded {b : CbfPacketBuffer α κ} (hempty : b.timers = [] ∧ b.packets = []) (es : List (Event α)) :
    Recorded (final step b es) (started b es) := by
  have hwf : b.Wf := by
    unfold Wf
    rw [hempty.1, hempty.2]
    exact ⟨List.Pairwise.nil, nodup_nil, List.Perm.refl _⟩
  have h₀ : Recorded b [] := ⟨hwf, fun x hx => by simp [hempty.1] at hx⟩
  exact history_invariant step (f := fun _ outcome => outcome.timer) (A := fun _ => True) (I := Recorded)
    (fun _ _ e h _ => h.step e) es b [] h₀ fun _ _ => trivial

theorem flush_onTime (h : b.Wf) : b.flush.2.OnTime := by
  have hwf := (flushTimers_matched h).1
  unfold flush
  dsimp only
  split_ifs with hempty
  · intro x hx
    simp [hempty] at hx
  · exact scheduleTimer_onTime hwf

theorem OnTime.step (h : b.OnTime) (hwf : b.Wf) {e : Event α} (ht : b.Timely e) : (b.step e).2.OnTime := by
  cases e with
  | add packet timeout allocator => exact h.add hwf ht
  | remove id => exact h.leaves hwf (b.remove_leaves id)
  | update id timeout => exact h.update hwf ht
  | fetch id => exact h.leaves hwf (b.fetch_leaves id)
  | fire =>
    rcases b.fire_cases with heq | ⟨c, runtime, hpop, ⟨-, heq⟩ | ⟨hc, heq⟩⟩ <;> rw [heq]
    · exact h
    · exact flush_onTime (b := { b with runtime }) hwf
    · -- the callback that ran is another's
      intro x hx
      obtain ⟨deadline, hle, hmem⟩ := h x hx
      exact ⟨deadline, hle, mem_pop hpop hc hmem⟩
  | outside what =>
    intro x hx
    obtain ⟨deadline, hle, hmem⟩ := h x hx
    exact ⟨deadline, hle, own_mem_outside hmem what⟩

/-- **Timers fire on time**, if updates, and timers added at the address of a first timer that was
dropped, are not earlier than the scheduled callback. -/
theorem timers_covered (b₀ : CbfPacketBuffer α κ) (hempty : b₀.timers = [] ∧ b₀.packets = []) (es : List (Event α))
    (htimely : Along step Timely b₀ es) (hpackets : (final step b₀ es).packets ≠ []) :
    ∃ deadline, own deadline ∈ (final step b₀ es).runtime.queue ∧
      ∀ p ∈ (final step b₀ es).packets, ∃ expiry, latest (started b₀ es) (identifier p) = some expiry ∧
        deadline ≤ expiry := by
  obtain ⟨hwf, hlog⟩ := recorded hempty es
  have hon : (final step b₀ es).Wf ∧ (final step b₀ es).OnTime := by
    refine along_invariant step (I := fun b => b.Wf ∧ b.OnTime) (fun b e h ht => ⟨h.1.step e, h.2.step h.1 ht⟩) es b₀
      ⟨(recorded hempty []).wf, fun x hx => ?_⟩ htimely
    simp [hempty.1] at hx
  -- the first timer is the earliest
  have htimers : (final step b₀ es).timers ≠ [] := by
    intro hnil
    have hids := hwf.ids
    rw [hnil] at hids
    exact hpackets (map_eq_nil_iff.mp hids.nil_eq.symm)
  obtain ⟨first, hfirst⟩ : ∃ x, (final step b₀ es).timers.head? = some x := ⟨_, List.head?_eq_some_head htimers⟩
  obtain ⟨deadline, hle, hmem⟩ := hon.2 first (mem_of_head? hfirst)
  refine ⟨deadline, hmem, fun p hp => ?_⟩
  obtain ⟨x, hx, hid⟩ := mem_map.mp (hwf.ids.mem_iff.mpr (mem_map_of_mem hp))
  have hid' : x.id = identifier p := hid
  refine ⟨x.expiry, ?_, hle.trans (hwf.inOrder.head_le hfirst hx)⟩
  rw [← hid']
  exact hlog x hx

/-- A packet whose timer is put off from 100 ms to 200 ms: the callback stays. -/
theorem timers_covered_later :
    let es : List (Event CbfPacket) := [.add (samplePacket 1 ⟨.oneSecond, 60⟩) 100000 sampleAllocator,
      .update (samplePacket 1 ⟨.oneSecond, 60⟩).identifier 200000]
    ∃ deadline, own deadline ∈ (final step (sampleBuffer CbfPacket) es).runtime.queue ∧
      ∀ p ∈ (final step (sampleBuffer CbfPacket) es).packets, ∃ expiry,
        latest (started (sampleBuffer CbfPacket) es) (identifier p) = some expiry ∧ deadline ≤ expiry := by
  refine timers_covered (sampleBuffer CbfPacket) ⟨rfl, rfl⟩ _ ⟨fun _ hfirst => ?_, fun _ => ?_, trivial⟩ ?_
  · exact absurd hfirst (by decide +kernel)
  · exact ⟨100000, by decide +kernel, by decide +kernel⟩
  · decide +kernel

/-- **An update to an earlier time is not noticed.** The timer is moved from
100 ms to 10 ms, and the callback stays at 100 ms. -/
theorem update_fires_late :
    ¬ ∀ (b₀ : CbfPacketBuffer CbfPacket CbfCounterContending), b₀.timers = [] ∧ b₀.packets = [] →
      ∀ es : List (Event CbfPacket), (final step b₀ es).packets ≠ [] →
        ∃ deadline, own deadline ∈ (final step b₀ es).runtime.queue ∧
          ∀ p ∈ (final step b₀ es).packets, ∃ expiry, latest (started b₀ es) (identifier p) = some expiry ∧
            deadline ≤ expiry := by
  intro h
  obtain ⟨deadline, hmem, hall⟩ := h (sampleBuffer CbfPacket) ⟨rfl, rfl⟩
    [.add (samplePacket 1 ⟨.oneSecond, 60⟩) 100000 sampleAllocator,
      .update (samplePacket 1 ⟨.oneSecond, 60⟩).identifier 10000] (by decide +kernel)
  obtain ⟨expiry, hexp, hle⟩ := hall (samplePacket 1 ⟨.oneSecond, 60⟩) (by decide +kernel)
  have hqueue : own deadline ∈ [own 100000] := hmem
  have hdeadline : deadline = 100000 := congrArg ScheduledCallback.deadline (mem_singleton.mp hqueue)
  have hexpiry : some (10000 : TimePoint) = some expiry := hexp
  rw [hdeadline, ← Option.some.inj hexpiry] at hle
  exact absurd hle (by decide)

end VanetzaIdf.Geonet.CbfPacketBuffer
