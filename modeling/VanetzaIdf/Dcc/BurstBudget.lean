/-
# BurstBudget

The limit for bursts of the highest priority, `dcc/burst_budget.cpp`. A burst is
forgotten when `burstPeriod` has passed since its first message.

While a caller keeps to the delays (`granted`), the buffer has the messages of
the last burst, and all others are more than `burstPeriod - burstDuration` older
than its first (`Bursts`). There is one gap: exactly `burstPeriod` after the
first message the delay is zero but the burst is not forgotten (`Open`).
-/
import VanetzaIdf.Lib.CircularBuffer
import VanetzaIdf.Lib.Machine
import VanetzaIdf.Runtime
import Mathlib.Tactic.Linarith

namespace VanetzaIdf.Dcc

open Lib List

structure BurstBudget where
  messages : CircularBuffer TimePoint
  burstDuration : Duration
  burstPeriod : Duration
deriving DecidableEq, Repr

namespace BurstBudget

/-- The constants of the source: 20 messages within one second, every ten
seconds. -/
def initial : BurstBudget := ⟨.empty 20, seconds 1, seconds 10⟩

/-- `delay`: it forgets a burst that is over. -/
def delay (b : BurstBudget) (now : TimePoint) : Duration × BurstBudget :=
  match b.messages.contents with
  | [] => (0, b)
  | front :: _ =>
    if now < front + b.burstDuration ∧ b.messages.full = false then (0, b)
    else if front + b.burstPeriod < now then (0, { b with messages := b.messages.clear })
    else (front + b.burstPeriod - now, b)

def notify (b : BurstBudget) (now : TimePoint) : BurstBudget := { b with messages := b.messages.pushBack now }

/-- `burst_messages`: new entries of the buffer are default time points. -/
def burstMessages (b : BurstBudget) (n : ℕ) : BurstBudget := { b with messages := b.messages.resize n 0 }

/-- What a delay of zero says about the oldest message remembered. -/
def Open (b : BurstBudget) (now : TimePoint) : Prop :=
  ∀ front rest, b.messages.contents = front :: rest →
    (now < front + b.burstDuration ∧ b.messages.full = false) ∨ now = front + b.burstPeriod

variable (b : BurstBudget) (now : TimePoint)

theorem delay_budget :
    (b.delay now).2 = b ∨
    ∃ front rest, b.messages.contents = front :: rest ∧ front + b.burstPeriod < now ∧
      ¬ (now < front + b.burstDuration ∧ b.messages.full = false) ∧
      (b.delay now).2 = { b with messages := b.messages.clear } := by
  unfold delay
  split
  · exact .inl rfl
  · next front rest hm =>
    split_ifs with hburst hover
    · exact .inl rfl
    · exact .inr ⟨front, rest, hm, hover, hburst, rfl⟩
    · exact .inl rfl

theorem open_of_delay {b : BurstBudget} {now : TimePoint} (h : (b.delay now).1 = 0) : (b.delay now).2.Open now := by
  unfold delay at h ⊢
  split at h
  · next hm =>
    intro front rest hf
    rw [hm] at hf
    cases hf
  · next front rest hm =>
    split_ifs at h ⊢ with hburst hover
    · intro front' rest' hf
      rw [hm] at hf
      cases hf
      exact .inl hburst
    · intro front' rest' hf
      cases hf
    · intro front' rest' hf
      rw [hm] at hf
      cases hf
      exact .inr (sub_eq_zero.mp h).symm

theorem delay_frame : (b.delay now).2.messages.capacity = b.messages.capacity ∧
    (b.delay now).2.burstDuration = b.burstDuration ∧ (b.delay now).2.burstPeriod = b.burstPeriod := by
  obtain h | ⟨_, _, _, _, _, h⟩ := b.delay_budget now
  · rw [h]
    exact ⟨rfl, rfl, rfl⟩
  · rw [h]
    exact ⟨rfl, rfl, rfl⟩

end BurstBudget

/-! ### Sessions -/

inductive BurstEvent
  | advance (d : ℕ)
  | delay
  | notify
  | burstMessages (n : ℕ)
  | burstDuration (d : Duration)
  | burstPeriod (p : Duration)
deriving DecidableEq, Repr

/-- No change of the parameters. -/
def BurstEvent.plain : BurstEvent → Bool
  | advance _ => true
  | delay => true
  | notify => true
  | _ => false

inductive BurstAnswer
  | done
  | delay (d : Duration)
  | notified (at_ : TimePoint)
deriving DecidableEq, Repr

def BurstAnswer.message : BurstAnswer → Option TimePoint
  | notified t => some t
  | _ => none

structure BurstSession where
  now : TimePoint
  budget : BurstBudget
  /-- Ghost: `delay()` has just returned zero. -/
  granted : Bool := false
deriving DecidableEq, Repr

namespace BurstSession

def step (s : BurstSession) : BurstEvent → BurstAnswer × BurstSession
  | .advance d => (.done, { s with now := s.now + d, granted := false })
  | .delay =>
    let (d, budget) := s.budget.delay s.now
    (.delay d, { s with budget := budget, granted := d == 0 })
  | .notify => (.notified s.now, { s with budget := s.budget.notify s.now, granted := false })
  | .burstMessages n => (.done, { s with budget := s.budget.burstMessages n, granted := false })
  | .burstDuration d => (.done, { s with budget := { s.budget with burstDuration := d }, granted := false })
  | .burstPeriod p => (.done, { s with budget := { s.budget with burstPeriod := p }, granted := false })

def notified (s : BurstSession) (es : List BurstEvent) : List TimePoint :=
  history step (fun _ answer => answer.message) s es

abbrev run (s : BurstSession) (es : List BurstEvent) : BurstSession := final step s es

abbrev remembered (s : BurstSession) : List TimePoint := s.budget.messages.contents

/-- `notify()` is only called when `delay()` has just returned zero. -/
def Gated (s : BurstSession) (e : BurstEvent) : Prop := e = .notify → s.granted = true

instance : DecidableRel Gated := fun s e => inferInstanceAs (Decidable (e = .notify → s.granted = true))

/-- No message exactly one burst period after the oldest remembered one. -/
def Apart (s : BurstSession) (e : BurstEvent) : Prop :=
  e = .notify → s.remembered.head? ≠ some (s.now - s.budget.burstPeriod)

instance : DecidableRel Apart := fun s e =>
  inferInstanceAs (Decidable (e = .notify → s.remembered.head? ≠ some (s.now - s.budget.burstPeriod)))

/-- What `granted` stands for. -/
def Sound (s : BurstSession) : Prop := s.granted = true → s.budget.Open s.now

theorem sound_step (s : BurstSession) (e : BurstEvent) : Sound (s.step e).2 := by
  cases e with
  | delay =>
    intro hgranted
    exact BurstBudget.open_of_delay (by simpa [step] using hgranted)
  | _ => simp [Sound, step]

/-! ### Bursts -/

/-- What the budget was constructed with. -/
structure Parameters (N : ℕ) (d p : Duration) (b : BurstBudget) : Prop where
  capacity : b.messages.capacity = N
  burstDuration : b.burstDuration = d
  burstPeriod : b.burstPeriod = p

variable {e : BurstEvent} {es : List BurstEvent}

theorem Parameters.step {N : ℕ} {d p : Duration} {s : BurstSession} (he : e.plain)
    (h : Parameters N d p s.budget) : Parameters N d p (s.step e).2.budget := by
  obtain ⟨hN, hd, hp⟩ := h
  cases e with
  | advance _ => exact ⟨hN, hd, hp⟩
  | delay =>
    obtain ⟨hN', hd', hp'⟩ := s.budget.delay_frame s.now
    exact ⟨hN'.trans hN, hd'.trans hd, hp'.trans hp⟩
  | notify => exact ⟨by simpa [BurstSession.step, BurstBudget.notify] using hN, hd, hp⟩
  | _ => simp [BurstEvent.plain] at he

/-- When the current burst began, or could begin. -/
def start (s : BurstSession) : TimePoint := s.remembered.head?.getD s.now

theorem start_of_nil {s : BurstSession} (h : s.remembered = []) : s.start = s.now := by
  rw [start, h]
  rfl

theorem start_of_cons {s : BurstSession} {front : TimePoint} {rest : List TimePoint}
    (h : s.remembered = front :: rest) :
    s.start = front := by
  rw [start, h]
  rfl

/-- Any two messages with `N - 1` others between them are at least `gap`
apart. -/
def Paced (N : ℕ) (gap : Duration) (log : List TimePoint) : Prop :=
  ∀ i x y, log[i]? = some x → log[i + N]? = some y → x + gap ≤ y

theorem Paced.snoc {N : ℕ} {gap : Duration} {log : List TimePoint} {t : TimePoint} (h : Paced N gap log)
    (hN : 0 < N) (ht : ∀ x, log[log.length - N]? = some x → N ≤ log.length → x + gap ≤ t) :
    Paced N gap (log ++ [t]) := by
  intro i x y hx hy
  rcases lt_trichotomy (i + N) log.length with hlt | heq | hgt
  · rw [List.getElem?_append_left hlt] at hy
    rw [List.getElem?_append_left (by omega)] at hx
    exact h i x y hx hy
  · rw [heq, List.getElem?_concat_length] at hy
    rw [List.getElem?_append_left (by omega)] at hx
    cases hy
    exact ht x (by rw [show log.length - N = i by omega]; exact hx) (by omega)
  · rw [List.getElem?_eq_none (by simp; omega)] at hy
    cases hy

/-- The last burst, and the messages before it. -/
structure Bursts (N : ℕ) (d p : Duration) (s : BurstSession) (log : List TimePoint) : Prop where
  parameters : Parameters N d p s.budget
  sound : s.Sound
  earlier : ∃ older, log = older ++ s.remembered ∧ ∀ t ∈ older, t + (p - d) ≤ s.start
  within : ∀ t ∈ s.remembered, t < s.start + d
  start_le : s.start ≤ s.now
  paced : Paced N (p - d) log

variable {N : ℕ} {d p : Duration} {s : BurstSession} {log : List TimePoint}

theorem Bursts.advance (h : Bursts N d p s log) (k : ℕ) : Bursts N d p (s.step (.advance k)).2 log := by
  have hlater : s.now ≤ (s.step (.advance k)).2.now := le_add_of_nonneg_right (Int.natCast_nonneg k)
  have hmessages : (s.step (.advance k)).2.remembered = s.remembered := rfl
  have hstart : s.start ≤ (s.step (.advance k)).2.start ∧ (s.step (.advance k)).2.start ≤
    (s.step (.advance k)).2.now := by
    cases hm : s.remembered with
    | nil => rw [start_of_nil hm, start_of_nil (hmessages.trans hm)]; exact ⟨hlater, le_rfl⟩
    | cons front rest =>
      have hle := h.start_le
      rw [start_of_cons hm] at hle
      rw [start_of_cons hm, start_of_cons (hmessages.trans hm)]
      exact ⟨le_rfl, hle.trans hlater⟩
  obtain ⟨older, hlog, holder⟩ := h.earlier
  refine ⟨h.parameters.step rfl, sound_step s _, ⟨older, hlog, ?_⟩, ?_, hstart.2, h.paced⟩
  · intro t ht
    exact (holder t ht).trans hstart.1
  · intro t ht
    have hin := h.within t ht
    linarith [hstart.1]

theorem Bursts.delay (h : Bursts N d p s log) : Bursts N d p (s.step .delay).2 log := by
  obtain ⟨older, hlog, holder⟩ := h.earlier
  have hparameters := h.parameters.step (e := .delay) rfl
  have hsound := sound_step s .delay
  obtain hsame | ⟨front, rest, hfront, hover, -, hcleared⟩ := s.budget.delay_budget s.now
  · have hstate : (s.step .delay).2.budget = s.budget := hsame
    have hstart : (s.step .delay).2.start = s.start := by
      rw [start, start, remembered, hstate]
      rfl
    refine ⟨hparameters, hsound, ⟨older, ?_, ?_⟩, ?_, ?_, h.paced⟩
    · rw [remembered, hstate]
      exact hlog
    · rw [hstart]
      exact holder
    · rw [remembered, hstate, hstart]
      exact h.within
    · rw [hstart]
      exact h.start_le
  · -- the burst is over: its messages join the older ones
    have hempty : (s.step .delay).2.remembered = [] := by simp [remembered, step, hcleared]
    have hstart : (s.step .delay).2.start = s.now := start_of_nil hempty
    have hfirst : s.start = front := start_of_cons hfront
    refine ⟨hparameters, hsound, ⟨log, by rw [hempty, append_nil], ?_⟩, ?_, hstart.le, h.paced⟩
    · intro t ht
      rw [hstart]
      rw [h.parameters.burstPeriod] at hover
      rw [hlog] at ht
      rcases mem_append.mp ht with ht | ht
      · have h1 := holder t ht
        linarith [h.start_le]
      · have h1 := h.within t ht
        linarith
    · rw [hempty]
      simp

theorem Bursts.notify (h : Bursts N d p s log) (hN : 0 < N) (hd : 0 < d) (hgranted : s.granted = true)
    (hapart : Apart s .notify) : Bursts N d p (s.step .notify).2 (log ++ [s.now]) := by
  obtain ⟨older, hlog, holder⟩ := h.earlier
  have hparameters := h.parameters.step (e := .notify) rfl
  have hsound := sound_step s .notify
  -- there is room, and the burst is not over
  have hroom : s.budget.messages.full = false ∧ s.now < s.start + d := by
    cases hm : s.remembered with
    | nil =>
      refine ⟨?_, by rw [start_of_nil hm]; linarith⟩
      have hcap : s.budget.messages.capacity ≠ 0 := by
        rw [h.parameters.capacity]
        omega
      simp [CircularBuffer.full, CircularBuffer.size, hm, hcap.symm]
    | cons front rest =>
      rcases h.sound hgranted front rest hm with ⟨hburst, hfull⟩ | hgap
      · rw [h.parameters.burstDuration] at hburst
        exact ⟨hfull, by rwa [start_of_cons hm]⟩
      · refine absurd ?_ (hapart rfl)
        rw [hm, hgap]
        simp
  obtain ⟨hfull, hburst⟩ := hroom
  have hcontents : (s.step .notify).2.remembered = s.remembered ++ [s.now] :=
    s.budget.messages.pushBack_of_not_full hfull s.now
  have hstart : (s.step .notify).2.start = s.start := by
    rw [start, hcontents, start]
    cases s.remembered with
    | nil | cons => rfl
  have hsize := s.budget.messages.size_lt_of_not_full hfull
  rw [h.parameters.capacity] at hsize
  refine ⟨hparameters, hsound, ⟨older, ?_, ?_⟩, ?_, ?_, ?_⟩
  · rw [hcontents, ← append_assoc, hlog]
  · rw [hstart]
    exact holder
  · rw [hcontents, hstart]
    exact forall_mem_append.mpr ⟨h.within, forall_mem_singleton.mpr hburst⟩
  · rw [hstart]
    exact h.start_le
  · -- the burst has fewer than `N` messages, so the message `N` before is older
    refine h.paced.snoc hN fun x hx hlen => ?_
    have hmem : x ∈ older := by
      rw [hlog, length_append] at hx hlen
      have hlt : s.remembered.length < N := hsize
      rw [List.getElem?_append_left (by omega)] at hx
      exact mem_of_getElem? hx
    exact (holder x hmem).trans h.start_le

theorem Bursts.step (h : Bursts N d p s log) (hN : 0 < N) (hd : 0 < d)
    (he : e.plain ∧ Gated s e ∧ Apart s e) : Bursts N d p (s.step e).2 (log ++ (s.step e).1.message.toList) := by
  obtain ⟨hplain, hgated, hapart⟩ := he
  cases e with
  | advance k =>
    rw [show (s.step (.advance k)).1.message.toList = [] from rfl, append_nil]
    exact h.advance k
  | delay =>
    rw [show (s.step .delay).1.message.toList = [] from rfl, append_nil]
    exact h.delay
  | notify => exact h.notify hN hd (hgated rfl) hapart
  | _ => simp [BurstEvent.plain] at hplain

/-- **Bursts are apart**, of a caller that keeps to the delays and sends nothing exactly one burst
period after the first message of a burst. -/
theorem messages_apart {b : BurstBudget} (hcapacity : 0 < b.messages.capacity) (hempty : b.messages.contents = [])
    (hduration : 0 < b.burstDuration) (now : TimePoint) {es : List BurstEvent} (hplain : ∀ e ∈ es, e.plain)
    (hgated : Along step Gated ⟨now, b, false⟩ es) (hapart : Along step Apart ⟨now, b, false⟩ es) :
    Paced b.messages.capacity (b.burstPeriod - b.burstDuration) (notified ⟨now, b, false⟩ es) := by
  have hstart : start ⟨now, b, false⟩ = now := start_of_nil hempty
  have hinit : Bursts b.messages.capacity b.burstDuration b.burstPeriod ⟨now, b, false⟩ [] := by
    refine ⟨⟨rfl, rfl, rfl⟩, nofun, ⟨[], hempty.symm, nofun⟩, ?_, hstart.le, ?_⟩
    · intro t ht
      rw [remembered, hempty] at ht
      cases ht
    · intro i x y hx
      cases hx
  have hC := along_and step (along_of_forall step ⟨now, b, false⟩ hplain) (along_and step hgated hapart)
  have hrun := along_history_invariant step (f := fun _ answer => answer.message)
    (I := Bursts b.messages.capacity b.burstDuration b.burstPeriod)
    (fun _ _ _ h he => h.step hcapacity hduration he) es ⟨now, b, false⟩ [] hinit hC
  exact hrun.paced

/-- A full burst, and a message more than a burst period after its first. -/
theorem messages_apart_two_bursts :
    let es := (List.replicate 20 [BurstEvent.delay, .notify]).flatten ++ [.advance 10000001, .delay, .notify]
    Along step Gated ⟨0, .initial, false⟩ es ∧ Along step Apart ⟨0, .initial, false⟩ es ∧
      (notified ⟨0, .initial, false⟩ es).length = 21 ∧ Paced 20 9000000 (notified ⟨0, .initial, false⟩ es) := by
  refine ⟨by decide, by decide, by decide, ?_⟩
  exact messages_apart (b := .initial) (by decide) rfl (by decide) 0 (by decide) (by decide) (by decide)

/-- One message, 19 more exactly ten seconds later, and two in the microsecond
after. -/
theorem messages_collide :
    ¬ ∀ (now : TimePoint) (es : List BurstEvent), (∀ e ∈ es, e.plain) → Along step Gated ⟨now, .initial, false⟩ es →
      Paced BurstBudget.initial.messages.capacity
        (BurstBudget.initial.burstPeriod - BurstBudget.initial.burstDuration) (notified ⟨now, .initial, false⟩ es) := by
  intro h
  let pair := [BurstEvent.delay, .notify]
  let es := pair ++ .advance 10000000 :: (List.replicate 19 pair).flatten ++ .advance 1 :: pair ++ pair
  have hpaced := h 0 es (by decide) (by decide) 1 10000000 10000001 (by decide) (by decide)
  exact absurd hpaced (by decide)

/-! ### A new limit -/

/-- The limit is not raised above the number of messages remembered. -/
def Shrinks (s : BurstSession) : BurstEvent → Prop
  | .burstMessages n => n ≤ s.remembered.length
  | _ => True

instance (s : BurstSession) (e : BurstEvent) : Decidable (Shrinks s e) := by
  cases e <;> unfold Shrinks <;> infer_instance

/-- The limit is set to the number of messages remembered. -/
def Keeps (s : BurstSession) : BurstEvent → Prop
  | .burstMessages n => n = s.remembered.length
  | _ => True

/-- From the oldest message remembered on, at most `n` messages within the
burst duration. -/
def WithinLimit (n : ℕ) (s : BurstSession) (es : List BurstEvent) : Prop :=
  ∀ front rest, s.remembered = front :: rest →
    s.remembered.length + (s.notified es).countP (· < front + s.budget.burstDuration) ≤ n

theorem remembered_step (he : ∀ n, e ≠ .burstMessages n) (hcapacity : 0 < s.budget.messages.capacity) :
    (s.step e).2.remembered <:+ s.remembered ++ (s.step e).1.message.toList := by
  cases e with
  | delay =>
    rw [show (s.step .delay).1.message.toList = [] from rfl, append_nil]
    show (s.budget.delay s.now).2.messages.contents <:+ s.remembered
    obtain h | ⟨_, _, _, _, _, h⟩ := s.budget.delay_budget s.now
    · rewrite [h]
      exact suffix_rfl
    · rw [h]
      exact nil_suffix
  | notify => exact s.budget.messages.pushBack_suffix hcapacity s.now
  | burstMessages n => exact absurd rfl (he n)
  | _ => exact ⟨[], append_nil _ |>.symm⟩

theorem capacity_step (s : BurstSession) (e : BurstEvent) :
    s.budget.messages.capacity ≤ (s.step e).2.budget.messages.capacity := by
  cases e with
  | delay => exact (s.budget.delay_frame s.now).1.ge
  | notify => exact (s.budget.messages.pushBack_capacity s.now).ge
  | burstMessages n => exact s.budget.messages.le_resize_capacity n 0
  | _ => exact le_rfl

theorem sublist_step (he : Shrinks s e) (hcapacity : 0 < s.budget.messages.capacity)
    (h : s.remembered.Sublist log) : (s.step e).2.remembered.Sublist (log ++ (s.step e).1.message.toList) := by
  by_cases hnew : ∃ n, e = .burstMessages n
  · obtain ⟨n, rfl⟩ := hnew
    have hcut : (s.step (.burstMessages n)).2.remembered = s.remembered.take n :=
      s.budget.messages.resize_of_le he 0
    rw [hcut]
    exact ((take_sublist n _).trans h).trans (sublist_append_left _ _)
  · have hsuffix := remembered_step (fun n hn => hnew ⟨n, hn⟩) hcapacity
    exact hsuffix.sublist.trans (h.append_right _)

theorem suffix_step (he : Keeps s e) (hcapacity : 0 < s.budget.messages.capacity)
    (h : s.remembered <:+ log) : (s.step e).2.remembered <:+ log ++ (s.step e).1.message.toList := by
  by_cases hnew : ∃ n, e = .burstMessages n
  · obtain ⟨n, rfl⟩ := hnew
    have hcut : (s.step (.burstMessages n)).2.remembered = s.remembered.take n :=
      s.budget.messages.resize_of_le (le_of_eq he) 0
    rw [hcut, show n = s.remembered.length from he, take_length]
    exact h.trans ⟨[], (append_nil _).symm⟩
  · have hsuffix := remembered_step (fun n hn => hnew ⟨n, hn⟩) hcapacity
    obtain ⟨older, rfl⟩ := h
    rw [append_assoc]
    exact hsuffix.trans (suffix_append older _)

/-- While the window of the oldest message `front` of the session `s₀` lasts,
every message notified since is remembered. -/
structure Window (s₀ : BurstSession) (N : ℕ) (d p : Duration) (front : TimePoint) (s : BurstSession)
    (since : List TimePoint) : Prop where
  parameters : Parameters N d p s.budget
  sound : s.Sound
  remembers : s.now < front + d → s.remembered = s₀.remembered ++ since
  limit : s₀.remembered.length + since.countP (· < front + d) ≤ N

variable {s₀ : BurstSession} {front : TimePoint} {since : List TimePoint}

theorem Window.delay (h : Window s₀ N d p front s since) (hfront : s₀.remembered.head? = some front) (hdp : d < p) :
    Window s₀ N d p front (s.step .delay).2 since := by
  refine ⟨h.parameters.step rfl, sound_step s .delay, fun hnow => ?_, h.limit⟩
  have hremembers := h.remembers hnow
  show (s.budget.delay s.now).2.messages.contents = _
  obtain hsame | ⟨front', rest, hm, hover, -, -⟩ := s.budget.delay_budget s.now
  · rw [hsame]
    exact hremembers
  · -- the burst cannot be over while the window lasts
    have hhead : s.remembered.head? = some front := by
      rw [hremembers, List.head?_append, hfront]
      rfl
    rw [remembered, hm] at hhead
    cases hhead
    have hnow' : s.now < front + d := hnow
    rw [h.parameters.burstPeriod] at hover
    linarith

theorem Window.notify (h : Window s₀ N d p front s since) (hfront : s₀.remembered.head? = some front) (hdp : d < p)
    (hgranted : s.granted = true) : Window s₀ N d p front (s.step .notify).2 (since ++ [s.now]) := by
  have hparameters := h.parameters.step (e := .notify) rfl
  have hsound := sound_step s .notify
  by_cases hnow : s.now < front + d
  · have hremembers := h.remembers hnow
    obtain ⟨rest, hm⟩ : ∃ rest, s.remembered = front :: rest := by
      refine List.head?_eq_some_iff.mp ?_
      rw [hremembers, List.head?_append, hfront]
      rfl
    have hfull : s.budget.messages.full = false := by
      rcases h.sound hgranted front rest hm with ⟨-, hfull⟩ | hgap
      · exact hfull
      · rw [h.parameters.burstPeriod] at hgap
        linarith
    have hpushed : (s.step .notify).2.remembered = s₀.remembered ++ (since ++ [s.now]) := by
      rw [← append_assoc, ← hremembers]
      exact s.budget.messages.pushBack_of_not_full hfull s.now
    refine ⟨hparameters, hsound, fun _ => hpushed, ?_⟩
    calc s₀.remembered.length + (since ++ [s.now]).countP (· < front + d)
        ≤ s₀.remembered.length + (since ++ [s.now]).length := Nat.add_le_add_left countP_le_length _
      _ = (s.step .notify).2.remembered.length := by rw [hpushed]; exact length_append.symm
      _ ≤ (s.step .notify).2.budget.messages.capacity := (s.step .notify).2.budget.messages.size_le
      _ = N := hparameters.capacity
  · refine ⟨hparameters, hsound, fun h' => absurd h' hnow, ?_⟩
    rw [countP_append, countP_singleton, if_neg (by simpa using hnow)]
    exact h.limit

theorem Window.step (h : Window s₀ N d p front s since) (hfront : s₀.remembered.head? = some front)
    (hdp : d < p) (he : e.plain ∧ Gated s e) :
    Window s₀ N d p front (s.step e).2 (since ++ (s.step e).1.message.toList) := by
  obtain ⟨hplain, hgated⟩ := he
  cases e with
  | advance k =>
    rw [show (s.step (.advance k)).1.message.toList = [] from rfl, append_nil]
    refine ⟨h.parameters.step rfl, sound_step s _, fun hnow => h.remembers ?_, h.limit⟩
    exact (le_add_of_nonneg_right (Int.natCast_nonneg k)).trans_lt hnow
  | delay =>
    rw [show (s.step .delay).1.message.toList = [] from rfl, append_nil]
    exact h.delay hfront hdp
  | notify => exact h.notify hfront hdp (hgated rfl)
  | _ => simp [BurstEvent.plain] at hplain

theorem withinLimit_capacity (hsound : s.Sound) (hdp : s.budget.burstDuration < s.budget.burstPeriod)
    (hplain : ∀ e ∈ es, e.plain) (hgated : Along step Gated s es) : WithinLimit s.budget.messages.capacity s es := by
  intro front rest hm
  have hfront : s.remembered.head? = some front := by
    rw [hm]
    rfl
  have hinit : Window s s.budget.messages.capacity s.budget.burstDuration s.budget.burstPeriod front s [] :=
    ⟨⟨rfl, rfl, rfl⟩, hsound, fun _ => (append_nil _).symm, s.budget.messages.size_le⟩
  have hC := along_and step (along_of_forall step s hplain) hgated
  have hrun := along_history_invariant step (f := fun _ answer => answer.message)
    (I := Window s s.budget.messages.capacity s.budget.burstDuration s.budget.burstPeriod front)
    (fun _ _ _ h he => h.step hfront hdp he) es s [] hinit hC
  exact hrun.limit

theorem parameters_run (hplain : ∀ e ∈ es, e.plain) (h : Parameters N d p s.budget) :
    Parameters N d p (s.run es).budget :=
  along_invariant step (C := fun _ e => e.plain) (I := fun s => Parameters N d p s.budget)
    (fun _ _ h he => h.step he) es s h (along_of_forall step s hplain)

theorem sound_run (h : s.Sound) : (s.run es).Sound :=
  along_invariant step (C := fun _ _ => True) (fun s e _ _ => sound_step s e) es s h
    (along_of_forall step s fun _ _ => trivial)

theorem remembered_run {C : BurstSession → BurstEvent → Prop} {P : List TimePoint → List TimePoint → Prop}
    (h0 : P [] [])
    (hstep : ∀ {s e log}, C s e → 0 < s.budget.messages.capacity → P s.remembered log →
      P (s.step e).2.remembered (log ++ (s.step e).1.message.toList))
    (now : TimePoint) (hes : Along step C ⟨now, .initial, false⟩ es) :
    P (run ⟨now, .initial, false⟩ es).remembered (notified ⟨now, .initial, false⟩ es) := by
  have hrun := along_history_invariant step (f := fun _ answer => answer.message)
    (I := fun s log => 0 < s.budget.messages.capacity ∧ P s.remembered log)
    (fun s _ e h he => ⟨h.1.trans_le (capacity_step s e), hstep he h.1 h.2⟩)
    es ⟨now, .initial, false⟩ [] ⟨Nat.succ_pos _, h0⟩ hes
  exact hrun.2

theorem withinLimit_burstMessages {n : ℕ} {es es' : List BurstEvent} (hn : s.budget.messages.capacity ≤ n)
    (hdp : s.budget.burstDuration < s.budget.burstPeriod) (hes : ∀ e ∈ es, e.plain) (hes' : ∀ e ∈ es', e.plain)
    (hgated : Along step Gated (run (s.step (.burstMessages n)).2 es) es') :
    WithinLimit n (run (s.step (.burstMessages n)).2 es) es' := by
  have hset : Parameters n s.budget.burstDuration s.budget.burstPeriod (s.step (.burstMessages n)).2.budget :=
    ⟨s.budget.messages.resize_capacity hn 0, rfl, rfl⟩
  have hrun := parameters_run hes hset
  have hsound : (run (s.step (.burstMessages n)).2 es).Sound := sound_run (sound_step s _)
  have hlimit := withinLimit_capacity hsound (by rwa [hrun.burstDuration, hrun.burstPeriod]) hes' hgated
  rwa [hrun.capacity] at hlimit

/-- **A new limit.** Calls of `burst_messages` leave a selection of the notified messages if they
do not raise the number of remembered ones, and the last ones if they keep it. -/
theorem burst_messages_limits (now : TimePoint) (es : List BurstEvent) :
    (Along step Shrinks ⟨now, .initial, false⟩ es →
      (run ⟨now, .initial, false⟩ es).remembered.Sublist (notified ⟨now, .initial, false⟩ es)) ∧
    (Along step Keeps ⟨now, .initial, false⟩ es →
      (run ⟨now, .initial, false⟩ es).remembered <:+ notified ⟨now, .initial, false⟩ es) ∧
    ∀ (n : ℕ) (es' es'' : List BurstEvent), (run ⟨now, .initial, false⟩ es).budget.messages.capacity ≤ n →
      (run ⟨now, .initial, false⟩ es).budget.burstDuration < (run ⟨now, .initial, false⟩ es).budget.burstPeriod →
      (∀ e ∈ es', e.plain) → (∀ e ∈ es'', e.plain) →
      Along step Gated (run ⟨now, .initial, false⟩ (es ++ .burstMessages n :: es')) es'' →
      WithinLimit n (run ⟨now, .initial, false⟩ (es ++ .burstMessages n :: es')) es'' := by
  refine ⟨remembered_run (.refl []) sublist_step now, remembered_run suffix_rfl suffix_step now, ?_⟩
  intro n es' es'' hn hdp hes' hes'' hgated
  rw [run, final_append] at hgated ⊢
  exact withinLimit_burstMessages hn hdp hes' hes'' hgated

/-- Three messages and a limit of two; a limit of 21 and one message more. -/
theorem burst_messages_limits_twice :
    let es := [BurstEvent.delay, .notify, .delay, .notify, .delay, .notify, .burstMessages 2]
    let es'' := [BurstEvent.advance 20000000, .delay, .notify]
    Along step Shrinks ⟨7, .initial, false⟩ es ∧
      (run ⟨7, .initial, false⟩ es).remembered.Sublist (notified ⟨7, .initial, false⟩ es) ∧
      Along step Gated (run ⟨7, .initial, false⟩ (es ++ [.burstMessages 21])) es'' ∧
      WithinLimit 21 (run ⟨7, .initial, false⟩ (es ++ [.burstMessages 21])) es'' := by
  refine ⟨by decide, (burst_messages_limits 7 _).1 (by decide), by decide, ?_⟩
  exact (burst_messages_limits 7 _).2.2 21 [] _ (by decide) (by decide) (by decide) (by decide) (by decide)

/-- A limit that is raised puts default time points among the messages, and
one that is lowered to the number of messages does not hold. -/
theorem burst_messages_unlimited :
    (¬ ∀ (now : TimePoint) (es : List BurstEvent), (∀ n, .burstMessages n ∈ es → 1 ≤ n) →
      ∀ t ∈ (run ⟨now, .initial, false⟩ es).remembered, t ∈ notified ⟨now, .initial, false⟩ es) ∧
    ¬ ∀ (now : TimePoint) (n : ℕ) (es es' : List BurstEvent), 1 ≤ n → (∀ e ∈ es', e.plain) →
      Along step Gated ⟨now, .initial, false⟩ (es ++ .burstMessages n :: es') →
      WithinLimit n (run ⟨now, .initial, false⟩ (es ++ [.burstMessages n])) es' := by
  refine ⟨fun h => ?_, fun h => ?_⟩
  · have hmem := h 7 [.burstMessages 1] (by simp) 0 (by decide)
    exact absurd hmem (by decide)
  · have hlimit := h 7 1 [.delay, .notify] [.delay, .notify] le_rfl (by decide) (by decide) 7 [] (by decide)
    exact absurd hlimit (by decide)

end BurstSession
end VanetzaIdf.Dcc
