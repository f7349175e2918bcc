/-
# LimericBudget

The gate of the adaptive approach, `dcc/limeric_budget.cpp`. After a
transmission it is closed for an interval between 25 ms and one second
(`Interval`), computed again when the duty cycle changes.

Times are 64-bit integers in the source; `delay` and `update` also give the sums
and differences that the source evaluates. The first start time is the least
one, and a difference taken from it is out of range when the clock is past 25 ms
(`limeric_in_range`). Doubles are rounded after each operation.
-/
import VanetzaIdf.Lib.Machine
import VanetzaIdf.Lib.Rounding
import VanetzaIdf.Geonet.Lifetime

namespace VanetzaIdf

open List

structure UnitInterval where
  value : ℚ
  nonneg : 0 ≤ value
  le_one : value ≤ 1
deriving DecidableEq, Repr

def UnitInterval.clamp (v : ℚ) : UnitInterval where
  value := if 1 < v then 1 else if v < 0 then 0 else v
  nonneg := by split_ifs <;> linarith
  le_one := by split_ifs <;> linarith

theorem UnitInterval.value_injective : Function.Injective UnitInterval.value := by
  rintro ⟨v, _, _⟩ ⟨w, _, _⟩ h
  cases h
  rfl

/-- `operator<` compares the values; `boost::totally_ordered` makes the other comparisons from it. -/
instance : LinearOrder UnitInterval := LinearOrder.lift' UnitInterval.value UnitInterval.value_injective

/-- `Clock::time_point::min()`. -/
def minTimePoint : TimePoint := -2 ^ 63

/-- The values of a signed integer of 64 bits. -/
def InRange (x : ℤ) : Prop := -2 ^ 63 ≤ x ∧ x < 2 ^ 63

instance (x : ℤ) : Decidable (InRange x) := inferInstanceAs (Decidable (_ ∧ _))

namespace Dcc

open Lib VanetzaIdf.Units

def minInterval : Duration := 25000

def maxInterval : Duration := seconds 1

/-- An interval between the least and the greatest. -/
structure Interval where
  length : Duration
  le_length : minInterval ≤ length
  length_le : length ≤ maxInterval
deriving DecidableEq, Repr

def clampInterval (interval : Duration) : Interval where
  length := min (max interval minInterval) maxInterval
  le_length := le_min (le_max_right _ _) (by decide)
  length_le := min_le_right _ _

structure LimericBudget where
  interval : Interval
  txStart : TimePoint
  txOn : Duration
deriving DecidableEq, Repr

namespace LimericBudget

variable (R : Rounding)

def opening (b : LimericBudget) : TimePoint := b.txStart + b.interval.length

/-- `delay`, with the sums and differences evaluated. -/
def delay (b : LimericBudget) (now : TimePoint) : Duration × List ℤ :=
  if b.opening ≤ now then (0, [b.opening]) else (b.opening - now, [b.opening, b.opening, b.opening - now])

/-- Equation B.1: the time on air over the duty cycle, in double precision. -/
def share (txOn : Duration) (dutyCycle : UnitInterval) : ℚ := R.round (R.round txOn / dutyCycle.value)

def notify (_ : LimericBudget) (now : TimePoint) (txOn : Duration) (dutyCycle : UnitInterval) : LimericBudget :=
  ⟨clampInterval (truncate (share R txOn dutyCycle)), now, txOn⟩

/-- Equation B.2: the share of the interval that is left of it. -/
def rest (b : LimericBudget) (now : TimePoint) (dutyCycle : UnitInterval) : Duration :=
  truncate (R.round (share R b.txOn dutyCycle * R.round (R.round (b.opening - now : ℤ) / b.interval.length)))

/-- `update`, with the sums and differences evaluated. -/
def update (b : LimericBudget) (now : TimePoint) (dutyCycle : UnitInterval) : LimericBudget × List ℤ :=
  if 0 < dutyCycle.value then
    -- is the gate closed at the moment?
    if 0 < R.round (b.opening - now : ℤ) then
      ({ b with interval := clampInterval (b.rest R now dutyCycle + now - b.txStart) },
        [b.opening, b.opening - now, b.rest R now dutyCycle + now, b.rest R now dutyCycle + now - b.txStart])
    else ({ b with interval := clampInterval (truncate (share R b.txOn dutyCycle)) }, [b.opening, b.opening - now])
  else ({ b with interval := ⟨maxInterval, by decide, le_rfl⟩ }, [b.opening, b.opening - now])

/-- The constructor, which calls `update`. -/
def construct (now : TimePoint) (dutyCycle : UnitInterval) : LimericBudget × List ℤ :=
  update R ⟨⟨minInterval, le_rfl, by decide⟩, minTimePoint, 0⟩ now dutyCycle

@[simp] theorem update_txStart (b : LimericBudget) (now : TimePoint) (dutyCycle : UnitInterval) :
    (b.update R now dutyCycle).1.txStart = b.txStart := by
  unfold update
  split_ifs <;> rfl

theorem delay_pos_iff (b : LimericBudget) (now : TimePoint) : 0 < (b.delay now).1 ↔ now < b.opening := by
  unfold delay
  split_ifs with h
  · exact ⟨fun h' => absurd h' (lt_irrefl _), fun h' => absurd h' (not_lt.mpr h)⟩
  · exact sub_pos

/-! ### The range of the sums and differences -/

/-- No transmission yet, or one in the past. -/
def Started (b : LimericBudget) (now : TimePoint) : Prop := b.txStart = minTimePoint ∨ 0 ≤ b.txStart ∧ b.txStart ≤ now

variable {R} {b : LimericBudget} {now : TimePoint} {dutyCycle : UnitInterval}

theorem inRange_opening (h : b.Started now) (hnow : now < 2 ^ 62) : InRange b.opening := by
  have hlow : (25000 : ℤ) ≤ b.interval.length := b.interval.le_length
  have hhigh : b.interval.length ≤ (1000000 : ℤ) := b.interval.length_le
  unfold InRange opening
  rcases h with h | ⟨h0, h1⟩
  · rw [h, minTimePoint]
    constructor <;> linarith
  · constructor <;> linarith

theorem inRange_delay (h : b.Started now) (h0 : 0 ≤ now) (hnow : now < 2 ^ 62) : ∀ x ∈ (b.delay now).2, InRange x := by
  have hopening := inRange_opening h hnow
  unfold delay
  split_ifs with hopen
  · simpa using hopening
  · have hdiff : InRange (b.opening - now) := ⟨by linarith, by linarith [hopening.2]⟩
    simp only [mem_cons, not_mem_nil, or_false]
    rintro x (rfl | rfl | rfl)
    · exact hopening
    · exact hopening
    · exact hdiff

theorem abs_truncate_le {x : ℚ} {n : ℤ} (h : |x| ≤ n) : |truncate x| ≤ n := by
  have hcast : ∀ m : ℤ, truncate m = m := by
    intro m
    unfold truncate
    split_ifs <;> simp
  obtain ⟨hlow, hhigh⟩ := abs_le.mp h
  have h1 := truncate_mono hlow
  have h2 := truncate_mono hhigh
  rw [← Int.cast_neg, hcast] at h1
  rw [hcast] at h2
  exact abs_le.mpr ⟨h1, h2⟩

/-- Equation B.1 gives at most 2^62 microseconds. -/
def Fits (R : Rounding) (b : LimericBudget) (dutyCycle : UnitInterval) : Prop := |share R b.txOn dutyCycle| ≤ 2 ^ 62

theorem round_interval (i : Interval) : R.round i.length = i.length := by
  have hlow : (25000 : ℤ) ≤ i.length := i.le_length
  have hhigh : i.length ≤ (1000000 : ℤ) := i.length_le
  exact R.round_int (abs_le.mpr ⟨by linarith, by linarith⟩)

instance : Decidable (b.Fits R dutyCycle) := inferInstanceAs (Decidable (_ ≤ _))

theorem left_le_one (hstarted : b.txStart ≤ now) : R.round (b.opening - now : ℤ) / b.interval.length ≤ 1 := by
  have hlow : (25000 : ℤ) ≤ b.interval.length := b.interval.le_length
  have hpos : (0 : ℚ) < b.interval.length := Int.cast_pos.mpr (by linarith)
  rw [div_le_one hpos, ← round_interval (R := R) b.interval]
  apply R.mono
  have hle : b.opening - now ≤ b.interval.length := by
    unfold opening
    linarith
  exact_mod_cast hle

theorem abs_rest_le (hstarted : b.txStart ≤ now) (hclosed : 0 < R.round (b.opening - now : ℤ))
    (hfits : b.Fits R dutyCycle) :
    |b.rest R now dutyCycle| ≤ 2 ^ 62 := by
  have hlow : (25000 : ℤ) ≤ b.interval.length := b.interval.le_length
  have hlength : (0 : ℚ) ≤ b.interval.length := Int.cast_nonneg (by linarith)
  have hfactor : |R.round (R.round (b.opening - now : ℤ) / b.interval.length)| ≤ 1 := by
    rw [abs_of_nonneg (Rounding.round_nonneg (div_nonneg hclosed.le hlength))]
    exact Rounding.round_le_one (left_le_one hstarted)
  have hproduct : |share R b.txOn dutyCycle * R.round (R.round (b.opening - now : ℤ) / b.interval.length)| ≤
    2 ^ 62 := by
    rw [abs_mul]
    calc |share R b.txOn dutyCycle| * |R.round (R.round (b.opening - now : ℤ) / b.interval.length)|
        ≤ 2 ^ 62 * 1 := mul_le_mul hfits hfactor (abs_nonneg _) (by norm_num)
      _ = 2 ^ 62 := mul_one _
  refine abs_truncate_le ?_
  rw [Int.cast_pow, Int.cast_ofNat]
  exact Rounding.abs_round_le (by norm_num) hproduct

/-- An update of a budget that has seen a transmission, or of one that has not
in the first 25 ms. -/
def Early (b : LimericBudget) (now : TimePoint) : Prop := b.txStart = minTimePoint → now ≤ b.interval.length

instance : Decidable (b.Early now) := inferInstanceAs (Decidable (_ → _))

theorem inRange_update (h : b.Started now) (h0 : 0 ≤ now) (hnow : now < 2 ^ 62) (hearly : b.Early now)
    (hfits : now < b.opening → b.Fits R dutyCycle) : ∀ x ∈ (b.update R now dutyCycle).2, InRange x := by
  have hopening := inRange_opening h hnow
  have hlow : (25000 : ℤ) ≤ b.interval.length := b.interval.le_length
  have hdiff : InRange (b.opening - now) := by
    refine ⟨?_, by linarith [hopening.2]⟩
    unfold opening
    rcases h with h | ⟨hstart, -⟩
    · have := hearly h
      rw [h, minTimePoint]
      linarith
    · linarith
  have hboth : ∀ x ∈ [b.opening, b.opening - now], InRange x := by
    simp only [mem_cons, not_mem_nil, or_false]
    rintro x (rfl | rfl)
    · exact hopening
    · exact hdiff
  unfold update
  split_ifs with hduty hclosed
  · have hgate : now < b.opening := by
      refine lt_of_not_ge fun hopen => not_lt.mpr (Rounding.round_nonpos ?_) hclosed
      exact_mod_cast sub_nonpos.mpr hopen
    -- the gate can only be closed by a transmission
    have hpast : 0 ≤ b.txStart ∧ b.txStart ≤ now := by
      rcases h with h | h
      · have hhigh : b.interval.length ≤ (1000000 : ℤ) := b.interval.length_le
        rw [opening, h, minTimePoint] at hgate
        linarith
      · exact h
    obtain ⟨hr1, hr2⟩ := abs_le.mp (abs_rest_le hpast.2 hclosed (hfits hgate))
    have hsum : InRange (b.rest R now dutyCycle + now) := ⟨by linarith, by linarith⟩
    have hlast : InRange (b.rest R now dutyCycle + now - b.txStart) :=
      ⟨by linarith [hpast.2], by linarith [hpast.1, hsum.2]⟩
    simp only [mem_cons, not_mem_nil, or_false]
    rintro x (rfl | rfl | rfl | rfl)
    · exact hopening
    · exact hdiff
    · exact hsum
    · exact hlast
  · exact hboth
  · exact hboth

end LimericBudget

/-! ### Sessions -/

inductive LimericEvent
  | advance (d : ℕ)
  | delay
  | notify (txOn : Duration) (dutyCycle : UnitInterval)
  | update (dutyCycle : UnitInterval)
deriving DecidableEq, Repr

structure LimericSession where
  now : TimePoint
  budget : LimericBudget
deriving DecidableEq, Repr

namespace LimericSession

variable (R : Rounding)

/-- A call, with the sums and differences of times that it evaluates. -/
def step (s : LimericSession) : LimericEvent → List ℤ × LimericSession
  | .advance d => ([], { s with now := s.now + d })
  | .delay => ((s.budget.delay s.now).2, s)
  | .notify txOn dutyCycle => ([], { s with budget := s.budget.notify R s.now txOn dutyCycle })
  | .update dutyCycle =>
    let (budget, evaluated) := s.budget.update R s.now dutyCycle
    (evaluated, { s with budget := budget })

def construct (now : TimePoint) (dutyCycle : UnitInterval) : LimericSession :=
  ⟨now, (LimericBudget.construct R now dutyCycle).1⟩

/-- All sums and differences of times from the construction on. -/
def evaluated (now : TimePoint) (dutyCycle : UnitInterval) (es : List LimericEvent) : List ℤ :=
  (LimericBudget.construct R now dutyCycle).2 ++
    (history (step R) (fun _ evaluated => some evaluated) (construct R now dutyCycle) es).flatten

/-- The clock, and the permitted duty cycle, are in their ranges. -/
def Ranges (s : LimericSession) : LimericEvent → Prop
  | .notify _ dutyCycle => s.now < 2 ^ 62 ∧ 0 < dutyCycle.value
  | .update dutyCycle => s.now < 2 ^ 62 ∧ 0 < dutyCycle.value
  | _ => s.now < 2 ^ 62

instance (s : LimericSession) (e : LimericEvent) : Decidable (Ranges s e) := by
  cases e <;> unfold Ranges <;> infer_instance

/-- Updates come early or after a transmission, and while the gate is closed
after one of moderate length. -/
def Moderate (s : LimericSession) : LimericEvent → Prop
  | .update dutyCycle => s.budget.Early s.now ∧ (s.now < s.budget.opening → s.budget.Fits R dutyCycle)
  | _ => True

instance (s : LimericSession) (e : LimericEvent) : Decidable (Moderate R s e) := by
  cases e <;> unfold Moderate <;> infer_instance

variable {R} {s : LimericSession} {e : LimericEvent}

theorem Ranges.now_lt (h : s.Ranges e) : s.now < 2 ^ 62 := by
  cases e with
  | advance | delay => exact h
  | notify | update => exact h.1

/-- The clock is not negative, and transmissions are in the past. -/
def Valid (s : LimericSession) : Prop := 0 ≤ s.now ∧ s.budget.Started s.now

theorem Valid.step (h : s.Valid) : Valid (s.step R e).2 := by
  obtain ⟨h0, hstarted⟩ := h
  cases e with
  | advance d =>
    have hlater : s.now ≤ s.now + d := le_add_of_nonneg_right (Int.natCast_nonneg d)
    exact ⟨h0.trans hlater, hstarted.imp id fun h => ⟨h.1, h.2.trans hlater⟩⟩
  | delay => exact ⟨h0, hstarted⟩
  | notify txOn dutyCycle => exact ⟨h0, .inr ⟨h0, le_rfl⟩⟩
  | update dutyCycle => exact ⟨h0, by simpa [LimericBudget.Started, LimericSession.step] using hstarted⟩

theorem Valid.inRange (h : s.Valid) (hranges : s.Ranges e) (hmoderate : s.Moderate R e) :
    ∀ x ∈ (s.step R e).1, InRange x := by
  obtain ⟨h0, hstarted⟩ := h
  cases e with
  | advance | notify => exact nofun
  | delay => exact LimericBudget.inRange_delay hstarted h0 hranges.now_lt
  | update dutyCycle => exact LimericBudget.inRange_update hstarted h0 hranges.now_lt hmoderate.1 hmoderate.2

theorem inRange_construct {now : TimePoint} {dutyCycle : UnitInterval} (h0 : 0 ≤ now) (hearly : now ≤ minInterval) :
    ∀ x ∈ (LimericBudget.construct R now dutyCycle).2, InRange x := by
  have hfits : LimericBudget.Fits R ⟨⟨minInterval, le_rfl, by decide⟩, minTimePoint, 0⟩ dutyCycle := by
    simp [LimericBudget.Fits, LimericBudget.share, Rounding.round_zero]
  have hnow : now < 2 ^ 62 := lt_of_le_of_lt hearly (by decide)
  exact LimericBudget.inRange_update (.inl rfl) h0 hnow (fun _ => hearly) fun _ => hfits

/-- **No overflow** of 64-bit times, if budgets are constructed and first updated in the first 25
ms of the clock, and no update while the gate is closed is for more than 2^62 microseconds. -/
theorem limeric_in_range {now : TimePoint} {dutyCycle : UnitInterval} {es : List LimericEvent} (h0 : 0 ≤ now)
    (hearly : now ≤ minInterval) (hranges : Along (step R) Ranges (construct R now dutyCycle) es)
    (hmoderate : Along (step R) (Moderate R) (construct R now dutyCycle) es) :
    ∀ x ∈ evaluated R now dutyCycle es, InRange x := by
  have hvalid : Valid (construct R now dutyCycle) := ⟨h0, .inl (LimericBudget.update_txStart R _ _ _)⟩
  have hrun := along_history_invariant (step R) (f := fun _ evaluated => some evaluated)
    (I := fun s acc => s.Valid ∧ ∀ ops ∈ acc, ∀ x ∈ ops, InRange x)
    (fun s acc e h he => ⟨h.1.step, fun ops hops => by
      rcases mem_append.mp hops with hops | hops
      · exact h.2 ops hops
      · rw [Option.toList_some, mem_singleton] at hops
        rw [hops]
        exact h.1.inRange he.1 he.2⟩)
    es (construct R now dutyCycle) [] ⟨hvalid, nofun⟩ (along_and (step R) hranges hmoderate)
  intro x hx
  rcases mem_append.mp hx with hx | hx
  · exact inRange_construct h0 hearly x hx
  · obtain ⟨ops, hops, hx⟩ := mem_flatten.mp hx
    exact hrun.2 ops hops x hx

/-- A transmission of 1 ms and an update 10 ms later. -/
theorem limeric_in_range_update :
    let es := [LimericEvent.delay, .notify 1000 ⟨1 / 100, by decide +kernel, by decide +kernel⟩, .advance 10000,
      .update ⟨1 / 50, by decide +kernel, by decide +kernel⟩, .delay]
    evaluated .none 5 ⟨1, by decide +kernel, by decide +kernel⟩ es =
      [-2 ^ 63 + 25000, -2 ^ 63 + 24995, -2 ^ 63 + 25000, 100005, 90000, 55005, 55000, 55005, 55005, 45000] ∧
      ∀ x ∈ evaluated .none 5 ⟨1, by decide +kernel, by decide +kernel⟩ es, InRange x := by
  exact ⟨by decide +kernel, limeric_in_range (by decide) (by decide) (by decide +kernel) (by decide +kernel)⟩

/-- A budget that is constructed after 25 ms; and one that is updated within
an interval of more than 2^62 microseconds. -/
theorem limeric_overflows :
    (¬ ∀ (R : Rounding) (now : TimePoint) (dutyCycle : UnitInterval) (es : List LimericEvent), 0 ≤ now → now < 2 ^ 62 →
      0 < dutyCycle.value → Along (step R) Ranges (construct R now dutyCycle) es →
      ∀ x ∈ evaluated R now dutyCycle es, InRange x) ∧
    ¬ ∀ (R : Rounding) (now : TimePoint) (dutyCycle : UnitInterval) (es : List LimericEvent), 0 ≤ now →
      now ≤ minInterval → 0 < dutyCycle.value → Along (step R) Ranges (construct R now dutyCycle) es →
      Along (step R) (fun s _ => s.budget.Early s.now) (construct R now dutyCycle) es →
      ∀ x ∈ evaluated R now dutyCycle es, InRange x := by
  refine ⟨fun h => ?_, fun h => ?_⟩
  · have hx := h .none 25001 ⟨1, by norm_num, le_rfl⟩ [] (by decide) (by decide) (by norm_num) trivial (-2 ^ 63 - 1)
      (by decide +kernel)
    exact absurd hx (by decide)
  · let one : UnitInterval := ⟨1, by norm_num, le_rfl⟩
    have hx := h .none 0 one [.notify 1000 one, .advance (2 ^ 62 - 1), .notify (3 * 2 ^ 61) one, .update one]
      (by decide) (by decide) (by decide +kernel) (by decide +kernel) (by decide +kernel) (3 * 2 ^ 61 + (2 ^ 62 - 1))
      (by decide +kernel)
    exact absurd hx (by decide)

end LimericSession
end Dcc
end VanetzaIdf
