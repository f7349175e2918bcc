/-
# UTC and TAI

The conversions of `vanetza_idf/its_time.hpp` between Unix time and the
microseconds since the ITS epoch, which count leap seconds. Integers of 64 bits
are integers here. `sinceEpoch_eq` and `unixMicroseconds_eq` say both by the whole
seconds and the rest, with the counts of `Lib.Inserted`; the results hold for
every table of leap seconds in order (`tai_utc_inverse`).
-/
import VanetzaIdf.Lib.Inserted

namespace VanetzaIdf.ItsTime

open Lib List

/-- `epoch_unix_seconds`: 2004-01-01. -/
def epochUnixSeconds : ℤ := 1072915200

/-- `leap_second_unix_seconds`: each is the first second after an inserted one. -/
def leapSecondUnixSeconds : List ℤ := [1136073600, 1230768000, 1341100800, 1435708800, 1483228800]

def leapSecondsSinceEpoch (unixSeconds : ℤ) : ℕ := leapSecondUnixSeconds.countP fun instant => instant ≤ unixSeconds

def microsecondsSinceEpoch (unixSeconds subSecondMicroseconds : ℤ) : ℤ :=
  (unixSeconds - epochUnixSeconds + leapSecondsSinceEpoch unixSeconds) * 1000000 + subSecondMicroseconds

/-- `since_epoch` of an instant given in microseconds. -/
def sinceEpoch (unixUs : ℤ) : ℤ :=
  let seconds := if 0 ≤ unixUs then unixUs.tdiv 1000000 else -(-unixUs + 999999).tdiv 1000000
  microsecondsSinceEpoch seconds (unixUs - seconds * 1000000)

def unixMicroseconds (microsecondsSinceItsEpoch : ℤ) : ℤ :=
  let taiSeconds := microsecondsSinceItsEpoch.tdiv 1000000
  let inserted := leapSecondUnixSeconds.zipIdx.countP fun p => p.1 - epochUnixSeconds + (p.2 + 1) ≤ taiSeconds
  (taiSeconds + epochUnixSeconds - inserted) * 1000000 + microsecondsSinceItsEpoch.tmod 1000000

/-- The time lies in an inserted leap second: 23:59:60 UTC, before the instant of the table. -/
def InLeapSecond (t : ℤ) : Prop :=
  ∃ p ∈ leapSecondUnixSeconds.zipIdx,
    (p.1 - epochUnixSeconds + p.2) * 1000000 ≤ t ∧ t < (p.1 - epochUnixSeconds + p.2) * 1000000 + 1000000

/-! ### On whole seconds -/

def leapSeconds : List ℤ := leapSecondUnixSeconds.map (· - epochUnixSeconds)

theorem leapSeconds_sorted : leapSeconds.Pairwise (· < ·) := by decide

theorem leapSeconds_pos : ∀ s ∈ leapSeconds, 0 < s := by decide

theorem leapSecondsSinceEpoch_eq (s : ℤ) : leapSecondsSinceEpoch s = inserted leapSeconds (s - epochUnixSeconds) := by
  unfold leapSecondsSinceEpoch inserted leapSeconds
  rw [countP_map]
  refine countP_congr fun a _ => ?_
  simp

theorem inserted_eq_ended (s : ℤ) :
    (leapSecondUnixSeconds.zipIdx.countP fun p => p.1 - epochUnixSeconds + (p.2 + 1) ≤ s) = ended 0 leapSeconds s := by
  unfold ended leapSeconds
  rw [zipIdx_map, countP_map]
  refine countP_congr fun p _ => ?_
  simp [Int.add_assoc]

theorem inLeapSecond_iff (t : ℤ) : InLeapSecond t ↔ IsInserted 0 leapSeconds (t / 1000000) := by
  unfold InLeapSecond IsInserted leapSeconds
  rw [zipIdx_map]
  simp only [mem_map, exists_exists_and_eq_and, Prod.map_fst, Prod.map_snd, id_eq]
  refine exists_congr fun p => and_congr_right fun _ => ?_
  constructor
  · rintro ⟨hle, hlt⟩
    omega
  · intro heq
    omega

theorem sinceEpoch_eq (u : ℤ) :
    sinceEpoch u = lengthen 0 leapSeconds (u / 1000000 - epochUnixSeconds) * 1000000 + u % 1000000 := by
  have hseconds : (if 0 ≤ u then u.tdiv 1000000 else -(-u + 999999).tdiv 1000000) = u / 1000000 := by
    split_ifs with h
    · rw [Int.tdiv_eq_ediv_of_nonneg h]
    · rw [Int.tdiv_eq_ediv_of_nonneg (by omega)]
      omega
  unfold sinceEpoch microsecondsSinceEpoch lengthen
  dsimp only
  rw [hseconds, leapSecondsSinceEpoch_eq]
  push_cast
  omega

/-- Before the epoch the division is towards zero and no leap second is over, so
the whole seconds and the rest add up as they do after it. -/
theorem unixMicroseconds_eq (t : ℤ) :
    unixMicroseconds t = (shorten 0 leapSeconds (t / 1000000) + epochUnixSeconds) * 1000000 + t % 1000000 := by
  have hsplit := Int.tdiv_mul_add_tmod t 1000000
  have hended : ended 0 leapSeconds (t.tdiv 1000000) = ended 0 leapSeconds (t / 1000000) := by
    by_cases h : 0 ≤ t
    · rw [Int.tdiv_eq_ediv_of_nonneg h]
    · have hneg : t.tdiv 1000000 ≤ 0 := by
        have hnonneg := Int.tdiv_nonneg (a := -t) (b := 1000000) (by omega) (by omega)
        rw [Int.neg_tdiv] at hnonneg
        omega
      have hnone : ∀ s : ℤ, s ≤ 0 → ended 0 leapSeconds s = 0 := by
        intro s hs
        refine ended_eq_zero fun a ha => ?_
        have hpos := leapSeconds_pos a ha
        push_cast
        omega
      rw [hnone _ hneg, hnone _ (by omega)]
  unfold unixMicroseconds shorten
  dsimp only
  rw [inserted_eq_ended, hended]
  push_cast
  omega

/-! ### Inverse -/

/-- **UTC and TAI** are inverse to each other, but for a time inside a leap second, which comes
back one second later. -/
theorem tai_utc_inverse :
    (∀ u, unixMicroseconds (sinceEpoch u) = u) ∧ (∀ u v, u < v → sinceEpoch u < sinceEpoch v) ∧
    ∀ t, (¬ InLeapSecond t → sinceEpoch (unixMicroseconds t) = t) ∧
      (InLeapSecond t → sinceEpoch (unixMicroseconds t) = t + 1000000) := by
  refine ⟨fun u => ?_, fun u v hlt => ?_, fun t => ?_⟩
  · have hseconds : sinceEpoch u / 1000000 = lengthen 0 leapSeconds (u / 1000000 - epochUnixSeconds) := by
      rw [sinceEpoch_eq]
      omega
    have hrest : sinceEpoch u % 1000000 = u % 1000000 := by
      rw [sinceEpoch_eq]
      omega
    rw [unixMicroseconds_eq, hseconds, hrest, shorten_lengthen leapSeconds_sorted]
    omega
  · rw [sinceEpoch_eq, sinceEpoch_eq]
    rcases (show u / 1000000 ≤ v / 1000000 by omega).eq_or_lt with heq | hless
    · rw [heq]
      omega
    · have hmono := lengthen_lt_lengthen 0 leapSeconds (Int.sub_lt_sub_right hless epochUnixSeconds)
      omega
  · have hseconds : unixMicroseconds t / 1000000 - epochUnixSeconds = shorten 0 leapSeconds (t / 1000000) := by
      rw [unixMicroseconds_eq]
      omega
    have hrest : unixMicroseconds t % 1000000 = t % 1000000 := by
      rw [unixMicroseconds_eq]
      omega
    have hback : sinceEpoch (unixMicroseconds t) =
        (t / 1000000 + if IsInserted 0 leapSeconds (t / 1000000) then 1 else 0) * 1000000 + t % 1000000 := by
      rw [sinceEpoch_eq, hseconds, hrest, lengthen_shorten leapSeconds_sorted]
    rw [hback, inLeapSecond_iff]
    constructor
    · intro hout
      rw [if_neg hout]
      omega
    · intro hin
      rw [if_pos hin]
      omega

end VanetzaIdf.ItsTime
