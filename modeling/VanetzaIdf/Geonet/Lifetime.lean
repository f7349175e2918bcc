/-
# Durations and the lifetime of a packet

`units::Duration` counts seconds; `clock_cast` moves between it and the
microseconds of the clock. Both are doubles in the source and exact
rationals here.

The lifetime field of a basic header (`geonet/lifetime.cpp`) is one octet:
a multiplier of six bits and one of four bases. `encode` takes the base by
the size of the duration and rounds to a multiple of its unit (`encode_eq`).
-/
import VanetzaIdf.Runtime
import VanetzaIdf.Lib.Nearest
import Mathlib.Data.Rat.Floor

namespace VanetzaIdf

namespace Units

/-- `units::Duration`: seconds. -/
abbrev Duration := ℚ

/-- Towards zero, as a cast of a floating point number is. -/
def truncate (q : ℚ) : ℤ := if 0 ≤ q then ⌊q⌋ else ⌈q⌉

/-- `clock_cast` of a `units::Duration`. -/
def clockCast (d : Duration) : VanetzaIdf.Duration := truncate (d * 1000000)

/-- `clock_cast` of a `Clock::duration`. -/
def ofClock (d : VanetzaIdf.Duration) : Duration := (d : ℚ) / 1000000

/-- `std::lround`: to the nearest integer, halves away from zero. -/
def lround (q : ℚ) : ℤ := if 0 ≤ q then ⌊q + 1 / 2⌋ else ⌈q - 1 / 2⌉

theorem truncate_mono {p q : ℚ} (h : p ≤ q) : truncate p ≤ truncate q := by
  unfold truncate
  split_ifs with hp hq hq
  · exact Int.floor_le_floor h
  · exact absurd (hp.trans h) hq
  · -- a negative number ends at or below zero, the other one at or above
    have h1 : ⌈p⌉ ≤ 0 := Int.ceil_le.mpr (by push_cast; exact le_of_lt (not_le.mp hp))
    have h2 : 0 ≤ ⌊q⌋ := Int.floor_nonneg.mpr hq
    exact h1.trans h2
  · exact Int.ceil_le_ceil h

theorem clockCast_mono {c d : Duration} (h : c ≤ d) : clockCast c ≤ clockCast d :=
  truncate_mono (by linarith)

theorem clockCast_nonneg {d : Duration} (h : 0 ≤ d) : 0 ≤ clockCast d := by
  have := clockCast_mono h
  simpa [clockCast, truncate] using this

theorem clockCast_add_le {c d : Duration} (hc : 0 ≤ c) (hd : 0 ≤ d) :
    clockCast c + clockCast d ≤ clockCast (c + d) := by
  unfold clockCast truncate
  rw [if_pos (by positivity), if_pos (by positivity), if_pos (by positivity), add_mul]
  exact Int.le_floor_add _ _

theorem lround_eq_round {q : ℚ} (h : 0 ≤ q) : lround q = round q := by
  rw [lround, if_pos h, round_eq]

end Units

namespace Geonet

inductive Lifetime.Base
  | fiftyMilliseconds | oneSecond | tenSeconds | hundredSeconds
deriving DecidableEq, Repr

def Lifetime.Base.unit : Lifetime.Base → Units.Duration
  | .fiftyMilliseconds => 1 / 20
  | .oneSecond => 1
  | .tenSeconds => 10
  | .hundredSeconds => 100

/-- `Lifetime`: the two low bits of the octet are the base, the others the multiplier. -/
structure Lifetime where
  base : Lifetime.Base
  multiplier : BitVec 6
deriving DecidableEq, Repr

namespace Lifetime

def zero : Lifetime := ⟨.fiftyMilliseconds, 0⟩

/-- `set` with a multiplier cut to six bits. -/
def set (base : Base) (multiplier : ℤ) : Lifetime := ⟨base, BitVec.ofInt 6 multiplier⟩

variable (l : Lifetime)

def decode : Units.Duration := l.multiplier.toNat * l.base.unit

theorem decode_nonneg : 0 ≤ l.decode := by
  have hu : 0 ≤ l.base.unit := by
    cases l.base <;> norm_num [Base.unit]
  exact mul_nonneg (Nat.cast_nonneg _) hu

def encode (seconds : Units.Duration) : Lifetime :=
  if 630 ≤ seconds then set .hundredSeconds (Units.lround (seconds / 100))
  else if 63 ≤ seconds then set .tenSeconds (Units.lround (seconds / 10))
  else if 63 / 20 ≤ seconds then set .oneSecond (Units.lround seconds)
  else set .fiftyMilliseconds (Units.lround (seconds / (1 / 20)))

/-! ### Rounding -/

theorem Base.unit_pos (b : Base) : 0 < b.unit := by
  cases b <;> norm_num [Base.unit]

theorem ofClock_clockCast_decode : Units.ofClock (Units.clockCast l.decode) = l.decode := by
  have hcast : ∀ n : ℕ, Units.ofClock (Units.truncate (n : ℚ)) = (n : ℚ) / 1000000 := by
    intro n
    rw [Units.truncate, if_pos (Nat.cast_nonneg n), Int.floor_natCast, Units.ofClock, Int.cast_natCast]
  have hunit : ∃ u : ℕ, l.base.unit * 1000000 = u := by
    cases l.base with
    | fiftyMilliseconds => exact ⟨50000, by norm_num [Base.unit]⟩
    | oneSecond => exact ⟨1000000, by norm_num [Base.unit]⟩
    | tenSeconds => exact ⟨10000000, by norm_num [Base.unit]⟩
    | hundredSeconds => exact ⟨100000000, by norm_num [Base.unit]⟩
  obtain ⟨u, hu⟩ := hunit
  have hnat : l.decode * 1000000 = ((l.multiplier.toNat * u : ℕ) : ℚ) := by
    rw [decode, mul_assoc, hu]
    norm_cast
  rw [Units.clockCast, hnat, hcast, ← hnat]
  ring

theorem decode_le : l.decode ≤ 6300 := by
  have hm : (l.multiplier.toNat : ℚ) ≤ 63 := by
    have := l.multiplier.isLt
    exact_mod_cast Nat.le_of_lt_succ this
  have hu : l.base.unit ≤ 100 := by
    cases l.base <;> norm_num [Base.unit]
  calc l.decode = l.multiplier.toNat * l.base.unit := rfl
    _ ≤ 63 * 100 := mul_le_mul hm hu l.base.unit_pos.le (by norm_num)
    _ = 6300 := by norm_num

theorem decode_set {base : Base} {m : ℤ} (h0 : 0 ≤ m) (h63 : m ≤ 63) : (set base m).decode = m * base.unit := by
  have hm : (BitVec.ofInt 6 m).toNat = m.toNat := by
    rw [BitVec.toNat_ofInt]
    omega
  rw [decode, set, hm]
  congr 1
  exact_mod_cast Int.toNat_of_nonneg h0

/-- The largest value of the next smaller base. -/
def Base.below : Base → Units.Duration
  | .fiftyMilliseconds => 0
  | .oneSecond => 63 / 20
  | .tenSeconds => 63
  | .hundredSeconds => 630

/-- The base that `encode` chooses for a duration. -/
inductive Encodes (d : Units.Duration) : Base → Prop
  | fiftyMilliseconds : d < 63 / 20 → Encodes d .fiftyMilliseconds
  | oneSecond : 63 / 20 ≤ d → d < 63 → Encodes d .oneSecond
  | tenSeconds : 63 ≤ d → d < 630 → Encodes d .tenSeconds
  | hundredSeconds : 630 ≤ d → Encodes d .hundredSeconds

variable {d : Units.Duration} {b : Base}

theorem encode_eq (h0 : 0 ≤ d) : ∃ b, Encodes d b ∧ encode d = set b (round (d / b.unit)) ∧ b.below ≤ d := by
  have hround : ∀ b : Base, Units.lround (d / b.unit) = round (d / b.unit) := fun b =>
    Units.lround_eq_round (div_nonneg h0 b.unit_pos.le)
  unfold encode
  split_ifs with h1 h2 h3
  · exact ⟨.hundredSeconds, .hundredSeconds h1, congrArg _ (hround .hundredSeconds), h1⟩
  · exact ⟨.tenSeconds, .tenSeconds h2 (not_le.mp h1), congrArg _ (hround .tenSeconds), h2⟩
  · refine ⟨.oneSecond, .oneSecond h3 (not_le.mp h2), ?_, h3⟩
    rw [← hround]
    norm_num [Base.unit]
  · exact ⟨.fiftyMilliseconds, .fiftyMilliseconds (not_le.mp h3), congrArg _ (hround .fiftyMilliseconds), h0⟩

theorem round_lt_iff {q : ℚ} : round q < 64 ↔ q < 63 + 1 / 2 := by
  rw [round_eq, Int.floor_lt]
  push_cast
  constructor <;> intro h <;> linarith

theorem Encodes.room (h : Encodes d b) (hd : d < 6350) : round (d / b.unit) < 64 := by
  rw [round_lt_iff, div_lt_iff₀ b.unit_pos]
  cases h <;> norm_num [Base.unit] <;> linarith

theorem decode_set_round (h0 : 0 ≤ d) (h : round (d / b.unit) < 64) :
    (set b (round (d / b.unit))).decode = round (d / b.unit) * b.unit := by
  have hm0 : 0 ≤ round (d / b.unit) := by
    rw [round_eq]
    have := div_nonneg h0 b.unit_pos.le
    exact Int.floor_nonneg.mpr (by linarith)
  exact decode_set hm0 (by omega)

/-- **Encoding rounds to the nearest.** The result is at most half a unit more,
and is not zero if there are 25 ms or more. -/
theorem encode_bounds (h0 : 0 ≤ d) (hd : d ≤ 6300) :
    (encode d).decode ≤ d + (encode d).base.unit / 2 ∧ (1 / 40 ≤ d → 0 < (encode d).decode) := by
  obtain ⟨b, hb, heq, -⟩ := encode_eq h0
  have hu := b.unit_pos
  have hbase : (encode d).base = b := by rw [heq]; rfl
  rw [hbase, heq, decode_set_round h0 (hb.room (by linarith))]
  refine ⟨?_, fun h25 => mul_pos ?_ hu⟩
  · have := (abs_le.mp (Lib.abs_round_mul_sub_le hu d)).2
    linarith
  · have hhalf : 1 / 2 ≤ d / b.unit := by
      rw [le_div_iff₀ hu]
      cases hb <;> norm_num [Base.unit] <;> linarith
    have hone : 1 ≤ round (d / b.unit) := by
      rw [round_eq]
      exact Int.le_floor.mpr (by push_cast; linarith)
    exact Int.cast_pos.mpr hone

/-! ### Time in a queue -/

variable (queuingTime : VanetzaIdf.Duration)

/-- What `reduce_lifetime` does to the lifetime of a header: the time that
remains, and the lifetime written. -/
def reduce : VanetzaIdf.Duration × Lifetime :=
  let packetLifetime := Units.clockCast l.decode
  if queuingTime ≤ 0 then (packetLifetime, l)
  else if queuingTime < packetLifetime then
    (packetLifetime - queuingTime, encode (Units.ofClock (packetLifetime - queuingTime)))
  else (0, zero)

variable {l queuingTime} in
theorem reduce_nonpos (h : Units.clockCast l.decode ≤ queuingTime) : (l.reduce queuingTime).1 ≤ 0 := by
  unfold reduce
  dsimp only
  split_ifs with h0 hlt
  · exact h.trans h0
  · exact absurd hlt (not_lt.mpr h)
  · exact le_rfl

/-- At least 25 ms are left, half of the smallest unit. -/
def Lasts : Prop := 25000 ≤ Units.clockCast l.decode - queuingTime

/-- The lifetime written is not more than what remains. -/
def NotRaised : Prop :=
  (l.reduce queuingTime).2.decode ≤ l.decode - Units.ofClock queuingTime

instance (l : Lifetime) (q : VanetzaIdf.Duration) : Decidable (l.Lasts q) :=
  inferInstanceAs (Decidable (25000 ≤ Units.clockCast l.decode - q))

instance (l : Lifetime) (q : VanetzaIdf.Duration) : Decidable (l.NotRaised q) :=
  inferInstanceAs (Decidable ((l.reduce q).2.decode ≤ l.decode - Units.ofClock q))

theorem ofClock_sub (c d : VanetzaIdf.Duration) : Units.ofClock (c - d) = Units.ofClock c - Units.ofClock d := by
  unfold Units.ofClock
  push_cast
  ring

theorem Lasts.reduce {l : Lifetime} {q : VanetzaIdf.Duration} (hq : 0 ≤ q) (h : l.Lasts q) :
    Units.ofClock q ≤ l.decode ∧ 0 < (l.reduce q).2.decode ∧
      (l.reduce q).2.decode ≤ l.decode - Units.ofClock q + (l.reduce q).2.base.unit / 2 := by
  unfold Lasts at h
  have hremain : Units.ofClock (Units.clockCast l.decode - q) = l.decode - Units.ofClock q := by
    rw [ofClock_sub, ofClock_clockCast_decode]
  have hleft : 1 / 40 ≤ l.decode - Units.ofClock q := by
    have hcast : ((25000 : ℤ) : ℚ) ≤ ((Units.clockCast l.decode - q : ℤ) : ℚ) := by exact_mod_cast h
    rw [← hremain, Units.ofClock]
    push_cast at hcast ⊢
    linarith
  have hq' : 0 ≤ Units.ofClock q := by
    unfold Units.ofClock
    have : (0 : ℚ) ≤ (q : ℚ) := by exact_mod_cast hq
    positivity
  have hmax := l.decode_le
  refine ⟨by linarith, ?_⟩
  unfold Lifetime.reduce
  dsimp only
  split_ifs with h0 hlt
  · have hu := l.base.unit_pos
    have hzero : q = 0 := le_antisymm h0 hq
    have hz : Units.ofClock q = 0 := by rw [hzero]; norm_num [Units.ofClock]
    rw [hz] at hleft ⊢
    exact ⟨by linarith, by linarith⟩
  · rw [hremain]
    obtain ⟨hle, hpos⟩ := encode_bounds (d := l.decode - Units.ofClock q) (by linarith) (by linarith)
    exact ⟨hpos hleft, hle⟩
  · have hover := sub_nonpos.mpr (not_lt.mp hlt)
    exact absurd (h.trans hover) (by decide)

end Lifetime
end Geonet
end VanetzaIdf
