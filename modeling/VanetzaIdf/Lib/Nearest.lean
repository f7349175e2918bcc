/-
# Nearest values

Nearest values are ordered as the numbers are, whichever is taken at a tie
(`IsNearest.mono`). Among the multiples of a unit and other values up to a bound,
the bound is the only rival of the rounded quotient (`isNearest_round_iff`).
-/
import Mathlib.Algebra.Order.Round
import Mathlib.Tactic.FieldSimp
import Mathlib.Tactic.Linarith

namespace VanetzaIdf.Lib

variable {K : Type*} [Field K] [LinearOrder K] [IsStrictOrderedRing K]

/-- No value of the set is closer. -/
structure IsNearest (s : Set K) (x p : K) : Prop where
  mem : p ∈ s
  le : ∀ q ∈ s, |x - p| ≤ |x - q|

theorem le_of_abs_sub_le {x p q : K} (hlt : q < p) (h : |x - p| ≤ |x - q|) : p + q ≤ 2 * x := by
  have hsq : (x - p) ^ 2 ≤ (x - q) ^ 2 := sq_le_sq.mpr h
  have hfactor : (p - q) * (p + q - 2 * x) ≤ 0 := by linarith
  have hpos : 0 < p - q := sub_pos.mpr hlt
  have := nonpos_of_mul_nonpos_right hfactor hpos
  linarith

theorem IsNearest.mono {s : Set K} {x y p q : K} (hp : IsNearest s x p) (hq : IsNearest s y q) (h : x < y) : p ≤ q := by
  by_contra hlt
  have hlt := not_le.mp hlt
  -- the middle of the two values separates the numbers the other way round
  have hx : p + q ≤ 2 * x := le_of_abs_sub_le hlt (hp.le q hq.mem)
  have hy : -q + -p ≤ 2 * -y := by
    refine le_of_abs_sub_le (neg_lt_neg hlt) ?_
    rw [neg_sub_neg, neg_sub_neg, abs_sub_comm q, abs_sub_comm p]
    exact hq.le p hp.mem
  linarith

theorem isNearest_iff_eq_of_isGreatest {s : Set K} {x p top : K} (htop : IsGreatest s top) (hx : top ≤ x) (hp : p ∈ s) :
    IsNearest s x p ↔ p = top := by
  have habs : ∀ q ∈ s, |x - q| = x - q := fun q hq => abs_of_nonneg (sub_nonneg.mpr ((htop.2 hq).trans hx))
  constructor
  · intro h
    have hle := h.le top htop.1
    rw [habs p hp, habs top htop.1] at hle
    exact le_antisymm (htop.2 hp) (by linarith)
  · intro heq
    subst heq
    refine ⟨hp, fun q hq => ?_⟩
    rw [habs p hp, habs q hq]
    have := htop.2 hq
    linarith

theorem abs_sub_mul {u : K} (hu : 0 < u) (x y : K) : |x - y * u| = |x / u - y| * u := by
  have hxy : x - y * u = (x / u - y) * u := by
    have hne := hu.ne'
    field_simp
  rw [hxy, abs_mul, abs_of_pos hu]

variable [FloorRing K]

theorem abs_sub_round_mul_le {u : K} (hu : 0 < u) (x : K) (m : ℤ) : |x - round (x / u) * u| ≤ |x - m * u| := by
  rw [abs_sub_mul hu, abs_sub_mul hu]
  exact mul_le_mul_of_nonneg_right (round_le (x / u) m) hu.le

theorem isNearest_round_iff {s : Set K} {u x bound : K} (hu : 0 < u) (hs : ∀ q ∈ s, (∃ m : ℤ, q = m * u) ∨ q ≤ bound)
    (hbound : bound ∈ s) (hx : bound ≤ x) (hmem : (round (x / u) : K) * u ∈ s) :
    IsNearest s x (round (x / u) * u) ↔ |x - round (x / u) * u| ≤ x - bound := by
  have habs : ∀ q, q ≤ bound → |x - q| = x - q := fun q hq => abs_of_nonneg (sub_nonneg.mpr (hq.trans hx))
  constructor
  · intro h
    exact (h.le bound hbound).trans_eq (habs bound le_rfl)
  · intro h
    refine ⟨hmem, fun q hq => ?_⟩
    rcases hs q hq with ⟨m, rfl⟩ | hle
    · exact abs_sub_round_mul_le hu x m
    · rw [habs q hle]
      linarith

/-- The bound wins up to the middle between it and the next integer, if it is
in the lower half between two integers. -/
theorem abs_sub_round_le_iff {b x : K} {n : ℤ} (hn : n < b) (hb : b < n + 1 / 2) (hx : b ≤ x) :
    |x - round x| ≤ x - b ↔ b + (n + 1) ≤ 2 * x := by
  have hhalf := abs_sub_round x
  have hnext := round_le x (n + 1)
  push_cast at hnext
  constructor
  · intro h
    by_contra hlt
    have hlt := not_le.mp hlt
    -- the number is below the next integer, so it is rounded to one of the two around it
    have hlow : n ≤ round x := by
      have hge : (n : K) - 1 < round x := by linarith [(abs_le.mp hhalf).2]
      have : n - 1 < round x := by exact_mod_cast hge
      omega
    have hhigh : round x < n + 2 := by
      have hle : (round x : K) < n + 2 := by linarith [(abs_le.mp hhalf).1]
      exact_mod_cast hle
    obtain heq | heq : round x = n ∨ round x = n + 1 := by omega
    · rw [heq] at h
      have := (le_abs_self (x - n)).trans h
      linarith
    · rw [heq] at h
      have := (neg_le_abs _).trans h
      push_cast at this
      linarith
  · intro h
    rcases le_total x (n + 1) with hle | hge
    · rw [abs_of_nonpos (by linarith : x - (n + 1) ≤ 0)] at hnext
      linarith
    · linarith

theorem round_mul_le {u x : K} {m : ℤ} (hu : 0 < u) (h : x ≤ m * u) : (round (x / u) : K) * u ≤ m * u := by
  refine mul_le_mul_of_nonneg_right ?_ hu.le
  have hdiv : x / u ≤ m := (div_le_iff₀ hu).mpr h
  have hround : round (x / u) < m + 1 := by
    rw [round_eq, Int.floor_lt]
    push_cast
    linarith
  exact_mod_cast Int.lt_add_one_iff.mp hround

theorem abs_round_mul_sub_le {u : K} (hu : 0 < u) (x : K) : |round (x / u) * u - x| ≤ u / 2 := by
  rw [abs_sub_comm, abs_sub_mul hu]
  have := mul_le_mul_of_nonneg_right (abs_sub_round (x / u)) hu.le
  linarith

end VanetzaIdf.Lib
