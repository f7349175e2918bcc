/-
# Rounded arithmetic

A floating point operation gives the rounded exact result. Of the rounding
only two facts are used, which hold in every rounding mode: it is monotone,
and numbers with a significand of 53 bits are not changed.
-/
import Mathlib.Algebra.Order.Ring.Rat
import Mathlib.Tactic.Linarith
import Mathlib.Tactic.NormNum

namespace VanetzaIdf.Lib

structure Rounding where
  round : ℚ → ℚ
  mono : Monotone round
  exact : ∀ (m : ℤ) (e : ℕ), |m| ≤ 2 ^ 53 → e ≤ 900 → round (m * 2 ^ e) = m * 2 ^ e

namespace Rounding

def none : Rounding := ⟨id, monotone_id, fun _ _ _ _ => rfl⟩

variable (R : Rounding)

theorem round_int {m : ℤ} (h : |m| ≤ 2 ^ 53) : R.round m = m := by
  simpa using R.exact m 0 h (Nat.zero_le _)

theorem round_zero : R.round 0 = 0 := by
  simpa using R.round_int (m := 0) (by norm_num)

theorem round_one : R.round 1 = 1 := by
  simpa using R.round_int (m := 1) (by norm_num)

theorem round_two_pow {e : ℕ} (he : e ≤ 900) : R.round (2 ^ e) = 2 ^ e := by
  simpa using R.exact 1 e (by norm_num) he

theorem round_neg_two_pow {e : ℕ} (he : e ≤ 900) : R.round (-2 ^ e) = -2 ^ e := by
  simpa using R.exact (-1) e (by norm_num) he

variable {R}

variable {x : ℚ}

theorem round_nonneg (h : 0 ≤ x) : 0 ≤ R.round x := by
  simpa [R.round_zero] using R.mono h

theorem round_nonpos (h : x ≤ 0) : R.round x ≤ 0 := by
  simpa [R.round_zero] using R.mono h

theorem round_le_one (h : x ≤ 1) : R.round x ≤ 1 := by
  simpa [R.round_one] using R.mono h

theorem abs_round_le {e : ℕ} (he : e ≤ 900) (h : |x| ≤ 2 ^ e) : |R.round x| ≤ 2 ^ e := by
  obtain ⟨hlow, hhigh⟩ := abs_le.mp h
  have h1 := R.mono hlow
  have h2 := R.mono hhigh
  rw [R.round_neg_two_pow he] at h1
  rw [R.round_two_pow he] at h2
  exact abs_le.mpr ⟨h1, h2⟩

end Rounding

end VanetzaIdf.Lib
