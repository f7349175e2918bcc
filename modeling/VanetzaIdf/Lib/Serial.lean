/-
# Serial numbers

Numbers of a fixed width that wrap around. One is before another if that is less
than half of the range ahead. This is not transitive, but on numbers counted up
from one of them for less than half of the range it is the order in which they are
counted (`before_ofInt`).
-/
import Mathlib.Algebra.Order.Ring.Int
import Mathlib.Order.RelIso.Set

namespace VanetzaIdf.Lib

/-- Numbers modulo `2 * half`, and the integers they stand for. -/
structure Wrapping (α : Type*) [Add α] where
  half : ℕ
  toNat : α → ℕ
  ofInt : ℤ → α
  toNat_lt : ∀ a, toNat a < 2 * half
  toNat_injective : Function.Injective toNat
  toNat_ofInt : ∀ x, (toNat (ofInt x) : ℤ) = x % (2 * half)
  toNat_add : ∀ a b, toNat (a + b) = (toNat a + toNat b) % (2 * half)

namespace Wrapping

variable {α : Type*} [Add α] (W : Wrapping α)

/-- The shorter way round from `a` to `b` is forward. -/
def Before (a b : α) : Prop :=
  W.toNat a < W.toNat b ∧ W.toNat b - W.toNat a < W.half ∨ W.toNat b < W.toNat a ∧ W.half ≤ W.toNat a - W.toNat b

/-- The numbers counted up from `m` for less than half of the range. -/
def window (m : ℤ) : Set α := {a | ∃ x, m ≤ x ∧ x < m + W.half ∧ W.ofInt x = a}

/-- What an order of serial numbers is expected to be. -/
structure IsSerialOrder (r : α → α → Prop) : Prop where
  asymm : ∀ a b, r a b → ¬ r b a
  total : ∀ a b, a ≠ b → r a b ∨ r b a
  ahead : ∀ a d, 0 < W.toNat d → W.toNat d < W.half → r a (a + d)
  /-- In a window the order is that of the integers. -/
  unwrapped : ∀ m x y : ℤ, m ≤ x → x < m + W.half → m ≤ y → y < m + W.half → (r (W.ofInt x) (W.ofInt y) ↔ x < y)
  strict : ∀ m, IsStrictTotalOrder (W.window m) (Subrel r (· ∈ W.window m))

variable {W} {a b d : α} {x y : ℤ}

theorem Before.asymm (h : W.Before a b) : ¬ W.Before b a := by
  unfold Before at *
  omega

theorem before_or_before (h : a ≠ b) : W.Before a b ∨ W.Before b a := by
  have hne := W.toNat_injective.ne h
  unfold Before
  omega

theorem before_add (h0 : 0 < W.toNat d) (h : W.toNat d < W.half) : W.Before a (a + d) := by
  have ha := W.toNat_lt a
  unfold Before
  rw [W.toNat_add]
  rcases lt_or_ge (W.toNat a + W.toNat d) (2 * W.half) with hlt | hge
  · rw [Nat.mod_eq_of_lt hlt]
    omega
  · rw [Nat.mod_eq_sub_mod hge, Nat.mod_eq_of_lt (by omega)]
    omega

theorem before_ofInt (hle : x - y < W.half) (hge : y - x < W.half) : W.Before (W.ofInt x) (W.ofInt y) ↔ x < y := by
  have hx := W.toNat_ofInt x
  have hy := W.toNat_ofInt y
  have hltx := W.toNat_lt (W.ofInt x)
  have hlty := W.toNat_lt (W.ofInt y)
  have hdivx := Int.emod_add_mul_ediv x (2 * W.half)
  have hdivy := Int.emod_add_mul_ediv y (2 * W.half)
  rw [← hx] at hdivx
  rw [← hy] at hdivy
  -- the two integers are in one turn or in neighbouring ones
  obtain ⟨k, hk⟩ : ∃ k, y / (2 * W.half) = x / (2 * W.half) + k := ⟨_, (add_sub_cancel _ _).symm⟩
  rw [hk, mul_add] at hdivy
  have hk1 : k < 2 := by
    by_contra h
    have := Int.mul_le_mul_of_nonneg_left (not_lt.mp h) (by omega : (0 : ℤ) ≤ 2 * W.half)
    omega
  have hk2 : -2 < k := by
    by_contra h
    have := Int.mul_le_mul_of_nonneg_left (not_lt.mp h) (by omega : (0 : ℤ) ≤ 2 * W.half)
    omega
  unfold Before
  obtain rfl | rfl | rfl : k = -1 ∨ k = 0 ∨ k = 1 := by omega
  all_goals omega

theorem isSerialOrder_before : W.IsSerialOrder W.Before where
  asymm _ _ h := h.asymm
  total _ _ h := before_or_before h
  ahead _ _ h0 h := before_add h0 h
  unwrapped m x y hx hx' hy hy' := before_ofInt (by omega) (by omega)
  strict m := by
    choose f hf using fun v : W.window m => v.2
    have hlt : ∀ u v, W.Before u.1 v.1 ↔ f u < f v := by
      intro u v
      obtain ⟨hu, hu', hfu⟩ := hf u
      obtain ⟨hv, hv', hfv⟩ := hf v
      have h : W.Before (W.ofInt (f u)) (W.ofInt (f v)) ↔ f u < f v := before_ofInt (by omega) (by omega)
      rwa [hfu, hfv] at h
    have hinj : Function.Injective f := fun u v h => Subtype.ext (by rw [← (hf u).2.2, ← (hf v).2.2, h])
    exact RelEmbedding.isStrictTotalOrder (s := (· < · : ℤ → ℤ → Prop)) ⟨⟨f, hinj⟩, (hlt _ _).symm⟩

end Wrapping

end VanetzaIdf.Lib
