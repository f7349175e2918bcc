/-
# Powers and square roots modulo a prime

`powm b e m` is `b ^ e % m` by squaring. If `p` is a prime with `p % 4 = 3`, then
the power `(p + 1) / 4` of a square is a root of it, and parity tells which of the
two roots is meant (`choose_root`). `prime_of_powm` is Lucas's test.
-/
import Mathlib.Data.Nat.ModEq
import Mathlib.FieldTheory.Finite.Basic
import Mathlib.NumberTheory.LucasPrimality

namespace VanetzaIdf.Lib

/-! ### Powers -/

/-- `x * y ^ e` modulo `m`, for an exponent of at most `n` bits. -/
def powmLoop (m : ℕ) : ℕ → ℕ → ℕ → ℕ → ℕ
  | 0, x, _, _ => x
  | n + 1, x, y, e => powmLoop m n (if e % 2 = 1 then x * y % m else x) (y * y % m) (e / 2)

def powm (b e m : ℕ) : ℕ := powmLoop m (e.log2 + 1) 1 b e % m

theorem powmLoop_modEq (m n x y e : ℕ) (h : e < 2 ^ n) : powmLoop m n x y e ≡ x * y ^ e [MOD m] := by
  induction n generalizing x y e with
  | zero =>
    obtain rfl : e = 0 := by simpa using h
    rw [powmLoop, pow_zero, mul_one]
  | succ n ih =>
    have hhalf : e / 2 < 2 ^ n := by
      rw [pow_succ] at h
      omega
    have hsquare : (y * y % m) ^ (e / 2) ≡ y ^ (2 * (e / 2)) [MOD m] := by
      rw [pow_mul, sq]
      exact (Nat.mod_modEq _ _).pow _
    rw [powmLoop]
    refine (ih _ _ _ hhalf).trans ?_
    split_ifs
    · have he : e = 2 * (e / 2) + 1 := by omega
      calc x * y % m * (y * y % m) ^ (e / 2)
          ≡ x * y * y ^ (2 * (e / 2)) [MOD m] := (Nat.mod_modEq _ _).mul hsquare
        _ = x * y ^ (2 * (e / 2) + 1) := by ring
        _ = x * y ^ e := by rw [← he]
    · have he : e = 2 * (e / 2) := by omega
      calc x * (y * y % m) ^ (e / 2)
          ≡ x * y ^ (2 * (e / 2)) [MOD m] := hsquare.mul_left x
        _ = x * y ^ e := by rw [← he]

theorem powm_eq (b e m : ℕ) : powm b e m = b ^ e % m := by
  have h := powmLoop_modEq m (e.log2 + 1) 1 b e Nat.lt_log2_self
  rw [one_mul] at h
  exact h

theorem cast_powm (b e m : ℕ) : (powm b e m : ZMod m) = (b : ZMod m) ^ e := by
  rw [powm_eq, ZMod.natCast_mod, Nat.cast_pow]

theorem powm_lt {b e m : ℕ} (h : 0 < m) : powm b e m < m := Nat.mod_lt _ h

/-! ### Square roots -/

section Roots

variable {p : ℕ} [Fact p.Prime]

theorem root_sq (h : p % 4 = 3) (y : ZMod p) : ((y * y) ^ ((p + 1) / 4)) ^ 2 = y ^ 2 := by
  have hexp : 2 * ((p + 1) / 4) * 2 = p + 1 := by omega
  calc ((y * y) ^ ((p + 1) / 4)) ^ 2 = y ^ (2 * ((p + 1) / 4) * 2) := by rw [← sq, pow_mul, pow_mul]
    _ = y ^ p * y := by rw [hexp, pow_succ]
    _ = y ^ 2 := by rw [ZMod.pow_card, sq]

theorem powm_root (h : p % 4 = 3) (y : ℕ) :
    powm (y * y % p) ((p + 1) / 4) p ^ 2 ≡ y ^ 2 [MOD p] := by
  rw [← ZMod.natCast_eq_natCast_iff]
  push_cast
  rw [cast_powm, ZMod.natCast_mod, Nat.cast_mul]
  exact root_sq h y

theorem powm_sq_iff (h : p % 4 = 3) {n : ℕ} (hn : n < p) :
    powm n ((p + 1) / 4) p * powm n ((p + 1) / 4) p % p = n ↔ ∃ s, s ^ 2 ≡ n [MOD p] := by
  rw [← sq]
  constructor
  · intro hroot
    refine ⟨powm n ((p + 1) / 4) p, ?_⟩
    rw [Nat.ModEq, hroot, Nat.mod_eq_of_lt hn]
  · rintro ⟨s, hs⟩
    have hsquare : s * s % p = n := by
      rw [← sq, hs, Nat.mod_eq_of_lt hn]
    have hroot := powm_root h s
    rw [hsquare] at hroot
    rw [hroot.trans hs, Nat.mod_eq_of_lt hn]

theorem eq_or_add_eq_of_sq {r y : ℕ} (hr : r < p) (hy : y < p) (h : r ^ 2 ≡ y ^ 2 [MOD p]) : r = y ∨ r + y = p := by
  have hsq : (r : ZMod p) ^ 2 = (y : ZMod p) ^ 2 := by
    rw [← Nat.cast_pow, ← Nat.cast_pow]
    exact (ZMod.natCast_eq_natCast_iff _ _ _).mpr h
  rcases sq_eq_sq_iff_eq_or_eq_neg.mp hsq with heq | hneg
  · rw [ZMod.natCast_eq_natCast_iff'] at heq
    rw [Nat.mod_eq_of_lt hr, Nat.mod_eq_of_lt hy] at heq
    exact .inl heq
  · have hzero : ((r + y : ℕ) : ZMod p) = 0 := by
      rw [Nat.cast_add, hneg, neg_add_cancel]
    obtain ⟨k, hk⟩ := (ZMod.natCast_eq_zero_iff _ _).mp hzero
    -- both are below p, so their sum is nothing or p
    have hk2 : k < 2 := by
      by_contra hlarge
      have : p * 2 ≤ p * k := Nat.mul_le_mul_left p (not_lt.mp hlarge)
      omega
    interval_cases k <;> omega

theorem choose_root (h : p % 4 = 3) {r y : ℕ} (hr : r < p) (hy : y < p) (hsq : r ^ 2 ≡ y ^ 2 [MOD p]) :
    (if decide (r % 2 = 1) ≠ decide (y % 2 = 1) then p - r else r) = y := by
  rcases eq_or_add_eq_of_sq hr hy hsq with rfl | hsum
  · rw [if_neg (not_not.mpr rfl)]
  · have hodd : decide (r % 2 = 1) ≠ decide (y % 2 = 1) := by
      rw [ne_eq, decide_eq_decide]
      omega
    rw [if_pos hodd]
    omega

end Roots

/-! ### Primes -/

theorem prime_of_powm {p : ℕ} (a : ℕ) (factors : List ℕ) (hp : 1 < p) (hfactors : ∀ q ∈ factors, q.Prime)
    (hprod : factors.prod = p - 1) (hone : powm a (p - 1) p = 1)
    (hne : ∀ q ∈ factors, powm a ((p - 1) / q) p ≠ 1) : p.Prime := by
  refine lucas_primality p (a : ZMod p) ?_ ?_
  · rw [← cast_powm, hone, Nat.cast_one]
  · intro q hq hdvd hpow
    rw [← hprod, hq.prime.dvd_prod_iff] at hdvd
    obtain ⟨q', hmem, hq'⟩ := hdvd
    obtain rfl := (Nat.prime_dvd_prime_iff_eq hq (hfactors q' hmem)).mp hq'
    apply hne q hmem
    have hcast : (powm a ((p - 1) / q) p : ZMod p) = (1 : ℕ) := by
      rw [cast_powm, hpow, Nat.cast_one]
    rwa [ZMod.natCast_eq_natCast_iff', Nat.mod_eq_of_lt (powm_lt (by omega)), Nat.mod_eq_of_lt hp] at hcast

end VanetzaIdf.Lib
