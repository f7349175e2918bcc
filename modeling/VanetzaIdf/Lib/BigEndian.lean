/-
# Big-endian numbers

`beBytes k n` are the `k` octets of a number, the most significant one first,
and `ofBe` is the number of a list of octets. Within `k` octets they are
inverse to each other.
-/
import Mathlib.Data.List.Induction
import Mathlib.Tactic.Ring

namespace VanetzaIdf.Lib

open List

/-- The last `k` octets of a number. -/
def beBytes : ℕ → ℕ → List UInt8
  | 0, _ => []
  | k + 1, n => beBytes k (n / 256) ++ [UInt8.ofNat n]

/-- The number of a list of octets, after those of `n`. -/
def ofBeFrom (n : ℕ) (bs : List UInt8) : ℕ := bs.foldl (fun n b => n * 256 + b.toNat) n

def ofBe (bs : List UInt8) : ℕ := ofBeFrom 0 bs

variable (k : ℕ) (n : ℕ) (bs : List UInt8) (b : UInt8)

@[simp] theorem length_beBytes : (beBytes k n).length = k := by
  induction k generalizing n with
  | zero => rfl
  | succ k ih => rw [beBytes, length_append, ih, length_singleton]

theorem ofBeFrom_eq : ofBeFrom n bs = n * 256 ^ bs.length + ofBe bs := by
  induction bs using List.reverseRecOn with
  | nil => simp [ofBe, ofBeFrom]
  | append_singleton bs b ih =>
    simp only [ofBe, ofBeFrom, foldl_append, foldl_cons, foldl_nil, length_append,
      length_singleton] at ih ⊢
    rw [ih]
    ring

theorem ofBe_append (bs cs : List UInt8) : ofBe (bs ++ cs) = ofBe bs * 256 ^ cs.length + ofBe cs := by
  rw [← ofBeFrom_eq, ofBe, ofBeFrom, foldl_append]
  rfl

theorem ofBe_singleton : ofBe [b] = b.toNat := by
  simp [ofBe, ofBeFrom]

theorem ofBe_snoc : ofBe (bs ++ [b]) = ofBe bs * 256 + b.toNat := by
  rw [ofBe_append, ofBe_singleton, length_singleton, pow_one]

theorem ofBe_lt : ofBe bs < 256 ^ bs.length := by
  induction bs using List.reverseRecOn with
  | nil => simp [ofBe, ofBeFrom]
  | append_singleton bs b ih =>
    have hb := b.toNat_lt
    rw [ofBe_snoc, length_append, length_singleton, pow_succ]
    omega

theorem ofBe_beBytes {k n : ℕ} (h : n < 256 ^ k) : ofBe (beBytes k n) = n := by
  induction k generalizing n with
  | zero =>
    obtain rfl : n = 0 := by simpa using h
    rfl
  | succ k ih =>
    have hn : n / 256 < 256 ^ k := Nat.div_lt_of_lt_mul (by rw [← pow_succ']; exact h)
    rw [beBytes, ofBe_snoc, ih hn, UInt8.toNat_ofNat']
    omega

theorem beBytes_ofBe : beBytes bs.length (ofBe bs) = bs := by
  induction bs using List.reverseRecOn with
  | nil => rfl
  | append_singleton bs b ih =>
    have hb := b.toNat_lt
    rw [length_append, length_singleton, beBytes, ofBe_snoc, show (ofBe bs * 256 + b.toNat) / 256 =
      ofBe bs by omega, ih]
    congr 2
    apply UInt8.toNat_inj.mp
    rw [UInt8.toNat_ofNat']
    omega

theorem beBytes_cons : beBytes (k + 1) n = UInt8.ofNat (n / 256 ^ k) :: beBytes k n := by
  induction k generalizing n with
  | zero => simp [beBytes]
  | succ k ih =>
    rw [beBytes, ih (n / 256), Nat.div_div_eq_div_mul, ← pow_succ']
    rfl

theorem beBytes_add_mul (k n c : ℕ) : beBytes k (n + c * 256 ^ k) = beBytes k n := by
  induction k generalizing n with
  | zero => rfl
  | succ k ih =>
    have hshift : n + c * 256 ^ (k + 1) = n + c * 256 ^ k * 256 := by ring
    have hlast : UInt8.ofNat (n + c * 256 ^ k * 256) = UInt8.ofNat n := by
      apply UInt8.toNat_inj.mp
      rw [UInt8.toNat_ofNat', UInt8.toNat_ofNat']
      omega
    rw [beBytes, beBytes, hshift, Nat.add_mul_div_right _ _ (by norm_num), ih, hlast]

theorem beBytes_zeros {k n : ℕ} (j : ℕ) (h : n < 256 ^ k) : beBytes (j + k) n = List.replicate j 0 ++ beBytes k n := by
  induction j with
  | zero => rw [Nat.zero_add, replicate_zero, nil_append]
  | succ j ih =>
    have hlt : n < 256 ^ (j + k) := h.trans_le (Nat.pow_le_pow_right (by decide) (Nat.le_add_left k j))
    rw [Nat.succ_add, beBytes_cons, Nat.div_eq_of_lt hlt, ih, replicate_succ, cons_append]
    rfl

end VanetzaIdf.Lib
