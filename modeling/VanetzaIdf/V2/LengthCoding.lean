/-
# Length coding

`security/v2/length_coding.cpp`: as many leading ones as octets follow the first
one, a zero, and the number in the bits that are left, which is one octet for each
group of seven bits (`encodeLength_eq`). Numbers of 57 bits and more get two octets
of ones in front, which the decoder does not accept.
-/
import VanetzaIdf.Basic
import VanetzaIdf.Lib.BigEndian
import Mathlib.Tactic.IntervalCases

namespace VanetzaIdf.V2

open Lib List

/-- `count_leading_ones` of an octet with at most `fuel` bits left. -/
def countLeadingOnesFrom : ℕ → UInt8 → ℕ
  | 0, _ => 0
  | fuel + 1, v => if v &&& 0x80 ≠ 0 then countLeadingOnesFrom fuel (v <<< 1) + 1 else 0

def countLeadingOnes (v : UInt8) : ℕ := countLeadingOnesFrom 8 v

/-- `length_coding_size` of a number with at most `fuel` groups of seven bits
after the last. -/
def lengthCodingSizeFrom : ℕ → ℕ → ℕ
  | 0, _ => 1
  | fuel + 1, length => if 0x7f < length then lengthCodingSizeFrom fuel (length / 2 ^ 7) + 1 else 1

def lengthCodingSize (length : ℕ) : ℕ := lengthCodingSizeFrom 9 length

/-- The octets of a number without leading zeros. -/
def octetsFrom : ℕ → ℕ → ByteBuffer
  | 0, _ => []
  | fuel + 1, length => if length = 0 then [] else octetsFrom fuel (length / 2 ^ 8) ++ [UInt8.ofNat length]

/-- The prefix in front of `k` octets, as the encoder computes it. -/
def prefixMask (k : ℕ) : UInt8 := ~~~((1 <<< UInt8.ofNat (8 - k)) - 1)

/-- `encode_length` of a number of 64 bits. -/
def encodeLength (length : ℕ) : ByteBuffer :=
  match octetsFrom 8 length with
  | [] => [0x00]
  | front :: rest =>
    let prefixLength := rest.length + 1
    let mask := prefixMask prefixLength
    let info :=
      -- an additional octet for the prefix, or enough free bits
      if front &&& ~~~mask ≠ front then mask :: front :: rest else (front ||| (mask <<< 1)) :: rest
    List.replicate (prefixLength / 8) 0xff ++ info

/-- `decode_length`: the position of the iterator, and the length. -/
def decodeLength (buffer : ByteBuffer) : ℕ × ℕ :=
  match buffer with
  | [] => (0, 0)
  | front :: rest =>
    let additionalPrefix := countLeadingOnes front
    if 8 ≤ additionalPrefix then (0, 0)
    else if additionalPrefix < buffer.length then
      let mask := UInt8.ofNat (2 ^ (8 - additionalPrefix) - 1)
      (additionalPrefix + 1, ofBeFrom (front &&& mask).toNat (rest.take additionalPrefix))
    else (buffer.length, 0)

/-! ### Sizes -/

theorem lengthCodingSizeFrom_spec : ∀ {fuel n : ℕ}, n < 128 ^ (fuel + 1) →
    0 < lengthCodingSizeFrom fuel n ∧ n < 128 ^ lengthCodingSizeFrom fuel n ∧
      (1 < lengthCodingSizeFrom fuel n → 128 ^ (lengthCodingSizeFrom fuel n - 1) ≤ n)
  | 0, n, h => ⟨Nat.one_pos, h, fun h' => absurd h' (lt_irrefl _)⟩
  | fuel + 1, n, h => by
    unfold lengthCodingSizeFrom
    split_ifs with hn
    · have hdiv : n / 2 ^ 7 < 128 ^ (fuel + 1) := Nat.div_lt_of_lt_mul (by rw [pow_succ'] at h; exact h)
      obtain ⟨hpos, hlt, hle⟩ := lengthCodingSizeFrom_spec hdiv
      generalize lengthCodingSizeFrom fuel (n / 2 ^ 7) = m at *
      refine ⟨Nat.succ_pos m, ?_, fun _ => ?_⟩
      · rw [pow_succ]
        omega
      · rw [Nat.add_sub_cancel]
        obtain rfl | hm := Nat.eq_or_lt_of_le (Nat.succ_le_of_lt hpos)
        · omega
        · obtain ⟨j, rfl⟩ : ∃ j, m = j + 1 := ⟨m - 1, by omega⟩
          have := hle hm
          rw [Nat.add_sub_cancel] at this
          rw [pow_succ]
          omega
    · exact ⟨Nat.one_pos, by omega, fun h' => absurd h' (lt_irrefl _)⟩

theorem lengthCodingSize_eq {n m : ℕ} (hn : n < 2 ^ 64) (hm : 0 < m) (hlt : n < 128 ^ m)
    (hle : 1 < m → 128 ^ (m - 1) ≤ n) :
    lengthCodingSize n = m := by
  obtain ⟨hpos, hlt', hle'⟩ := @lengthCodingSizeFrom_spec 9 n (hn.trans_le (by norm_num))
  rw [lengthCodingSize]
  generalize lengthCodingSizeFrom 9 n = l at *
  -- two numbers of groups that both fit bound each other
  have hbound : ∀ {a b : ℕ}, 0 < a → (1 < b → 128 ^ (b - 1) ≤ n) → n < 128 ^ a → b ≤ a := by
    intro a b ha hb hna
    by_contra hlt
    have h1 := hb (by omega)
    have h2 : 128 ^ a ≤ 128 ^ (b - 1) := Nat.pow_le_pow_right (by norm_num) (by omega)
    omega
  exact le_antisymm (hbound hm hle' hlt) (hbound hpos hle hlt')

variable {n : ℕ}

theorem lengthCodingSize_of_lt (h : n < 128 ^ 2) : lengthCodingSize n = if n < 128 then 1 else 2 := by
  unfold lengthCodingSize
  rw [lengthCodingSizeFrom, lengthCodingSizeFrom]
  split_ifs <;> omega

theorem lengthCodingSize_succ_of_even (h : Even n) : lengthCodingSize (1 + n) = lengthCodingSize n := by
  obtain ⟨k, rfl⟩ := h
  unfold lengthCodingSize lengthCodingSizeFrom
  rw [show (1 + (k + k)) / 2 ^ 7 = (k + k) / 2 ^ 7 by omega]
  split_ifs <;> omega

theorem octetsFrom_spec : ∀ {fuel n : ℕ}, n < 256 ^ fuel →
    ∃ k ≤ fuel, octetsFrom fuel n = beBytes k n ∧ n < 256 ^ k ∧ (0 < k → 256 ^ (k - 1) ≤ n)
  | 0, n, h => ⟨0, le_rfl, rfl, h, fun h' => absurd h' (lt_irrefl _)⟩
  | fuel + 1, n, h => by
    unfold octetsFrom
    split_ifs with hn
    · exact ⟨0, Nat.zero_le _, rfl, by rw [hn]; norm_num, fun h' => absurd h' (lt_irrefl _)⟩
    · have hdiv : n / 2 ^ 8 < 256 ^ fuel := Nat.div_lt_of_lt_mul (by rw [pow_succ'] at h; exact h)
      obtain ⟨k, hk, heq, hlt, hle⟩ := octetsFrom_spec hdiv
      refine ⟨k + 1, Nat.succ_le_succ hk, by rw [heq]; rfl, ?_, fun _ => ?_⟩
      · rw [pow_succ]
        omega
      · rw [Nat.add_sub_cancel]
        cases k with
        | zero => exact Nat.one_le_iff_ne_zero.mpr hn
        | succ j =>
          have := hle (Nat.succ_pos j)
          rw [Nat.add_sub_cancel] at this
          rw [pow_succ]
          omega

/-! ### The prefix -/

/-- `m - 1` ones and a zero above a number of `m` octets. -/
def lead (m : ℕ) : ℕ := 256 - 2 ^ (9 - m)

theorem not_prefixMask : ∀ k < 8, 0 < k → (~~~prefixMask k).toNat = 2 ^ (8 - k) - 1 := by
  decide +kernel

theorem front_fits : ∀ k < 8, 0 < k → ∀ b < 256,
    (UInt8.ofNat b &&& ~~~prefixMask k ≠ UInt8.ofNat b ↔ 2 ^ (8 - k) ≤ b) := by
  intro k hk hpos b hb
  have hval : (UInt8.ofNat b).toNat = b := UInt8.toNat_ofNat_of_lt hb
  rw [ne_eq, ← UInt8.toNat_inj, UInt8.toNat_and, not_prefixMask k hk hpos, hval, Nat.and_two_pow_sub_one_eq_mod,
    Nat.mod_eq_iff_lt (Nat.two_pow_pos _).ne', not_lt]

theorem front_or_mask : ∀ k < 8, 0 < k → ∀ b < 2 ^ (8 - k), UInt8.ofNat b ||| (prefixMask k <<< 1) =
    UInt8.ofNat (b + lead k) := by
  decide +kernel

theorem prefixMask_eq : ∀ k < 9, 0 < k → prefixMask k = UInt8.ofNat (lead (k + 1)) := by
  decide +kernel

theorem countLeadingOnes_lead : ∀ m < 9, 0 < m → ∀ b < 2 ^ (8 - m),
    countLeadingOnes (UInt8.ofNat (b + lead m)) = m - 1 ∧
      (UInt8.ofNat (b + lead m) &&& UInt8.ofNat (2 ^ (8 - (m - 1)) - 1)).toNat = b := by
  decide +kernel

/-! ### The encoding -/

theorem front_lt_iff {k n : ℕ} (hk : k < 8) : n / 256 ^ k < 2 ^ (7 - k) ↔ n < 128 ^ (k + 1) := by
  rw [Nat.div_lt_iff_lt_mul (by positivity)]
  have hpow : 2 ^ (7 - k) * 256 ^ k = 128 ^ (k + 1) := by
    interval_cases k <;> norm_num
  rw [hpow]

/-- **The encoding** of a number of at most 56 bits is the number in as many
octets as it has groups of seven bits, with the prefix above it. -/
theorem encodeLength_eq (hn : n < 2 ^ 56) :
    encodeLength n = beBytes (lengthCodingSize n) (n + lead (lengthCodingSize n) * 256 ^ (lengthCodingSize n - 1)) ∧
      0 < lengthCodingSize n ∧ lengthCodingSize n ≤ 8 ∧ n < 128 ^ lengthCodingSize n := by
  obtain ⟨k, hk, hoctets, hlt, hle⟩ := @octetsFrom_spec 8 n (hn.trans (by norm_num))
  have hn64 : n < 2 ^ 64 := hn.trans (by norm_num)
  unfold encodeLength
  rw [hoctets]
  cases k with
  | zero =>
    obtain rfl : n = 0 := by simpa using hlt
    decide
  | succ k =>
    have hge : 256 ^ k ≤ n := hle (Nat.succ_pos k)
    have hk7 : k < 7 := by
      by_contra h7
      have : 256 ^ 7 ≤ 256 ^ k := Nat.pow_le_pow_right (by norm_num) (by omega)
      omega
    have hfront : n / 256 ^ k < 256 := Nat.div_lt_of_lt_mul (by rw [← pow_succ]; exact hlt)
    rw [beBytes_cons]
    simp only [length_beBytes, Nat.div_eq_of_lt (show k + 1 < 8 by omega), replicate_zero, nil_append]
    have hfits := front_fits (k + 1) (by omega) (Nat.succ_pos k) _ hfront
    rw [show 8 - (k + 1) = 7 - k by omega] at hfits
    by_cases hsmall : n / 256 ^ k < 2 ^ (7 - k)
    · -- enough free bits in the first octet
      have hsize : lengthCodingSize n = k + 1 := by
        refine lengthCodingSize_eq hn64 (Nat.succ_pos k) ((front_lt_iff (by omega)).mp hsmall) fun _ => ?_
        rw [Nat.add_sub_cancel]
        exact (Nat.pow_le_pow_left (by norm_num) k).trans hge
      rw [if_neg (by rw [hfits]; omega), hsize, Nat.add_sub_cancel, beBytes_cons, beBytes_add_mul,
        Nat.add_mul_div_right _ _ (by positivity)]
      refine ⟨?_, Nat.succ_pos k, by omega, (front_lt_iff (by omega)).mp hsmall⟩
      rw [front_or_mask (k + 1) (by omega) (Nat.succ_pos k) _ (by rwa [show 8 - (k + 1) = 7 - k by omega])]
    · -- an octet more
      have hgroups : 128 ^ (k + 1) ≤ n := by
        rw [front_lt_iff (by omega)] at hsmall
        omega
      have hbits : 256 ^ (k + 1) ≤ 128 ^ (k + 2) := by
        interval_cases k <;> norm_num
      have hsize : lengthCodingSize n = k + 2 :=
        lengthCodingSize_eq hn64 (by omega) (hlt.trans_le hbits) fun _ => hgroups
      rw [if_pos (by rw [hfits]; omega), hsize, show k + 2 - 1 = k + 1 by omega, beBytes_cons (k + 1), beBytes_add_mul,
        Nat.add_mul_div_right _ _ (by positivity), Nat.div_eq_of_lt hlt, Nat.zero_add, ← beBytes_cons]
      refine ⟨?_, by omega, by omega, hlt.trans_le hbits⟩
      rw [prefixMask_eq (k + 1) (by omega) (Nat.succ_pos k)]

theorem length_octetsFrom : ∀ {fuel n : ℕ}, 256 ^ fuel ≤ n → (octetsFrom (fuel + 1) n).length = fuel + 1
  | 0, n, h => by
    rw [octetsFrom, if_neg (by omega)]
    rfl
  | fuel + 1, n, h => by
    have hpos : 0 < n := (by positivity : 0 < 256 ^ (fuel + 1)).trans_le h
    have hdiv : 256 ^ fuel ≤ n / 2 ^ 8 := (Nat.le_div_iff_mul_le (by norm_num)).mpr (by rwa [pow_succ] at h)
    rw [octetsFrom, if_neg hpos.ne', length_append, length_octetsFrom hdiv]
    rfl

theorem encodeLength_front (hn : 2 ^ 56 ≤ n) : ∃ rest, encodeLength n = 0xff :: rest := by
  have hlen : (octetsFrom 8 n).length = 8 := length_octetsFrom (by omega)
  unfold encodeLength
  split
  · next hnil => simp [hnil] at hlen
  · next front rest hcons =>
    rw [hcons, length_cons] at hlen
    dsimp only
    rw [hlen]
    exact ⟨_, rfl⟩

theorem encodeLength_huge (hn : 2 ^ 56 ≤ n) (hlt : n < 2 ^ 64) : encodeLength n = 0xff :: 0xff :: beBytes 8 n := by
  obtain ⟨k, hk, hoctets, hltk, -⟩ := @octetsFrom_spec 8 n (hlt.trans_le (by norm_num))
  obtain rfl : k = 8 := by
    by_contra hne
    have : 256 ^ k ≤ 256 ^ 7 := Nat.pow_le_pow_right (by norm_num) (by omega)
    omega
  have hfront : n / 256 ^ 7 < 256 := Nat.div_lt_of_lt_mul (by rw [← pow_succ]; exact hltk)
  have hpos : 0 < n / 256 ^ 7 := Nat.div_pos (by norm_num at hn ⊢; exact hn) (by norm_num)
  have hbits : ∀ b < 256, 0 < b → (UInt8.ofNat b &&& ~~~prefixMask 8 ≠ UInt8.ofNat b) := by decide +kernel
  unfold encodeLength
  rw [hoctets, beBytes_cons]
  simp only [length_beBytes]
  rw [if_pos (hbits _ hfront hpos)]
  rfl

/-! ### Round trip -/

theorem decodeLength_cons {front : UInt8} {rest : ByteBuffer} {a : ℕ} (ha : countLeadingOnes front = a) (ha8 : a < 8)
    (hlen : a ≤ rest.length) :
    decodeLength (front :: rest) = (a + 1, ofBeFrom (front &&& UInt8.ofNat (2 ^ (8 - a) - 1)).toNat (rest.take a)) := by
  unfold decodeLength
  simp only [ha, length_cons]
  rw [if_neg (by omega), if_pos (by omega)]

theorem encodeLength_cons (hn : n < 2 ^ 56) :
    ∃ front j, j < 8 ∧ encodeLength n = front :: beBytes j n ∧ countLeadingOnes front = j ∧
      (front &&& UInt8.ofNat (2 ^ (8 - j) - 1)).toNat = n / 256 ^ j := by
  obtain ⟨heq, hpos, hle, hlt⟩ := encodeLength_eq hn
  generalize lengthCodingSize n = m at *
  obtain ⟨j, rfl⟩ : ∃ j, m = j + 1 := ⟨m - 1, by omega⟩
  have hsmall := (front_lt_iff (by omega)).mpr hlt
  obtain ⟨hones, hmask⟩ := countLeadingOnes_lead (j + 1) (by omega) hpos (n / 256 ^ j)
    (by rwa [show 8 - (j + 1) = 7 - j by omega])
  rw [Nat.add_sub_cancel] at heq hones hmask
  rw [beBytes_cons, beBytes_add_mul, Nat.add_mul_div_right _ _ (by positivity)] at heq
  exact ⟨_, j, by omega, heq, hones, hmask⟩

theorem length_encodeLength (hn : n < 2 ^ 56) : (encodeLength n).length = lengthCodingSize n := by
  rw [(encodeLength_eq hn).1, length_beBytes]

theorem decodeLength_encodeLength (hn : n < 2 ^ 56) (s : ByteBuffer) :
    decodeLength (encodeLength n ++ s) = ((encodeLength n).length, n) := by
  obtain ⟨front, j, hj, heq, hones, hmask⟩ := encodeLength_cons hn
  rw [heq, cons_append, decodeLength_cons hones hj (by simp), hmask, take_left' (length_beBytes j n), ofBeFrom_eq,
    length_beBytes, length_cons, length_beBytes]
  -- the last octets give the rest of the number
  have hrest : ofBe (beBytes j n) = n % 256 ^ j := by
    conv_lhs => rw [← Nat.mod_add_div' n (256 ^ j), beBytes_add_mul]
    exact ofBe_beBytes (Nat.mod_lt _ (by positivity))
  rw [hrest, Nat.div_add_mod']

theorem decodeLength_huge (hn : 2 ^ 56 ≤ n) (s : ByteBuffer) : decodeLength (encodeLength n ++ s) = (0, 0) := by
  obtain ⟨rest, hrest⟩ := encodeLength_front hn
  rw [hrest]
  rfl

theorem length_encodeLength_pos (n : ℕ) : 0 < (encodeLength n).length := by
  unfold encodeLength
  split
  · exact Nat.one_pos
  · simp only [length_append]
    split_ifs <;> simp

theorem encodeLength_prefix_free {n n' : ℕ} (hn : n < 2 ^ 64) (hn' : n' < 2 ^ 64)
    (h : encodeLength n <+: encodeLength n') :
    n = n' := by
  obtain ⟨s, hs⟩ := h
  have hcontra : ∀ {k : ℕ}, 0 < k → ∀ {v : ℕ}, (k, v) ≠ (0, 0) := fun hk v h => by
    rw [(Prod.mk.inj h).1] at hk
    exact lt_irrefl 0 hk
  rcases lt_or_ge n (2 ^ 56) with h1 | h1 <;> rcases lt_or_ge n' (2 ^ 56) with h2 | h2
  · have hd := decodeLength_encodeLength h1 s
    have hd' := decodeLength_encodeLength h2 []
    rw [append_nil, ← hs, hd] at hd'
    exact (Prod.mk.inj hd').2
  · have hd := decodeLength_encodeLength h1 s
    have hd' := decodeLength_huge h2 []
    rw [append_nil, ← hs, hd] at hd'
    exact absurd hd' (hcontra (length_encodeLength_pos n))
  · have hd := decodeLength_huge h1 s
    have hd' := decodeLength_encodeLength h2 []
    rw [append_nil, ← hs, hd] at hd'
    exact absurd hd'.symm (hcontra (by rw [hs]; exact length_encodeLength_pos n'))
  · rw [encodeLength_huge h1 hn, encodeLength_huge h2 hn'] at hs
    simp only [cons_append, List.cons.injEq, true_and] at hs
    have hlen := congrArg List.length hs
    rw [length_append, length_beBytes, length_beBytes] at hlen
    obtain rfl : s = [] := eq_nil_of_length_eq_zero (by omega)
    rw [append_nil] at hs
    rw [← ofBe_beBytes (k := 8) (hn.trans_le (by norm_num)), hs, ofBe_beBytes (hn'.trans_le (by norm_num))]

/-- **Length coding.** A number is decoded to what was encoded, and its encoding
has the computed size, exactly if it has at most 56 bits. No encoding of a
64-bit number begins with that of another. -/
theorem length_coding {n : ℕ} (hn : n < 2 ^ 64) (s : ByteBuffer) :
    (decodeLength (encodeLength n ++ s) = ((encodeLength n).length, n) ∧ (encodeLength n).length = lengthCodingSize n ↔
      n < 2 ^ 56) ∧
    ∀ n' < 2 ^ 64, n ≠ n' → ¬ encodeLength n <+: encodeLength n' := by
  refine ⟨⟨fun h => ?_, fun h => ⟨decodeLength_encodeLength h s, length_encodeLength h⟩⟩, fun n' hn' hne h => ?_⟩
  · by_contra hge
    have hdecoded := h.1
    rw [decodeLength_huge (not_lt.mp hge)] at hdecoded
    exact (length_encodeLength_pos n).ne (Prod.mk.inj hdecoded).1
  · exact hne (encodeLength_prefix_free hn hn' h)

/-- A number of two octets. -/
theorem length_coding_1000 : decodeLength (encodeLength 1000 ++ [7]) = ((encodeLength 1000).length, 1000) ∧
    (encodeLength 1000).length = lengthCodingSize 1000 :=
  (length_coding (n := 1000) (by norm_num) [7]).1.mpr (by norm_num)

/-- The least number of 57 bits. -/
theorem length_coding_fails :
    ¬ ∀ n < 2 ^ 64, ∀ s : ByteBuffer, decodeLength (encodeLength n ++ s) = ((encodeLength n).length, n) ∧
      (encodeLength n).length = lengthCodingSize n := by
  intro h
  exact absurd (h (2 ^ 56) (by norm_num) []) (by decide +kernel)

end VanetzaIdf.V2
