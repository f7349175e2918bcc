/-
# Compressed curve points

`ecc.cpp`: the three curves, and the recovery of a point from its x coordinate
and the parity of its y coordinate (`decompress_of_onCurve`). All fields have a
prime `p` with `p % 4 = 3`, so that a root is a power. No number exceeds the 1024
bits of the source: the largest is a product of two numbers of 384 bits.
-/
import Mathlib.Tactic.NormNum.Prime
import VanetzaIdf.CertificatePool
import VanetzaIdf.Lib.BigEndian
import VanetzaIdf.Lib.PrimeField

namespace VanetzaIdf.Ecc

open Lib

/-- `CurveParameters`, the curve `y ^ 2 = x ^ 3 + a * x + b` modulo `p`. -/
structure CurveParameters where
  octets : ℕ
  p : ℕ
  a : ℕ
  b : ℕ

/-- FIPS 186-4 D.1.2.3. -/
def nistP256 : CurveParameters where
  octets := 32
  p := 0xFFFFFFFF00000001000000000000000000000000FFFFFFFFFFFFFFFFFFFFFFFF
  a := 0xFFFFFFFF00000001000000000000000000000000FFFFFFFFFFFFFFFFFFFFFFFC
  b := 0x5AC635D8AA3A93E7B3EBBD55769886BC651D06B0CC53B0F63BCE3C3E27D2604B

/-- RFC 5639 3.4. -/
def brainpoolP256r1 : CurveParameters where
  octets := 32
  p := 0xA9FB57DBA1EEA9BC3E660A909D838D726E3BF623D52620282013481D1F6E5377
  a := 0x7D5A0975FC2C3057EEF67530417AFFE7FB8055C126DC5C6CE94A4B44F330B5D9
  b := 0x26DC5C6CE94A4B44F330B5D9BBD77CBF958416295CF7E1CE6BCCDC18FF8C07B6

/-- RFC 5639 3.6. -/
def brainpoolP384r1 : CurveParameters where
  octets := 48
  p := 0x8CB91E82A3386D280F5D6F7E50E641DF152F7109ED5456B412B1DA197FB71123ACD3A729901D1A71874700133107EC53
  a := 0x7BC382C63D8C150C3C72080ACE05AFA0C2BEA28E4FB22787139165EFBA91F90F8AA5814A503AD4EB04A8C7DD22CE2826
  b := 0x04A8C7DD22CE28268B39B55416F0447C2FB77DE107DCD2A62E880EA53EEB62D57CB4390295DBC9943AB78696FA504C11

def curve : KeyType → Option CurveParameters
  | .nistP256 => some nistP256
  | .brainpoolP256r1 => some brainpoolP256r1
  | .brainpoolP384r1 => some brainpoolP384r1
  | .unspecified => none

/-- `export_bits` in octets: no leading zeros, but one octet at least. -/
def exportBits (value : ℕ) : ByteBuffer := beBytes (value.log2 / 8 + 1) value

def toBytes (value octets : ℕ) : ByteBuffer :=
  let out := exportBits value
  if out.length > octets then [] else List.replicate (octets - out.length) 0 ++ out

/-- `security::Uncompressed`. -/
structure Uncompressed where
  x : ByteBuffer
  y : ByteBuffer
deriving DecidableEq, Repr

/-- `x ^ 3 + a * x + b`, reduced after every operation. -/
def CurveParameters.rhs (c : CurveParameters) (x : ℕ) : ℕ :=
  let rhs := (x * x) % c.p
  let rhs := (rhs * x) % c.p
  let rhs := (rhs + (c.a * x) % c.p) % c.p
  (rhs + c.b) % c.p

def decompress (type : KeyType) (xBytes : ByteBuffer) (yOdd : Bool) : Option Uncompressed :=
  match curve type with
  | none => none
  | some c =>
    if xBytes.length ≠ c.octets then none
    else
      let x := ofBe xBytes
      if x ≥ c.p then none
      else
        let rhs := c.rhs x
        let y := powm rhs ((c.p + 1) / 4) c.p
        -- x is not on the curve
        if (y * y) % c.p ≠ rhs then none
        else
          let y := if decide (y % 2 = 1) ≠ yOdd then c.p - y else y
          let point : Uncompressed := ⟨xBytes, toBytes y c.octets⟩
          if point.y = [] then none else some point

/-! ### Octets of coordinates -/

theorem toBytes_eq {n octets : ℕ} (hpos : 0 < octets) (h : n < 256 ^ octets) : toBytes n octets = beBytes octets n := by
  have hbase : ∀ k, 256 ^ k = 2 ^ (8 * k) := fun k => by rw [pow_mul]; rfl
  have hself : n < 256 ^ (n.log2 / 8 + 1) := by
    rw [hbase]
    exact Nat.lt_log2_self.trans_le (Nat.pow_le_pow_right (by decide) (by omega))
  have hle : n.log2 / 8 + 1 ≤ octets := by
    by_cases hn : n = 0
    · subst hn
      simpa using Nat.succ_le_of_lt hpos
    · have hlog : n.log2 < 8 * octets := (Nat.log2_lt hn).mpr (hbase octets ▸ h)
      omega
  unfold toBytes exportBits
  simp only [length_beBytes]
  rw [if_neg (by omega), ← beBytes_zeros _ hself, Nat.sub_add_cancel hle]

/-! ### Points -/

/-- The coordinates are reduced, in as many octets as the field has, and on
the curve. -/
structure OnCurve (c : CurveParameters) (x y : ByteBuffer) : Prop where
  length_x : x.length = c.octets
  length_y : y.length = c.octets
  x_lt : ofBe x < c.p
  y_lt : ofBe y < c.p
  equation : ofBe y ^ 2 ≡ ofBe x ^ 3 + c.a * ofBe x + c.b [MOD c.p]

theorem curve_mod_four {type : KeyType} {c : CurveParameters} (h : curve type = some c) :
    c.p % 4 = 3 ∧ 0 < c.octets := by
  cases type with
  | unspecified => cases h
  | nistP256 | brainpoolP256r1 | brainpoolP384r1 => cases h; decide +kernel

theorem CurveParameters.rhs_eq (c : CurveParameters) (x : ℕ) : c.rhs x = (x ^ 3 + c.a * x + c.b) % c.p := by
  have h : x * x % c.p * x % c.p ≡ x ^ 3 [MOD c.p] := by
    calc x * x % c.p * x % c.p ≡ x * x % c.p * x [MOD c.p] := Nat.mod_modEq _ _
      _ ≡ x * x * x [MOD c.p] := (Nat.mod_modEq _ _).mul_right x
      _ = x ^ 3 := by ring
  have hsum : (x * x % c.p * x % c.p + c.a * x % c.p) % c.p ≡ x ^ 3 + c.a * x [MOD c.p] :=
    (Nat.mod_modEq _ _).trans (h.add (Nat.mod_modEq _ _))
  exact hsum.add_right c.b

theorem ofBe_odd {y : ByteBuffer} (h : y ≠ []) : ((y.getLast h &&& 1) ≠ 0) ↔ ofBe y % 2 = 1 := by
  have hsplit := List.dropLast_append_getLast h
  have hval : ofBe y = ofBe y.dropLast * 256 + (y.getLast h).toNat := by
    conv_lhs => rw [← hsplit]
    exact ofBe_snoc _ _
  have hbit : (y.getLast h &&& 1) ≠ 0 ↔ (y.getLast h).toNat % 2 = 1 := by
    rw [ne_eq, ← UInt8.toNat_inj, UInt8.toNat_and]
    show ¬(y.getLast h).toNat &&& 1 = 0 ↔ _
    rw [Nat.and_one_is_mod]
    omega
  rw [hbit, hval]
  omega

theorem decompress_of_onCurve {type : KeyType} {c : CurveParameters} (hc : curve type = some c) (hp : c.p.Prime)
    {x y : ByteBuffer} (h : OnCurve c x y) :
    decompress type x (decide (ofBe y % 2 = 1)) = some ⟨x, y⟩ := by
  have : Fact c.p.Prime := ⟨hp⟩
  obtain ⟨hmod, hoctets⟩ := curve_mod_four hc
  have hrhs : c.rhs (ofBe x) = ofBe y * ofBe y % c.p := by
    rw [c.rhs_eq, ← sq]
    exact h.equation.symm
  have hroot := powm_root hmod (ofBe y)
  have hlt := powm_lt (b := ofBe y * ofBe y % c.p) (e := (c.p + 1) / 4) hp.pos
  unfold decompress
  simp only [hc, h.length_x, hrhs, ne_eq, not_true_eq_false, if_false, ge_iff_le, not_le.mpr h.x_lt]
  -- the power is not evaluated from here on
  generalize powm (ofBe y * ofBe y % c.p) ((c.p + 1) / 4) c.p = r at hroot hlt
  have hcheck : r * r % c.p = ofBe y * ofBe y % c.p := by
    rw [← sq, ← sq]
    exact hroot
  have hchosen := choose_root hmod hlt h.y_lt hroot
  have hbytes : toBytes (ofBe y) c.octets = y := by
    rw [toBytes_eq hoctets (h.length_y ▸ ofBe_lt y), ← h.length_y, beBytes_ofBe]
  have hne : y ≠ [] := by
    rintro rfl
    have := h.length_y
    simp at this
    omega
  simp only [ne_eq] at hchosen
  simp only [hcheck, not_true_eq_false, if_false, hchosen, hbytes, hne]

/-! ### The field of P-256 -/

theorem prime_34282281433 : Nat.Prime 34282281433 := by
  have h : Nat.Prime 204061199 := prime_of_powm 11 [2, 11, 23, 107, 3769] (by decide)
    (by norm_num) (by decide) (by decide +kernel) (by decide +kernel)
  exact prime_of_powm 17 [2, 2, 2, 3, 7, 204061199] (by decide)
    (by simpa [Nat.prime_two, Nat.prime_three, Nat.prime_seven] using h) (by decide) (by decide +kernel)
      (by decide +kernel)

theorem prime_11290956913871 : Nat.Prime 11290956913871 := by
  have h : Nat.Prime 66417393611 := prime_of_powm 6 [2, 5, 53, 173, 197, 3677] (by decide)
    (by norm_num) (by decide) (by decide +kernel) (by decide +kernel)
  have h17 : Nat.Prime 17 := by norm_num
  exact prime_of_powm 13 [2, 5, 17, 66417393611] (by decide)
    (by simpa [Nat.prime_two, Nat.prime_five, h17] using h) (by decide) (by decide +kernel) (by decide +kernel)

theorem prime_46076956964474543 : Nat.Prime 46076956964474543 :=
  prime_of_powm 5 [2, 23, 18169, 78283, 704251] (by decide) (by norm_num) (by decide) (by decide +kernel)
    (by decide +kernel)

/-- The prime factors of `p - 1`, and of the largest of them less one, in turn. -/
theorem nistP256_prime : nistP256.p.Prime := by
  have h150 : Nat.Prime 774023187263532362759620327192479577272145303 :=
    prime_of_powm 3 [2, 3, 3, 2411, 34282281433, 11290956913871, 46076956964474543] (by decide)
      (by
        have h2411 : Nat.Prime 2411 := by norm_num
        simp [Nat.prime_two, Nat.prime_three, h2411, prime_34282281433, prime_11290956913871, prime_46076956964474543])
      (by decide) (by decide +kernel) (by decide +kernel)
  have h160 : Nat.Prime 835945042244614951780389953367877943453916927241 :=
    prime_of_powm 11 [2, 2, 2, 3, 3, 3, 5, 774023187263532362759620327192479577272145303] (by decide)
      (by simpa [Nat.prime_two, Nat.prime_three, Nat.prime_five] using h150) (by decide) (by decide +kernel)
        (by decide +kernel)
  have hsmall : ∀ q ∈ [2, 3, 5, 5, 17, 257, 641, 1531, 65537, 490463, 6700417], Nat.Prime q := by norm_num
  refine prime_of_powm 6 ([2, 3, 5, 5, 17, 257, 641, 1531, 65537, 490463, 6700417] ++
    [835945042244614951780389953367877943453916927241]) (by decide +kernel) ?_ (by decide +kernel) (by decide +kernel)
    (by decide +kernel)
  exact List.forall_mem_append.mpr ⟨hsmall, List.forall_mem_singleton.mpr h160⟩

end VanetzaIdf.Ecc
