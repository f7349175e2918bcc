/-
# Decompression in 1024 bits

`ecc::decompress` computes with integers of 1024 bits that wrap around. If no
number exceeds the width (`Fits`), the staged reductions give the right-hand
side of the equation (`decompressIn_eq`), and a point is returned exactly if
there is one; the parity selects the root (`decompressOn_iff`). A root of zero
has no odd companion: for the odd parity `p` itself is returned.
-/
import VanetzaIdf.Ecc

namespace VanetzaIdf.Ecc

open Lib

/-! ### Arithmetic of a width -/

/-- A number in the source's `Int`. -/
def wrap (n : ℕ) : ℕ := n % 2 ^ 1024

/-- `x ^ 3 + a * x + b`; `w` is what becomes of the result of an operation. -/
def CurveParameters.rhsIn (w : ℕ → ℕ) (c : CurveParameters) (x : ℕ) : ℕ :=
  let rhs := w (x * x) % c.p
  let rhs := w (rhs * x) % c.p
  let rhs := w (rhs + w (c.a * x) % c.p) % c.p
  w (rhs + c.b) % c.p

/-- The root of the requested parity, and the point with it. -/
def CurveParameters.select (c : CurveParameters) (xBytes : ByteBuffer) (yOdd : Bool) (y : ℕ) : Option Uncompressed :=
  let y := if decide (y % 2 = 1) ≠ yOdd then c.p - y else y
  let point : Uncompressed := ⟨xBytes, toBytes y c.octets⟩
  if point.y = [] then none else some point

/-- `decompress` with the parameters of the curve; `powm` is exact, as it is
documented. -/
def decompressIn (w : ℕ → ℕ) (c : CurveParameters) (xBytes : ByteBuffer) (yOdd : Bool) : Option Uncompressed :=
  if xBytes.length ≠ c.octets then none
  else
    let x := w (ofBe xBytes)
    if x ≥ c.p then none
    else
      let rhs := c.rhsIn w x
      let y := powm rhs (w (c.p + 1) / 4) c.p
      -- x is not on the curve
      if w (y * y) % c.p ≠ rhs then none else c.select xBytes yOdd y

/-- `decompress` with the parameters of the curve, in the source's `Int`. -/
def decompressOn : CurveParameters → ByteBuffer → Bool → Option Uncompressed := decompressIn wrap

/-- Every number that `decompress` forms is below the limit, and `p` has its
place in the octets of a coordinate. -/
structure CurveParameters.Fits (limit : ℕ) (c : CurveParameters) : Prop where
  square : (c.p - 1) * (c.p - 1) < limit
  product : c.a * (c.p - 1) < limit
  sum : c.p - 1 + c.b < limit
  coordinate : 256 ^ c.octets ≤ limit
  p_lt : c.p < 256 ^ c.octets

section Fits

variable {c : CurveParameters} {limit : ℕ} {w : ℕ → ℕ} (hw : ∀ n < limit, w n = n)

theorem CurveParameters.Fits.double_lt (h : c.Fits limit) (hp : 3 ≤ c.p) :
    c.p - 1 + (c.p - 1) < limit ∧ c.p + 1 < limit := by
  have hsquare := h.square
  have hdouble : 2 * (c.p - 1) ≤ (c.p - 1) * (c.p - 1) := Nat.mul_le_mul_right _ (by omega)
  omega

include hw

theorem CurveParameters.Fits.rhsIn_eq (h : c.Fits limit) (hp : 3 ≤ c.p) {x : ℕ} (hx : x < c.p) :
    c.rhsIn w x = c.rhsIn id x := by
  have hreduced : ∀ n, n % c.p ≤ c.p - 1 := fun n => Nat.le_sub_one_of_lt (Nat.mod_lt n (by omega))
  have hx' : x ≤ c.p - 1 := Nat.le_sub_one_of_lt hx
  have hdouble := (h.double_lt hp).1
  have hxx : w (x * x) = x * x := hw _ ((Nat.mul_le_mul hx' hx').trans_lt h.square)
  have hcube : w (x * x % c.p * x) = x * x % c.p * x :=
    hw _ ((Nat.mul_le_mul (hreduced _) hx').trans_lt h.square)
  have hax : w (c.a * x) = c.a * x := hw _ ((Nat.mul_le_mul_left c.a hx').trans_lt h.product)
  have hsum : w (x * x % c.p * x % c.p + c.a * x % c.p) = x * x % c.p * x % c.p + c.a * x % c.p :=
    hw _ ((Nat.add_le_add (hreduced _) (hreduced _)).trans_lt hdouble)
  have hall : w ((x * x % c.p * x % c.p + c.a * x % c.p) % c.p + c.b) =
      (x * x % c.p * x % c.p + c.a * x % c.p) % c.p + c.b :=
    hw _ ((Nat.add_le_add_right (hreduced _) c.b).trans_lt h.sum)
  simp only [rhsIn, id_eq, hxx, hcube, hax, hsum, hall]

theorem CurveParameters.Fits.decompressIn_eq (h : c.Fits limit) (hp : 3 ≤ c.p) (xBytes : ByteBuffer) (yOdd : Bool) :
    decompressIn w c xBytes yOdd = decompressIn id c xBytes yOdd := by
  unfold decompressIn
  split_ifs with hlen
  · rfl
  have hx : w (ofBe xBytes) = ofBe xBytes := by
    refine hw _ ((ofBe_lt xBytes).trans_le ?_)
    rw [not_not.mp hlen]
    exact h.coordinate
  dsimp only
  rw [hx]
  by_cases hge : ofBe xBytes ≥ c.p
  · rw [if_pos hge]
    exact (if_pos hge).symm
  have hroot : w (c.p + 1) = c.p + 1 := hw _ (h.double_lt hp).2
  have hlt := powm_lt (b := c.rhsIn id (ofBe xBytes)) (e := (c.p + 1) / 4) (m := c.p) (by omega)
  have hy := Nat.le_sub_one_of_lt hlt
  have hsquare := hw _ ((Nat.mul_le_mul hy hy).trans_lt h.square)
  rw [if_neg hge, h.rhsIn_eq hw hp (not_le.mp hge), hroot, hsquare]
  exact (if_neg hge).symm

end Fits

theorem curve_fits {type : KeyType} {c : CurveParameters} (h : curve type = some c) : c.Fits (2 ^ 1024) := by
  cases type with
  | unspecified => cases h
  | nistP256 | brainpoolP256r1 | brainpoolP384r1 => cases h; constructor <;> decide +kernel

theorem wrap_eq (n : ℕ) (h : n < 2 ^ 1024) : wrap n = n := Nat.mod_eq_of_lt h

theorem decompress_eq {type : KeyType} {c : CurveParameters} (h : curve type = some c) (xBytes : ByteBuffer)
    (yOdd : Bool) : decompress type xBytes yOdd = decompressOn c xBytes yOdd := by
  have hp : 3 ≤ c.p := by
    have hmod := (curve_mod_four h).1
    omega
  unfold decompressOn
  rw [(curve_fits h).decompressIn_eq wrap_eq hp]
  unfold decompress
  rw [h]
  rfl

/-- The base point of the curve, whose y coordinate is odd. -/
theorem decompress_eq_nistP256 :
    let x := beBytes 32 0x6B17D1F2E12C4247F8BCE6E563A440F277037D812DEB33A0F4A13945D898C296
    decompress .nistP256 x true = decompressOn nistP256 x true ∧ decompressOn nistP256 x true =
      some ⟨x, beBytes 32 0x4FE342E2FE1A7F9B8EE7EB4A7C0F9E162BCE33576B315ECECBB6406837BF51F5⟩ :=
  ⟨decompress_eq rfl _ true, by decide +kernel⟩

/-! ### The point -/

/-- The right-hand side of the equation of the curve. -/
def CurveParameters.cubic (c : CurveParameters) (x : ℕ) : ℕ := x ^ 3 + c.a * x + c.b

/-- The y coordinates of this parity. -/
structure CurveParameters.IsRoot (c : CurveParameters) (x : ℕ) (yOdd : Bool) (y : ℕ) : Prop where
  pos : 0 < y
  lt : y < c.p
  equation : y ^ 2 ≡ c.cubic x [MOD c.p]
  parity : decide (y % 2 = 1) = yOdd

section Roots

variable {c : CurveParameters}

theorem CurveParameters.IsRoot.unique [Fact c.p.Prime] (hmod : c.p % 4 = 3) {x y y' : ℕ} {yOdd : Bool}
    (h : c.IsRoot x yOdd y) (h' : c.IsRoot x yOdd y') : y = y' := by
  rcases eq_or_add_eq_of_sq h.lt h'.lt (h.equation.trans h'.equation.symm) with heq | hsum
  · exact heq
  · have hparity := decide_eq_decide.mp (h.parity.trans h'.parity.symm)
    omega

theorem CurveParameters.isRoot_select (hmod : c.p % 4 = 3) {x r : ℕ} (yOdd : Bool) (hpos : 0 < r) (hlt : r < c.p)
    (hr : r ^ 2 ≡ c.cubic x [MOD c.p]) : c.IsRoot x yOdd (if decide (r % 2 = 1) ≠ yOdd then c.p - r else r) := by
  split_ifs with hodd
  · refine ⟨by omega, by omega, ?_, ?_⟩
    · have hopposite : (c.p - r) ^ 2 ≡ r ^ 2 [MOD c.p] := by
        have hle := hlt.le
        rw [← Int.natCast_modEq_iff]
        push_cast [hle]
        exact (Int.modEq_iff_dvd.mpr ⟨2 * r - c.p, by ring⟩)
      exact hopposite.trans hr
    · cases yOdd with
      | true =>
        have hr0 : ¬ r % 2 = 1 := by simpa using hodd
        exact decide_eq_true (by omega)
      | false =>
        have hr1 : r % 2 = 1 := by simpa using hodd
        exact decide_eq_false (by omega)
  · exact ⟨hpos, hlt, hr, not_not.mp hodd⟩

theorem CurveParameters.select_eq (hp : c.p < 256 ^ c.octets) (hoctets : 0 < c.octets)
    (xBytes : ByteBuffer) (yOdd : Bool)
    {r : ℕ} (hr : r < c.p) :
    c.select xBytes yOdd r =
      some ⟨xBytes, beBytes c.octets (if decide (r % 2 = 1) ≠ yOdd then c.p - r else r)⟩ := by
  have hle : (if decide (r % 2 = 1) ≠ yOdd then c.p - r else r) ≤ c.p := by
    split_ifs <;> omega
  have hne : beBytes c.octets (if decide (r % 2 = 1) ≠ yOdd then c.p - r else r) ≠ [] := by
    intro hnil
    have hlen := length_beBytes c.octets (if decide (r % 2 = 1) ≠ yOdd then c.p - r else r)
    rw [hnil, List.length_nil] at hlen
    omega
  unfold select
  dsimp only
  rw [toBytes_eq hoctets (hle.trans_lt hp), if_neg hne]

variable {xBytes : ByteBuffer}

theorem decompressIn_of_le (hge : c.p ≤ ofBe xBytes) (yOdd : Bool) :
    decompressIn id c xBytes yOdd = none := by
  unfold decompressIn
  by_cases hlen : xBytes.length ≠ c.octets
  · exact if_pos hlen
  · rw [if_neg hlen]
    exact if_pos hge

theorem decompressIn_of_lt (hlen : xBytes.length = c.octets) (hlt : ofBe xBytes < c.p)
    (yOdd : Bool) {rhs r : ℕ} (hrhs : c.rhs (ofBe xBytes) = rhs) (hr : powm rhs ((c.p + 1) / 4) c.p = r) :
    decompressIn id c xBytes yOdd = if r * r % c.p ≠ rhs then none else c.select xBytes yOdd r := by
  subst hr hrhs
  unfold decompressIn
  rw [if_neg (not_not.mpr hlen)]
  exact if_neg (not_le.mpr hlt)

theorem decompressIn_cases (hp : c.p.Prime) (hmod : c.p % 4 = 3) (hfits : c.p < 256 ^ c.octets)
    (hlen : xBytes.length = c.octets) (yOdd : Bool) :
    (decompressIn id c xBytes yOdd = none ∧
      ¬ (ofBe xBytes < c.p ∧ ∃ s, s ^ 2 ≡ c.cubic (ofBe xBytes) [MOD c.p])) ∨
    (ofBe xBytes < c.p ∧ ∃ r < c.p, r ^ 2 ≡ c.cubic (ofBe xBytes) [MOD c.p] ∧
      decompressIn id c xBytes yOdd =
        some ⟨xBytes, beBytes c.octets (if decide (r % 2 = 1) ≠ yOdd then c.p - r else r)⟩) := by
  have : Fact c.p.Prime := ⟨hp⟩
  have hoctets : 0 < c.octets := by
    by_contra hzero
    rw [Nat.eq_zero_of_not_pos hzero] at hfits
    have := hp.two_le
    omega
  by_cases hge : c.p ≤ ofBe xBytes
  · exact .inl ⟨decompressIn_of_le hge yOdd, fun h => absurd h.1 (not_lt.mpr hge)⟩
  have hlt := not_le.mp hge
  have hcubic : c.rhs (ofBe xBytes) = c.cubic (ofBe xBytes) % c.p := c.rhs_eq _
  have hsquare := powm_sq_iff hmod (Nat.mod_lt (c.cubic (ofBe xBytes)) hp.pos)
  have hr := powm_lt (b := c.cubic (ofBe xBytes) % c.p) (e := (c.p + 1) / 4) hp.pos
  -- the power is not evaluated
  obtain ⟨r, hpower⟩ : ∃ r, powm (c.cubic (ofBe xBytes) % c.p) ((c.p + 1) / 4) c.p = r := ⟨_, rfl⟩
  rw [hpower] at hsquare hr
  have heq := decompressIn_of_lt hlen hlt yOdd hcubic hpower
  by_cases hroot : r * r % c.p = c.cubic (ofBe xBytes) % c.p
  · rw [if_neg (not_not.mpr hroot), c.select_eq hfits hoctets xBytes yOdd hr] at heq
    refine .inr ⟨hlt, r, hr, ?_, heq⟩
    rw [sq]
    exact hroot
  · rw [if_pos hroot] at heq
    refine .inl ⟨heq, fun h => hroot (hsquare.mpr ?_)⟩
    obtain ⟨-, s, hs⟩ := h
    exact ⟨s, hs.trans (Nat.mod_modEq _ _).symm⟩

end Roots

/-- **Points are decompressed**, on every curve whose prime is 3 modulo 4 and that fits the
arithmetic, exactly if there is one with this x coordinate; it is the one of the requested parity.
-/
theorem decompressOn_iff (c : CurveParameters) (hp : c.p.Prime) (hmod : c.p % 4 = 3) (hfits : c.Fits (2 ^ 1024))
    (xBytes : ByteBuffer) (hlen : xBytes.length = c.octets) (yOdd : Bool) :
    ((decompressOn c xBytes yOdd).isSome = true ↔
      ofBe xBytes < c.p ∧ ∃ s, s ^ 2 ≡ c.cubic (ofBe xBytes) [MOD c.p]) ∧
    (¬ c.cubic (ofBe xBytes) ≡ 0 [MOD c.p] → ∀ point, decompressOn c xBytes yOdd = some point →
      point.x = xBytes ∧ point.y.length = c.octets ∧ c.IsRoot (ofBe xBytes) yOdd (ofBe point.y) ∧
        ∀ y, c.IsRoot (ofBe xBytes) yOdd y → y = ofBe point.y) := by
  have : Fact c.p.Prime := ⟨hp⟩
  unfold decompressOn
  rw [hfits.decompressIn_eq wrap_eq (by omega)]
  rcases decompressIn_cases hp hmod hfits.p_lt hlen yOdd with ⟨hnone, hnot⟩ | ⟨hlt, r, hr, hroot, hsome⟩
  · rw [hnone]
    exact ⟨⟨fun h => absurd h (by decide), fun h => absurd h hnot⟩, nofun⟩
  · rw [hsome]
    refine ⟨⟨fun _ => ⟨hlt, r, hroot⟩, fun _ => rfl⟩, fun hzero point hpoint => ?_⟩
    obtain rfl := Option.some.inj hpoint
    have hpos : 0 < r := by
      by_contra hr0
      rw [Nat.eq_zero_of_not_pos hr0] at hroot
      exact hzero hroot.symm
    have hselected := c.isRoot_select hmod yOdd hpos hr hroot
    have hbytes := ofBe_beBytes (hselected.lt.trans hfits.p_lt)
    refine ⟨rfl, length_beBytes _ _, ?_, fun y hy => ?_⟩
    · rw [hbytes]
      exact hselected
    · rw [hbytes]
      exact hy.unique hmod hselected

/-- `y ^ 2 = x ^ 3 + x + 3` modulo 7, at x = 4. -/
def sampleCurve : CurveParameters := ⟨1, 7, 1, 3⟩

theorem decompressOn_seven :
    decompressOn sampleCurve [4] true = some ⟨[4], [1]⟩ ∧
    ((decompressOn sampleCurve [4] true).isSome = true ↔
      ofBe [4] < sampleCurve.p ∧ ∃ s, s ^ 2 ≡ sampleCurve.cubic (ofBe [4]) [MOD sampleCurve.p]) ∧
    (¬ sampleCurve.cubic (ofBe [4]) ≡ 0 [MOD sampleCurve.p] → ∀ point, decompressOn sampleCurve [4] true = some point →
      point.x = [4] ∧ point.y.length = sampleCurve.octets ∧ sampleCurve.IsRoot (ofBe [4]) true (ofBe point.y) ∧
        ∀ y, sampleCurve.IsRoot (ofBe [4]) true y → y = ofBe point.y) :=
  ⟨by decide +kernel, decompressOn_iff sampleCurve Nat.prime_seven rfl (by constructor <;> decide +kernel) [4] rfl true⟩

end VanetzaIdf.Ecc
