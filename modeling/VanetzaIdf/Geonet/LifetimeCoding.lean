/-
# Which lifetime is written

`Lifetime::encode` rounds to a multiple of the unit of a base. The value written
is a nearest one except just above 3.15, 63 and 630 seconds, where the largest
value of the smaller base is closer, and from 6350 seconds on, where the
multiplier is cut to six bits (`Fits`). Reducing a lifetime never makes it
longer, as it was a multiple of the unit it is written with (`encode_decode_le`).
-/
import VanetzaIdf.Geonet.Carried

namespace VanetzaIdf.Geonet.Lifetime

open Lib VanetzaIdf.Units

/-! ### Bases -/

variable {d : Units.Duration} {b : Base}

theorem decode_multiple (b : Base) (l : Lifetime) : (∃ m : ℤ, l.decode = m * b.unit) ∨ l.decode ≤ b.below := by
  have hm : (l.multiplier.toNat : ℚ) ≤ 63 := by
    have := l.multiplier.isLt
    exact_mod_cast Nat.le_of_lt_succ this
  have hmultiple : ∀ k : ℕ, l.base.unit = k * b.unit → ∃ m : ℤ, l.decode = m * b.unit := by
    intro k hk
    refine ⟨l.multiplier.toNat * k, ?_⟩
    rw [decode, hk]
    push_cast
    ring
  have hbelow : 63 * l.base.unit ≤ b.below → l.decode ≤ b.below := by
    intro h
    exact (mul_le_mul_of_nonneg_right hm l.base.unit_pos.le).trans h
  cases b <;> cases hl : l.base <;> rw [hl] at hmultiple hbelow
  case fiftyMilliseconds.fiftyMilliseconds => exact .inl (hmultiple 1 (by norm_num))
  case fiftyMilliseconds.oneSecond => exact .inl (hmultiple 20 (by norm_num [Base.unit]))
  case fiftyMilliseconds.tenSeconds => exact .inl (hmultiple 200 (by norm_num [Base.unit]))
  case fiftyMilliseconds.hundredSeconds => exact .inl (hmultiple 2000 (by norm_num [Base.unit]))
  case oneSecond.oneSecond => exact .inl (hmultiple 1 (by norm_num))
  case oneSecond.tenSeconds => exact .inl (hmultiple 10 (by norm_num [Base.unit]))
  case oneSecond.hundredSeconds => exact .inl (hmultiple 100 (by norm_num [Base.unit]))
  case tenSeconds.tenSeconds => exact .inl (hmultiple 1 (by norm_num))
  case tenSeconds.hundredSeconds => exact .inl (hmultiple 10 (by norm_num [Base.unit]))
  case hundredSeconds.hundredSeconds => exact .inl (hmultiple 1 (by norm_num))
  all_goals exact .inr (hbelow (by norm_num [Base.unit, Base.below]))

theorem below_mem (b : Base) : b.below ∈ Set.range decode := by
  cases b with
  | fiftyMilliseconds => exact ⟨zero, by simp [decode, zero, Base.below]⟩
  | oneSecond => exact ⟨set .fiftyMilliseconds 63, by norm_num [decode, set, Base.unit, Base.below]⟩
  | tenSeconds => exact ⟨set .oneSecond 63, by norm_num [decode, set, Base.unit, Base.below]⟩
  | hundredSeconds => exact ⟨set .tenSeconds 63, by norm_num [decode, set, Base.unit, Base.below]⟩

/-! ### The nearest value -/

/-- No value is closer to the duration than the one written. -/
def Closest (d : Units.Duration) : Prop := IsNearest (Set.range decode) d (encode d).decode

/-- Not just above the largest value of a base, and not with a multiplier that
is cut to another value than 63. -/
def Fits (d : Units.Duration) : Prop :=
  (63 / 20 ≤ d → 143 / 40 ≤ d) ∧ (63 ≤ d → 133 / 2 ≤ d) ∧ (630 ≤ d → 665 ≤ d) ∧
    (lround (d / 100) < 64 ∨ lround (d / 100) % 64 = 63)

instance (d : Units.Duration) : Decidable (Fits d) := by
  unfold Fits
  infer_instance

theorem isGreatest_decode : IsGreatest (Set.range decode) 6300 :=
  ⟨⟨set .hundredSeconds 63, by norm_num [decode, set, Base.unit]⟩, fun _ ⟨l, h⟩ => h ▸ l.decode_le⟩

theorem closest_iff_below (h0 : 0 ≤ d) (heq : encode d = set b (round (d / b.unit)))
    (hbelow : b.below ≤ d) (hroom : round (d / b.unit) < 64) :
    Closest d ↔ |d - round (d / b.unit) * b.unit| ≤ d - b.below := by
  have hdecode := decode_set_round h0 hroom
  unfold Closest
  rw [heq, hdecode]
  refine isNearest_round_iff b.unit_pos ?_ (below_mem b) hbelow ⟨_, hdecode⟩
  rintro q ⟨l, rfl⟩
  exact decode_multiple b l

/-- The middle between the largest value below and the next multiple. -/
def Base.middle : Base → Units.Duration
  | .fiftyMilliseconds => 0
  | .oneSecond => 143 / 40
  | .tenSeconds => 133 / 2
  | .hundredSeconds => 665

theorem closest_iff_middle (h0 : 0 ≤ d) (heq : encode d = set b (round (d / b.unit))) (hbelow : b.below ≤ d)
    (hroom : round (d / b.unit) < 64) : Closest d ↔ b.middle ≤ d := by
  rw [closest_iff_below h0 heq hbelow hroom]
  have hrival : ∀ n : ℤ, n < b.below / b.unit → b.below / b.unit < n + 1 / 2 →
      (|d - round (d / b.unit) * b.unit| ≤ d - b.below ↔ b.below + (n + 1) * b.unit ≤ 2 * d) := by
    intro n hn hhalf
    have hu := b.unit_pos
    have hne := hu.ne'
    have hgap : d - b.below = (d / b.unit - b.below / b.unit) * b.unit := by field_simp
    rw [abs_sub_mul hu, hgap, mul_le_mul_iff_left₀ hu,
      abs_sub_round_le_iff hn hhalf (div_le_div_of_nonneg_right hbelow hu.le)]
    have hsum : b.below / b.unit + (n + 1) = (b.below + (n + 1) * b.unit) / b.unit := by field_simp
    have htwice : 2 * (d / b.unit) = 2 * d / b.unit := by ring
    rw [hsum, htwice, div_le_div_iff_of_pos_right hu]
  cases b with
  | fiftyMilliseconds =>
    -- zero is the rival, and zero is a multiple too
    have hzero := abs_sub_round_mul_le Base.fiftyMilliseconds.unit_pos d 0
    refine iff_of_true ?_ h0
    simpa [Base.below, abs_of_nonneg h0] using hzero
  | oneSecond =>
    rw [hrival 3 (by norm_num [Base.below, Base.unit]) (by norm_num [Base.below, Base.unit])]
    norm_num [Base.below, Base.unit, Base.middle]
    constructor <;> intro h <;> linarith
  | tenSeconds | hundredSeconds =>
    rw [hrival 6 (by norm_num [Base.below, Base.unit]) (by norm_num [Base.below, Base.unit])]
    norm_num [Base.below, Base.unit, Base.middle]
    constructor <;> intro h <;> linarith

theorem fits_iff (h0 : 0 ≤ d) (hb : Encodes d b) :
    Fits d ↔ b.middle ≤ d ∧ (lround (d / 100) < 64 ∨ lround (d / 100) % 64 = 63) := by
  unfold Fits
  cases hb with
  | fiftyMilliseconds h =>
    exact ⟨fun hfits => ⟨h0, hfits.2.2.2⟩,
      fun hfits => ⟨fun _ => by linarith, fun _ => by linarith, fun _ => by linarith, hfits.2⟩⟩
  | oneSecond hlow h =>
    exact ⟨fun hfits => ⟨hfits.1 hlow, hfits.2.2.2⟩,
      fun hfits => ⟨fun _ => hfits.1, fun _ => by linarith, fun _ => by linarith, hfits.2⟩⟩
  | tenSeconds hlow h =>
    exact ⟨fun hfits => ⟨hfits.2.1 hlow, hfits.2.2.2⟩,
      fun hfits => ⟨fun _ => by linarith, fun _ => hfits.1, fun _ => by linarith, hfits.2⟩⟩
  | hundredSeconds hlow =>
    exact ⟨fun hfits => ⟨hfits.2.2.1 hlow, hfits.2.2.2⟩,
      fun hfits => ⟨fun _ => by linarith, fun _ => by linarith, fun _ => hfits.1, hfits.2⟩⟩

theorem closest_iff_fits (h0 : 0 ≤ d) : Closest d ↔ Fits d := by
  obtain ⟨b, hb, heq, hbelow⟩ := encode_eq h0
  rw [fits_iff h0 hb, lround_eq_round (by positivity)]
  by_cases hlt : round (d / 100) < 64
  · have hsmall : d < 6350 := by linarith [round_lt_iff.mp hlt]
    rw [closest_iff_middle h0 heq hbelow (hb.room hsmall)]
    exact ⟨fun h => ⟨h, .inl hlt⟩, fun h => h.1⟩
  · -- beyond the largest value: the multiplier is cut to six bits
    have hlarge : 6350 ≤ d := by linarith [not_lt.mp fun h => hlt (round_lt_iff.mpr h)]
    obtain rfl : b = .hundredSeconds := by
      cases hb <;> first | rfl | linarith
    have hdecode : (encode d).decode = ((round (d / 100) % 64 : ℤ) : ℚ) * 100 := by
      rw [heq]
      have hnat : (((BitVec.ofInt 6 (round (d / 100))).toNat : ℤ) : ℚ) = ((round (d / 100) % 64 : ℤ) : ℚ) := by
        congr 1
        rw [BitVec.toNat_ofInt]
        omega
      rw [← hnat]
      rfl
    have hmiddle : Base.hundredSeconds.middle ≤ d := by
      norm_num [Base.middle]
      linarith
    rw [Closest, isNearest_iff_eq_of_isGreatest isGreatest_decode (by linarith) ⟨_, rfl⟩, hdecode]
    constructor
    · intro h
      have h63 : ((round (d / 100) % 64 : ℤ) : ℚ) = ((63 : ℤ) : ℚ) := by
        push_cast at h ⊢
        linarith
      exact ⟨hmiddle, .inr (by exact_mod_cast h63)⟩
    · rintro ⟨-, hsmall | h63⟩
      · exact absurd hsmall hlt
      · rw [h63]
        norm_num

/-- **Where durations fit, encoding is monotone and closest**, and it is closest nowhere else. -/
theorem encode_closest_of_fits {d₁ d₂ : Units.Duration} (h0 : 0 ≤ d₁) (hle : d₁ ≤ d₂) (h₁ : Fits d₁) (h₂ : Fits d₂) :
    (encode d₁).decode ≤ (encode d₂).decode ∧ Closest d₁ ∧ Closest d₂ ∧
      (6300 ≤ d₂ → (encode d₂).decode = 6300) ∧ ∀ d, 0 ≤ d → (Closest d ↔ Fits d) := by
  have hclosest₁ : Closest d₁ := (closest_iff_fits h0).mpr h₁
  have hclosest₂ : Closest d₂ := (closest_iff_fits (h0.trans hle)).mpr h₂
  refine ⟨?_, hclosest₁, hclosest₂, ?_, fun d hd => closest_iff_fits hd⟩
  · rcases hle.eq_or_lt with heq | hlt
    · rw [heq]
    · exact hclosest₁.mono hclosest₂ hlt
  · intro hlarge
    exact (isNearest_iff_eq_of_isGreatest isGreatest_decode hlarge ⟨_, rfl⟩).mp hclosest₂

theorem encode_closest_of_fits_largest :
    (0 : Units.Duration) ≤ 3 ∧ (3 : Units.Duration) ≤ 6349 ∧ Fits 3 ∧ Fits 6349 ∧
      (encode 3).decode ≤ (encode 6349).decode ∧ (encode 6349).decode = 6300 := by
  have h0 : (0 : Units.Duration) ≤ 3 := by norm_num
  have hle : (3 : Units.Duration) ≤ 6349 := by norm_num
  have h₁ : Fits 3 := by decide +kernel
  have h₂ : Fits 6349 := by decide +kernel
  have h := encode_closest_of_fits h0 hle h₁ h₂
  exact ⟨h0, hle, h₁, h₂, h.1, h.2.2.2.1 (by norm_num)⟩

/-- 6400 seconds are written as none at all, 3.15 seconds as less than 3.14
are, and 64 seconds as 60 where there is 63. -/
theorem encode_not_closest :
    ¬ (∀ d₁ d₂ : Units.Duration, 0 ≤ d₁ → d₁ ≤ d₂ → (encode d₁).decode ≤ (encode d₂).decode) ∧
      ¬ (∀ d : Units.Duration, 0 ≤ d → Closest d) ∧
      (encode 6400).decode = 0 ∧ (encode (157 / 50)).decode = 63 / 20 ∧ (encode (63 / 20)).decode = 3 ∧
      (encode 64).decode = 60 := by
  have hcut : (encode 6400).decode = 0 := by decide +kernel
  have hbefore : (encode (157 / 50)).decode = 63 / 20 := by decide +kernel
  have hafter : (encode (63 / 20)).decode = 3 := by decide +kernel
  refine ⟨fun h => ?_, fun h => ?_, hcut, hbefore, hafter, by decide +kernel⟩
  · have hle := h (157 / 50) (63 / 20) (by norm_num) (by norm_num)
    rw [hbefore, hafter] at hle
    norm_num at hle
  · have hle := (h 6400 (by norm_num)).le 6300 isGreatest_decode.1
    rw [hcut] at hle
    norm_num at hle

/-! ### Time in a queue, exactly -/

def reduceSeconds (l : Lifetime) (queuingTime : Units.Duration) : Units.Duration × Lifetime :=
  if queuingTime ≤ 0 then (l.decode, l)
  else if queuingTime < l.decode then (l.decode - queuingTime, encode (l.decode - queuingTime))
  else (0, zero)

theorem ofClock_lt_ofClock {s t : VanetzaIdf.Duration} : ofClock s < ofClock t ↔ s < t := by
  unfold ofClock
  rw [div_lt_div_iff_of_pos_right (by norm_num), Int.cast_lt]

theorem reduce_eq_reduceSeconds (l : Lifetime) (t : VanetzaIdf.Duration) :
    ofClock (l.reduce t).1 = (l.reduceSeconds (ofClock t)).1 ∧
      (l.reduce t).2 = (l.reduceSeconds (ofClock t)).2 := by
  have hzero : ofClock 0 = 0 := by norm_num [ofClock]
  have hnonpos : ofClock t ≤ 0 ↔ t ≤ 0 := by
    rw [← not_lt, ← hzero, ofClock_lt_ofClock, not_lt]
  have hlt : ofClock t < l.decode ↔ t < clockCast l.decode := by
    rw [← ofClock_lt_ofClock, ofClock_clockCast_decode]
  have hremain : ofClock (clockCast l.decode - t) = l.decode - ofClock t := by
    rw [ofClock_sub, ofClock_clockCast_decode]
  unfold reduce reduceSeconds
  simp only [hnonpos, hlt]
  split_ifs
  · exact ⟨ofClock_clockCast_decode l, rfl⟩
  · exact ⟨hremain, congrArg encode hremain⟩
  · exact ⟨hzero, rfl⟩

theorem encode_decode_le {l : Lifetime} {r : Units.Duration} (h0 : 0 ≤ r) (h : r < l.decode) :
    (encode r).decode ≤ l.decode ∧ |(encode r).decode - r| ≤ (encode r).base.unit / 2 := by
  obtain ⟨b, hb, heq, hbelow⟩ := encode_eq h0
  have hmax := l.decode_le
  have hdecode := decode_set_round h0 (hb.room (by linarith))
  have hbase : (encode r).base = b := by rw [heq]; rfl
  rw [hbase, heq, hdecode]
  refine ⟨?_, abs_round_mul_sub_le b.unit_pos r⟩
  rcases decode_multiple b l with ⟨m, hm⟩ | hsmall
  · rw [hm]
    exact round_mul_le b.unit_pos (hm ▸ h.le)
  · exact absurd (hsmall.trans hbelow) (not_le.mpr h)

/-- **Reducing a lifetime never extends it.** -/
theorem reduce_never_extends (l : Lifetime) (q : Units.Duration) :
    (l.reduceSeconds q).2.decode ≤ l.decode ∧
      (l.decode ≤ q → (l.reduceSeconds q).2.decode = 0) ∧
      (q ≤ 0 → (l.reduceSeconds q).2 = l) ∧
      (0 < q → q < l.decode →
        |(l.reduceSeconds q).2.decode - (l.decode - q)| ≤ (l.reduceSeconds q).2.base.unit / 2) ∧
      (0 < q → (l.reduceSeconds q).1 = max (l.decode - q) 0) ∧
      ∀ (p : PendingPacket) (t : VanetzaIdf.Duration), p.pdu.basic.lifetime = l → ofClock t = q →
        ofClock (p.reduceLifetime t).1 = (l.reduceSeconds q).1 ∧
          (p.reduceLifetime t).2.pdu.basic.lifetime = (l.reduceSeconds q).2 := by
  have hnonneg := l.decode_nonneg
  have hpacket : ∀ (p : PendingPacket) (t : VanetzaIdf.Duration), p.pdu.basic.lifetime = l → ofClock t = q →
      ofClock (p.reduceLifetime t).1 = (l.reduceSeconds q).1 ∧
        (p.reduceLifetime t).2.pdu.basic.lifetime = (l.reduceSeconds q).2 := by
    intro p t hl hq
    subst hl hq
    rw [p.reduceLifetime_eq]
    exact reduce_eq_reduceSeconds _ t
  have hzero : zero.decode = 0 := by simp [decode, zero]
  rcases le_or_gt q 0 with hq | hq
  · have heq : l.reduceSeconds q = (l.decode, l) := if_pos hq
    rw [heq] at hpacket ⊢
    exact ⟨le_rfl, fun h => le_antisymm (h.trans hq) hnonneg, fun _ => rfl, fun h => absurd hq (not_le.mpr h),
      fun h => absurd hq (not_le.mpr h), hpacket⟩
  · rcases lt_or_ge q l.decode with hlt | hge
    · have heq : l.reduceSeconds q = (l.decode - q, encode (l.decode - q)) := by
        rw [reduceSeconds, if_neg (not_le.mpr hq), if_pos hlt]
      rw [heq] at hpacket ⊢
      obtain ⟨hle, hhalf⟩ := encode_decode_le (l := l) (r := l.decode - q) (by linarith) (by linarith)
      exact ⟨hle, fun h => absurd h (not_le.mpr hlt), fun h => absurd h (not_le.mpr hq), fun _ _ => hhalf,
        fun _ => (max_eq_left (by linarith)).symm, hpacket⟩
    · have heq : l.reduceSeconds q = (0, zero) := by
        rw [reduceSeconds, if_neg (not_le.mpr hq), if_neg (not_lt.mpr hge)]
      rw [heq] at hpacket ⊢
      refine ⟨?_, fun _ => hzero, fun h => absurd h (not_le.mpr hq), fun _ h => absurd hge (not_le.mpr h),
        fun _ => (max_eq_right (by linarith)).symm, hpacket⟩
      rw [hzero]
      exact hnonneg

end VanetzaIdf.Geonet.Lifetime
