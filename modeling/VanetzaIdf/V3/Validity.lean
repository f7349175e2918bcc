/-
# Two readings of a validity period

`valid_at_timepoint` adds the duration on a 64-bit clock, with 31556952 s to a
year; `get_start_and_end_validity` adds seconds in 32 bits, with 365 days to a
year. For periods of whole seconds they agree exactly if the period is empty, or
does not count years and ends before 2^32 s (`agree_iff`); `kept_iff` says when
`prune` keeps a ticket as long as it is valid (`validity_readings`).
-/
import VanetzaIdf.V3.Types

namespace VanetzaIdf
namespace ValidityPeriod

/-! ### Lengths -/

theorem length_nonneg (v : ValidityPeriod) : (0 : ℤ) ≤ v.length := by
  unfold length seconds Duration
  cases v.unit <;> simp only <;> omega

theorem length_lt (v : ValidityPeriod) : v.length < (2 ^ 62 : ℤ) := by
  have hv := v.value.toNat_lt
  unfold length seconds Duration
  cases v.unit <;> simp only <;> omega

variable {v : ValidityPeriod}

theorem length_pos : (0 : ℤ) < v.length ↔ ¬ (v.unit = .nothing ∨ v.value = 0) := by
  have hv : v.value = 0 ↔ v.value.toNat = 0 := UInt16.toNat_inj.symm
  unfold length seconds Duration
  rw [hv]
  cases v.unit <;> simp only [reduceCtorEq, false_or, true_or, not_true_eq_false, iff_false] <;> omega

theorem wholeSeconds_eq (h : v.unit ≠ .years) : (v.wholeSeconds : ℤ) = v.length / 1000000 := by
  unfold length wholeSeconds seconds Duration
  cases hu : v.unit <;> simp only
  case years => exact absurd hu h
  all_goals omega

theorem length_years (h : v.unit = .years) : 31556952 * (v.value.toNat : ℤ) * 1000000 = v.length := by
  rw [length, h]
  rfl

theorem wholeSeconds_years (h : v.unit = .years) : v.wholeSeconds = 31536000 * v.value.toNat := by
  simp only [wholeSeconds, h]
  omega

theorem wholeSeconds_of_empty (h : v.unit = .nothing ∨ v.value = 0) : v.wholeSeconds = 0 := by
  unfold wholeSeconds
  rcases h with h | h
  · simp [h]
  · cases v.unit <;> simp [h]

theorem validAtTimepoint_iff {tp : ℤ} : v.validAtTimepoint tp = true ↔
    (v.start.toNat : ℤ) * 1000000 ≤ tp ∧ tp < (v.start.toNat : ℤ) * 1000000 + v.length := by
  rw [validAtTimepoint, decide_eq_true_iff]
  rfl

theorem endValidity_lt (v : ValidityPeriod) : v.endValidity < 2 ^ 32 := Nat.mod_lt _ (by norm_num)

/-! ### When the readings agree -/

/-- The period is empty, or it does not count years and its end fits in 32
bits. -/
def ReadAlike (v : ValidityPeriod) : Prop :=
  (v.unit = .nothing ∨ v.value = 0) ∨ v.unit ≠ .years ∧ v.start.toNat + v.wholeSeconds < 2 ^ 32

theorem interval_eq_iff {s a b : ℤ} (h : s < a) : (∀ t, s ≤ t ∧ t < a ↔ s ≤ t ∧ t < b) ↔ a = b := by
  constructor
  · intro hab
    have h1 := (hab (a - 1)).mp (by omega)
    have h2 := (hab a).not.mp (by omega)
    omega
  · rintro rfl t
    rfl

theorem agree_iff (hw : (1000000 : ℤ) ∣ v.length) :
    (∀ t : ℤ, v.validAtTimepoint (seconds t) = true ↔ (v.start.toNat : ℤ) ≤ t ∧ t < v.endValidity) ↔ v.ReadAlike := by
  have hs : v.start.toNat < 2 ^ 32 := v.start.toNat_lt
  have hsec : ∀ t : ℤ, v.validAtTimepoint (seconds t) = true ↔
      (v.start.toNat : ℤ) ≤ t ∧ t < v.start.toNat + v.length / 1000000 := by
    intro t
    rw [seconds, validAtTimepoint_iff]
    omega
  simp only [hsec, ReadAlike]
  by_cases h0 : v.unit = .nothing ∨ v.value = 0
  · have hl : ¬ (0 : ℤ) < v.length := fun hl => length_pos.mp hl h0
    have hnn := v.length_nonneg
    simp only [h0, true_or, iff_true, endValidity, wholeSeconds_of_empty h0]
    intro t
    omega
  · have hl : (0 : ℤ) < v.length := length_pos.mpr h0
    rw [interval_eq_iff (by omega)]
    simp only [h0, false_or, endValidity]
    by_cases hy : v.unit = .years
    · -- the 32-bit end is short by a quarter of a day and some for each year
      have hly := length_years hy
      simp only [hy, ne_eq, not_true_eq_false, false_and, iff_false, wholeSeconds_years hy]
      intro he
      have hval := v.value.toNat_lt
      omega
    · have hb := wholeSeconds_eq hy
      simp only [ne_eq, hy, not_false_eq_true, true_and]
      omega

/-! ### What prune drops -/

/-- As `ReadAlike`, or the 32-bit end is the largest there is. -/
def KeptWhileValid (v : ValidityPeriod) : Prop :=
  v.ReadAlike ∨ (v.start.toNat + v.wholeSeconds) % 2 ^ 32 = 2 ^ 32 - 1

theorem convertTime32_of_nonneg (tp : ℤ) (h : 0 ≤ tp) : (convertTime32 tp : ℤ) = tp / 1000000 % 2 ^ 32 := by
  rw [convertTime32, Int.tdiv_eq_ediv_of_nonneg h, Int.toNat_of_nonneg (Int.emod_nonneg _ (by norm_num))]

theorem kept_iff :
    (∀ now : ℤ, v.validAtTimepoint now = true → convertTime32 now ≤ v.endValidity) ↔ v.KeptWhileValid := by
  have hs : v.start.toNat < 2 ^ 32 := v.start.toNat_lt
  have hlt := v.endValidity_lt
  constructor
  · intro h
    by_cases h0 : v.unit = .nothing ∨ v.value = 0
    · exact .inl (.inl h0)
    have hpos : (0 : ℤ) < v.length := length_pos.mpr h0
    by_cases hlong : (2 ^ 32 - 1) * 1000000 < (v.start.toNat : ℤ) * 1000000 + v.length
    · -- valid in the last second that 32 bits count
      have hlast := h ((2 ^ 32 - 1) * 1000000) (validAtTimepoint_iff.mpr (by omega))
      have hc := convertTime32_of_nonneg ((2 ^ 32 - 1) * 1000000) (by norm_num)
      rw [endValidity] at hlast hlt
      exact .inr (by omega)
    · -- valid just before the end, which fits in 32 bits
      have hlast := h (v.start.toNat * 1000000 + v.length - 1) (validAtTimepoint_iff.mpr (by omega))
      have hc := convertTime32_of_nonneg (v.start.toNat * 1000000 + v.length - 1) (by omega)
      by_cases hy : v.unit = .years
      · have hly := length_years hy
        have hfit : v.start.toNat + 31536000 * v.value.toNat < 2 ^ 32 := by omega
        rw [endValidity, wholeSeconds_years hy, Nat.mod_eq_of_lt hfit] at hlast
        omega
      · have hb := wholeSeconds_eq hy
        exact .inl (.inr ⟨hy, by omega⟩)
  · intro h now hv
    rw [validAtTimepoint_iff] at hv
    have hc := convertTime32_of_nonneg now (by omega)
    rw [endValidity]
    rcases h with (h0 | ⟨hy, hfit⟩) | hmax
    · have hl : ¬ (0 : ℤ) < v.length := fun hl => length_pos.mp hl h0
      omega
    · have hb := wholeSeconds_eq hy
      omega
    · omega

end ValidityPeriod

namespace CertificatePool

theorem kept_of_mem_pruneFrom {time32 i cur : ℕ} {ts : List Ticket} {t : Ticket}
    (ht : t ∈ (pruneFrom time32 i cur ts).1) :
    (i ≤ cur ∧ ts[cur - i]? = some t) ∨ time32 ≤ t.certificate.validity.endValidity := by
  fun_induction pruneFrom with
  | case1 => exact absurd ht List.not_mem_nil
  | case2 i cur u ts hd r ih =>
    rcases ih ht with ⟨hle, hget⟩ | he
    · split_ifs at hle hget with hlt
      · refine .inl ⟨by omega, ?_⟩
        rw [show cur - i = cur - 1 - i + 1 by omega, List.getElem?_cons_succ]
        exact hget
      · exact absurd hd.1 (by omega)
    · exact .inr he
  | case3 i cur u ts hd r ih =>
    rcases List.mem_cons.mp ht with rfl | ht
    · by_cases hi : i = cur
      · exact .inl ⟨by omega, by simp [hi]⟩
      · exact .inr (by by_contra hlt; exact hd ⟨hi, by omega⟩)
    · rcases ih ht with ⟨hle, hget⟩ | he
      · refine .inl ⟨by omega, ?_⟩
        rw [show cur - i = cur - (i + 1) + 1 by omega, List.getElem?_cons_succ]
        exact hget
      · exact .inr he

theorem mem_prune_iff {p : CertificatePool} (hw : p.Wf) {now : TimePoint} {t : Ticket} (ht : t ∈ p.tickets) :
    t ∈ (p.prune now).2.tickets ↔ p.current = some t ∨ convertTime32 now ≤ t.certificate.validity.endValidity := by
  constructor
  · intro hm
    rcases kept_of_mem_pruneFrom hm with ⟨-, hget⟩ | he
    · exact .inl (by simpa [current] using hget)
    · exact .inr he
  · rintro (hc | he)
    · rw [← current_prune hw now] at hc
      exact List.mem_of_getElem? hc
    · exact mem_prune ht he

end CertificatePool

/-- **Two readings of a validity period:** when they agree at every second, and when `prune` never
drops a ticket that is still valid. -/
theorem validity_readings (v : ValidityPeriod) (hv : (1000000 : ℤ) ∣ v.length) (p : CertificatePool) (hp : p.Wf) :
    ((∀ t : ℤ, v.validAtTimepoint (seconds t) = true ↔ (v.start.toNat : ℤ) ≤ t ∧ t < v.endValidity) ↔ v.ReadAlike) ∧
    ((∀ now, ∀ t ∈ p.tickets, t.certificate.validity.validAtTimepoint now = true → t ∈ (p.prune now).2.tickets) ↔
      ∀ t ∈ p.tickets, p.current ≠ some t → t.certificate.validity.KeptWhileValid) := by
  refine ⟨ValidityPeriod.agree_iff hv, ?_⟩
  constructor
  · intro h t ht hc
    refine ValidityPeriod.kept_iff.mp fun now hv => ?_
    exact ((CertificatePool.mem_prune_iff hp ht).mp (h now t ht hv)).resolve_left hc
  · intro h now t ht hv
    rw [CertificatePool.mem_prune_iff hp ht]
    by_cases hc : p.current = some t
    · exact .inl hc
    · exact .inr (ValidityPeriod.kept_iff.mpr (h t ht hc) now hv)

theorem validity_readings_hours :
    (∀ t : ℤ, (ValidityPeriod.mk 0 .hours 1).validAtTimepoint (seconds t) = true ↔
      ((ValidityPeriod.mk 0 .hours 1).start.toNat : ℤ) ≤ t ∧ t < (ValidityPeriod.mk 0 .hours 1).endValidity) ∧
    ∀ now, ∀ t ∈ (samplePool .hours).tickets, t.certificate.validity.validAtTimepoint now = true →
      t ∈ ((samplePool .hours).prune now).2.tickets := by
  obtain ⟨hread, hkept⟩ := validity_readings ⟨0, .hours, 1⟩ (by decide) (samplePool .hours) (samplePool_wf _)
  refine ⟨hread.mpr (.inr ⟨by decide, by decide⟩), hkept.mpr ?_⟩
  intro t ht hc
  have hts : (samplePool .hours).tickets = [⟨sampleCertificate 1 .years, sampleKey, Vector.replicate 8 1⟩,
      ⟨sampleCertificate 2 .hours, sampleKey, Vector.replicate 8 2⟩] := by decide
  rw [hts, List.mem_pair] at ht
  rcases ht with rfl | rfl
  · exact absurd (by decide) hc
  · exact .inl (.inr ⟨by decide, by decide⟩)

/-- A year is 31556952 s to the one reading and 365 days to the other: `prune` drops a ticket that
`valid_at_timepoint` accepts. -/
theorem validity_readings_differ :
    (∃ (v : ValidityPeriod) (t : ℤ), (1000000 : ℤ) ∣ v.length ∧ v.validAtTimepoint (seconds t) = true ∧
      ¬ t < v.endValidity) ∧
    ∃ (p : CertificatePool) (now : TimePoint), p.Wf ∧ ∃ t ∈ p.tickets,
      t.certificate.validity.validAtTimepoint now = true ∧ t ∉ (p.prune now).2.tickets :=
  ⟨⟨⟨0, .years, 1⟩, 31540000, by decide, by decide, by decide⟩,
    ⟨samplePool .years, seconds 31540000, samplePool_wf _,
      ⟨sampleCertificate 2 .years, sampleKey, Vector.replicate 8 2⟩, by decide, by decide, by decide⟩⟩

end VanetzaIdf
