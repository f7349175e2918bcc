/-
# Expired issuers

The clock is held against the signing certificate only; its issuers are compared
by `check_time_consistency`, with 32-bit ends. No issuer of an accepted chain is
valid too late (`start_le_of_chain`), but the signing certificate may be valid
longer than an issuer: `issuers_unexpired_iff` says when that is not so, and
`issuer_expired` is a chain where it is.
-/
import VanetzaIdf.V3.Validity
import VanetzaIdf.V3.ChainValidator

namespace VanetzaIdf.V3

/-- The end of the validity period as `valid_at_timepoint` computes it. -/
def Certificate.expiry (c : Certificate) : ℤ := (c.startValidity : ℤ) * 1000000 + c.toBeSigned.validityPeriod.length

theorem Certificate.validAtTimepoint_iff {c : Certificate} {now : ℤ} :
    c.validAtTimepoint now = true ↔ (c.startValidity : ℤ) * 1000000 ≤ now ∧ now < c.expiry :=
  ValidityPeriod.validAtTimepoint_iff

namespace ChainValidator

variable {P : Platform} {v : ChainValidator P} {c : Certificate} {aid : ItsAid}

def atTime (v : ChainValidator P) (now : TimePoint) : ChainValidator P := { v with base := { v.base with now } }

/-- Of all that a verdict rests on only the validity of the signing
certificate depends on the time. -/
theorem verdict_atTime (h : v.verdict c aid = some .valid) (now : TimePoint) :
    (v.atTime now).verdict c aid = some .valid ↔ c.validAtTimepoint now = true := by
  obtain ⟨hb, digest, hd, hor⟩ := verdict_eq_valid.mp h
  obtain ⟨happ, -, hrest⟩ := CertificateValidator.validForSigning_eq_valid.mp hb
  rw [verdict_eq_valid, CertificateValidator.validForSigning_eq_valid]
  constructor
  · rintro ⟨⟨-, hv, -⟩, -⟩
    exact hv
  · intro hv
    exact ⟨⟨happ, hv, hrest⟩, digest, hd, hor⟩

theorem start_le_of_chain {l : List Certificate} (hl : v.base.issuers.Chain c l)
    (hc : l.IsChain fun subject issuer => checkConsistency aid subject issuer = true) :
    ∀ d ∈ l, d.startValidity ≤ c.startValidity := by
  obtain ⟨rest, rfl⟩ := hl.exists_cons
  refine hc.induction (fun d => d.startValidity ≤ c.startValidity) _ ?_ fun _ => le_rfl
  intro subject issuer hcc hle
  simp only [checkConsistency, checkTimeConsistency, Bool.and_eq_true, decide_eq_true_eq] at hcc
  exact hcc.1.1.1.trans hle

/-- **Expired issuers.** The chain of an accepted certificate is valid whenever
the certificate is accepted, exactly if none of its issuers ends earlier. -/
theorem issuers_unexpired_iff (v : ChainValidator P) (c : Certificate) (aid : ItsAid)
    (h : v.verdict c aid = some .valid) : ∃ chain, v.base.issuers.Chain c chain ∧
      ((∀ now, (v.atTime now).verdict c aid = some .valid → ∀ d ∈ chain, d.validAtTimepoint now = true) ↔
        ∀ d ∈ chain, c.expiry ≤ d.expiry) := by
  obtain ⟨hb, -⟩ := verdict_eq_valid.mp h
  obtain ⟨chain, hc, hcons⟩ := CertificateValidator.exists_chain hb
  have hstart := start_le_of_chain hc hcons
  have hnow : c.validAtTimepoint v.base.now = true := (CertificateValidator.validForSigning_eq_valid.mp hb).2.1
  rw [Certificate.validAtTimepoint_iff] at hnow
  refine ⟨chain, hc, ?_⟩
  constructor
  · -- accepted a microsecond before its end
    intro hall d hd
    have hlast : c.validAtTimepoint (c.expiry - 1) = true := Certificate.validAtTimepoint_iff.mpr (by omega)
    have hv := hall _ ((verdict_atTime h _).mpr hlast) d hd
    rw [Certificate.validAtTimepoint_iff] at hv
    omega
  · intro hend now hv d hd
    have hcv := Certificate.validAtTimepoint_iff.mp ((verdict_atTime h now).mp hv)
    have hs := hstart d hd
    have he := hend d hd
    exact Certificate.validAtTimepoint_iff.mpr (by omega)

end ChainValidator

/-- A ticket that its authority outlives. -/
theorem issuers_unexpired_hours :
    let v := sampleValidator (sampleRoot none) (sampleAuthority ⟨0, .years, 1⟩ none) (seconds 3600)
    let c := sampleTicket ⟨0, .hours, 2⟩ none
    v.verdict c Aid.CA = some .valid ∧ ∀ now, (v.atTime now).verdict c Aid.CA = some .valid →
      ∀ d ∈ [c, sampleAuthority ⟨0, .years, 1⟩ none, sampleRoot none], d.validAtTimepoint now = true := by
  intro v c
  have hvalid : v.verdict c Aid.CA = some .valid := by decide +kernel
  obtain ⟨chain, hc, hiff⟩ := ChainValidator.issuers_unexpired_iff v c Aid.CA hvalid
  obtain rfl := CombinedIssuerLookup.chain_unique hc (sampleValidator_chain _ _ _ _ _ _)
  exact ⟨hvalid, hiff.mpr (by decide)⟩

/-- A ticket for a year under an authority for 8760 hours, which has ended
while the ticket is still accepted. -/
theorem issuer_expired : ∃ (P : Platform) (v : ChainValidator P) (c : Certificate) (aid : ItsAid)
    (chain : List Certificate), v.verified = [] ∧ (v.validForSigning c aid).1 = some .valid ∧
      v.base.issuers.Chain c chain ∧ ∃ d ∈ chain, d.validAtTimepoint v.base.now = false :=
  ⟨markedPlatform,
    sampleValidator (sampleRoot none) (sampleAuthority ⟨0, .hours, 8760⟩ none) (seconds 31540000),
    sampleTicket ⟨0, .years, 1⟩ none, Aid.CA,
    [sampleTicket ⟨0, .years, 1⟩ none, sampleAuthority ⟨0, .hours, 8760⟩ none, sampleRoot none],
    rfl, by decide +kernel, sampleValidator_chain _ _ _ _ _ _, sampleAuthority ⟨0, .hours, 8760⟩ none, by
      simp, by decide⟩

end VanetzaIdf.V3
