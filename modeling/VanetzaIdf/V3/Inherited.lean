/-
# Inherited regions

A certificate without a region has the region of its issuer (`effectiveRegion`).
`region_within` passes if either has none, and the position is held against the
region of the signing certificate or of its direct issuer. So a region above a gap
is compared with nothing below it, and one from further up is not held against the
position: `regions_inherited_iff`, `regions_not_inherited`.
-/
import VanetzaIdf.V3.Verifier

namespace VanetzaIdf.V3

open Lib Consistency List Option

/-! ### Effective regions -/

/-- The effective region of the first certificate of a chain: its own, or the
effective one of its issuer. -/
def effectiveRegion : List Certificate → Option GeographicRegion
  | [] => none
  | c :: issuers => c.toBeSigned.region.or (effectiveRegion issuers)

/-- The places a region stands for, where it is an identified one; no region
is no restriction. -/
def places : Option GeographicRegion → Set Place
  | none => Set.univ
  | some (.identifiedRegion regions) => denotation regions
  | some _ => ∅

/-- No region of the chain is a shape. -/
def IdentifiedOnly (chain : List Certificate) : Prop :=
  ∀ c ∈ chain, ∀ region, c.toBeSigned.region = some region → ∃ regions, region = .identifiedRegion regions

/-- The effective region of the signing certificate is contained in the one of
every ancestor. -/
def Inherited (chain : List Certificate) : Prop :=
  ∀ below ancestors, chain = below ++ ancestors → places (effectiveRegion chain) ⊆ places (effectiveRegion ancestors)

/-- The position was held against the effective region, if there is one. -/
def PositionChecked {P : Platform} (v : CertificateValidator P) (c : Certificate) (chain : List Certificate) : Prop :=
  ∀ region, effectiveRegion chain = some region → ∃ d, v.issuers.checkedForLocation c = some d ∧
    d.toBeSigned.region = some region ∧ validAtLocation P v.locationPermissive d v.position = true

/-- A region above a certificate without region that is itself above one with
region contains the effective region. -/
def ContainedAboveGaps (chain : List Certificate) : Prop :=
  ∀ below gap above, chain = below ++ gap :: above → effectiveRegion below ≠ none → gap.toBeSigned.region = none →
    ∀ d ∈ above, ∀ region, d.toBeSigned.region = some region → places (effectiveRegion chain) ⊆ places (some region)

theorem effectiveRegion_append : ∀ l l' : List Certificate,
    effectiveRegion (l ++ l') = (effectiveRegion l).or (effectiveRegion l')
  | [], l' => rfl
  | c :: l, l' => by rw [cons_append, effectiveRegion, effectiveRegion, effectiveRegion_append l l', Option.or_assoc]

variable {c : Certificate} {region : GeographicRegion} {aid : ItsAid} {chain : List Certificate}

theorem effectiveRegion_of_some (h : c.toBeSigned.region = some region)
    (l : List Certificate) : effectiveRegion (c :: l) = some region := by
  rw [effectiveRegion, h, some_or]

theorem exists_first : ∀ {l : List Certificate}, effectiveRegion l = some region →
    ∃ p c q, l = p ++ c :: q ∧ c.toBeSigned.region = some region
  | [], h => by simp [effectiveRegion] at h
  | c :: l, h => by
    rcases or_eq_some_iff.mp h with h | ⟨-, h⟩
    · exact ⟨[], c, l, rfl, h⟩
    · obtain ⟨p, d, q, rfl, hd⟩ := exists_first h
      exact ⟨c :: p, d, q, rfl, hd⟩

/-! ### Containment -/

section Containment

variable {P : Platform} {permissive : Bool} {chain : List Certificate}

theorem places_subset_of_regionWithin (hid : IdentifiedOnly chain) {subject issuer : Certificate}
    (hs : subject ∈ chain) (hi : issuer ∈ chain) {r r' : GeographicRegion} (hr : subject.toBeSigned.region = some r)
    (hr' : issuer.toBeSigned.region = some r') (h : regionWithin P permissive subject issuer = true) :
    places (some r) ⊆ places (some r') := by
  obtain ⟨inner, rfl⟩ := hid subject hs r hr
  obtain ⟨outer, rfl⟩ := hid issuer hi r' hr'
  rw [regionWithin_identified hr hr'] at h
  exact denotation_subset h

/-- The effective region is contained in every region further up, by the
comparison of neighbours or, above a gap, by assumption. -/
theorem subset_of_below (hid : IdentifiedOnly chain)
    (hw : chain.IsChain fun subject issuer => regionWithin P permissive subject issuer = true)
    (hgap : ContainedAboveGaps chain) {region : GeographicRegion} (he : effectiveRegion chain = some region) :
    ∀ (below : List Certificate) {c : Certificate} {above : List Certificate} {r : GeographicRegion},
      chain = below ++ c :: above → c.toBeSigned.region = some r → effectiveRegion below ≠ none →
        places (some region) ⊆ places (some r) := by
  intro below
  induction below using List.reverseRecOn with
  | nil => exact fun _ _ hb => absurd rfl hb
  | append_singleton below d ih =>
    intro c above r hchain hr hb
    have hchain' : chain = below ++ d :: c :: above := by simpa using hchain
    have hmem : d ∈ chain ∧ c ∈ chain := by simp [hchain']
    cases hd : d.toBeSigned.region with
    | none =>
      have hb' : effectiveRegion below ≠ none := by
        simpa [effectiveRegion_append, effectiveRegion, hd] using hb
      rw [← he]
      exact hgap below d (c :: above) hchain' hb' hd c mem_cons_self r hr
    | some r' =>
      have hdc : regionWithin P permissive d c = true := by
        rw [hchain', isChain_append] at hw
        exact (isChain_cons_cons.mp hw.2.1).1
      have hup := places_subset_of_regionWithin hid hmem.1 hmem.2 hd hr hdc
      by_cases hb' : effectiveRegion below = none
      · -- nothing below: the effective region is this one
        have heq : effectiveRegion chain = some r' := by
          rw [hchain', effectiveRegion_append, hb', none_or, effectiveRegion_of_some hd]
        obtain rfl : region = r' := some.inj (he.symm.trans heq)
        exact hup
      · exact (ih hchain' hd hb').trans hup

theorem inherited_iff (hid : IdentifiedOnly chain)
    (hw : chain.IsChain fun subject issuer => regionWithin P permissive subject issuer = true) :
    Inherited chain ↔ ContainedAboveGaps chain := by
  constructor
  · intro h below gap above hchain _ _ d hd r hr
    obtain ⟨p, q, rfl⟩ := append_of_mem hd
    have hsub := h (below ++ gap :: p) (d :: q) (by simpa using hchain)
    rwa [effectiveRegion_of_some hr] at hsub
  · intro hgap below ancestors hchain
    cases ha : effectiveRegion ancestors with
    | none => exact Set.subset_univ _
    | some r =>
      obtain ⟨p, c, q, rfl, hr⟩ := exists_first ha
      have hchain' : chain = (below ++ p) ++ c :: q := by simpa using hchain
      cases he : effectiveRegion (below ++ p) with
      | none =>
        rw [hchain', effectiveRegion_append, he, none_or, effectiveRegion_of_some hr]
      | some r' =>
        have heq : effectiveRegion chain = some r' := by rw [hchain', effectiveRegion_append, he, some_or]
        rw [heq]
        exact subset_of_below hid hw hgap heq (below ++ p) hchain' hr (by simp [he])

end Containment

/-! ### The position -/

variable {P : Platform}

/-- The position is held against the effective region exactly if that is the
region of the signing certificate or of its direct issuer. -/
theorem positionChecked_iff {v : CertificateValidator P}
    (hv : v.validForSigning c aid = .valid) (hc : v.issuers.Chain c chain) :
    PositionChecked v c chain ↔ effectiveRegion (chain.take 2) = effectiveRegion chain := by
  obtain ⟨-, -, -, -, -, hloc⟩ := CertificateValidator.validForSigning_eq_valid.mp hv
  unfold PositionChecked
  cases hr : c.toBeSigned.region with
  | some r =>
    have hcheck : v.issuers.checkedForLocation c = some c := by
      simp [CombinedIssuerLookup.checkedForLocation, Certificate.hasRegionRestriction, hr]
    rw [hcheck, all_some] at hloc
    obtain ⟨rest, rfl⟩ := hc.exists_cons
    simp only [effectiveRegion_of_some hr, take_succ_cons, iff_true]
    intro region hregion
    exact ⟨c, hcheck, hr.trans hregion, hloc⟩
  | none =>
    have hcheck : v.issuers.checkedForLocation c = v.issuers.findIssuerCertificate c := by
      simp [CombinedIssuerLookup.checkedForLocation, Certificate.hasRegionRestriction, hr]
    rw [hcheck] at hloc ⊢
    cases hc with
    | here => simp [effectiveRegion, hr]
    | @up _ issuer l hs hi hl =>
      have hi' : v.issuers.findIssuerCertificate c = some issuer := hi
      obtain ⟨rest, rfl⟩ := hl.exists_cons
      rw [hi', all_some] at hloc
      simp only [effectiveRegion, hr, none_or, take_succ_cons, take_zero, or_none, hi',
        some.injEq, exists_eq_left', hloc, and_true]
      cases hri : issuer.toBeSigned.region with
      | some r => simp
      | none => cases effectiveRegion rest <;> simp

/-! ### Accepted chains -/

/-- The verdict is not taken from the cache, or a run among certificates with distinct digests has
brought the validator about. -/
def Sourced (v : ChainValidator P) (c : Certificate) : Prop :=
  (∀ d, c.calculateDigest P = some d → d ∉ v.verified) ∨
    ∃ (known : Certificate → Prop) (s₀ s : Verifier P), DistinctDigests P known ∧ s₀.chain.verified = [] ∧
      KnownIssuers known s₀.issuers ∧ Run Verifier.step (Familiar known) s₀ s ∧ known c ∧ s.chain = v

theorem regionWithin_of_valid {v : ChainValidator P} (hs : Sourced v c)
    (hv : v.verdict c aid = some .valid) (hc : v.base.issuers.Chain c chain) :
    chain.IsChain fun subject issuer => regionWithin P true subject issuer = true := by
  obtain ⟨-, digest, hd, hor⟩ := ChainValidator.verdict_eq_valid.mp hv
  rcases hor with hmem | hverify
  · rcases hs with hs | ⟨known, s₀, s, hk, h₀, hi, hr, hkc, rfl⟩
    · exact absurd hmem (hs digest hd)
    · exact ((Coherent.of_run hi h₀ hr).vetted hk hkc hc hd hmem).regions
  · obtain ⟨chain', hc', hvet⟩ := ChainValidator.verifyChain_eq_valid.mp hverify
    obtain rfl := CombinedIssuerLookup.chain_unique hc hc'
    exact (hvet.mono fun _ => rfl).regions

/-- **Inherited regions.** When the effective region of an accepted chain is contained in those of
all ancestors and was held against the position. -/
theorem regions_inherited_iff (v : ChainValidator P) (c : Certificate) (aid : ItsAid) (hs : Sourced v c)
    (hv : (v.validForSigning c aid).1 = some .valid) (chain : List Certificate) (hc : v.base.issuers.Chain c chain)
    (hid : IdentifiedOnly chain) :
    Inherited chain ∧ PositionChecked v.base c chain ↔
      ContainedAboveGaps chain ∧ effectiveRegion (chain.take 2) = effectiveRegion chain := by
  have hb := (ChainValidator.verdict_eq_valid.mp hv).1
  rw [inherited_iff hid (regionWithin_of_valid hs hv hc), positionChecked_iff hb hc]

/-! ### Sample chains -/

def sampleCountry (country : Option ℕ) : Option GeographicRegion :=
  country.map fun c => .identifiedRegion [.countryOnly c]

def countryValidator (root authority : Option ℕ) : ChainValidator markedPlatform :=
  sampleValidator (sampleRoot (sampleCountry root)) (sampleAuthority ⟨0, .years, 1⟩ (sampleCountry authority))
    (seconds 3600)

def countryTicket (country : Option ℕ) : Certificate := sampleTicket ⟨0, .hours, 2⟩ (sampleCountry country)

variable (root authority ticket : Option ℕ)

def countryChain : List Certificate :=
  [countryTicket ticket, sampleAuthority ⟨0, .years, 1⟩ (sampleCountry authority), sampleRoot (sampleCountry root)]

theorem countryValidator_chain :
    (countryValidator root authority).base.issuers.Chain (countryTicket ticket) (countryChain root authority ticket) :=
  sampleValidator_chain _ _ _ _ _ _

theorem countryChain_identifiedOnly :
    IdentifiedOnly (countryChain root authority ticket) := by
  have h : ∀ country {r}, sampleCountry country = some r → ∃ regions, r = .identifiedRegion regions := by
    intro country r hr
    obtain ⟨c, -, rfl⟩ := map_eq_some_iff.mp hr
    exact ⟨_, rfl⟩
  intro c hc r hr
  simp only [countryChain, mem_cons, not_mem_nil, or_false] at hc
  rcases hc with rfl | rfl | rfl
  · exact h ticket hr
  · exact h authority hr
  · exact h root hr

theorem regions_inherited_country : Inherited (countryChain none (some 276) none) ∧
    PositionChecked (countryValidator none (some 276)).base (countryTicket none)
      (countryChain none (some 276) none) := by
  refine (regions_inherited_iff (countryValidator none (some 276)) _ Aid.CA (.inl fun _ _ => not_mem_nil)
    (by decide +kernel) _ (countryValidator_chain _ _ _) (countryChain_identifiedOnly _ _ _)).mpr ⟨?_, rfl⟩
  intro below gap above hchain hbelow hgap d hd r hr
  -- the only gap with a region below is the root, and nothing is above it
  match below, hchain with
  | [], _ => exact absurd rfl hbelow
  | [_], hchain =>
    obtain ⟨-, rfl, -⟩ : _ ∧ _ = gap ∧ _ = above := by simpa [countryChain] using hchain
    exact nomatch hgap
  | [_, _], hchain =>
    obtain ⟨-, -, -, rfl⟩ : _ ∧ _ ∧ _ = gap ∧ above = [] := by simpa [countryChain] using hchain
    exact absurd hd not_mem_nil
  | _ :: _ :: _ :: below, hchain => simp [countryChain] at hchain

/-- A ticket and a root for different countries with an authority without region between them; and
a position that is not held against the region of the root. -/
theorem regions_not_inherited :
    (∃ (P : Platform) (v : ChainValidator P) (c : Certificate) (aid : ItsAid) (chain : List Certificate),
      v.verified = [] ∧ (v.validForSigning c aid).1 = some .valid ∧ v.base.issuers.Chain c chain ∧
        IdentifiedOnly chain ∧ ¬ Inherited chain) ∧
    ∃ (P : Platform) (v : ChainValidator P) (c : Certificate) (aid : ItsAid) (chain : List Certificate),
      v.verified = [] ∧ (v.validForSigning c aid).1 = some .valid ∧ v.base.issuers.Chain c chain ∧
        IdentifiedOnly chain ∧ ¬ PositionChecked v.base c chain := by
  constructor
  · refine ⟨markedPlatform, countryValidator (some 250) none, countryTicket (some 276), Aid.CA, _, rfl,
      by decide +kernel, countryValidator_chain _ _ _, countryChain_identifiedOnly _ _ _, fun h => ?_⟩
    have hplace : ((276, 0, 0) : Place) ∈ places (effectiveRegion (countryChain (some 250) none (some 276))) :=
      ⟨.countryOnly 276, by simp, rfl⟩
    obtain ⟨entry, he, hcov⟩ := h [_, _] [_] rfl hplace
    obtain rfl := mem_singleton.mp he
    simp [Covers] at hcov
  · refine ⟨markedPlatform, countryValidator (some 250) none, countryTicket none, Aid.CA, _, rfl,
      by decide +kernel, countryValidator_chain _ _ _, countryChain_identifiedOnly _ _ _, fun h => ?_⟩
    obtain ⟨d, hd, hr, -⟩ := h _ rfl
    obtain rfl : sampleAuthority ⟨0, .years, 1⟩ none = d := some.inj hd
    exact absurd hr (by decide)

end VanetzaIdf.V3
