/-
# Region consistency of a chain

The regions of `consistency` in `ports/esp_idf/src/security.cpp`. A list of
identified regions denotes triples (country, region, subregion). Each entry of
the inner list needs one entry of the outer list around it, which is sound for
the denotation and transitive (`identifiedWithin_sound_trans`).
-/
import VanetzaIdf.V3.Certificate
import Mathlib.Data.Set.Basic

namespace VanetzaIdf.Consistency

open V3 List

/-! ### Identified regions -/

/-- `contains_all`, for octets and for 16-bit numbers. -/
def containsAll (outer inner : List ℕ) : Bool := inner.all fun x => outer.any (x == ·)

/-- `region_in_entry`: a region, or its given subregions, inside one entry. -/
def regionInEntry (country region : ℕ) (subregions : Option (List ℕ)) : IdentifiedRegion → Bool
  | .countryOnly c => c == country
  | .countryAndRegions c regions => c == country && regions.any (· == region)
  | .countryAndSubregions c entries =>
    c == country && subregions.any fun subs =>
      (entries.find? (·.region == region)).any fun entry => containsAll entry.subregions subs
  | .nothing => false

/-- `covered` of `identified_within`: an entry inside one entry of the other
list. -/
def entryWithin (entry candidate : IdentifiedRegion) : Bool :=
  match entry with
  | .countryOnly country => candidate == .countryOnly country
  | .countryAndRegions country regions =>
    !regions.isEmpty && regions.all (regionInEntry country · none candidate)
  | .countryAndSubregions country entries =>
    !entries.isEmpty && entries.all fun e => regionInEntry country e.region (some e.subregions) candidate
  | .nothing => false

def identifiedWithin (inner outer : List IdentifiedRegion) : Bool :=
  inner.all fun entry => outer.any (entryWithin entry)

/-! ### What regions denote -/

/-- Country, region and subregion. -/
abbrev Place := ℕ × ℕ × ℕ

/-- The places an identified region stands for. -/
def Covers : IdentifiedRegion → Place → Prop
  | .countryOnly c, (country, _, _) => c = country
  | .countryAndRegions c regions, (country, region, _) => c = country ∧ region ∈ regions
  | .countryAndSubregions c entries, (country, region, subregion) =>
    c = country ∧ ∃ e ∈ entries, e.region = region ∧ subregion ∈ e.subregions
  | .nothing, _ => False

def denotation (regions : List IdentifiedRegion) : Set Place := {p | ∃ entry ∈ regions, Covers entry p}

theorem containsAll_iff {outer inner : List ℕ} : containsAll outer inner = true ↔ ∀ x ∈ inner, x ∈ outer := by
  simp [containsAll]

/-- A region of a country, or the given subregions of it. -/
def InRegion (country region : ℕ) (subregions : Option (List ℕ)) : Place → Prop
  | (c, r, s) => country = c ∧ region = r ∧ ∀ subs, subregions = some subs → s ∈ subs

variable {country region : ℕ} {subregions : Option (List ℕ)} {p : Place} {outer inner : List IdentifiedRegion}
  {P : Platform} {subject issuer : V3.Certificate}

theorem covers_of_regionInEntry {entry : IdentifiedRegion} (h : regionInEntry country region subregions entry = true)
    (hp : InRegion country region subregions p) : Covers entry p := by
  obtain ⟨c, r, s⟩ := p
  obtain ⟨rfl, rfl, hs⟩ := hp
  cases entry with
  | nothing => simp [regionInEntry] at h
  | countryOnly | countryAndRegions => simpa [regionInEntry, Covers] using h
  | countryAndSubregions c entries =>
    simp only [regionInEntry, Bool.and_eq_true, beq_iff_eq, Option.any_eq_true] at h
    obtain ⟨rfl, subs, rfl, e, he, hall⟩ := h
    refine ⟨rfl, e, mem_of_find?_eq_some he, by simpa using List.find?_some he, ?_⟩
    exact containsAll_iff.mp hall s (hs subs rfl)

theorem covers_of_entryWithin {entry candidate : IdentifiedRegion} (h : entryWithin entry candidate = true)
    (hp : Covers entry p) : Covers candidate p := by
  obtain ⟨c, r, s⟩ := p
  cases entry with
  | nothing => exact hp.elim
  | countryOnly country =>
    obtain rfl : candidate = .countryOnly country := by simpa [entryWithin] using h
    exact hp
  | countryAndRegions country regions =>
    obtain ⟨rfl, hr⟩ := hp
    simp only [entryWithin, Bool.and_eq_true, all_eq_true] at h
    exact covers_of_regionInEntry (h.2 r hr) ⟨rfl, rfl, by simp⟩
  | countryAndSubregions country entries =>
    obtain ⟨rfl, e, he, rfl, hs⟩ := hp
    simp only [entryWithin, Bool.and_eq_true, all_eq_true] at h
    exact covers_of_regionInEntry (h.2 e he) ⟨rfl, rfl, by simpa using hs⟩

theorem denotation_subset (h : identifiedWithin inner outer = true) : denotation inner ⊆ denotation outer := by
  rintro p ⟨entry, he, hp⟩
  obtain ⟨candidate, hc, hw⟩ := any_eq_true.mp (all_eq_true.mp h entry he)
  exact ⟨candidate, hc, covers_of_entryWithin hw hp⟩

/-! ### Transitivity -/

theorem regionInEntry_trans {b c : IdentifiedRegion}
    (hab : regionInEntry country region subregions b = true) (hbc : entryWithin b c = true) :
    regionInEntry country region subregions c = true := by
  cases b with
  | nothing => simp [regionInEntry] at hab
  | countryOnly k =>
    obtain rfl : c = .countryOnly k := by simpa [entryWithin] using hbc
    exact hab
  | countryAndRegions k regions =>
    -- the region is listed in `b`, so it is one of those compared with `c`; there it counts as a whole
    simp only [regionInEntry, Bool.and_eq_true, beq_iff_eq, any_eq_true] at hab
    obtain ⟨rfl, r, hr, rfl⟩ := hab
    simp only [entryWithin, Bool.and_eq_true, all_eq_true] at hbc
    have hwhole := hbc.2 r hr
    cases c with
    | nothing | countryAndSubregions => simp [regionInEntry] at hwhole
    | countryOnly | countryAndRegions => exact hwhole
  | countryAndSubregions k entries =>
    -- the first list of the region in `b` is compared with the first one in `c`
    simp only [regionInEntry, Bool.and_eq_true, beq_iff_eq, Option.any_eq_true] at hab
    obtain ⟨rfl, subs, rfl, e, he, hall⟩ := hab
    simp only [entryWithin, Bool.and_eq_true, all_eq_true] at hbc
    have hfirst := hbc.2 e (mem_of_find?_eq_some he)
    have hregion : e.region = region := by simpa using List.find?_some he
    rw [hregion] at hfirst
    cases c with
    | nothing => simp [regionInEntry] at hfirst
    | countryOnly | countryAndRegions => exact hfirst
    | countryAndSubregions c es =>
      simp only [regionInEntry, Bool.and_eq_true, beq_iff_eq, Option.any_eq_true] at hfirst ⊢
      obtain ⟨rfl, subs', hsubs', e', he', hall'⟩ := hfirst
      obtain rfl := Option.some.inj hsubs'
      refine ⟨rfl, subs, rfl, e', he', containsAll_iff.mpr fun x hx => ?_⟩
      exact containsAll_iff.mp hall' x (containsAll_iff.mp hall x hx)

theorem entryWithin_trans {a b c : IdentifiedRegion} (hab : entryWithin a b = true) (hbc : entryWithin b c = true) :
    entryWithin a c = true := by
  cases a with
  | nothing => simp [entryWithin] at hab
  | countryOnly k =>
    obtain rfl : b = .countryOnly k := by simpa [entryWithin] using hab
    exact hbc
  | countryAndRegions k regions =>
    simp only [entryWithin, Bool.and_eq_true, all_eq_true] at hab ⊢
    exact ⟨hab.1, fun r hr => regionInEntry_trans (hab.2 r hr) hbc⟩
  | countryAndSubregions k entries =>
    simp only [entryWithin, Bool.and_eq_true, all_eq_true] at hab ⊢
    exact ⟨hab.1, fun e he => regionInEntry_trans (hab.2 e he) hbc⟩

/-- **Containment of identified regions** is sound for what they denote, and
transitive. -/
theorem identifiedWithin_sound_trans :
    (∀ inner outer, identifiedWithin inner outer = true → denotation inner ⊆ denotation outer) ∧
      ∀ a b c, identifiedWithin a b = true → identifiedWithin b c = true → identifiedWithin a c = true := by
  refine ⟨fun inner outer => denotation_subset, fun a b c hab hbc => ?_⟩
  apply all_eq_true.mpr
  intro entry he
  obtain ⟨entry', he', hw⟩ := any_eq_true.mp (all_eq_true.mp hab entry he)
  obtain ⟨entry'', he'', hw'⟩ := any_eq_true.mp (all_eq_true.mp hbc entry' he')
  exact any_eq_true.mpr ⟨entry'', he'', entryWithin_trans hw hw'⟩

theorem identifiedWithin_subregions :
    denotation [.countryAndSubregions 250 [⟨11, [1, 2]⟩]] ⊆ denotation [.countryAndRegions 250 [10, 11]] ∧
      identifiedWithin [.countryAndSubregions 250 [⟨11, [1, 2]⟩]] [.countryOnly 250] = true :=
  ⟨identifiedWithin_sound_trans.1 _ _ (by decide),
    identifiedWithin_sound_trans.2 _ [.countryAndRegions 250 [10, 11]] _ (by decide) (by decide)⟩

/-! ### A certificate and its issuer -/

/-- `is_within` of `certificate.cpp`; it knows no identified regions. -/
def geometryWithin (P : Platform) (inner outer : GeographicRegion) : Bool :=
  match outer with
  | .circularRegion circle =>
    match inner with
    | .circularRegion c => P.circleWithin c circle
    | _ => false
  | .rectangularRegion rectangles => inner == .rectangularRegion rectangles
  | .nothing => true
  | .polygonalRegion _ | .identifiedRegion _ => false

def regionWithin (P : Platform) (permissive : Bool) (subject issuer : V3.Certificate) : Bool :=
  match issuer.toBeSigned.region, subject.toBeSigned.region with
  | none, _ => true
  -- omitted: the same region as the issuer
  | some _, none => true
  | some (.identifiedRegion outer), some inner =>
    match inner with
    | .identifiedRegion regions => identifiedWithin regions outer
    -- no border database: policy
    | .circularRegion _ | .rectangularRegion _ | .polygonalRegion _ => permissive
    | .nothing => false
  | some outer, some inner => geometryWithin P inner outer

theorem regionWithin_mono {permissive permissive' : Bool}
    (hp : permissive = true → permissive' = true) (h : regionWithin P permissive subject issuer = true) :
    regionWithin P permissive' subject issuer = true := by
  unfold regionWithin at h ⊢
  split at h
  · rfl
  · rfl
  · split at h <;> first | exact h | exact hp h
  · exact h

theorem regionWithin_identified {permissive : Bool} (hs : subject.toBeSigned.region = some (.identifiedRegion inner))
    (hi : issuer.toBeSigned.region = some (.identifiedRegion outer)) :
    regionWithin P permissive subject issuer = identifiedWithin inner outer := by
  simp only [regionWithin, hs, hi]

end VanetzaIdf.Consistency
