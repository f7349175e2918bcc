/-
# Permission consistency of a chain

The permissions of `consistency` in `ports/esp_idf/src/security.cpp`: `covers`,
`nests`, and both along a chain (`chainConsistent`).

`admits` is `covers` without chain length and end-entity type. What a
subordinate's groups admit its issuer's admit as well, but for two cases
(`nests_sound`, `nests_unsound`): a group "all" is compared with a group "all"
only, and a bitmap range may be longer than the one it nests in.
-/
import VanetzaIdf.V3.Certificate

namespace VanetzaIdf.Consistency

open V3 List

/-! ### Groups -/

variable (group : PsidGroupPermissions)

/-- `ee_type_app`: absent and empty stand for the default, app; else bit 0. -/
def eeTypeApp : Bool :=
  match group.eeType with
  | none | some [] => true
  | some (octet :: _) => octet &&& 0x80 != 0

def chainLengthPermits (depth : ℕ) : Bool :=
  let min := group.minChainLength.getD 1
  let range := group.chainLengthRange
  if min < 1 ∨ (depth : ℤ) < min then false else decide (range < 0 ∨ (depth : ℤ) ≤ min + range)

/-- `find_range`: the first range of an explicit group for this PSID. -/
def findRange (psid : ℕ) : Option PsidSspRange :=
  match group.subjectPermissions with
  | .explicit ranges => ranges.find? (·.psid == psid)
  | _ => none

variable (groups : List PsidGroupPermissions)

def listedExplicitly (psid : ℕ) : Bool :=
  groups.any fun group => (findRange group psid).isSome

/-- `ssp_within`: an SSP of the end entity inside a range. -/
def sspWithin (ssp : Option Ssp) (range : Option SspRange) : Bool :=
  match range with
  | none | some .all => true
  | some (.opaqueRange entries) =>
    entries.any fun entry =>
      match ssp with
      | none => entry.isEmpty
      | some (.opaqueSsp octets) => entry == octets
      | some _ => false
  | some (.bitmapSspRange value mask) =>
    match ssp with
    | some (.bitmapSsp bits) =>
      if value.length ≠ mask.length ∨ mask.length < bits.length then false
      else (List.range mask.length).all fun i =>
        if bits.length ≤ i then mask.getD i 0 == 0
        else bits.getD i 0 &&& mask.getD i 0 == value.getD i 0 &&& mask.getD i 0
    | _ => false
  | some .nothing => false

/-- What `covers` and `nests` ask of one group: "all" counts for a PSID listed nowhere, else its
range passes the test. -/
def groupPermits (group : PsidGroupPermissions) (psid : ℕ)
    (test : Option SspRange → Bool) : Bool :=
  match group.subjectPermissions with
  | .all => !listedExplicitly groups psid
  | _ => (findRange group psid).any fun range => test range.sspRange

def covers (entry : PsidSsp) (depth : ℕ) : Bool :=
  groups.any fun group => eeTypeApp group && chainLengthPermits group depth &&
    groupPermits groups group entry.psid (sspWithin entry.ssp)

/-- `covers`, chain length and end-entity type left aside. -/
def admits (entry : PsidSsp) : Bool :=
  groups.any fun group => groupPermits groups group entry.psid (sspWithin entry.ssp)

/-! ### Nesting -/

/-- `range_within`: a subordinate's range inside the one of its issuer. -/
def rangeWithin (sub issuer : Option SspRange) : Bool :=
  match issuer with
  | none | some .all => true
  | some (.opaqueRange issuers) =>
    match sub with
    | some (.opaqueRange subs) => subs.all fun entry => issuers.any (entry == ·)
    | _ => false
  | some (.bitmapSspRange rValue rMask) =>
    match sub with
    | some (.bitmapSspRange pValue pMask) =>
      if rValue.length ≠ rMask.length ∨ pValue.length ≠ pMask.length then false
      else (List.range rMask.length).all fun i =>
        let fixed := rMask.getD i 0
        if fixed = 0 then true
        else decide (i < pMask.length) && pMask.getD i 0 &&& fixed == fixed &&
          pValue.getD i 0 &&& fixed == rValue.getD i 0 &&& fixed
    | _ => false
  | some .nothing => false

variable (sub issuer : List PsidGroupPermissions)

def nests : Bool :=
  sub.all fun group =>
    match group.subjectPermissions with
    | .all => issuer.any (·.subjectPermissions == .all)
    | .explicit ranges => ranges.all fun range =>
        issuer.any fun candidate => groupPermits issuer candidate range.psid (rangeWithin range.sspRange)
    | .nothing => false

/-! ### Along a chain -/

/-- The authorities from the given depth on cover every entry. -/
def coversFrom (app : List PsidSsp) : ℕ → List V3.Certificate → Bool
  | _, [] => true
  | depth, ca :: rest =>
    ca.toBeSigned.certIssuePermissions.any (fun issuing => app.all (covers issuing · depth)) &&
      coversFrom app (depth + 1) rest

/-- Each authority nests inside the next. -/
def nestsUp : List V3.Certificate → Bool
  | sub :: issuer :: rest =>
    sub.toBeSigned.certIssuePermissions.any (fun s =>
      issuer.toBeSigned.certIssuePermissions.any fun i => nests s i) && nestsUp (issuer :: rest)
  | _ => true

/-- `chain_consistent`: the end entity first, the anchor last. -/
def chainConsistent (chain : List V3.Certificate) : Bool :=
  match chain with
  | [] => false
  | endEntity :: issuers =>
    endEntity.toBeSigned.appPermissions.any fun app => coversFrom app 1 issuers && nestsUp issuers

theorem covers_of_coversFrom {app : List PsidSsp} : ∀ {issuers : List V3.Certificate} {depth : ℕ},
    coversFrom app depth issuers = true → ∀ {i : ℕ} {ca : V3.Certificate}, issuers[i]? = some ca →
      ∃ issuing, ca.toBeSigned.certIssuePermissions = some issuing ∧ ∀ e ∈ app, covers issuing e (depth + i) = true
  | [], _, _, i, ca, hi => by simp at hi
  | c :: rest, depth, h, i, ca, hi => by
    simp only [coversFrom, Bool.and_eq_true, Option.any_eq_true] at h
    obtain ⟨⟨issuing, hs, ha⟩, hrest⟩ := h
    cases i with
    | zero =>
      obtain rfl : c = ca := by simpa using hi
      exact ⟨issuing, hs, by simpa using ha⟩
    | succ i =>
      obtain ⟨issuing', hs', ha'⟩ := covers_of_coversFrom hrest (List.getElem?_cons_succ.symm.trans hi)
      refine ⟨issuing', hs', fun e he => ?_⟩
      rw [show depth + (i + 1) = depth + 1 + i by omega]
      exact ha' e he

/-! ### Nesting is almost sound -/

theorem findRange_mem {group : PsidGroupPermissions} {psid : ℕ} {range : PsidSspRange}
    (h : findRange group psid = some range) :
    range.psid = psid ∧ ∃ ranges, group.subjectPermissions = .explicit ranges ∧ range ∈ ranges := by
  unfold findRange at h
  split at h
  · rename_i ranges hr
    exact ⟨by simpa using List.find?_some h, ranges, hr, mem_of_find?_eq_some h⟩
  · simp at h

theorem sspWithin_bitmap {bits value mask : ByteBuffer} :
    sspWithin (some (.bitmapSsp bits)) (some (.bitmapSspRange value mask)) = true ↔
      value.length = mask.length ∧ bits.length ≤ mask.length ∧ ∀ i < mask.length,
        if bits.length ≤ i then mask.getD i 0 = 0
        else bits.getD i 0 &&& mask.getD i 0 = value.getD i 0 &&& mask.getD i 0 := by
  simp only [sspWithin]
  split_ifs with h
  · simp only [false_iff]
    rintro ⟨h1, h2, -⟩
    omega
  · push Not at h
    simp only [all_eq_true, mem_range, h.1, h.2, true_and]
    refine forall₂_congr fun i _ => ?_
    split_ifs <;> simp

theorem rangeWithin_bitmap {rValue rMask pValue pMask : ByteBuffer}
    (h : rangeWithin (some (.bitmapSspRange pValue pMask)) (some (.bitmapSspRange rValue rMask)) = true) :
    rValue.length = rMask.length ∧ pValue.length = pMask.length ∧ ∀ i < rMask.length, rMask.getD i 0 ≠ 0 →
      i < pMask.length ∧ pMask.getD i 0 &&& rMask.getD i 0 = rMask.getD i 0 ∧
        pValue.getD i 0 &&& rMask.getD i 0 = rValue.getD i 0 &&& rMask.getD i 0 := by
  simp only [rangeWithin] at h
  split_ifs at h with hl
  push Not at hl
  refine ⟨hl.1, hl.2, fun i hi hf => ?_⟩
  have hocc := all_eq_true.mp h i (mem_range.mpr hi)
  rw [if_neg hf] at hocc
  simp only [Bool.and_eq_true, decide_eq_true_eq, beq_iff_eq] at hocc
  exact ⟨hocc.1.1, hocc.1.2, hocc.2⟩

theorem and_fixed {b v r m f : UInt8} (hm : m &&& f = f) (hv : v &&& f = r &&& f) (hb : b &&& m = v &&& m) :
    b &&& f = r &&& f := by
  calc b &&& f = b &&& (m &&& f) := by rw [hm]
    _ = b &&& m &&& f := by rw [UInt8.and_assoc]
    _ = v &&& m &&& f := by rw [hb]
    _ = v &&& (m &&& f) := by rw [UInt8.and_assoc]
    _ = r &&& f := by rw [hm, hv]

theorem sspWithin_of_rangeWithin {ssp : Option Ssp} {sub issuer : Option SspRange} (hs : sspWithin ssp sub = true)
    (hr : rangeWithin sub issuer = true)
    (hl : ∀ bits value mask, ssp = some (.bitmapSsp bits) → issuer = some (.bitmapSspRange value mask) →
      bits.length ≤ mask.length) : sspWithin ssp issuer = true := by
  match issuer, hr with
  | none, _ => rfl
  | some .all, _ => rfl
  | some .nothing, hr => simp [rangeWithin] at hr
  | some (.opaqueRange issuers), hr =>
    match sub, hr with
    | some (.opaqueRange subs), hr =>
      -- the entry that admits the SSP is an entry of the issuer too
      obtain ⟨entry, he, hp⟩ := any_eq_true.mp hs
      obtain ⟨entry', he', hee⟩ := any_eq_true.mp (all_eq_true.mp hr entry he)
      obtain rfl : entry = entry' := by simpa using hee
      exact any_eq_true.mpr ⟨entry, he', hp⟩
  | some (.bitmapSspRange rValue rMask), hr =>
    match sub, hr with
    | some (.bitmapSspRange pValue pMask), hr =>
      match ssp, hs with
      | some (.bitmapSsp bits), hs =>
        obtain ⟨hp, hbp, hbits⟩ := sspWithin_bitmap.mp hs
        obtain ⟨hrl, -, hfix⟩ := rangeWithin_bitmap hr
        refine sspWithin_bitmap.mpr ⟨hrl, hl bits rValue rMask rfl rfl, fun i hi => ?_⟩
        by_cases hf : rMask.getD i 0 = 0
        · split_ifs
          · exact hf
          · rw [hf, UInt8.and_zero, UInt8.and_zero]
        · obtain ⟨him, hm, hv⟩ := hfix i hi hf
          have hb := hbits i him
          split_ifs at hb ⊢
          · -- the subordinate's mask is 0 beyond the bitmap, so the issuer fixes nothing there
            rw [hb] at hm
            rw [UInt8.zero_and] at hm
            exact absurd hm.symm hf
          · exact and_fixed hm hv hb

/-- The SSP is a bitmap, and longer than the mask of a range the issuer lists
for the PSID, in which a range of the subordinate that admits it nests. -/
def TooLong (entry : PsidSsp) : Prop :=
  ∃ g ∈ sub, ∃ g' ∈ issuer, ∃ range range' bits value mask,
    findRange g entry.psid = some range ∧ sspWithin entry.ssp range.sspRange = true ∧
    findRange g' entry.psid = some range' ∧ rangeWithin range.sspRange range'.sspRange = true ∧
    entry.ssp = some (.bitmapSsp bits) ∧ range'.sspRange = some (.bitmapSspRange value mask) ∧
    mask.length < bits.length

/-- **Nesting, with its two exceptions.** What a subordinate's groups admit
the issuer's groups admit, except for a PSID that only the issuer lists
explicitly and for a bitmap longer than the issuer's mask. -/
theorem nests_sound {sub issuer : List PsidGroupPermissions} (h : nests sub issuer = true) {entry : PsidSsp}
    (ha : admits sub entry = true) :
    admits issuer entry = true ∨
      (listedExplicitly sub entry.psid = false ∧ listedExplicitly issuer entry.psid = true) ∨
      TooLong sub issuer entry := by
  obtain ⟨group, hg, hp⟩ := any_eq_true.mp ha
  have hn := all_eq_true.mp h group hg
  cases hsp : group.subjectPermissions with
  | nothing => simp [hsp] at hn
  | all =>
    -- admitted by a group "all": the issuer has one, and it counts unless the PSID is listed
    have hsub : listedExplicitly sub entry.psid = false := by simpa [groupPermits, hsp] using hp
    cases hl : listedExplicitly issuer entry.psid with
    | true => exact .inr (.inl ⟨hsub, rfl⟩)
    | false =>
      obtain ⟨candidate, hc, hall⟩ : ∃ c ∈ issuer, c.subjectPermissions = .all := by simpa [hsp] using hn
      exact .inl (any_eq_true.mpr ⟨candidate, hc, by simp [groupPermits, hall, hl]⟩)
  | explicit ranges =>
    obtain ⟨range, hfind, hssp⟩ : ∃ range, findRange group entry.psid = some range ∧
        sspWithin entry.ssp range.sspRange = true := by simpa [groupPermits, hsp, Option.any_eq_true] using hp
    obtain ⟨hpsid, ranges', hsp', hmem⟩ := findRange_mem hfind
    obtain rfl : ranges = ranges' := by simpa [hsp] using hsp'
    simp only [hsp] at hn
    obtain ⟨candidate, hc, hcp⟩ := any_eq_true.mp (all_eq_true.mp hn range hmem)
    rw [hpsid] at hcp
    by_cases hall : candidate.subjectPermissions = .all
    · exact .inl (any_eq_true.mpr ⟨candidate, hc, by simpa [groupPermits, hall] using hcp⟩)
    · obtain ⟨range', hfind', hwithin⟩ : ∃ range', findRange candidate entry.psid = some range' ∧
          rangeWithin range.sspRange range'.sspRange = true := by
        unfold groupPermits at hcp
        split at hcp
        · exact absurd ‹_› hall
        · simpa [Option.any_eq_true] using hcp
      by_cases hlong : ∃ bits value mask, entry.ssp = some (.bitmapSsp bits) ∧
          range'.sspRange = some (.bitmapSspRange value mask) ∧ mask.length < bits.length
      · obtain ⟨bits, value, mask, hb, hm, hlt⟩ := hlong
        exact .inr (.inr ⟨group, hg, candidate, hc, range, range', bits, value, mask, hfind, hssp, hfind',
          hwithin, hb, hm, hlt⟩)
      · push Not at hlong
        refine .inl (any_eq_true.mpr ⟨candidate, hc, ?_⟩)
        have hs := sspWithin_of_rangeWithin hssp hwithin fun bits value mask hb hm => hlong bits value mask hb hm
        unfold groupPermits
        split
        · exact absurd ‹_› hall
        · exact (Option.any_eq_true _ _).mpr ⟨range', hfind', hs⟩

/-- Value and mask of every bitmap range have the same length. -/
def evenRanges : Bool :=
  groups.all fun group =>
    match group.subjectPermissions with
    | .explicit ranges => ranges.all fun range =>
        match range.sspRange with
        | some (.bitmapSspRange value mask) => value.length == mask.length
        | _ => true
    | _ => true

def sampleGroup (psid : ℕ) (range : SspRange) : PsidGroupPermissions := ⟨.explicit [⟨psid, some range⟩], none, 0, none⟩

/-- An authority that fixes all of an octet under an issuer that fixes half of
it. -/
theorem nests_sound_bitmap :
    admits [sampleGroup 36 (.bitmapSspRange [1] [0x0f])] ⟨36, some (.bitmapSsp [0x11])⟩ = true ∨
      (listedExplicitly [sampleGroup 36 (.bitmapSspRange [0x11] [0xff])] 36 = false ∧
        listedExplicitly [sampleGroup 36 (.bitmapSspRange [1] [0x0f])] 36 = true) ∨
      TooLong [sampleGroup 36 (.bitmapSspRange [0x11] [0xff])] [sampleGroup 36 (.bitmapSspRange [1] [0x0f])]
        ⟨36, some (.bitmapSsp [0x11])⟩ :=
  have h : nests [sampleGroup 36 (.bitmapSspRange [0x11] [0xff])]
      [sampleGroup 36 (.bitmapSspRange [1] [0x0f])] = true := by decide
  have ha : admits [sampleGroup 36 (.bitmapSspRange [0x11] [0xff])] ⟨36, some (.bitmapSsp [0x11])⟩ = true := by decide
  nests_sound h ha

/-- Both exceptions happen: an authority for all PSIDs under an issuer for all
PSIDs that narrows one of them down, and a bitmap range of two octets under
one of one octet. -/
theorem nests_unsound :
    (∃ sub issuer entry, evenRanges sub = true ∧ evenRanges issuer = true ∧ nests sub issuer = true ∧
      admits sub entry = true ∧ listedExplicitly sub entry.psid = false ∧ admits issuer entry = false) ∧
    ∃ sub issuer entry, evenRanges sub = true ∧ evenRanges issuer = true ∧ nests sub issuer = true ∧
      admits sub entry = true ∧ TooLong sub issuer entry ∧ admits issuer entry = false := by
  refine ⟨⟨[⟨.all, none, 0, none⟩], [⟨.all, none, 0, none⟩, sampleGroup 36 (.opaqueRange [])], ⟨36, none⟩, by decide⟩,
    ⟨[sampleGroup 36 (.bitmapSspRange [1, 2] [0xff, 0xff])], [sampleGroup 36 (.bitmapSspRange [1] [0xff])],
      ⟨36, some (.bitmapSsp [1, 2])⟩, by decide, by decide, by decide, by decide, ?_, by decide⟩⟩
  exact ⟨_, mem_singleton_self _, _, mem_singleton_self _, _, _, [1, 2], [1], [0xff], rfl, by decide, rfl,
    by decide, rfl, rfl, by decide⟩

end VanetzaIdf.Consistency
