/-
# The chain validator

`ChainValidator` of `ports/esp_idf/src/security.cpp` adds the signatures up the
chain, the consistency of permissions and the region rule to the certificate
validator, and remembers the tickets it has verified. Its walk goes up four links
of the same chain (`walk_eq_some`), so that a verdict Valid without remembered
tickets means a chain of at most five certificates, checked in every respect
(`validForSigning_sound`).
-/
import VanetzaIdf.V3.Validator
import VanetzaIdf.Consistency.Permissions
import VanetzaIdf.Consistency.Regions

namespace VanetzaIdf.V3

open Consistency Option

/-- `ChainValidator`, with the validator it asks first. -/
structure ChainValidator (P : Platform) where
  base : CertificateValidator P
  capacity : ℕ := 64
  permissiveIdentifiedRegion : Bool := true
  verified : List HashedId8 := []

variable {P : Platform}

/-- The loop of `valid_for_signing`, with the links it may still take: the chain up to a
self-signed certificate, if it is reached and signatures verify. The outer `none` is the exception
of an encoder.
The signature of a root is verified only if it signs messages itself. -/
def CombinedIssuerLookup.walk (i : CombinedIssuerLookup P) : ℕ → Certificate → Option (Option (List Certificate))
  | 0, _ => some none
  | n + 1, subject =>
    if subject.issuerIsSelf then
      (verifyCertificateSignature P subject none).map fun ok => if ok then some [subject] else none
    else
      match i.findIssuerCertificate subject with
      | none => some none
      | some issuer =>
        (verifyCertificateSignature P subject (some issuer)).bind fun ok =>
          if !ok then some none
          else if issuer.issuerIsSelf then some (some [subject, issuer])
          else (walk i n issuer).map (Option.map (subject :: ·))

namespace ChainValidator

/-- The regions of a chain nest: `region_within` for each link. -/
def regionsWithin (P : Platform) (permissive : Bool) : List Certificate → Bool
  | subject :: issuer :: rest =>
    regionWithin P permissive subject issuer && regionsWithin P permissive (issuer :: rest)
  | _ => true

/-- The verdict on the chain that the walk found. -/
def chainVerdict (P : Platform) (permissive : Bool) : Option (List Certificate) → Verdict
  | none => .untrusted
  | some chain =>
    if 1 < chain.length && !chainConsistent chain then .inconsistentChain
    else if regionsWithin P permissive chain then .valid else .inconsistentChain

/-- `valid_for_signing` behind the cache. -/
def verifyChain (v : ChainValidator P) (c : Certificate) : Option Verdict :=
  (v.base.issuers.walk 4 c).map (chainVerdict P v.permissiveIdentifiedRegion)

/-- A full cache is emptied before a digest is added. -/
def remember (v : ChainValidator P) (digest : HashedId8) : ChainValidator P :=
  { v with verified := digest :: if v.capacity ≤ v.verified.length then [] else v.verified }

/-- `valid_for_signing`; no verdict means that an encoder threw. -/
def validForSigning (v : ChainValidator P) (c : Certificate) (aid : ItsAid) : Option Verdict × ChainValidator P :=
  if v.base.validForSigning c aid ≠ .valid then (some (v.base.validForSigning c aid), v)
  else
    match c.calculateDigest P with
    | none => (some .untrusted, v)
    | some digest =>
      if digest ∈ v.verified then (some .valid, v)
      else (v.verifyChain c, if v.verifyChain c = some .valid then v.remember digest else v)

def verdict (v : ChainValidator P) (c : Certificate) (aid : ItsAid) : Option Verdict := (v.validForSigning c aid).1

/-! ### What the walk found -/

/-- The signatures of a chain: each under the key of the next one, and a root
alone under its own. -/
def Signed (P : Platform) (chain : List Certificate) : Prop :=
  (chain.IsChain fun subject issuer => verifyCertificateSignature P subject (some issuer) = some true) ∧
    ∀ c, chain = [c] → verifyCertificateSignature P c none = some true

variable {i : CombinedIssuerLookup P} {n : ℕ} {l : List Certificate} {permissive : Bool}

theorem walk_root {c : Certificate} (hs : c.issuerIsSelf = true) :
    i.walk (n + 1) c = some (some l) ↔ l = [c] ∧ verifyCertificateSignature P c none = some true := by
  rw [CombinedIssuerLookup.walk, if_pos hs]
  cases verifyCertificateSignature P c none with
  | none => simp
  | some ok => cases ok <;> simp [eq_comm]

theorem walk_issued : ∀ {n : ℕ} {c : Certificate} {l : List Certificate},
    ¬ c.issuerIsSelf = true →
      (i.walk n c = some (some l) ↔ i.Chain c l ∧ l.length ≤ n + 1 ∧
        l.IsChain fun subject issuer => verifyCertificateSignature P subject (some issuer) = some true)
  | 0, c, l, hs => by
    simp only [CombinedIssuerLookup.walk, some.injEq, reduceCtorEq, false_iff]
    rintro ⟨hl, hlen, -⟩
    -- a chain of one certificate would be a root
    cases hl with
    | here h => exact hs h
    | up _ _ hl' =>
      obtain ⟨rest, rfl⟩ := hl'.exists_cons
      simp at hlen
  | n + 1, c, l, hs => by
    rw [CombinedIssuerLookup.walk, if_neg hs]
    cases hi : i.findIssuerCertificate c with
    | none =>
      simp only [some.injEq, reduceCtorEq, false_iff]
      rintro ⟨hl, -, -⟩
      cases hl with
      | here h => exact hs h
      | up _ hu _ => exact absurd (hi.symm.trans hu) (by simp)
    | some issuer =>
      simp only [bind_eq_some_iff]
      constructor
      · rintro ⟨ok, hv, hw⟩
        obtain rfl : ok = true := by cases ok <;> simp at hw ⊢
        rw [if_neg (by simp)] at hw
        split_ifs at hw with hr
        · obtain rfl : [c, issuer] = l := by simpa using hw
          exact ⟨.up hs hi (.here hr), by simp, List.isChain_pair.mpr hv⟩
        · obtain ⟨inner, hin, hmap⟩ := map_eq_some_iff.mp hw
          obtain ⟨rest, rfl, rfl⟩ := map_eq_some_iff.mp hmap
          obtain ⟨hl, hlen, hsig⟩ := (walk_issued hr).mp hin
          obtain ⟨rest, rfl⟩ := hl.exists_cons
          exact ⟨.up hs hi hl, by simpa using hlen, List.isChain_cons_cons.mpr ⟨hv, hsig⟩⟩
      · rintro ⟨hl, hlen, hsig⟩
        cases hl with
        | here h => exact absurd h hs
        | @up _ issuer' l' _ hu hl' =>
          obtain rfl : issuer = issuer' := some.inj (hi.symm.trans hu)
          obtain ⟨rest, rfl⟩ := hl'.exists_cons
          obtain ⟨hok, hsig'⟩ := List.isChain_cons_cons.mp hsig
          refine ⟨true, hok, ?_⟩
          by_cases hr : issuer.issuerIsSelf = true
          · cases hl' with
            | here => simp [hr]
            | up h => exact absurd hr h
          · rw [if_neg (by simp), if_neg hr, (walk_issued hr).mpr ⟨hl', by simpa using hlen, hsig'⟩]
            rfl

theorem walk_eq_some {c : Certificate} :
    i.walk (n + 1) c = some (some l) ↔ i.Chain c l ∧ l.length ≤ n + 2 ∧ Signed P l := by
  by_cases hs : c.issuerIsSelf = true
  · rw [walk_root hs]
    constructor
    · rintro ⟨rfl, hv⟩
      exact ⟨.here hs, by simp, List.isChain_singleton _, by simpa using hv⟩
    · rintro ⟨hl, -, -, hv⟩
      cases hl with
      | here => exact ⟨rfl, hv c rfl⟩
      | up h => exact absurd hs h
  · rw [walk_issued hs]
    refine and_congr_right fun hl => and_congr_right fun _ => ⟨fun hsig => ⟨hsig, ?_⟩, And.left⟩
    rintro d rfl
    cases hl with
    | here h => exact absurd h hs
    | up _ _ hl' =>
      obtain ⟨rest, hr⟩ := hl'.exists_cons
      simp at hr

theorem regionsWithin_iff : ∀ {chain : List Certificate}, regionsWithin P permissive chain = true ↔
    chain.IsChain fun subject issuer => regionWithin P permissive subject issuer = true
  | [] => by simp [regionsWithin]
  | [_] => by simp [regionsWithin]
  | _ :: _ :: _ => by rw [regionsWithin, Bool.and_eq_true, regionsWithin_iff, List.isChain_cons_cons]

variable {v : ChainValidator P} {c : Certificate} {aid : ItsAid}

/-- What the checks behind the cache ask of the chain. -/
structure Vetted (P : Platform) (permissive : Bool) (chain : List Certificate) : Prop where
  length_le : chain.length ≤ 5
  signed : Signed P chain
  permissions : 1 < chain.length → chainConsistent chain = true
  regions : chain.IsChain fun subject issuer => regionWithin P permissive subject issuer = true

theorem chainVerdict_eq_valid {found : Option (List Certificate)} :
    chainVerdict P permissive found = .valid ↔ ∃ chain, found = some chain ∧
      (1 < chain.length → chainConsistent chain = true) ∧ regionsWithin P permissive chain = true := by
  cases found with
  | none => simp [chainVerdict]
  | some chain =>
    simp only [chainVerdict, some.injEq, exists_eq_left']
    split_ifs with h1 h2
    · simp only [false_iff]
      rintro ⟨hperm, -⟩
      simp only [Bool.and_eq_true, decide_eq_true_eq, Bool.not_eq_true'] at h1
      exact absurd (hperm h1.1) (by simp [h1.2])
    · simp only [h2, and_true, true_iff]
      intro hl
      simpa [hl] using h1
    · simp [h2]

theorem verifyChain_eq_valid : v.verifyChain c = some .valid ↔
    ∃ chain, v.base.issuers.Chain c chain ∧ Vetted P v.permissiveIdentifiedRegion chain := by
  unfold verifyChain
  rw [map_eq_some_iff]
  constructor
  · rintro ⟨found, hw, hv⟩
    obtain ⟨chain, rfl, hperm, hreg⟩ := chainVerdict_eq_valid.mp hv
    obtain ⟨hc, hlen, hsig⟩ := walk_eq_some.mp hw
    exact ⟨chain, hc, hlen, hsig, hperm, regionsWithin_iff.mp hreg⟩
  · rintro ⟨chain, hc, hv⟩
    refine ⟨some chain, walk_eq_some.mpr ⟨hc, hv.length_le, hv.signed⟩, ?_⟩
    exact chainVerdict_eq_valid.mpr ⟨chain, rfl, hv.permissions, regionsWithin_iff.mpr hv.regions⟩

theorem verdict_eq (v : ChainValidator P) (c : Certificate) (aid : ItsAid) : v.verdict c aid =
    if v.base.validForSigning c aid = .valid then
      (c.calculateDigest P).elim (some .untrusted) fun digest =>
        if digest ∈ v.verified then some .valid else v.verifyChain c
    else some (v.base.validForSigning c aid) := by
  unfold verdict validForSigning
  by_cases hb : v.base.validForSigning c aid = .valid
  · rw [if_neg (not_not.mpr hb), if_pos hb]
    cases c.calculateDigest P with
    | none => rfl
    | some digest => by_cases hv : digest ∈ v.verified <;> simp [hv]
  · rw [if_pos hb, if_neg hb]

theorem verdict_eq_valid : v.verdict c aid = some .valid ↔
    v.base.validForSigning c aid = .valid ∧ ∃ digest, c.calculateDigest P = some digest ∧
      (digest ∈ v.verified ∨ v.verifyChain c = some .valid) := by
  rw [verdict_eq]
  by_cases hb : v.base.validForSigning c aid = .valid
  · cases c.calculateDigest P with
    | none => simp [hb]
    | some digest => by_cases hv : digest ∈ v.verified <;> simp [hb, hv]
  · simp [hb]

theorem validForSigning_cases (v : ChainValidator P) (c : Certificate) (aid : ItsAid) :
    (v.validForSigning c aid).2 = v ∨ ∃ digest, c.calculateDigest P = some digest ∧ v.verifyChain c = some .valid ∧
      (v.validForSigning c aid).2 = v.remember digest := by
  unfold validForSigning
  by_cases hb : v.base.validForSigning c aid = .valid
  · rw [if_neg (not_not.mpr hb)]
    cases c.calculateDigest P with
    | none => exact .inl rfl
    | some digest =>
      by_cases hm : digest ∈ v.verified
      · simp [hm]
      · by_cases hv : v.verifyChain c = some .valid <;> simp [hm, hv]
  · rw [if_pos hb]
    exact .inl rfl

/-! ### Soundness -/

/-- A chain every link of which was checked in every respect. -/
structure Accepted (i : CombinedIssuerLookup P) (c : Certificate) (aid : ItsAid) (chain : List Certificate) :
    Prop where
  length_le : chain.length ≤ 5
  head : chain.head? = some c
  issuers : chain.IsChain fun subject issuer => ∃ d,
    subject.issuerDigest = some d ∧ i.findIssuer d = some issuer
  /-- The root is self-signed and the trust store holds one of its digest; it
  is that very certificate unless it signs messages itself. -/
  root : ∃ r d, chain.getLast? = some r ∧ r.issuerIsSelf = true ∧ r.calculateDigest P = some d ∧
    i.trust.roots d ≠ [] ∧ (1 < chain.length → r ∈ i.trust.roots d)
  application : c.validForApplication aid = true
  signatures : chain.IsChain fun subject issuer => verifyCertificateSignature P subject (some issuer) = some true
  self_signature : chain = [c] → verifyCertificateSignature P c none = some true
  consistent : chain.IsChain fun subject issuer => checkTimeConsistency subject issuer = true ∧
    checkPermissionConsistency subject issuer aid = true ∧ checkAssuranceConsistency subject issuer = true
  covered : ∀ depth ca, 0 < depth → chain[depth]? = some ca → ∃ issuing,
    ca.toBeSigned.certIssuePermissions = some issuing ∧
      ∀ entry ∈ c.toBeSigned.appPermissions.getD [], covers issuing entry depth = true
  not_revoked : chain.IsChain fun subject _ => ∃ d e, subject.issuerDigest = some d ∧
    subject.calculateDigest P = some e ∧ i.trust.isRevoked d e = false

theorem root_mem_of_chain (h : i.Chain c l) :
    1 < l.length → ∀ r d, l.getLast? = some r → r.calculateDigest P = some d → r ∈ i.trust.roots d := by
  induction h with
  | here => simp
  | @up subject issuer l hs hi hl ih =>
    intro _ r d hr hd
    obtain ⟨d', -, hf⟩ := CombinedIssuerLookup.IssuedBy.exists_digest hi
    cases hl with
    | here hroot =>
      obtain rfl : issuer = r := by simpa using hr
      obtain rfl : d' = d := some.inj ((CombinedIssuerLookup.findIssuer_digest hf).symm.trans hd)
      exact CombinedIssuerLookup.findIssuer_root hf hroot
    | up _ _ hl' =>
      obtain ⟨rest, rfl⟩ := hl'.exists_cons
      exact ih (by simp) r d (by simpa using hr) hd

theorem covered_of_chainConsistent (h : chainConsistent (c :: l) = true) {depth : ℕ}
    {ca : Certificate} (hd : 0 < depth) (hca : (c :: l)[depth]? = some ca) :
    ∃ issuing, ca.toBeSigned.certIssuePermissions = some issuing ∧
      ∀ entry ∈ c.toBeSigned.appPermissions.getD [], covers issuing entry depth = true := by
  obtain ⟨app, happ, hc⟩ := (any_eq_true _ _).mp h
  obtain ⟨i, rfl⟩ : ∃ i, depth = i + 1 := ⟨depth - 1, by omega⟩
  rw [List.getElem?_cons_succ] at hca
  obtain ⟨issuing, hi, hcov⟩ := covers_of_coversFrom (Bool.and_eq_true _ _ ▸ hc).1 hca
  refine ⟨issuing, hi, fun entry he => ?_⟩
  rw [happ, getD_some] at he
  rw [Nat.add_comm]
  exact hcov entry he

/-- **Soundness of a verdict Valid.** If nothing is remembered, there is a chain to a trusted
root, of at most five certificates, that was checked in every respect. -/
theorem validForSigning_sound (v : ChainValidator P) (c : Certificate) (aid : ItsAid) (hv : v.verified = [])
    (h : (v.validForSigning c aid).1 = some .valid) : ∃ chain, Accepted v.base.issuers c aid chain := by
  obtain ⟨hb, digest, hdigest, hor⟩ := verdict_eq_valid.mp h
  have hverify : v.verifyChain c = some .valid := by
    rcases hor with hor | hor
    · simp [hv] at hor
    · exact hor
  obtain ⟨chain, hc, hvet⟩ := verifyChain_eq_valid.mp hverify
  obtain ⟨happ, -, hanch, hcons, hrev, -⟩ := CertificateValidator.validForSigning_eq_valid.mp hb
  -- the three walks of the certificate validator went up this chain
  obtain ⟨chain', hc', hlen', r, hr, d, hd, hroots⟩ := CombinedIssuerLookup.chain_of_anchored hanch
  obtain rfl := CombinedIssuerLookup.chain_unique hc hc'
  obtain ⟨r', hr', hself⟩ := hc.exists_root
  obtain rfl : r' = r := some.inj (hr'.symm.trans hr)
  obtain ⟨rest, hrest⟩ := hc.exists_cons
  refine ⟨chain, ?_⟩
  exact {
    length_le := hvet.length_le
    head := hc.head?
    issuers := hc.isChain.imp fun subject issuer hi => CombinedIssuerLookup.IssuedBy.exists_digest hi
    root := ⟨r', d, hr, hself, hd, hroots, fun hl => root_mem_of_chain hc hl r' d hr hd⟩
    application := happ
    signatures := hvet.signed.1
    self_signature := hvet.signed.2 c
    consistent := (CombinedIssuerLookup.chain_consistent_of_walk hc hlen' hcons).imp fun subject issuer hcc => by
      simpa [checkConsistency, and_assoc] using hcc
    covered := fun depth ca hpos hca => by
      have hl : 1 < chain.length := by
        obtain ⟨hlt, -⟩ := List.getElem?_eq_some_iff.mp hca
        omega
      have hcc := hvet.permissions hl
      rw [hrest] at hcc hca
      exact covered_of_chainConsistent hcc hpos hca
    not_revoked := CombinedIssuerLookup.chain_not_revoked_of_walk hc hlen' (by rw [hdigest]; rfl) hrev }

end ChainValidator

/-! ### A chain of three -/

/-- A certificate that is encoded as `mark`: an authority for every ITS-AID, or
a ticket for CAMs. -/
def sampleIssued (mark : UInt8) (issuer : IssuerIdentifier) (authority : Bool) (validityPeriod : ValidityPeriod)
    (region : Option GeographicRegion) : Certificate where
  issuer := issuer
  toBeSigned := {
    validityPeriod, region
    appPermissions := if authority then none else some [⟨Aid.CA, none⟩]
    certIssuePermissions := if authority then some [⟨.all, none, -1, none⟩] else none
    verifyKeyIndicator := .verificationKey (.ecdsaNistP256 (.compressedY0 []))
    rest := [mark] }
  signature := some (.ecdsaNistP256Signature (.xOnly []) [])

abbrev markedPlatform : Platform := samplePlatform fun c => c.toBeSigned.rest.headD 0

def sampleRoot (region : Option GeographicRegion) : Certificate :=
  sampleIssued 1 (.self .sha256) true ⟨0, .years, 10⟩ region

def sampleAuthority (validityPeriod : ValidityPeriod) (region : Option GeographicRegion) : Certificate :=
  sampleIssued 2 (.sha256AndDigest (Vector.replicate 8 1)) true validityPeriod region

def sampleTicket (validityPeriod : ValidityPeriod) (region : Option GeographicRegion) : Certificate :=
  sampleIssued 3 (.sha256AndDigest (Vector.replicate 8 2)) false validityPeriod region

def sampleValidator (root authority : Certificate) (now : TimePoint) : ChainValidator markedPlatform where
  base := {
    issuers := ⟨((({} : TrustConfiguration markedPlatform).addRoot root).2.addAuthority authority).2, []⟩
    now
    position := ⟨0, 0⟩ }

theorem sampleValidator_chain (ticket authority : ValidityPeriod) (r₁ r₂ r₃ : Option GeographicRegion)
    (now : TimePoint) :
    (sampleValidator (sampleRoot r₁) (sampleAuthority authority r₂) now).base.issuers.Chain (sampleTicket ticket r₃)
      [sampleTicket ticket r₃, sampleAuthority authority r₂, sampleRoot r₁] :=
  .up Bool.false_ne_true rfl (.up Bool.false_ne_true rfl (.here rfl))

theorem validForSigning_sound_three : ∃ chain, ChainValidator.Accepted
    (sampleValidator (sampleRoot none) (sampleAuthority ⟨0, .years, 1⟩ none) (seconds 3600)).base.issuers
    (sampleTicket ⟨0, .hours, 2⟩ none) Aid.CA chain :=
  ChainValidator.validForSigning_sound
    (sampleValidator (sampleRoot none) (sampleAuthority ⟨0, .years, 1⟩ none) (seconds 3600)) _ _ rfl
    (by decide +kernel)

end VanetzaIdf.V3
