/-
# The certificate validator

`DefaultCertificateValidator` of `vanetza/security/v3/certificate_validator.cpp` as
the security entity configures it (no country database, no region consistency
check). It walks up at most eight links three times: to find the trust anchor, to
compare each certificate with its issuer, and to look for revocations. All walks
follow the chain `Chain c l` of the issuer lookup; `validForSigning_eq_valid` lists
what a verdict Valid rests on.
-/
import VanetzaIdf.Lib.Path
import VanetzaIdf.V3.Trust

namespace VanetzaIdf.V3

open List Option

/-- `CertificateValidator::Verdict`. -/
inductive Verdict
  | unknown | valid | expired | revoked | untrusted | inconsistentChain | outsideRegion | insufficientPermission
  | misconfiguration
deriving DecidableEq, Repr

/-! ### A certificate and its issuer -/

variable (subject issuer : Certificate)

def checkTimeConsistency : Bool :=
  decide (issuer.startValidity ≤ subject.startValidity ∧ subject.endValidity ≤ issuer.endValidity)

def checkPermissionConsistency (aid : ItsAid) : Bool :=
  if subject.isCaCertificate && !subject.isAllowedToIssue aid then false
  else if subject.isAtCertificate && !subject.validForApplication aid then false
  else issuer.isAllowedToIssue aid

/-- Assurance level and confidence of a subject assurance octet. -/
def assuranceParts (octet : UInt8) : ℕ × ℕ := (octet.toNat / 2 ^ 5 % 8, octet.toNat / 2 ^ 2 % 8)

def checkAssuranceConsistency : Bool :=
  match subject.assuranceLevel, issuer.assuranceLevel with
  | none, _ => true
  | some _, none => false
  | some s, some i =>
    let (subjectLevel, subjectConfidence) := assuranceParts s
    let (issuerLevel, issuerConfidence) := assuranceParts i
    decide (subjectLevel < issuerLevel ∨ (subjectLevel = issuerLevel ∧ subjectConfidence ≤ issuerConfidence))

/-- `check_consistency`, its region check switched off. -/
def checkConsistency (aid : ItsAid) (subject issuer : Certificate) : Bool :=
  checkTimeConsistency subject issuer && checkPermissionConsistency subject issuer aid &&
    checkAssuranceConsistency subject issuer

/-- `DefaultLocationChecker::valid_at_location`, without a country database. -/
def validAtLocation (P : Platform) (permissive : Bool) (c : Certificate) (location : PositionFix) : Bool :=
  match c.toBeSigned.region with
  | none => true
  | some (.identifiedRegion _) => permissive
  -- an unknown restriction is rejected
  | some .nothing => false
  | some region => P.isInside location region

/-! ### The walks up the chain -/

namespace CombinedIssuerLookup

variable {P : Platform}

def findIssuerCertificate (i : CombinedIssuerLookup P) (c : Certificate) : Option Certificate :=
  c.issuerDigest.bind i.findIssuer

/-- The loop of `is_chain_anchored`, with the links it may still take. -/
def isChainAnchored (i : CombinedIssuerLookup P) : ℕ → Certificate → Bool
  | 0, _ => false
  | n + 1, c =>
    if c.issuerIsSelf then (c.calculateDigest P).any fun digest => !(i.trust.roots digest).isEmpty
    else (i.findIssuerCertificate c).any (isChainAnchored i n)

/-- The loop of `chain_is_consistent`; a missing issuer passes. -/
def chainIsConsistent (i : CombinedIssuerLookup P) (aid : ItsAid) : ℕ → Certificate → Bool
  | 0, _ => true
  | n + 1, subject =>
    if subject.issuerIsSelf then true
    else (i.findIssuerCertificate subject).all fun issuer =>
      checkConsistency aid subject issuer && chainIsConsistent i aid n issuer

/-- The loop of `chain_is_revoked`; it ends at a certificate without digest. -/
def chainIsRevoked (i : CombinedIssuerLookup P) : ℕ → Certificate → Bool
  | 0, _ => false
  | n + 1, c =>
    match c.calculateDigest P, c.issuerDigest with
    | some digest, some issuerDigest =>
      i.trust.isRevoked issuerDigest digest ||
        (i.findIssuer issuerDigest).any fun issuer =>
          !issuer.issuerIsSelf && chainIsRevoked i n issuer
    | _, _ => false

/-- The certificate whose region is held against the position: the signing
certificate, or its issuer if it has no region of its own. -/
def checkedForLocation (i : CombinedIssuerLookup P) (c : Certificate) : Option Certificate :=
  if c.hasRegionRestriction then some c else i.findIssuerCertificate c

/-! ### The chain -/

variable {i : CombinedIssuerLookup P} {c : Certificate} {aid : ItsAid}

/-- The lookup finds this issuer. -/
def IssuedBy (i : CombinedIssuerLookup P) (subject issuer : Certificate) : Prop :=
  i.findIssuerCertificate subject = some issuer

/-- Issuers up to a self-signed certificate. -/
def Chain (i : CombinedIssuerLookup P) : Certificate → List Certificate → Prop :=
  Lib.Path (fun c => c.issuerIsSelf = true) i.IssuedBy

theorem issuedBy_rightUnique (i : CombinedIssuerLookup P) : Relator.RightUnique i.IssuedBy :=
  fun _ _ _ h h' => some.inj (h.symm.trans h')

theorem chain_unique {l l' : List Certificate} (h : i.Chain c l) (h' : i.Chain c l') : l = l' :=
  Lib.Path.unique i.issuedBy_rightUnique h h'

theorem IssuedBy.exists_digest {subject issuer : Certificate} (h : i.IssuedBy subject issuer) :
    ∃ d, subject.issuerDigest = some d ∧ i.findIssuer d = some issuer :=
  bind_eq_some_iff.mp h

theorem IssuedBy.digest_isSome {subject issuer : Certificate} (h : i.IssuedBy subject issuer) :
    (issuer.calculateDigest P).isSome = true := by
  obtain ⟨d, -, hf⟩ := h.exists_digest
  rw [findIssuer_digest hf]
  rfl

/-- A root of the trust store. -/
def Trusted (i : CombinedIssuerLookup P) (r : Certificate) : Prop :=
  ∃ d, r.calculateDigest P = some d ∧ i.trust.roots d ≠ []

theorem chain_of_anchored : ∀ {n : ℕ} {c : Certificate}, i.isChainAnchored n c = true →
    ∃ l, i.Chain c l ∧ l.length ≤ n ∧ ∃ r, l.getLast? = some r ∧ i.Trusted r
  | 0, c, h => by simp [isChainAnchored] at h
  | n + 1, c, h => by
    unfold isChainAnchored at h
    split_ifs at h with hs
    · obtain ⟨d, hd, hr⟩ := (any_eq_true _ _).mp h
      exact ⟨[c], .here hs, by simp, c, rfl, d, hd, by simpa using hr⟩
    · obtain ⟨issuer, hi, ha⟩ := (any_eq_true _ _).mp h
      obtain ⟨l, hl, hlen, r, hr, ht⟩ := chain_of_anchored ha
      obtain ⟨rest, rfl⟩ := hl.exists_cons
      exact ⟨c :: issuer :: rest, .up hs hi hl, by simpa using hlen, r, by simpa using hr, ht⟩

theorem chain_consistent_of_walk {l : List Certificate} (h : i.Chain c l) :
    ∀ {n : ℕ}, l.length ≤ n → i.chainIsConsistent aid n c = true →
      l.IsChain fun subject issuer => checkConsistency aid subject issuer = true := by
  induction h with
  | here => exact fun _ _ => isChain_singleton _
  | @up subject issuer l hs hi hl ih =>
    intro n hn hw
    obtain ⟨n, rfl⟩ : ∃ m, n = m + 1 := ⟨n - 1, by rw [length_cons] at hn; omega⟩
    obtain ⟨rest, rfl⟩ := hl.exists_cons
    rw [chainIsConsistent, if_neg hs, show i.findIssuerCertificate subject = some issuer from hi, all_some,
      Bool.and_eq_true] at hw
    exact isChain_cons_cons.mpr ⟨hw.1, ih (by simpa using hn) hw.2⟩

/-- Not on the list of its issuer; both have a digest. -/
def NotRevoked (i : CombinedIssuerLookup P) (subject : Certificate) : Prop :=
  ∃ d e, subject.issuerDigest = some d ∧ subject.calculateDigest P = some e ∧ i.trust.isRevoked d e = false

/-- The third walk came to every certificate below the root: those that are
found have a digest. -/
theorem chain_not_revoked_of_walk {l : List Certificate} (h : i.Chain c l) :
    ∀ {n : ℕ}, l.length ≤ n → (c.calculateDigest P).isSome = true → i.chainIsRevoked n c = false →
      l.IsChain fun subject _ => i.NotRevoked subject := by
  induction h with
  | here => exact fun _ _ _ => isChain_singleton _
  | @up subject issuer l hs hi hl ih =>
    intro n hn hd hw
    obtain ⟨n, rfl⟩ : ∃ m, n = m + 1 := ⟨n - 1, by rw [length_cons] at hn; omega⟩
    obtain ⟨e, he⟩ := isSome_iff_exists.mp hd
    obtain ⟨d, hd', hf⟩ := IssuedBy.exists_digest hi
    simp only [chainIsRevoked, he, hd', hf, any_some, Bool.or_eq_false_iff] at hw
    have hnr : i.NotRevoked subject := ⟨d, e, hd', he, hw.1⟩
    cases hl with
    | here => exact isChain_cons_cons.mpr ⟨hnr, isChain_singleton _⟩
    | up hs' hi' hl' =>
      have hw' : i.chainIsRevoked n issuer = false := by
        have hs'' : issuer.issuerIsSelf = false := by simpa using hs'
        simpa [hs''] using hw.2
      exact isChain_cons_cons.mpr
        ⟨hnr, ih (by simpa using hn) (IssuedBy.digest_isSome hi) hw'⟩

end CombinedIssuerLookup

/-! ### The validator -/

/-- What the validator is configured with; `locationPermissive` is the
location checker's `permissive_identified_region`. -/
structure CertificateValidator (P : Platform) where
  issuers : CombinedIssuerLookup P
  now : TimePoint
  position : PositionFix
  locationPermissive : Bool := true

/-- The bound `max_chain_depth` of the three loops. -/
def maxChainDepth : ℕ := 8

namespace CertificateValidator

variable {P : Platform}

def validForSigning (v : CertificateValidator P) (c : Certificate) (aid : ItsAid) : Verdict :=
  if !c.validForApplication aid then .insufficientPermission
  else if !c.validAtTimepoint v.now then .expired
  else if !v.issuers.isChainAnchored maxChainDepth c then .untrusted
  else if !v.issuers.chainIsConsistent aid maxChainDepth c then .inconsistentChain
  else if v.issuers.chainIsRevoked maxChainDepth c then .revoked
  else if (v.issuers.checkedForLocation c).all (validAtLocation P v.locationPermissive · v.position) then .valid
  else .outsideRegion

variable {v : CertificateValidator P} {c : Certificate} {aid : ItsAid}

theorem validForSigning_eq_valid : v.validForSigning c aid = .valid ↔
    c.validForApplication aid = true ∧ c.validAtTimepoint v.now = true ∧ v.issuers.isChainAnchored maxChainDepth c =
      true ∧
      v.issuers.chainIsConsistent aid maxChainDepth c = true ∧ v.issuers.chainIsRevoked maxChainDepth c = false ∧
      (v.issuers.checkedForLocation c).all (validAtLocation P v.locationPermissive · v.position) = true := by
  unfold validForSigning
  split_ifs <;> simp_all

theorem exists_chain (h : v.validForSigning c aid = .valid) : ∃ l, v.issuers.Chain c l ∧
    l.IsChain fun subject issuer => checkConsistency aid subject issuer = true := by
  obtain ⟨-, -, hanch, hcons, -, -⟩ := validForSigning_eq_valid.mp h
  obtain ⟨l, hl, hlen, -⟩ := CombinedIssuerLookup.chain_of_anchored hanch
  exact ⟨l, hl, CombinedIssuerLookup.chain_consistent_of_walk hl hlen hcons⟩

end CertificateValidator
end VanetzaIdf.V3
