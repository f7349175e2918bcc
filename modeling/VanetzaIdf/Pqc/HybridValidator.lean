/-
# The hybrid certificate validator

`security/pqc/hybrid_certificate_validator.cpp`: a walk of at most eight
certificates to a trusted root, under a policy that ignores alternative
signatures, verifies those there are, or demands them. A verdict Valid under
`hybridRequired` rests on a chain signed twice (`AuthenticChain`), and what is
valid is valid under a weaker policy (`chainLoop_mono`). The verdict of the policy
checks, lookup, trust store and backends are parameters.
-/
import VanetzaIdf.Pqc.HybridCertificate

namespace VanetzaIdf.Pqc

open Lib

inductive VerificationPolicy
  | classicalOnly | hybridIfPresent | hybridRequired
deriving DecidableEq, Repr

variable (P : Platform)

def alternativeSignatureIsAccepted (policy : VerificationPolicy) (ecc : EccBackend) (pqc : Option Backend)
    (subject : Certificate) (issuer : Option Certificate) : Bool :=
  if policy = .classicalOnly then true
  else
    match alternativeMaterialState P subject with
    | .inconsistent => false
    | .none => decide (policy = .hybridIfPresent)
    | .authority | .endEntity => pqc.any fun backend => verifyAlternativeCertificate P subject issuer ecc backend

/-- The loop of `chain_is_authentic`, with the certificates it may still visit. -/
def chainLoop (findIssuer : HashedId8 → Option Certificate) (lookup : HashedId8 → List Certificate) (ecc : EccBackend)
    (accepted : Certificate → Option Certificate → Bool) : ℕ → Certificate → Bool
  | 0, _ => false
  | n + 1, subject =>
    if subject.issuerIsSelf then
      match subject.calculateDigest P with
      | none => false
      | some rootDigest =>
        if (lookup rootDigest).isEmpty then false
        else verifyPrimaryCertificate P subject none ecc && accepted subject none
    else
      match subject.issuerDigest with
      | none => false
      | some expectedIssuerDigest =>
        match findIssuer expectedIssuerDigest with
        | none => false
        | some issuer =>
          if issuer.calculateDigest P ≠ some expectedIssuerDigest then false
          else if !verifyPrimaryCertificate P subject (some issuer) ecc || !accepted subject (some issuer) then false
          else chainLoop findIssuer lookup ecc accepted n issuer

def maximumChainDepth : ℕ := 8

structure HybridCertificateValidator where
  /-- `m_policy_validator.valid_for_signing`. -/
  policyVerdict : Certificate → ItsAid → V3.Verdict
  /-- `m_issuer_lookup->find_issuer`. -/
  issuerLookup : Option (HashedId8 → Option Certificate) := none
  /-- `m_trust_store->lookup`. -/
  trustStore : Option (HashedId8 → List Certificate) := none
  eccBackend : Option EccBackend := none
  pqcBackend : Option Backend := none
  verificationPolicy : VerificationPolicy := .hybridRequired

namespace HybridCertificateValidator

def useVerificationPolicy (v : HybridCertificateValidator) (policy : VerificationPolicy) : HybridCertificateValidator :=
  { v with verificationPolicy := policy }

def validForSigning (v : HybridCertificateValidator) (certificate : Certificate) (aid : ItsAid) : V3.Verdict :=
  let policyVerdict := v.policyVerdict certificate aid
  if policyVerdict ≠ .valid then policyVerdict
  else
    match v.issuerLookup, v.trustStore, v.eccBackend with
    | some findIssuer, some lookup, some ecc =>
      if v.verificationPolicy ≠ .classicalOnly ∧ v.pqcBackend.isNone then .misconfiguration
      else if chainLoop P findIssuer lookup ecc (alternativeSignatureIsAccepted P v.verificationPolicy ecc v.pqcBackend)
          maximumChainDepth certificate then .valid
      else .untrusted
    | _, _, _ => .misconfiguration

end HybridCertificateValidator

/-! ### The walk -/

section Walk

variable {P} {findIssuer : HashedId8 → Option Certificate} {lookup : HashedId8 → List Certificate} {ecc : EccBackend}
  {accepted accepted' : Certificate → Option Certificate → Bool}

variable (P findIssuer) in
/-- `issuer` is what the lookup has for the issuer digest of `subject`, and has that digest. -/
def IssuedBy (subject issuer : Certificate) : Prop :=
  ∃ digest, subject.issuerDigest = some digest ∧ findIssuer digest = some issuer ∧
    issuer.calculateDigest P = some digest

variable (P lookup) in
/-- The digest of a root is found. -/
def Trusted (root : Certificate) : Prop := ∃ digest, root.calculateDigest P = some digest ∧ lookup digest ≠ []

variable {subject : Certificate} {n : ℕ}

theorem chainLoop_root (hself : subject.issuerIsSelf = true) :
    chainLoop P findIssuer lookup ecc accepted (n + 1) subject = true ↔
      Trusted P lookup subject ∧ verifyPrimaryCertificate P subject none ecc = true ∧ accepted subject none = true := by
  rw [chainLoop, if_pos hself]
  unfold Trusted
  cases subject.calculateDigest P with
  | none => simp
  | some digest => by_cases hempty : lookup digest = [] <;> simp [hempty]

theorem chainLoop_up (hself : ¬ subject.issuerIsSelf = true) :
    chainLoop P findIssuer lookup ecc accepted (n + 1) subject = true ↔
      ∃ issuer, IssuedBy P findIssuer subject issuer ∧ verifyPrimaryCertificate P subject (some issuer) ecc = true ∧
        accepted subject (some issuer) = true ∧ chainLoop P findIssuer lookup ecc accepted n issuer = true := by
  rw [chainLoop, if_neg hself]
  unfold IssuedBy
  cases subject.issuerDigest with
  | none => simp
  | some digest =>
    cases hfind : findIssuer digest with
    | none => simp [hfind]
    | some issuer =>
      by_cases hdigest : issuer.calculateDigest P = some digest <;> simp [hfind, hdigest, and_assoc]

@[elab_as_elim]
theorem chainLoop_induction {motive : ℕ → Certificate → Prop} {n : ℕ} {subject : Certificate}
    (hloop : chainLoop P findIssuer lookup ecc accepted n subject = true)
    (root : ∀ {n subject}, subject.issuerIsSelf = true → Trusted P lookup subject →
      verifyPrimaryCertificate P subject none ecc = true → accepted subject none = true → motive (n + 1) subject)
    (up : ∀ {n subject issuer}, ¬ subject.issuerIsSelf = true → IssuedBy P findIssuer subject issuer →
      verifyPrimaryCertificate P subject (some issuer) ecc = true → accepted subject (some issuer) = true →
      motive n issuer → motive (n + 1) subject) : motive n subject := by
  induction n generalizing subject with
  | zero => simp [chainLoop] at hloop
  | succ n ih =>
    by_cases hself : subject.issuerIsSelf = true
    · obtain ⟨htrusted, hprimary, haccepted⟩ := (chainLoop_root hself).mp hloop
      exact root hself htrusted hprimary haccepted
    · obtain ⟨issuer, hissued, hprimary, haccepted, hrest⟩ := (chainLoop_up hself).mp hloop
      exact up hself hissued hprimary haccepted (ih hrest)

theorem accepted_of_chainLoop
    (hloop : chainLoop P findIssuer lookup ecc accepted n subject = true) : ∃ issuer, accepted subject issuer = true :=
  chainLoop_induction hloop (fun _ _ _ h => ⟨none, h⟩) fun _ _ _ h _ => ⟨_, h⟩

theorem chainLoop_mono (h : ∀ subject issuer, accepted subject issuer = true → accepted' subject issuer = true)
 (hloop : chainLoop P findIssuer lookup ecc accepted n subject = true) :
    chainLoop P findIssuer lookup ecc accepted' n subject = true :=
  chainLoop_induction hloop
    (fun hself htrusted hprimary haccepted => (chainLoop_root hself).mpr ⟨htrusted, hprimary, h _ _ haccepted⟩)
    fun hself hissued hprimary haccepted ih => (chainLoop_up hself).mpr ⟨_, hissued, hprimary, h _ _ haccepted, ih⟩

theorem exists_path_of_chainLoop
    (hloop : chainLoop P findIssuer lookup ecc accepted n subject = true) :
      ∃ chain root, Path (fun c => c.issuerIsSelf = true) (IssuedBy P findIssuer) subject chain ∧ chain.length ≤ n ∧
        chain.getLast? = some root ∧ Trusted P lookup root ∧
        (verifyPrimaryCertificate P root none ecc = true ∧ accepted root none = true) ∧
        chain.IsChain fun subject issuer => IssuedBy P findIssuer subject issuer ∧
          verifyPrimaryCertificate P subject (some issuer) ecc = true ∧ accepted subject (some issuer) = true := by
  refine chainLoop_induction hloop (fun {n subject} hself htrusted hprimary haccepted => ?_)
    fun {n subject issuer} hself hissued hprimary haccepted ih => ?_
  · exact ⟨[subject], subject, .here hself, by simp, rfl, htrusted, ⟨hprimary, haccepted⟩, List.isChain_singleton _⟩
  · obtain ⟨chain, root, hpath, hlength, hlast, htrusted, hroot, hchain⟩ := ih
    obtain ⟨rest, rfl⟩ := hpath.exists_cons
    refine ⟨subject :: issuer :: rest, root, .up hself hissued hpath, by simpa using hlength, by simpa using hlast,
      htrusted,
      hroot, ?_⟩
    exact List.isChain_cons_cons.mpr ⟨⟨hissued, hprimary, haccepted⟩, hchain⟩

end Walk

/-! ### Policies -/

section Policies

variable {P} {ecc : EccBackend} {pqc : Option Backend} {subject : Certificate} {issuer : Option Certificate}

theorem accepted_required (h : alternativeSignatureIsAccepted P .hybridRequired ecc pqc subject issuer = true) :
    (alternativeMaterialState P subject = .authority ∨ alternativeMaterialState P subject = .endEntity) ∧
      ∃ backend, pqc = some backend ∧ verifyAlternativeCertificate P subject issuer ecc backend = true := by
  unfold alternativeSignatureIsAccepted at h
  rw [if_neg (by decide)] at h
  cases hstate : alternativeMaterialState P subject with
  | inconsistent | none => simp [hstate] at h
  | authority =>
    rw [hstate] at h
    obtain ⟨backend, hbackend, hverify⟩ := (Option.any_eq_true _ _).mp h
    exact ⟨.inl rfl, backend, hbackend, hverify⟩
  | endEntity =>
    rw [hstate] at h
    obtain ⟨backend, hbackend, hverify⟩ := (Option.any_eq_true _ _).mp h
    exact ⟨.inr rfl, backend, hbackend, hverify⟩

theorem accepted_ifPresent_of_required (h : alternativeSignatureIsAccepted P .hybridRequired ecc pqc subject issuer =
    true) :
    alternativeSignatureIsAccepted P .hybridIfPresent ecc pqc subject issuer = true := by
  obtain ⟨hstate, backend, rfl, hverify⟩ := accepted_required h
  unfold alternativeSignatureIsAccepted
  rcases hstate with hstate | hstate
  · simp [hstate, hverify]
  · simp [hstate, hverify]

theorem accepted_classicalOnly : alternativeSignatureIsAccepted P .classicalOnly ecc pqc subject issuer = true := by
  simp [alternativeSignatureIsAccepted]

theorem alternativeMaterialState_spec (h : alternativeMaterialState P subject = .authority ∨
    alternativeMaterialState P subject = .endEntity) :
    ∃ copy, copyCertificate P subject = some copy ∧ (extractAlternativeSignature copy).isSome = true ∧
      if subject.isAtCertificate then copy.altVerificationKey = none
      else (extractAlternativePublicKey copy).isSome = true := by
  unfold alternativeMaterialState at h
  cases hcopy : copyCertificate P subject with
  | none => simp [hcopy] at h
  | some copy =>
    refine ⟨copy, rfl, ?_⟩
    simp only [hcopy] at h
    split_ifs at h with habsent hmalformed hat hmaterial hca hmaterial <;> simp at h
    · rw [if_pos hat]
      simp_all
    · rw [if_neg hat]
      exact ((Bool.and_eq_true _ _).mp hmaterial).symm

theorem altVerificationKey_of_ticket (h : alternativeMaterialState P subject = .authority ∨
    alternativeMaterialState P subject = .endEntity) (hat : subject.isAtCertificate = true) :
    ∃ copy, copyCertificate P subject = some copy ∧ copy.altVerificationKey = none := by
  obtain ⟨copy, hcopy, _, hkey⟩ := alternativeMaterialState_spec h
  rw [if_pos hat] at hkey
  exact ⟨copy, hcopy, hkey⟩

theorem alternativePublicKey_of_ca (h : alternativeMaterialState P subject = .authority ∨
    alternativeMaterialState P subject = .endEntity) (hca : subject.isCaCertificate = true) :
    (getAlternativePublicKey P subject).isSome = true := by
  obtain ⟨copy, hcopy, _, hkey⟩ := alternativeMaterialState_spec h
  have hissue : subject.toBeSigned.certIssuePermissions.isSome = true := hca
  have hat : ¬ subject.isAtCertificate = true := by
    simp [V3.Certificate.isAtCertificate, Option.isSome_iff_ne_none.mp hissue]
  rw [if_neg hat] at hkey
  simpa [getAlternativePublicKey, hcopy] using hkey

theorem alternativeVerified_of_required {backend : Backend} {signer : Certificate}
    (hsigner : signingCertificate subject issuer = some signer)
    (h : alternativeSignatureIsAccepted P .hybridRequired ecc (some backend) subject issuer = true) :
    AlternativeVerified P ecc backend signer subject issuer := by
  obtain ⟨_, backend', hbackend, hverify⟩ := accepted_required h
  cases hbackend
  exact alternativeVerified_of_verify hsigner hverify

end Policies

/-! ### Chains that are signed twice -/

variable {P}

theorem signingCertificate_of_issuedBy {findIssuer : HashedId8 → Option Certificate} {subject issuer : Certificate}
    (h : IssuedBy P findIssuer subject issuer) : signingCertificate subject (some issuer) = some issuer := by
  obtain ⟨digest, hdigest, _⟩ := h
  have hself : subject.issuerIsSelf = false := by
    cases hissuer : subject.issuer with
    | self algorithm => simp [V3.Certificate.issuerDigest, hissuer] at hdigest
    | nothing | sha256AndDigest | sha384AndDigest => simp [V3.Certificate.issuerIsSelf, hissuer]
  simp [signingCertificate, hself]

variable (P) in
/-- The chain of a certificate up to a trusted root, with both signatures of every
certificate verified under the keys of its issuer. -/
structure AuthenticChain (findIssuer : HashedId8 → Option Certificate) (lookup : HashedId8 → List Certificate)
    (ecc : EccBackend) (pqc : Backend) (certificate : Certificate) (chain : List Certificate) : Prop where
  path : Path (fun c => c.issuerIsSelf = true) (IssuedBy P findIssuer) certificate chain
  length_le : chain.length ≤ maximumChainDepth
  root : ∃ root, chain.getLast? = some root ∧ Trusted P lookup root ∧ PrimaryVerified P ecc root root none ∧
    AlternativeVerified P ecc pqc root root none
  signed : chain.IsChain fun subject issuer => PrimaryVerified P ecc issuer subject (some issuer) ∧
    AlternativeVerified P ecc pqc issuer subject (some issuer)
  authorities : ∀ c ∈ chain, c ∈ chain.tail ∨ c.issuerIsSelf = true ∨ c.isCaCertificate = true →
    (getAlternativePublicKey P c).isSome = true
  ticket : certificate.isAtCertificate = true →
    ∃ copy, copyCertificate P certificate = some copy ∧ copy.altVerificationKey = none

theorem AlternativeVerified.key_isSome {ecc : EccBackend} {pqc : Backend} {signer subject : Certificate}
    {issuer : Option Certificate} (h : AlternativeVerified P ecc pqc signer subject issuer) :
    (getAlternativePublicKey P signer).isSome = true := by
  obtain ⟨_, publicKey, _, _, _, _, _, hkey, _⟩ := h
  rw [hkey]
  rfl

theorem isChain_tail {R : Certificate → Certificate → Prop} {p : Certificate → Prop}
    (hp : ∀ subject issuer, R subject issuer → p issuer) :
    ∀ {chain : List Certificate}, chain.IsChain R → ∀ c ∈ chain.tail, p c
  | [], _, _, hc => by simp at hc
  | [_], _, _, hc => by simp at hc
  | a :: b :: rest, h, c, hc => by
    obtain ⟨hab, hrest⟩ := List.isChain_cons_cons.mp h
    rcases List.mem_cons.mp hc with rfl | hc
    · exact hp a c hab
    · exact isChain_tail hp hrest c hc

namespace HybridCertificateValidator

variable {v : HybridCertificateValidator} {certificate : Certificate} {aid : ItsAid}

theorem validForSigning_eq_valid : v.validForSigning P certificate aid = .valid ↔
    v.policyVerdict certificate aid = .valid ∧ ∃ findIssuer lookup ecc, v.issuerLookup = some findIssuer ∧
      v.trustStore = some lookup ∧ v.eccBackend = some ecc ∧
      (v.verificationPolicy ≠ .classicalOnly → v.pqcBackend.isSome = true) ∧
      chainLoop P findIssuer lookup ecc (alternativeSignatureIsAccepted P v.verificationPolicy ecc v.pqcBackend)
        maximumChainDepth certificate = true := by
  unfold validForSigning
  by_cases hpolicy : v.policyVerdict certificate aid = .valid
  · simp only [hpolicy, ne_eq, not_true_eq_false, if_false, true_and]
    cases v.issuerLookup with
    | none => simp
    | some findIssuer =>
      cases v.trustStore with
      | none => simp
      | some lookup =>
        cases v.eccBackend with
        | none => simp
        | some ecc =>
          by_cases hpqc : ¬ v.verificationPolicy = .classicalOnly ∧ v.pqcBackend.isNone = true
          · obtain ⟨hne, hnone⟩ := hpqc
            simp [hne, Option.isNone_iff_eq_none.mp hnone]
          · have hsome : ¬ v.verificationPolicy = .classicalOnly → v.pqcBackend.isSome = true := by
              intro hne
              by_contra hnone
              exact hpqc ⟨hne, by simpa using hnone⟩
            simp only [if_neg hpqc]
            by_cases hloop : chainLoop P findIssuer lookup ecc
                (alternativeSignatureIsAccepted P v.verificationPolicy ecc v.pqcBackend) maximumChainDepth certificate =
                  true
            · simpa [hloop] using hsome
            · simp [hloop]
  · simp [hpolicy]

theorem exists_authenticChain
    (h : (v.useVerificationPolicy .hybridRequired).validForSigning P certificate aid = .valid) :
    ∃ findIssuer lookup ecc pqc chain, v.issuerLookup = some findIssuer ∧ v.trustStore = some lookup ∧
      v.eccBackend = some ecc ∧ v.pqcBackend = some pqc ∧ AuthenticChain P findIssuer lookup ecc pqc
        certificate chain := by
  obtain ⟨_, findIssuer, lookup, ecc, hissuer, hstore, hecc, hpqc, hloop⟩ := validForSigning_eq_valid.mp h
  obtain ⟨pqc, hpqc⟩ := Option.isSome_iff_exists.mp
    (hpqc (show VerificationPolicy.hybridRequired ≠ .classicalOnly by decide))
  rw [hpqc] at hloop
  obtain ⟨chain, root, hpath, hlength, hlast, htrusted, ⟨hprimary, haccepted⟩, hchain⟩ := exists_path_of_chainLoop hloop
  obtain ⟨_, hfirst⟩ := accepted_of_chainLoop hloop
  have hhead := (accepted_required hfirst).1
  have hself : root.issuerIsSelf = true := by
    obtain ⟨r, hr, hself⟩ := hpath.exists_root
    rw [hlast] at hr
    cases hr
    exact hself
  have hsigner : signingCertificate root none = some root := by simp [signingCertificate, hself]
  have hroot : AlternativeVerified P ecc pqc root root none := alternativeVerified_of_required hsigner haccepted
  have hsigned : chain.IsChain fun subject issuer => PrimaryVerified P ecc issuer subject (some issuer) ∧
      AlternativeVerified P ecc pqc issuer subject (some issuer) := by
    refine hchain.imp ?_
    rintro subject issuer ⟨hissued, hprimary, haccepted⟩
    have hsigner := signingCertificate_of_issuedBy hissued
    exact ⟨primaryVerified_of_verify hsigner hprimary, alternativeVerified_of_required hsigner haccepted⟩
  refine ⟨findIssuer, lookup, ecc, pqc, chain, hissuer, hstore, hecc, hpqc, hpath, hlength,
    ⟨root, hlast, htrusted, primaryVerified_of_verify hsigner hprimary, hroot⟩, hsigned, ?_, ?_⟩
  · intro c hc hauthority
    by_cases htail : c ∈ chain.tail
    · exact isChain_tail (fun _ _ h => h.2.key_isSome) hsigned c htail
    -- it is the signing certificate itself
    obtain ⟨rest, rfl⟩ := hpath.exists_cons
    obtain rfl : c = certificate := (List.mem_cons.mp hc).resolve_right htail
    rcases hauthority with htail' | hself' | hca
    · exact absurd htail' htail
    · cases hpath with
      | here _ =>
        cases hlast
        exact hroot.key_isSome
      | up hnself _ _ => exact absurd hself' hnself
    · exact alternativePublicKey_of_ca hhead hca
  · exact altVerificationKey_of_ticket hhead

/-- **Verdicts of the hybrid validator.** Valid under `hybridRequired` means a chain to a trusted
root whose certificates are all signed twice, and stays so under the weaker policies. -/
theorem verdicts_sound_and_ordered (P : Platform) (v : HybridCertificateValidator) (certificate : Certificate)
    (aid : ItsAid) :
    ((v.useVerificationPolicy .hybridRequired).validForSigning P certificate aid = .valid →
      ∃ findIssuer lookup ecc pqc chain, v.issuerLookup = some findIssuer ∧ v.trustStore = some lookup ∧
        v.eccBackend = some ecc ∧ v.pqcBackend = some pqc ∧
        AuthenticChain P findIssuer lookup ecc pqc certificate chain) ∧
    ((v.useVerificationPolicy .hybridRequired).validForSigning P certificate aid = .valid →
      (v.useVerificationPolicy .hybridIfPresent).validForSigning P certificate aid = .valid) ∧
    ((v.useVerificationPolicy .hybridIfPresent).validForSigning P certificate aid = .valid →
      (v.useVerificationPolicy .classicalOnly).validForSigning P certificate aid = .valid) := by
  refine ⟨exists_authenticChain, ?_, ?_⟩
  · intro h
    obtain ⟨hpolicy, findIssuer, lookup, ecc, hissuer, hstore, hecc, hpqc, hloop⟩ := validForSigning_eq_valid.mp h
    have hpqc' := hpqc (show VerificationPolicy.hybridRequired ≠ .classicalOnly by decide)
    exact validForSigning_eq_valid.mpr ⟨hpolicy, findIssuer, lookup, ecc, hissuer, hstore, hecc, fun _ => hpqc',
      chainLoop_mono (fun _ _ => accepted_ifPresent_of_required) hloop⟩
  · intro h
    obtain ⟨hpolicy, findIssuer, lookup, ecc, hissuer, hstore, hecc, _, hloop⟩ := validForSigning_eq_valid.mp h
    exact validForSigning_eq_valid.mpr ⟨hpolicy, findIssuer, lookup, ecc, hissuer, hstore, hecc, fun hne =>
      absurd rfl hne,
      chainLoop_mono (fun _ _ _ => accepted_classicalOnly) hloop⟩

/-! ### A chain of three -/

/-- A root, an authority and a ticket with alternative material. -/
def sampleChain (mark : UInt8) : Certificate :=
  if mark = 1 then
    { V3.sampleRoot none with
      rest := [mark]
      altVerificationKey := some (.fnDsa512 (List.replicate 897 0))
      altSignatureValue := some (.fnDsa512Signature (List.replicate 666 0)) }
  else if mark = 2 then
    { V3.sampleAuthority ⟨0, .years, 1⟩ none with
      rest := [mark]
      altVerificationKey := some (.fnDsa512 (List.replicate 897 0))
      altSignatureValue := some (.fnDsa512Signature (List.replicate 666 0)) }
  else
    { V3.sampleTicket ⟨0, .hours, 2⟩ none with
      rest := [mark]
      altSignatureValue := some (.fnDsa512Signature (List.replicate 666 0)) }

/-- A certificate is encoded as its mark, and a hash repeats the first octet. -/
def samplePlatform : Platform where
  encodeCertificate c := some c.rest
  decodeCertificate octets := octets.head?.map sampleChain
  encodeToBeSigned tbs := some tbs.rest
  sha256 octets := Vector.replicate 32 (octets.headD 0)
  sha384 octets := Vector.replicate 48 (octets.headD 0)

/-- A validator that knows the root and the authority; its backends verify everything. -/
def sampleValidator : HybridCertificateValidator where
  policyVerdict _ _ := .valid
  issuerLookup := some fun digest => some (sampleChain (digest.toList.headD 0))
  trustStore := some fun digest => if digest = Vector.replicate 8 1 then [sampleChain 1] else []
  eccBackend := some { calculateHash := fun _ octets => some octets, verifyDigest := fun _ _ _ => some true }
  pqcBackend := some { verify := fun _ _ _ => some true }

/-- The ticket is valid under each of the policies. -/
theorem verdicts_sound_and_ordered_three :
    (∃ findIssuer lookup ecc pqc chain, sampleValidator.issuerLookup = some findIssuer ∧
        sampleValidator.trustStore = some lookup ∧ sampleValidator.eccBackend = some ecc ∧
        sampleValidator.pqcBackend = some pqc ∧
        AuthenticChain samplePlatform findIssuer lookup ecc pqc (sampleChain 3) chain) ∧
      (sampleValidator.useVerificationPolicy .classicalOnly).validForSigning samplePlatform (sampleChain 3) Aid.CA =
        .valid := by
  have hvalid : (sampleValidator.useVerificationPolicy .hybridRequired).validForSigning samplePlatform
    (sampleChain 3) Aid.CA =
      .valid := by decide +kernel
  have h := verdicts_sound_and_ordered samplePlatform sampleValidator (sampleChain 3) Aid.CA
  exact ⟨h.1 hvalid, h.2.2 (h.2.1 hvalid)⟩

end HybridCertificateValidator

end VanetzaIdf.Pqc
