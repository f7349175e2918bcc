/-
# Certificates with two signatures

`security/pqc/hybrid_certificate.cpp`: beside the ECC key and signature there are
an FN-DSA-512 key and signature. The inner (alternative) signature covers the
certificate without it, the outer (primary) one covers it. An exception is `none`.
`PrimaryVerified` and `AlternativeVerified` say what success means. Codec, hash
functions and backends are parameters.
-/
import VanetzaIdf.V3.SecurityEntity

namespace VanetzaIdf.Pqc

open Option

/-! ### Certificates -/

structure PublicKey where
  bytes : ByteBuffer
deriving DecidableEq, Repr

/-- `pqc::Signature`. -/
structure Signature where
  bytes : ByteBuffer
deriving DecidableEq, Repr

def fndsa512PublicKeySize : ℕ := 897

def fndsa512SignatureSize : ℕ := 666

/-- `altVerificationKey`: a `PublicVerificationKey`. -/
inductive AltVerificationKey
  | fnDsa512 (octets : ByteBuffer)
  | other (key : V3.PublicVerificationKey)
deriving DecidableEq, Repr

/-- `altSignatureValue`: a `Signature`. -/
inductive AltSignatureValue
  | fnDsa512Signature (octets : ByteBuffer)
  | other (signature : V3.Signature)
deriving DecidableEq, Repr

/-- `EtsiTs103097Certificate` of the experimental profile. -/
structure Certificate extends V3.Certificate where
  altVerificationKey : Option AltVerificationKey := none
  altSignatureValue : Option AltSignatureValue := none
deriving DecidableEq, Repr

/-- `ToBeSignedCertificate` of the experimental profile. -/
structure ToBeSignedCertificate extends V3.ToBeSignedCertificate where
  altVerificationKey : Option AltVerificationKey := none
  altSignatureValue : Option AltSignatureValue := none

def Certificate.tbs (c : Certificate) : ToBeSignedCertificate :=
  { c.toBeSigned with altVerificationKey := c.altVerificationKey, altSignatureValue := c.altSignatureValue }

inductive SignatureLayer
  | alternative | primary
deriving DecidableEq, Repr

inductive MaterialState
  | none | authority | endEntity | inconsistent
deriving DecidableEq, Repr

/-! ### The platform -/

/-- The codec, where `none` is an exception or a failure to decode, and the
hash functions of `sha.hpp`. -/
structure Platform where
  encodeCertificate : Certificate → Option ByteBuffer
  decodeCertificate : ByteBuffer → Option Certificate
  encodeToBeSigned : ToBeSignedCertificate → Option ByteBuffer
  sha256 : ByteBuffer → Vector UInt8 32
  sha384 : ByteBuffer → Vector UInt8 48

/-- `security::Backend`; `none` is an exception. -/
structure EccBackend where
  calculateHash : HashAlgorithm → ByteBuffer → Option ByteBuffer
  verifyDigest : V3.PublicKey → ByteBuffer → V3.EcdsaSignature → Option Bool

/-- `pqc::Backend`; `none` is an exception. -/
structure Backend where
  verify : PublicKey → ByteBuffer → Signature → Option Bool

variable (P : Platform)

namespace Certificate

def canonicalize (c : Certificate) : Option Certificate :=
  c.toCertificate.canonicalize.map fun canonical => { c with toCertificate := canonical }

def calculateDigestInternal (c : Certificate) (algorithm : HashAlgorithm) : Option HashedId8 :=
  (P.encodeCertificate c).bind fun buffer =>
    match algorithm with
    | .sha256 => some (V3.createHashedId8 (P.sha256 buffer))
    | .sha384 => some (V3.createHashedId8 (P.sha384 buffer))
    | .unspecified => none

def calculateDigest (c : Certificate) : Option HashedId8 :=
  if c.digestHashAlgorithm = .unspecified then none
  else if c.isCanonical then calculateDigestInternal P c c.digestHashAlgorithm
  else c.canonicalize.bind fun canonical => calculateDigestInternal P canonical c.digestHashAlgorithm

end Certificate

/-! ### Alternative material -/

variable (view : Certificate)

def copyCertificate : Option Certificate := (P.encodeCertificate view).bind P.decodeCertificate

variable (certificate : Certificate)

def extractAlternativePublicKey : Option PublicKey :=
  match certificate.altVerificationKey with
  | some (.fnDsa512 octets) => if octets.length = fndsa512PublicKeySize then some ⟨octets⟩ else none
  | _ => none

def extractAlternativeSignature : Option Signature :=
  match certificate.altSignatureValue with
  | some (.fnDsa512Signature octets) => if octets.length = fndsa512SignatureSize then some ⟨octets⟩ else none
  | _ => none

def getAlternativePublicKey : Option PublicKey :=
  (copyCertificate P view).bind extractAlternativePublicKey

def getAlternativeSignature : Option Signature :=
  (copyCertificate P view).bind extractAlternativeSignature

def alternativeMaterialState : MaterialState :=
  match copyCertificate P view with
  | none => .inconsistent
  | some certificate =>
    let keyPresent := certificate.altVerificationKey.isSome
    let signaturePresent := certificate.altSignatureValue.isSome
    let hasKey := (extractAlternativePublicKey certificate).isSome
    let hasSignature := (extractAlternativeSignature certificate).isSome
    if !keyPresent && !signaturePresent then .none
    else if keyPresent != hasKey || signaturePresent != hasSignature then .inconsistent
    else if view.isAtCertificate then
      if !hasKey && hasSignature then .endEntity else .inconsistent
    else if view.issuerIsSelf || view.isCaCertificate then
      if hasKey && hasSignature then .authority else .inconsistent
    else .inconsistent

def clearAlternativeSignature : Certificate := { certificate with altSignatureValue := none }

/-! ### Hashes -/

def signingCertificate (subject : Certificate) (issuer : Option Certificate) : Option Certificate :=
  if subject.issuerIsSelf then some subject else issuer

def canonicalTbs (subject : Certificate) (layer : SignatureLayer) : Option ByteBuffer := do
  let certificate ← copyCertificate P subject
  let certificate := if layer = .alternative then clearAlternativeSignature certificate else certificate
  let canonical ← certificate.canonicalize
  P.encodeToBeSigned canonical.tbs

def canonicalIssuer (subject : Certificate) (issuer : Option Certificate) : Option ByteBuffer :=
  if subject.issuerIsSelf then some []
  else do
    let issuer ← issuer
    let expectedDigest ← subject.issuerDigest
    let actualDigest ← issuer.calculateDigest P
    if expectedDigest ≠ actualDigest then none
    else do
      let canonical ← issuer.canonicalize
      P.encodeCertificate canonical

variable (backend : EccBackend)

def hashInputs (algorithm : HashAlgorithm) (dataInput signerInput : ByteBuffer) : Option ByteBuffer := do
  let dataHash ← backend.calculateHash algorithm dataInput
  let signerHash ← backend.calculateHash algorithm signerInput
  backend.calculateHash algorithm (dataHash ++ signerHash)

def calculateCertificateHash (algorithm : HashAlgorithm) (subject : Certificate)
    (issuer : Option Certificate) (layer : SignatureLayer) : Option ByteBuffer :=
  if algorithm = .unspecified then none
  else do
    let dataInput ← canonicalTbs P subject layer
    let signerInput ← canonicalIssuer P subject issuer
    hashInputs backend algorithm dataInput signerInput

/-! ### Verification -/

/-- The body of `verify_primary_certificate`, before exceptions are caught. -/
def primaryVerification (subject : Certificate) (issuer : Option Certificate) (backend : EccBackend) : Option Bool := do
  let signer ← signingCertificate subject issuer
  let signerCopy ← copyCertificate P signer
  let subjectCopy ← copyCertificate P subject
  match signerCopy.getPublicKey, subjectCopy.getSignature with
  | some publicKey, some signature =>
    if publicKey.type ≠ signature.type then some false
    else do
      let algorithm := V3.SecurityEntity.specifiedHashAlgorithm publicKey.type
      let digest ← calculateCertificateHash P backend algorithm subject issuer .primary
      backend.verifyDigest publicKey digest signature
  | _, _ => some false

def verifyPrimaryCertificate (subject : Certificate) (issuer : Option Certificate) (backend : EccBackend) : Bool :=
  (primaryVerification P subject issuer backend).getD false

/-- The body of `verify_alternative_certificate`, before exceptions are caught. -/
def alternativeVerification (subject : Certificate) (issuer : Option Certificate) (hashBackend : EccBackend)
    (backend : Backend) : Option Bool := do
  let signer ← signingCertificate subject issuer
  match getAlternativePublicKey P signer, getAlternativeSignature P subject with
  | some publicKey, some signature => do
    let digest ← calculateCertificateHash P hashBackend .sha256 subject issuer .alternative
    backend.verify publicKey digest signature
  | _, _ => some false

def verifyAlternativeCertificate (subject : Certificate) (issuer : Option Certificate) (hashBackend : EccBackend)
    (backend : Backend) : Bool :=
  (alternativeVerification P subject issuer hashBackend backend).getD false

/-! ### What verification says -/

/-- The ECC signature verifies under the key of the signer, over the hash of the
whole certificate. -/
def PrimaryVerified (signer subject : Certificate) (issuer : Option Certificate) : Prop :=
  ∃ signerCopy subjectCopy publicKey signature canonical dataInput signerInput digest,
    copyCertificate P signer = some signerCopy ∧ signerCopy.getPublicKey = some publicKey ∧
    copyCertificate P subject = some subjectCopy ∧ subjectCopy.getSignature = some signature ∧
    subjectCopy.canonicalize = some canonical ∧ P.encodeToBeSigned canonical.tbs = some dataInput ∧
    canonicalIssuer P subject issuer = some signerInput ∧
    hashInputs backend (V3.SecurityEntity.specifiedHashAlgorithm publicKey.type) dataInput signerInput = some digest ∧
    backend.verifyDigest publicKey digest signature = some true

/-- The FN-DSA signature verifies under the alternative key of the signer, over the
hash of the certificate without `altSignatureValue`. -/
def AlternativeVerified (hashBackend : EccBackend) (backend : Backend) (signer subject : Certificate)
    (issuer : Option Certificate) : Prop :=
  ∃ subjectCopy publicKey signature canonical dataInput signerInput digest,
    getAlternativePublicKey P signer = some publicKey ∧
    copyCertificate P subject = some subjectCopy ∧ extractAlternativeSignature subjectCopy = some signature ∧
    { subjectCopy with altSignatureValue := none }.canonicalize = some canonical ∧
    P.encodeToBeSigned canonical.tbs = some dataInput ∧ canonicalIssuer P subject issuer = some signerInput ∧
    hashInputs hashBackend .sha256 dataInput signerInput = some digest ∧
    backend.verify publicKey digest signature = some true

variable {P} {signer subject : Certificate} {issuer : Option Certificate} {ecc : EccBackend} {pqc : Backend}

theorem calculateCertificateHash_eq_some {algorithm : HashAlgorithm} {layer : SignatureLayer} {digest : ByteBuffer}
    (h : calculateCertificateHash P ecc algorithm subject issuer layer = some digest) :
    ∃ copy canonical dataInput signerInput, copyCertificate P subject = some copy ∧
      (if layer = .alternative then clearAlternativeSignature copy else copy).canonicalize = some canonical ∧
      P.encodeToBeSigned canonical.tbs = some dataInput ∧ canonicalIssuer P subject issuer = some signerInput ∧
      hashInputs ecc algorithm dataInput signerInput = some digest := by
  unfold calculateCertificateHash at h
  by_cases halgorithm : algorithm = .unspecified
  · rw [if_pos halgorithm] at h
    cases h
  · rw [if_neg halgorithm] at h
    obtain ⟨dataInput, hdata, h⟩ := bind_eq_some_iff.mp h
    obtain ⟨signerInput, hsigner, hdigest⟩ := bind_eq_some_iff.mp h
    obtain ⟨copy, hcopy, hdata⟩ := bind_eq_some_iff.mp hdata
    obtain ⟨canonical, hcanonical, hdata⟩ := bind_eq_some_iff.mp hdata
    exact ⟨copy, canonical, dataInput, signerInput, hcopy, hcanonical, hdata, hsigner, hdigest⟩

theorem eq_some_true_of_getD {body : Option Bool} (h : body.getD false = true) : body = some true := by
  cases body with
  | none => cases h
  | some b => exact congrArg some h

theorem primaryVerified_of_verify (hsigner : signingCertificate subject issuer = some signer)
    (h : verifyPrimaryCertificate P subject issuer ecc = true) : PrimaryVerified P ecc signer subject issuer := by
  have hbody : primaryVerification P subject issuer ecc = some true := eq_some_true_of_getD h
  obtain ⟨signer', hsigner', hbody⟩ := bind_eq_some_iff.mp hbody
  obtain rfl : signer = signer' := some.inj (hsigner.symm.trans hsigner')
  obtain ⟨signerCopy, hsignerCopy, hbody⟩ := bind_eq_some_iff.mp hbody
  obtain ⟨subjectCopy, hsubjectCopy, hbody⟩ := bind_eq_some_iff.mp hbody
  cases hkey : signerCopy.getPublicKey with
  | none => simp [hkey] at hbody
  | some publicKey =>
    cases hsignature : subjectCopy.getSignature with
    | none => simp [hkey, hsignature] at hbody
    | some signature =>
      by_cases htype : publicKey.type = signature.type
      · simp only [hkey, hsignature, htype, ne_eq, not_true_eq_false, if_false] at hbody
        rw [← htype] at hbody
        obtain ⟨digest, hdigest, hverify⟩ := bind_eq_some_iff.mp hbody
        obtain ⟨copy, canonical, dataInput, signerInput, hcopy, hcanonical, hdata, hinput, hhash⟩ :=
          calculateCertificateHash_eq_some hdigest
        obtain rfl : subjectCopy = copy := some.inj (hsubjectCopy.symm.trans hcopy)
        exact ⟨signerCopy, subjectCopy, publicKey, signature, canonical, dataInput, signerInput, digest,
          hsignerCopy, hkey,
          hsubjectCopy, hsignature, hcanonical, hdata, hinput, hhash, hverify⟩
      · simp [hkey, hsignature, htype] at hbody

theorem alternativeVerified_of_verify (hsigner : signingCertificate subject issuer = some signer)
    (h : verifyAlternativeCertificate P subject issuer ecc pqc = true) :
    AlternativeVerified P ecc pqc signer subject issuer := by
  have hbody : alternativeVerification P subject issuer ecc pqc = some true := eq_some_true_of_getD h
  obtain ⟨signer', hsigner', hbody⟩ := bind_eq_some_iff.mp hbody
  obtain rfl : signer = signer' := some.inj (hsigner.symm.trans hsigner')
  cases hkey : getAlternativePublicKey P signer with
  | none => simp [hkey] at hbody
  | some publicKey =>
    cases hsignature : getAlternativeSignature P subject with
    | none => simp [hkey, hsignature] at hbody
    | some signature =>
      simp only [hkey, hsignature] at hbody
      obtain ⟨digest, hdigest, hverify⟩ := bind_eq_some_iff.mp hbody
      obtain ⟨copy, canonical, dataInput, signerInput, hcopy, hcanonical, hdata, hinput, hhash⟩ :=
        calculateCertificateHash_eq_some hdigest
      obtain ⟨copy', hcopy', hextract⟩ := bind_eq_some_iff.mp hsignature
      obtain rfl : copy = copy' := some.inj (hcopy.symm.trans hcopy')
      exact ⟨copy, publicKey, signature, canonical, dataInput, signerInput, digest, hkey, hcopy, hextract,
        hcanonical, hdata,
        hinput, hhash, hverify⟩

end VanetzaIdf.Pqc
