/-
# Secured messages

What the security entity reads of a `v3::SecuredMessage`
(`vanetza/security/v3/secured_message.cpp`), the profile check of TS 103 097
(`check_profile` of `ports/esp_idf/src/security.cpp`), and the hash that a
message's signature is over (`calculate_message_hash`).
-/
import VanetzaIdf.V3.Canonical

namespace VanetzaIdf.V3

inductive VerificationReport
  | success | falseSignature | invalidCertificate | revokedCertificate | inconsistentChain | invalidTimestamp
  | duplicateMessage | invalidMobilityData | unsignedMessage | signerCertificateNotFound
  | unsupportedSignerIdentifierType | incompatibleProtocol | configurationProblem
deriving DecidableEq, Repr

inductive CertificateInvalidReason
  | brokenTimePeriod | offTimePeriod | unknownSigner | missingSignature | missingPublicKey | invalidSigner | invalidName
  | excessiveChainLength | offRegion | inconsistentWithSigner | insufficientItsAid | missingSubjectAssurance
deriving DecidableEq, Repr

namespace SecuredMessage

variable (m : SecuredMessage)

def signedData : Option SignedData :=
  match m.content with
  | .signedData data => some data
  | _ => none

/-- `its_aid`: the PSID in 32 bits. -/
def itsAid : ItsAid := (m.signedData.map fun data => data.tbsData.headerInfo.psid % 2 ^ 32).getD 0

def generationTime : Option UInt64 := m.signedData.bind (·.tbsData.headerInfo.generationTime)

end SecuredMessage

namespace SignerIdentifier

/-- The inline certificate of `signer_identifier`: exactly one. -/
def inlineCertificate : SignerIdentifier → Option Certificate
  | .certificate [c] => some c
  | _ => none

def certificateId (P : Platform) : SignerIdentifier → Option HashedId8
  | .digest d => some d
  | .certificate [c] => c.calculateDigest P
  | _ => none

end SignerIdentifier

/-- The octets of the signing certificate that a signature covers: of the canonical form, or none.
-/
def encodeSigner (P : Platform) (c : Certificate) : Option ByteBuffer :=
  if c.isCanonical then P.encodeCertificate c else c.canonicalize.elim (some []) P.encodeCertificate

/-- `calculate_message_hash` of the data to be signed; `none` is the exception
of an encoder. -/
def calculateMessageHash (P : Platform) (hash : HashAlgorithm) (tbsData : ToBeSignedData) (signer : Certificate) :
    Option ByteBuffer := do
  let payload ← P.encodeToBeSignedData tbsData
  let encoded ← encodeSigner P signer
  return P.calculateHash hash (P.calculateHash hash payload ++ P.calculateHash hash encoded)

/-! ### The profile -/

/-- The payload is data of protocol version 3 or an external hash. -/
def SignedDataPayload.wellFormed (payload : SignedDataPayload) : Bool :=
  match payload.data with
  | some (version, _) => version == 3
  | none => payload.extDataHash.isSome

/-- The hash algorithm goes with the kind of signature. -/
def SignedData.hashFits (data : SignedData) : Bool :=
  match data.signature with
  | .ecdsaNistP256Signature _ _ | .ecdsaBrainpoolP256r1Signature _ _ => data.hashId != .sha384
  | .ecdsaBrainpoolP384r1Signature _ _ => data.hashId == .sha384
  | .nothing => false

/-- The clauses of `check_profile` on CAMs and DENMs. -/
def SignedData.fitsService (data : SignedData) (aid : ItsAid) : Bool :=
  let header := data.tbsData.headerInfo
  if aid = Aid.CA then header.expiryTime.isNone && header.generationLocation.isNone && header.encryptionKey.isNone
  else if aid = Aid.DEN then
    header.generationLocation.isSome && header.expiryTime.isNone && header.encryptionKey.isNone &&
      (match data.signer with | .certificate _ => true | _ => false)
  else true

def checkProfile (m : SecuredMessage) : VerificationReport :=
  if m.protocolVersion ≠ 3 then .incompatibleProtocol
  else
    match m.signedData with
    | none => .unsignedMessage
    | some data =>
      let header := data.tbsData.headerInfo
      if !data.tbsData.payload.any SignedDataPayload.wellFormed then .incompatibleProtocol
      else if !data.hashFits then .incompatibleProtocol
      else if header.generationTime.isNone then .invalidTimestamp
      else if header.p2pcdLearningRequest.isSome || header.missingCrlIdentifier.isSome then .incompatibleProtocol
      else
        match data.signer with
        | .digest _ | .certificate _ => if data.fitsService m.itsAid then .success else .incompatibleProtocol
        | .nothing | .self => .unsupportedSignerIdentifierType

theorem checkProfile_ne_falseSignature (m : SecuredMessage) : checkProfile m ≠ .falseSignature := by
  unfold checkProfile
  -- every branch ends in a report of its own
  grind

theorem signedData_of_profile {m : SecuredMessage} (h : checkProfile m = .success) :
    ∃ data, m.signedData = some data := by
  unfold checkProfile at h
  split_ifs at h
  cases hd : m.signedData with
  | none => simp [hd] at h
  | some data => exact ⟨data, rfl⟩

end VanetzaIdf.V3
