/-
# Reading a certificate

The members of `CertificateView` and the free functions of
`vanetza/security/v3/certificate.cpp` that read one field or search one list:
who issued the certificate, when it is valid, what it permits, and the keys
and signatures in the form the backend takes them. Lists hold no null
entries, as the decoder leaves them.
-/
import VanetzaIdf.V3.Types

namespace VanetzaIdf.V3

/-! ### Keys and signatures -/

def copyCurvePoint (type : KeyType) : EccCurvePoint → Option PublicKey
  | .compressedY0 x => some { type, compression := .y0, x }
  | .compressedY1 x => some { type, compression := .y1, x }
  | .uncompressed x y => some { type, compression := .noCompression, x, y }
  | _ => none

def getXCoordinate : EccCurvePoint → ByteBuffer
  | .compressedY0 x | .compressedY1 x | .xOnly x | .uncompressed x _ => x
  | _ => []

/-- `get_signature` of a certificate and `SecuredMessage::signature`. -/
def Signature.toEcdsa : Signature → Option EcdsaSignature
  | .ecdsaNistP256Signature r s => some ⟨.nistP256, getXCoordinate r, s⟩
  | .ecdsaBrainpoolP256r1Signature r s => some ⟨.brainpoolP256r1, getXCoordinate r, s⟩
  | .ecdsaBrainpoolP384r1Signature r s => some ⟨.brainpoolP384r1, getXCoordinate r, s⟩
  | .nothing => none

namespace Certificate

variable (c : Certificate)

def getVerificationKeyType : KeyType :=
  match c.toBeSigned.verifyKeyIndicator with
  | .verificationKey (.ecdsaNistP256 _) => .nistP256
  | .verificationKey (.ecdsaBrainpoolP256r1 _) => .brainpoolP256r1
  | .verificationKey (.ecdsaBrainpoolP384r1 _) => .brainpoolP384r1
  | _ => .unspecified

def getPublicKey : Option PublicKey :=
  match c.toBeSigned.verifyKeyIndicator with
  | .verificationKey (.ecdsaNistP256 point) => copyCurvePoint .nistP256 point
  | .verificationKey (.ecdsaBrainpoolP256r1 point) => copyCurvePoint .brainpoolP256r1 point
  | .verificationKey (.ecdsaBrainpoolP384r1 point) => copyCurvePoint .brainpoolP384r1 point
  | _ => none

def getSignature : Option EcdsaSignature := c.signature.bind Signature.toEcdsa

/-! ### The issuer -/

def issuerDigest : Option HashedId8 :=
  match c.issuer with
  | .sha256AndDigest digest | .sha384AndDigest digest => some digest
  | _ => none

def issuerIsSelf : Bool :=
  match c.issuer with
  | .self _ => true
  | _ => false

/-! ### Validity -/

def validAtTimepoint (tp : TimePoint) : Bool := c.toBeSigned.validityPeriod.validAtTimepoint tp

/-- `get_start_and_end_validity().start_validity`. -/
def startValidity : ℕ := c.toBeSigned.validityPeriod.start.toNat

/-- `get_start_and_end_validity().end_validity`. -/
def endValidity : ℕ := c.toBeSigned.validityPeriod.endValidity

/-- `assurance_level`: the first octet of the field. -/
def assuranceLevel : Option UInt8 := c.toBeSigned.assuranceLevel.bind List.head?

def hasRegionRestriction : Bool := c.toBeSigned.region.isSome

/-! ### Permissions -/

def isCaCertificate : Bool := c.toBeSigned.certIssuePermissions.isSome

def isAtCertificate : Bool :=
  c.toBeSigned.certIssuePermissions.isNone && c.toBeSigned.appPermissions.isSome

def validForApplication (aid : ItsAid) : Bool :=
  (c.toBeSigned.appPermissions.getD []).any (·.psid == aid)

def isAllowedToIssue (aid : ItsAid) : Bool :=
  (c.toBeSigned.certIssuePermissions.getD []).any fun group =>
    match group.subjectPermissions with
    | .all => true
    | .explicit ranges => ranges.any (·.psid == aid)
    | .nothing => false

/-- `get_app_permissions`: the octets of the first entry for this ITS-AID that
has any. -/
def getAppPermissions (aid : ItsAid) : ByteBuffer :=
  ((c.toBeSigned.appPermissions.getD []).findSome? fun entry =>
    if entry.psid = aid then
      match entry.ssp with
      | some (.bitmapSsp octets) | some (.opaqueSsp octets) => some octets
      | _ => none
    else none).getD []

end Certificate
end VanetzaIdf.V3
