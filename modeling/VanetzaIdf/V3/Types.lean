/-
# Certificates and messages

The types of IEEE 1609.2 as the ASN.1 compiler lays them out: a CHOICE is an
inductive type whose `nothing` is `PR_NOTHING`, an OPTIONAL field an `Option`.
Octets of fields that nothing reads are kept together in `rest`. `Platform` is what
the code calls and does not define; an encoder that throws answers `none`.
-/
import VanetzaIdf.CertificatePool

namespace VanetzaIdf

/-- `security::HashedId3`: the last three octets of a certificate's hash. -/
abbrev HashedId3 := Vector UInt8 3

/-- `ItsAid`, a 32-bit number. -/
abbrev ItsAid := ℕ

namespace Aid

def CA : ItsAid := 36
def DEN : ItsAid := 37
def VRU : ItsAid := 638

end Aid

inductive HashAlgorithm
  | unspecified | sha256 | sha384
deriving DecidableEq, Repr

namespace V3

/-! ### Keys and signatures -/

/-- `EccP256CurvePoint` and `EccP384CurvePoint`; they differ in the number of
octets only. -/
inductive EccCurvePoint
  | nothing
  | xOnly (x : ByteBuffer)
  | fill
  | compressedY0 (x : ByteBuffer)
  | compressedY1 (x : ByteBuffer)
  | uncompressed (x y : ByteBuffer)
deriving DecidableEq, Repr

inductive PublicVerificationKey
  | nothing
  | ecdsaNistP256 (point : EccCurvePoint)
  | ecdsaBrainpoolP256r1 (point : EccCurvePoint)
  | ecdsaBrainpoolP384r1 (point : EccCurvePoint)
deriving DecidableEq, Repr

inductive VerificationKeyIndicator
  | nothing
  | verificationKey (key : PublicVerificationKey)
  | reconstructionValue (point : EccCurvePoint)
deriving DecidableEq, Repr

inductive BasePublicEncryptionKey
  | nothing
  | eciesNistP256 (point : EccCurvePoint)
  | eciesBrainpoolP256r1 (point : EccCurvePoint)
deriving DecidableEq, Repr

inductive Signature
  | nothing
  | ecdsaNistP256Signature (rSig : EccCurvePoint) (sSig : ByteBuffer)
  | ecdsaBrainpoolP256r1Signature (rSig : EccCurvePoint) (sSig : ByteBuffer)
  | ecdsaBrainpoolP384r1Signature (rSig : EccCurvePoint) (sSig : ByteBuffer)
deriving DecidableEq, Repr

inductive KeyCompression
  | noCompression | y0 | y1
deriving DecidableEq, Repr

structure PublicKey where
  type : KeyType
  compression : KeyCompression
  x : ByteBuffer
  y : ByteBuffer := []
deriving DecidableEq, Repr

/-- `security::Signature`, as the backend takes it. -/
structure EcdsaSignature where
  type : KeyType
  r : ByteBuffer
  s : ByteBuffer
deriving DecidableEq, Repr

/-! ### Permissions -/

/-- `ServiceSpecificPermissions`. -/
inductive Ssp
  | nothing
  | opaqueSsp (octets : ByteBuffer)
  | bitmapSsp (octets : ByteBuffer)
deriving DecidableEq, Repr

structure PsidSsp where
  psid : ℕ
  ssp : Option Ssp
deriving DecidableEq, Repr

inductive SspRange
  | nothing
  | opaqueRange (entries : List ByteBuffer)
  | all
  | bitmapSspRange (sspValue sspBitmask : ByteBuffer)
deriving DecidableEq, Repr

structure PsidSspRange where
  psid : ℕ
  sspRange : Option SspRange
deriving DecidableEq, Repr

inductive SubjectPermissions
  | nothing
  | explicit (ranges : List PsidSspRange)
  | all
deriving DecidableEq, Repr

/-- `PsidGroupPermissions`; `eeType` holds the octets of the bit string. -/
structure PsidGroupPermissions where
  subjectPermissions : SubjectPermissions
  minChainLength : Option ℤ := none
  chainLengthRange : ℤ := 0
  eeType : Option ByteBuffer := none
deriving DecidableEq, Repr

/-! ### Regions -/

structure TwoDLocation where
  latitude : ℤ
  longitude : ℤ
deriving DecidableEq, Repr

structure CircularRegion where
  center : TwoDLocation
  radius : ℕ
deriving DecidableEq, Repr

structure RectangularRegion where
  northWest : TwoDLocation
  southEast : TwoDLocation
deriving DecidableEq, Repr

structure RegionAndSubregions where
  region : ℕ
  subregions : List ℕ
deriving DecidableEq, Repr

inductive IdentifiedRegion
  | nothing
  | countryOnly (country : ℕ)
  | countryAndRegions (country : ℕ) (regions : List ℕ)
  | countryAndSubregions (country : ℕ) (regionAndSubregions : List RegionAndSubregions)
deriving DecidableEq, Repr

inductive GeographicRegion
  | nothing
  | circularRegion (region : CircularRegion)
  | rectangularRegion (regions : List RectangularRegion)
  | polygonalRegion (points : List TwoDLocation)
  | identifiedRegion (regions : List IdentifiedRegion)
deriving DecidableEq, Repr

/-! ### Certificates -/

inductive IssuerIdentifier
  | nothing
  | sha256AndDigest (digest : HashedId8)
  | self (algorithm : HashAlgorithm)
  | sha384AndDigest (digest : HashedId8)
deriving DecidableEq, Repr

structure ToBeSignedCertificate where
  validityPeriod : ValidityPeriod
  region : Option GeographicRegion := none
  assuranceLevel : Option ByteBuffer := none
  appPermissions : Option (List PsidSsp) := none
  certIssuePermissions : Option (List PsidGroupPermissions) := none
  encryptionKey : Option BasePublicEncryptionKey := none
  verifyKeyIndicator : VerificationKeyIndicator
  rest : ByteBuffer := []
deriving DecidableEq, Repr

/-- `EtsiTs103097Certificate`. -/
structure Certificate where
  issuer : IssuerIdentifier
  toBeSigned : ToBeSignedCertificate
  signature : Option Signature := none
  rest : ByteBuffer := []
deriving DecidableEq, Repr

/-! ### Messages -/

structure HeaderInfo where
  psid : ℕ
  generationTime : Option UInt64 := none
  expiryTime : Option UInt64 := none
  generationLocation : Option TwoDLocation := none
  p2pcdLearningRequest : Option HashedId3 := none
  missingCrlIdentifier : Option ByteBuffer := none
  encryptionKey : Option ByteBuffer := none
  inlineP2pcdRequest : Option (List HashedId3) := none
  requestedCertificate : Option Certificate := none
deriving DecidableEq, Repr

/-- `SignedDataPayload`; of `data` the protocol version and the octets. -/
structure SignedDataPayload where
  data : Option (UInt8 × ByteBuffer) := none
  extDataHash : Option ByteBuffer := none
deriving DecidableEq, Repr

structure ToBeSignedData where
  payload : Option SignedDataPayload
  headerInfo : HeaderInfo
deriving DecidableEq, Repr

inductive SignerIdentifier
  | nothing
  | digest (digest : HashedId8)
  | certificate (certificates : List Certificate)
  | self
deriving DecidableEq, Repr

structure SignedData where
  hashId : HashAlgorithm
  tbsData : ToBeSignedData
  signer : SignerIdentifier
  signature : Signature
deriving DecidableEq, Repr

/-- `Ieee1609Dot2Content`. -/
inductive Content
  | nothing
  | unsecuredData (octets : ByteBuffer)
  | signedData (data : SignedData)
  | encryptedData (octets : ByteBuffer)
deriving DecidableEq, Repr

structure SecuredMessage where
  protocolVersion : UInt8
  content : Content
deriving DecidableEq, Repr

/-! ### The platform -/

/-- `PositionFix`, in tenths of a microdegree. -/
abbrev PositionFix := TwoDLocation

structure Platform where
  /-- `asn1::encode_oer` of a certificate. -/
  encodeCertificate : Certificate → Option ByteBuffer
  encodeToBeSigned : ToBeSignedCertificate → Option ByteBuffer
  encodeToBeSignedData : ToBeSignedData → Option ByteBuffer
  sha256 : ByteBuffer → Vector UInt8 32
  sha384 : ByteBuffer → Vector UInt8 48
  verifyDigest : PublicKey → ByteBuffer → EcdsaSignature → Bool
  signDigest : PrivateKey → ByteBuffer → Option EcdsaSignature
  /-- `is_inside` of a position and a circle, rectangles or a polygon. -/
  isInside : PositionFix → GeographicRegion → Bool
  /-- The circle lies inside the other: distance plus radius against radius. -/
  circleWithin : CircularRegion → CircularRegion → Bool

def Platform.calculateHash (P : Platform) (algorithm : HashAlgorithm) (octets : ByteBuffer) : ByteBuffer :=
  match algorithm with
  | .unspecified => []
  | .sha256 => (P.sha256 octets).toList
  | .sha384 => (P.sha384 octets).toList

/-- `create_hashed_id8`: the last eight octets of a hash. -/
def createHashedId8 {n : ℕ} (hash : Vector UInt8 n) : HashedId8 :=
  Vector.ofFn fun i => hash.toList.getD (n - 8 + i) 0

/-- `truncate`: the last three octets of a digest. -/
def truncate (digest : HashedId8) : HashedId3 := Vector.ofFn fun i => digest.toList.getD (5 + i) 0

/-- A certificate is encoded as its mark, a hash repeats the first octet, and signatures verify
but those that end in 0xff. -/
def samplePlatform (mark : Certificate → UInt8) : Platform where
  encodeCertificate c := some [mark c]
  encodeToBeSigned tbs := some tbs.rest
  encodeToBeSignedData _ := some []
  sha256 octets := Vector.replicate 32 (octets.headD 0)
  sha384 octets := Vector.replicate 48 (octets.headD 0)
  verifyDigest _ _ signature := signature.s.getLast? != some 0xff
  signDigest key _ := some ⟨key.type, [], []⟩
  isInside _ _ := true
  circleWithin _ _ := true

end V3
end VanetzaIdf
