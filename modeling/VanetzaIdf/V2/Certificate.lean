/-
# Certificates of the older format

Keys, signatures, subjects, regions and validity of `security/v2`: how they are
written, the size they are said to have, and how they are read. Points have
coordinates of 32 octets, as the assertions of the source demand. Each type
round-trips (`RoundTrips`).
-/
import VanetzaIdf.V2.Serialization

namespace VanetzaIdf.V2

open Lib Decoder

/-! ### Keys and signatures -/

/-- `PublicKeyAlgorithm`, an octet. -/
abbrev PublicKeyAlgorithm := UInt8

namespace PublicKeyAlgorithm
@[match_pattern] def ecdsaNistp256WithSha256 : PublicKeyAlgorithm := 0
@[match_pattern] def eciesNistp256 : PublicKeyAlgorithm := 1
end PublicKeyAlgorithm

/-- `SymmetricAlgorithm`, an octet. -/
abbrev SymmetricAlgorithm := UInt8

namespace SymmetricAlgorithm
@[match_pattern] def aes128Ccm : SymmetricAlgorithm := 0
end SymmetricAlgorithm

abbrev EccPointType := UInt8

namespace EccPointType
@[match_pattern] def xCoordinateOnly : EccPointType := 0
@[match_pattern] def compressedLsbY0 : EccPointType := 2
@[match_pattern] def compressedLsbY1 : EccPointType := 3
@[match_pattern] def uncompressed : EccPointType := 4
end EccPointType

inductive EccPoint
  | xCoordinateOnly (x : Vector UInt8 32)
  | compressedLsbY0 (x : Vector UInt8 32)
  | compressedLsbY1 (x : Vector UInt8 32)
  | uncompressed (x y : Vector UInt8 32)
deriving DecidableEq

namespace EccPoint

def getSize : EccPoint → ℕ
  | uncompressed _ _ => 1 + (32 + 32)
  | _ => 1 + 32

def serialize : EccPoint → ByteBuffer
  | xCoordinateOnly x => [EccPointType.xCoordinateOnly] ++ x.toList
  | compressedLsbY0 x => [EccPointType.compressedLsbY0] ++ x.toList
  | compressedLsbY1 x => [EccPointType.compressedLsbY1] ++ x.toList
  | uncompressed x y => [EccPointType.uncompressed] ++ (x.toList ++ y.toList)

def deserialize : Archive EccPoint := do
  let type ← octet
  match type with
  | EccPointType.xCoordinateOnly => do
    let x ← vector 32
    pure (.xCoordinateOnly x)
  | EccPointType.compressedLsbY0 => do
    let x ← vector 32
    pure (.compressedLsbY0 x)
  | EccPointType.compressedLsbY1 => do
    let x ← vector 32
    pure (.compressedLsbY1 x)
  | EccPointType.uncompressed => do
    let x ← vector 32
    let y ← vector 32
    pure (.uncompressed x y)
  | _ => failure

theorem reads (p : EccPoint) : ReadsIn .ok deserialize p.serialize p := by
  cases p with
  | xCoordinateOnly x | compressedLsbY0 x | compressedLsbY1 x =>
    exact (fixed_octet.reads _ _).bind (((fixed_vector 32).reads x _).last rfl)
  | uncompressed x y =>
    exact (fixed_octet.reads _ _).bind (((fixed_vector 32).reads x _).bind (((fixed_vector 32).reads y _).last rfl))

theorem gives : GivesIn .ok deserialize fun _ => True := by
  refine (fixed_octet.gives _).bind fun type => ?_
  split
  · exact ((fixed_vector 32).gives _).bind fun _ => .pure fun _ _ => trivial
  · exact ((fixed_vector 32).gives _).bind fun _ => .pure fun _ _ => trivial
  · exact ((fixed_vector 32).gives _).bind fun _ => .pure fun _ _ => trivial
  · exact ((fixed_vector 32).gives _).bind fun _ => ((fixed_vector 32).gives _).bind fun _ => .pure fun _ _ _ => trivial
  · exact .failure

@[simp] theorem length_serialize (p : EccPoint) : p.serialize.length = p.getSize := by
  cases p <;> simp [serialize, getSize]

end EccPoint

inductive PublicKey
  | ecdsaNistp256WithSha256 (publicKey : EccPoint)
  | eciesNistp256 (supportedSymmAlg : SymmetricAlgorithm) (publicKey : EccPoint)
deriving DecidableEq

namespace PublicKey

def getSize : PublicKey → ℕ
  | ecdsaNistp256WithSha256 publicKey => 1 + publicKey.getSize
  | eciesNistp256 _ publicKey => 1 + (publicKey.getSize + 1)

def serialize : PublicKey → ByteBuffer
  | ecdsaNistp256WithSha256 publicKey => [PublicKeyAlgorithm.ecdsaNistp256WithSha256] ++ publicKey.serialize
  | eciesNistp256 supportedSymmAlg publicKey =>
    [PublicKeyAlgorithm.eciesNistp256] ++ ([supportedSymmAlg] ++ publicKey.serialize)

def deserialize : Archive (PublicKey × ℕ) := do
  let type ← octet
  match type with
  | PublicKeyAlgorithm.ecdsaNistp256WithSha256 => do
    let publicKey ← EccPoint.deserialize
    pure (.ecdsaNistp256WithSha256 publicKey, getSize (.ecdsaNistp256WithSha256 publicKey))
  | PublicKeyAlgorithm.eciesNistp256 => do
    let supportedSymmAlg ← octet
    let publicKey ← EccPoint.deserialize
    pure (.eciesNistp256 supportedSymmAlg publicKey, getSize (.eciesNistp256 supportedSymmAlg publicKey))
  | _ => failure

theorem reads (key : PublicKey) : ReadsIn .ok deserialize key.serialize (key, key.getSize) := by
  cases key with
  | ecdsaNistp256WithSha256 publicKey => exact (fixed_octet.reads _ _).bind (publicKey.reads.last rfl)
  | eciesNistp256 supportedSymmAlg publicKey =>
    exact (fixed_octet.reads _ _).bind ((fixed_octet.reads _ _).bind (publicKey.reads.last rfl))

theorem gives : GivesIn .ok deserialize fun x => x.2 = x.1.getSize := by
  refine (fixed_octet.gives _).bind fun type => ?_
  split
  · exact EccPoint.gives.bind fun _ => .pure fun _ _ => rfl
  · exact (fixed_octet.gives _).bind fun _ => EccPoint.gives.bind fun _ => .pure fun _ _ _ => rfl
  · exact .failure

@[simp] theorem length_serialize (key : PublicKey) : key.serialize.length = key.getSize := by
  cases key <;> simp [serialize, getSize] <;> omega

end PublicKey

/-- `EcdsaSignature`, which is what a `Signature` holds after reading. -/
structure Signature where
  r : EccPoint
  s : Vector UInt8 32
deriving DecidableEq

namespace Signature

variable (sig : Signature)

def getSize : ℕ := 1 + (32 + sig.r.getSize)

def serialize : ByteBuffer :=
  [PublicKeyAlgorithm.ecdsaNistp256WithSha256] ++ (sig.r.serialize ++ sig.s.toList)

def deserialize : Archive (Signature × ℕ) := do
  let algo ← octet
  match algo with
  | PublicKeyAlgorithm.ecdsaNistp256WithSha256 => do
    let r ← EccPoint.deserialize
    let s ← vector 32
    pure (⟨r, s⟩, 1 + (32 + r.getSize))
  | _ => failure

theorem reads : ReadsIn .ok deserialize sig.serialize (sig, sig.getSize) :=
  (fixed_octet.reads _ _).bind (sig.r.reads.bind (((fixed_vector 32).reads sig.s _).last rfl))

theorem gives : GivesIn .ok deserialize fun x => x.2 = x.1.getSize := by
  refine (fixed_octet.gives _).bind fun algo => ?_
  split
  · exact EccPoint.gives.bind fun _ => ((fixed_vector 32).gives _).bind fun _ => .pure fun _ _ _ => rfl
  · exact .failure

@[simp] theorem length_serialize : sig.serialize.length = sig.getSize := by
  simp [serialize, getSize]
  omega

end Signature

/-! ### Subjects -/

/-- `SubjectInfo`; its type is an octet. -/
structure SubjectInfo where
  subjectType : UInt8
  subjectName : ByteBuffer
deriving DecidableEq

namespace SubjectInfo

variable (sub : SubjectInfo)

def getSize : ℕ := 1 + sub.subjectName.length + lengthCodingSize sub.subjectName.length

def serialize : ByteBuffer :=
  [sub.subjectType] ++ (serializeLength sub.subjectName.length ++ sub.subjectName)

def deserialize : Archive (SubjectInfo × ℕ) := do
  let subjectType ← octet
  let size ← deserializeLength
  let subjectName ← octets size
  pure (⟨subjectType, subjectName⟩, getSize ⟨subjectType, subjectName⟩)

/-- A name whose length can be coded. -/
def WellFormed : Prop := sub.subjectName.length < 2 ^ 56

theorem roundTrips : RoundTrips deserialize serialize getSize WellFormed where
  reads {sub} h := (fixed_octet.reads _ _).bind ((readsIn_length h).bind ((reads_octets rfl _).last rfl))
  gives := by
    refine (fixed_octet.gives _).bind fun _ => gives_length.bind fun size => GivesIn.octets.bind fun name => .pure ?_
    rintro rfl hsize -
    exact ⟨hsize, rfl⟩
  length {sub} h := by
    simp only [serialize, getSize, serializeLength, List.length_append, List.length_singleton, length_encodeLength h]
    omega
  pos sub := by
    unfold getSize
    omega

end SubjectInfo

structure ItsAidSsp where
  itsAid : IntX
  serviceSpecificPermissions : ByteBuffer
deriving DecidableEq

namespace ItsAidSsp

def getSize (x : ItsAidSsp) : ℕ :=
  x.itsAid.getSize + x.serviceSpecificPermissions.length + lengthCodingSize x.serviceSpecificPermissions.length

def serialize (x : ItsAidSsp) : ByteBuffer :=
  x.itsAid.serialize ++ (serializeLength x.serviceSpecificPermissions.length ++ x.serviceSpecificPermissions)

def deserialize : Archive (ItsAidSsp × ℕ) := do
  let itsAid ← IntX.deserialize
  let bufSize ← deserializeLength
  if bufSize ≤ 1024 then do
    let permissions ← octets bufSize
    pure (⟨itsAid.1, permissions⟩, itsAid.2 + (bufSize + lengthCodingSize bufSize))
  else do
    Archive.fail .excessiveLength
    pure (⟨itsAid.1, []⟩, itsAid.2)

/-- Within the limit that is read. -/
def WellFormed (x : ItsAidSsp) : Prop := x.itsAid.WellFormed ∧ x.serviceSpecificPermissions.length ≤ 1024

theorem roundTrips : RoundTrips deserialize serialize getSize WellFormed where
  reads {x} h := by
    refine (IntX.roundTrips.reads h.1).bind ((readsIn_length (h.2.trans_lt (by norm_num))).bind ?_)
    rw [if_pos h.2]
    exact (reads_octets rfl _).last (congrArg (Prod.mk x) (Nat.add_assoc _ _ _).symm)
  gives := by
    refine IntX.roundTrips.gives.bind fun itsAid => gives_length.bind fun bufSize => ?_
    split_ifs with hlimit
    · refine GivesIn.octets.bind fun permissions => .pure ?_
      rintro rfl - ⟨hitsAid, hsize⟩
      exact ⟨⟨hitsAid, hlimit⟩, by rw [hsize, getSize, Nat.add_assoc]⟩
    · exact (Archive.gives_fail (by decide)).bind fun _ => .pure False.elim
  length {x} h := by
    simp only [serialize, getSize, serializeLength, List.length_append, IntX.roundTrips.length h.1,
      length_encodeLength (h.2.trans_lt (by norm_num))]
    omega
  pos x := by
    have := IntX.roundTrips.pos x.itsAid
    unfold getSize
    omega

end ItsAidSsp

abbrev SubjectAttributeType := UInt8

namespace SubjectAttributeType
@[match_pattern] def verificationKey : SubjectAttributeType := 0
@[match_pattern] def encryptionKey : SubjectAttributeType := 1
@[match_pattern] def assuranceLevel : SubjectAttributeType := 2
@[match_pattern] def itsAidList : SubjectAttributeType := 32
@[match_pattern] def itsAidSspList : SubjectAttributeType := 33
end SubjectAttributeType

/-- `SubjectAttribute`. A reconstruction value is neither written nor read. -/
inductive SubjectAttribute
  | verificationKey (key : PublicKey)
  | encryptionKey (key : PublicKey)
  | assuranceLevel (raw : UInt8)
  | itsAidList (list : List IntX)
  | itsAidSspList (list : List ItsAidSsp)
deriving DecidableEq

namespace SubjectAttribute

def getSize : SubjectAttribute → ℕ
  | verificationKey key => 1 + key.getSize
  | encryptionKey key => 1 + key.getSize
  | assuranceLevel _ => 1 + 1
  | itsAidList list => 1 + (getSizeList IntX.getSize list + lengthCodingSize (getSizeList IntX.getSize list))
  | itsAidSspList list => 1 + (getSizeList ItsAidSsp.getSize list + lengthCodingSize
    (getSizeList ItsAidSsp.getSize list))

def serialize : SubjectAttribute → ByteBuffer
  | verificationKey key => [SubjectAttributeType.verificationKey] ++ key.serialize
  | encryptionKey key => [SubjectAttributeType.encryptionKey] ++ key.serialize
  | assuranceLevel raw => [SubjectAttributeType.assuranceLevel] ++ [raw]
  | itsAidList list => [SubjectAttributeType.itsAidList] ++ serializeList IntX.getSize IntX.serialize list
  | itsAidSspList list => [SubjectAttributeType.itsAidSspList] ++
    serializeList ItsAidSsp.getSize ItsAidSsp.serialize list

def deserialize : Archive (SubjectAttribute × ℕ) := do
  let type ← octet
  match type with
  | SubjectAttributeType.assuranceLevel => do
    let raw ← octet
    pure (.assuranceLevel raw, 1 + 1)
  | SubjectAttributeType.verificationKey => do
    let key ← PublicKey.deserialize
    pure (.verificationKey key.1, 1 + key.2)
  | SubjectAttributeType.encryptionKey => do
    let key ← PublicKey.deserialize
    pure (.encryptionKey key.1, 1 + key.2)
  | SubjectAttributeType.itsAidList => do
    let list ← deserializeList IntX.deserialize
    pure (.itsAidList list.1, 1 + (list.2 + lengthCodingSize list.2))
  | SubjectAttributeType.itsAidSspList => do
    let list ← deserializeList ItsAidSsp.deserialize
    pure (.itsAidSspList list.1, 1 + (list.2 + lengthCodingSize list.2))
  | _ => failure

/-- Lists are within the limit that is read. -/
def WellFormed : SubjectAttribute → Prop
  | itsAidList list => (∀ x ∈ list, IntX.WellFormed x) ∧ getSizeList IntX.getSize list ≤ 4096
  | itsAidSspList list => (∀ x ∈ list, x.WellFormed) ∧ getSizeList ItsAidSsp.getSize list ≤ 4096
  | _ => True

theorem roundTrips : RoundTrips deserialize serialize getSize WellFormed where
  reads {sub} h := by
    cases sub with
    | verificationKey key | encryptionKey key => exact (fixed_octet.reads _ _).bind (key.reads.last rfl)
    | assuranceLevel raw => exact (fixed_octet.reads _ _).bind ((fixed_octet.reads _ _).last rfl)
    | itsAidList list => exact (fixed_octet.reads _ _).bind ((readsIn_list IntX.roundTrips h.1 h.2).last rfl)
    | itsAidSspList list => exact (fixed_octet.reads _ _).bind ((readsIn_list ItsAidSsp.roundTrips h.1 h.2).last rfl)
  gives := by
    refine (fixed_octet.gives _).bind fun type => ?_
    split
    · exact (fixed_octet.gives _).bind fun _ => .pure fun _ _ => ⟨trivial, rfl⟩
    · exact PublicKey.gives.bind fun key => .pure fun hkey _ => ⟨trivial, congrArg (1 + ·) hkey⟩
    · exact PublicKey.gives.bind fun key => .pure fun hkey _ => ⟨trivial, congrArg (1 + ·) hkey⟩
    · exact (gives_list IntX.roundTrips).bind fun list => .pure fun h _ => ⟨⟨h.1, h.2.2⟩, by rw [h.2.1, getSize]⟩
    · exact (gives_list ItsAidSsp.roundTrips).bind fun list => .pure fun h _ => ⟨⟨h.1, h.2.2⟩, by rw [h.2.1, getSize]⟩
    · exact .failure
  length {sub} h := by
    cases sub with
    | verificationKey | encryptionKey => simp [serialize, getSize, Nat.add_comm]
    | assuranceLevel raw => rfl
    | itsAidList list =>
      simp only [serialize, getSize, List.length_append, List.length_singleton,
        length_list IntX.roundTrips h.1 (h.2.trans_lt (by norm_num))]
    | itsAidSspList list =>
      simp only [serialize, getSize, List.length_append, List.length_singleton,
        length_list ItsAidSsp.roundTrips h.1 (h.2.trans_lt (by norm_num))]
  pos sub := by
    cases sub <;> simp only [getSize] <;> omega

end SubjectAttribute

/-! ### Regions -/

structure TwoDLocation where
  latitude : Int32
  longitude : Int32
deriving DecidableEq

namespace TwoDLocation

def getSize (_ : TwoDLocation) : ℕ := 4 + 4

def serialize (loc : TwoDLocation) : ByteBuffer := beInt32 loc.latitude ++ beInt32 loc.longitude

def deserialize : Archive (TwoDLocation × ℕ) := do
  let latitude ← int32
  let longitude ← int32
  pure (⟨latitude, longitude⟩, 4 + 4)

theorem roundTrips : RoundTrips deserialize serialize getSize fun _ => True where
  reads _ := (fixed_int32.reads _ _).bind ((fixed_int32.reads _ _).last rfl)
  gives := (fixed_int32.gives _).bind fun _ => (fixed_int32.gives _).bind fun _ => .pure fun _ _ => ⟨trivial, rfl⟩
  length _ := by simp [serialize, getSize, beInt32, be32]
  pos _ := Nat.succ_pos 7

end TwoDLocation

structure ThreeDLocation where
  latitude : Int32
  longitude : Int32
  elevation : Vector UInt8 2
deriving DecidableEq

namespace ThreeDLocation

def getSize (_ : ThreeDLocation) : ℕ := 4 + 4 + 2

variable (loc : ThreeDLocation)

def serialize : ByteBuffer := beInt32 loc.latitude ++ (beInt32 loc.longitude ++ loc.elevation.toList)

def deserialize : Archive (ThreeDLocation × ℕ) := do
  let latitude ← int32
  let longitude ← int32
  let elevation ← vector 2
  pure (⟨latitude, longitude, elevation⟩, 4 + 4 + 2)

theorem reads : ReadsIn .ok deserialize loc.serialize (loc, loc.getSize) :=
  (fixed_int32.reads _ _).bind ((fixed_int32.reads _ _).bind (((fixed_vector 2).reads _ _).last rfl))

theorem gives : GivesIn .ok deserialize fun x => x.2 = x.1.getSize :=
  (fixed_int32.gives _).bind fun _ => (fixed_int32.gives _).bind fun _ => ((fixed_vector 2).gives _).bind fun _ =>
    .pure fun _ _ _ => rfl

@[simp] theorem length_serialize : loc.serialize.length = loc.getSize := by
  simp [serialize, getSize, beInt32, be32]

end ThreeDLocation

structure CircularRegion where
  center : TwoDLocation
  radius : UInt16
deriving DecidableEq

structure RectangularRegion where
  northwest : TwoDLocation
  southeast : TwoDLocation
deriving DecidableEq

namespace RectangularRegion

def getSize (reg : RectangularRegion) : ℕ := reg.northwest.getSize + reg.southeast.getSize

def serialize (reg : RectangularRegion) : ByteBuffer := reg.northwest.serialize ++ reg.southeast.serialize

def deserialize : Archive (RectangularRegion × ℕ) := do
  let northwest ← TwoDLocation.deserialize
  let southeast ← TwoDLocation.deserialize
  pure (⟨northwest.1, southeast.1⟩, northwest.2 + southeast.2)

theorem roundTrips : RoundTrips deserialize serialize getSize fun _ => True where
  reads _ := (TwoDLocation.roundTrips.reads trivial).bind ((TwoDLocation.roundTrips.reads trivial).last rfl)
  gives := TwoDLocation.roundTrips.gives.bind fun _ => TwoDLocation.roundTrips.gives.bind fun _ =>
    .pure fun h₂ h₁ => ⟨trivial, congrArg₂ (· + ·) h₁.2 h₂.2⟩
  length _ := by
    simp only [serialize, getSize, List.length_append, TwoDLocation.roundTrips.length trivial]
  pos _ := Nat.succ_pos 15

end RectangularRegion

/-- `IdentifiedRegion`; its dictionary is an octet. -/
structure IdentifiedRegion where
  regionDictionary : UInt8
  regionIdentifier : Int16
  localRegion : IntX
deriving DecidableEq

/-- A difference of `std::size_t`. -/
def sizeSub (a b : ℕ) : ℕ := (a + (sizeMax + 1 - b)) % (sizeMax + 1)

theorem sizeSub_of_le {a b : ℕ} (h : b ≤ a) (ha : a ≤ sizeMax) : sizeSub a b = a - b := by
  unfold sizeSub
  rw [show a + (sizeMax + 1 - b) = a - b + (sizeMax + 1) by omega, Nat.add_mod_right, Nat.mod_eq_of_lt (by omega)]

section Elements

variable {α : Type}

/-- The loop of `deserialize` of rectangles and of a polygon. If the size is
no multiple of the size of an element, it wraps around and never gets to zero:
the source reads on until the archive throws. -/
def deserializeWhole (deserialize : Archive (α × ℕ)) : ℕ → ℕ → List α → Archive (List α)
  | 0, size, list => if size = 0 then pure list else failure
  | fuel + 1, size, list =>
    if size = 0 then pure list
    else do
      let x ← deserialize
      deserializeWhole deserialize fuel (sizeSub size x.2) (list ++ [x.1])

/-- `deserialize` of rectangles and of a polygon: the list, and its size. -/
def deserializeRegions (deserialize : Archive (α × ℕ)) : Archive (List α × ℕ) := do
  let coded ← deserializeLength
  let size := coded % (sizeMax + 1)
  let list ← deserializeWhole deserialize size size []
  pure (list, size)

variable {read : Archive (α × ℕ)} {write : α → ByteBuffer} {size : α → ℕ}

theorem readsIn_whole (h : RoundTrips read write size fun _ => True) : ∀ {list : List α} {fuel : ℕ} (done : List α),
    getSizeList size list ≤ fuel → getSizeList size list ≤ sizeMax →
    ReadsIn .ok (deserializeWhole read fuel (getSizeList size list) done) (list.flatMap write) (done ++ list)
  | [], fuel, done, _, _ => by
    rw [List.append_nil]
    cases fuel <;> exact ReadsIn.pure rfl
  | a :: list, fuel, done, hfuel, hmax => by
    have hpos := h.pos a
    rw [getSizeList_cons] at hfuel hmax ⊢
    obtain ⟨fuel, rfl⟩ : ∃ k, fuel = k + 1 := ⟨fuel - 1, by omega⟩
    have hrest : getSizeList size list ≤ fuel := by omega
    have hsub : sizeSub (size a + getSizeList size list) (size a) = getSizeList size list := by
      rw [sizeSub_of_le (Nat.le_add_right _ _) hmax, Nat.add_sub_cancel_left]
    unfold deserializeWhole
    rw [if_neg (by omega), List.flatMap_cons]
    refine (h.reads trivial).bind ?_
    dsimp only
    rw [hsub]
    have hnext := readsIn_whole h (done ++ [a]) hrest (by omega)
    rwa [List.append_assoc, List.singleton_append] at hnext

theorem readsIn_regions (h : RoundTrips read write size fun _ => True) {list : List α}
    (hlimit : getSizeList size list ≤ sizeMax) :
    ReadsIn .ok (deserializeRegions read) (serializeList size write list) (list, getSizeList size list) := by
  have hmod : getSizeList size list % (sizeMax + 1) = getSizeList size list := Nat.mod_eq_of_lt (by omega)
  unfold deserializeRegions serializeList
  refine (readsIn_length (by unfold sizeMax at hlimit; omega)).bind ?_
  dsimp only
  rw [hmod]
  exact (readsIn_whole h [] le_rfl hlimit).last rfl

/-- The counter never gets from below the size of an element to zero, as it
stays the same modulo that size. -/
theorem gives_whole (h : RoundTrips read write size fun _ => True) {w : ℕ} (hw : ∀ a, size a = w)
    (hdvd : w ∣ sizeMax + 1) :
    ∀ (fuel n : ℕ) (done : List α), n ≤ sizeMax → GivesIn .ok (deserializeWhole read fuel n done) fun list =>
      ∃ new, list = done ++ new ∧ getSizeList size new = n
  | 0, n, done, _ => by
    unfold deserializeWhole
    split_ifs with hzero
    · exact .pure ⟨[], (List.append_nil _).symm, hzero.symm⟩
    · exact .failure
  | fuel + 1, n, done, hn => by
    unfold deserializeWhole
    split_ifs with hzero
    · exact .pure ⟨[], (List.append_nil _).symm, hzero.symm⟩
    · refine h.gives.bind fun x => ?_
      have hmax : sizeSub n x.2 ≤ sizeMax := Nat.le_of_lt_succ (Nat.mod_lt _ (Nat.succ_pos _))
      refine (gives_whole h hw hdvd fuel _ _ hmax).imp ?_
      rintro list ⟨new, rfl, hnew⟩ ⟨-, hx⟩
      refine ⟨x.1 :: new, by simp, ?_⟩
      rw [getSizeList_cons, hnew, ← hx]
      rw [hw] at hx
      rcases le_or_gt x.2 n with hle | hgt
      · rw [sizeSub_of_le hle hn, Nat.add_sub_cancel' hle]
      · have hwhole : w ∣ sizeSub n x.2 := by
          rw [← hnew]
          exact dvd_getSizeList (fun a => (hw a).symm.dvd) new
        have hle := Nat.le_of_dvd (Nat.succ_pos _) hdvd
        rw [sizeSub, hx, Nat.mod_eq_of_lt (by omega), Nat.dvd_add_left (Nat.dvd_sub hdvd dvd_rfl)] at hwhole
        exact absurd (Nat.le_of_dvd (Nat.pos_of_ne_zero hzero) hwhole) (by omega)

theorem gives_regions (h : RoundTrips read write size fun _ => True) (w : ℕ) (hw : ∀ a, size a = w)
    (hdvd : w ∣ sizeMax + 1) :
    GivesIn .ok (deserializeRegions read) fun x => x.2 = getSizeList size x.1 ∧ getSizeList size x.1 ≤ sizeMax := by
  refine gives_length.bind fun coded => ?_
  have hmax : coded % (sizeMax + 1) ≤ sizeMax := Nat.le_of_lt_succ (Nat.mod_lt _ (Nat.succ_pos _))
  refine (gives_whole h hw hdvd _ _ [] hmax).bind fun list => .pure ?_
  rintro ⟨new, rfl, hnew⟩ -
  exact ⟨hnew.symm, hnew.trans_le hmax⟩

end Elements

abbrev RegionType := UInt8

namespace RegionType
@[match_pattern] def none : RegionType := 0
@[match_pattern] def circle : RegionType := 1
@[match_pattern] def rectangle : RegionType := 2
@[match_pattern] def polygon : RegionType := 3
@[match_pattern] def id : RegionType := 4
end RegionType

inductive GeographicRegion
  | none
  | circle (reg : CircularRegion)
  | rectangle (list : List RectangularRegion)
  | polygon (list : List TwoDLocation)
  | id (reg : IdentifiedRegion)
deriving DecidableEq

namespace GeographicRegion

def getSize : GeographicRegion → ℕ
  | none => 1
  | circle reg => 1 + (reg.center.getSize + 2)
  | rectangle list => 1 + (getSizeList RectangularRegion.getSize list + lengthCodingSize
    (getSizeList RectangularRegion.getSize list))
  | polygon list => 1 + (getSizeList TwoDLocation.getSize list + lengthCodingSize
    (getSizeList TwoDLocation.getSize list))
  | id reg => 1 + (1 + 2 + reg.localRegion.getSize)

def serialize : GeographicRegion → ByteBuffer
  | none => [RegionType.none]
  | circle reg => [RegionType.circle] ++ (reg.center.serialize ++ be16 reg.radius)
  | rectangle list => [RegionType.rectangle] ++ serializeList RectangularRegion.getSize RectangularRegion.serialize list
  | polygon list => [RegionType.polygon] ++ serializeList TwoDLocation.getSize TwoDLocation.serialize list
  | id reg => [RegionType.id] ++ ([reg.regionDictionary] ++ (beInt16 reg.regionIdentifier ++ reg.localRegion.serialize))

/-- `deserialize`. For rectangles and polygons the octets of the length are
computed from a size that includes the type. -/
def deserialize : Archive (GeographicRegion × ℕ) := do
  let type ← octet
  match type with
  | RegionType.none => pure (.none, 1)
  | RegionType.circle => do
    let center ← TwoDLocation.deserialize
    let radius ← uint16
    pure (.circle ⟨center.1, radius⟩, 1 + (center.2 + 2))
  | RegionType.rectangle => do
    let list ← deserializeRegions RectangularRegion.deserialize
    pure (.rectangle list.1, 1 + list.2 + lengthCodingSize (1 + list.2))
  | RegionType.polygon => do
    let list ← deserializeRegions TwoDLocation.deserialize
    pure (.polygon list.1, 1 + list.2 + lengthCodingSize (1 + list.2))
  | RegionType.id => do
    let regionDictionary ← octet
    let regionIdentifier ← int16
    let localRegion ← IntX.deserialize
    pure (.id ⟨regionDictionary, regionIdentifier, localRegion.1⟩, 1 + (1 + 2 + localRegion.1.getSize))
  | _ => failure

/-- Lists are within the limit that is read. -/
def WellFormed : GeographicRegion → Prop
  | rectangle list => getSizeList RectangularRegion.getSize list ≤ sizeMax
  | polygon list => getSizeList TwoDLocation.getSize list ≤ sizeMax
  | id reg => reg.localRegion.WellFormed
  | _ => True

theorem size_rectangle (list : List RectangularRegion) : 1 + getSizeList RectangularRegion.getSize list +
    lengthCodingSize (1 + getSizeList RectangularRegion.getSize list) = getSize (rectangle list) := by
  have heven : 2 ∣ getSizeList RectangularRegion.getSize list := dvd_getSizeList (fun _ => ⟨8, rfl⟩) list
  rw [lengthCodingSize_succ_of_even (even_iff_two_dvd.mpr heven), Nat.add_assoc, getSize]

theorem size_polygon (list : List TwoDLocation) : 1 + getSizeList TwoDLocation.getSize list +
    lengthCodingSize (1 + getSizeList TwoDLocation.getSize list) = getSize (polygon list) := by
  have heven : 2 ∣ getSizeList TwoDLocation.getSize list := dvd_getSizeList (fun _ => ⟨4, rfl⟩) list
  rw [lengthCodingSize_succ_of_even (even_iff_two_dvd.mpr heven), Nat.add_assoc, getSize]

theorem roundTrips : RoundTrips deserialize serialize getSize WellFormed where
  reads {reg} h := by
    cases reg with
    | none =>
      rw [show serialize none = [RegionType.none] ++ [] from rfl]
      exact (fixed_octet.reads _ _).bind (ReadsIn.pure rfl)
    | circle reg =>
      exact (fixed_octet.reads _ _).bind
        ((TwoDLocation.roundTrips.reads trivial).bind ((fixed_uint16.reads _ _).last rfl))
    | rectangle list =>
      exact (fixed_octet.reads _ _).bind ((readsIn_regions RectangularRegion.roundTrips h).last
        (congrArg (Prod.mk _) (size_rectangle list)))
    | polygon list =>
      exact (fixed_octet.reads _ _).bind ((readsIn_regions TwoDLocation.roundTrips h).last
        (congrArg (Prod.mk _) (size_polygon list)))
    | id reg =>
      exact (fixed_octet.reads _ _).bind ((fixed_octet.reads _ _).bind ((fixed_int16.reads _ _).bind
        ((IntX.roundTrips.reads h).last rfl)))
  gives := by
    refine (fixed_octet.gives _).bind fun type => ?_
    split
    · exact .pure fun _ => ⟨trivial, rfl⟩
    · exact TwoDLocation.roundTrips.gives.bind fun _ => (fixed_uint16.gives _).bind fun _ =>
        .pure fun _ h _ => ⟨trivial, by rw [h.2, getSize]⟩
    · exact (gives_regions RectangularRegion.roundTrips 16 (fun _ => rfl) (by decide)).bind fun list =>
        .pure fun h _ => ⟨h.2, by rw [h.1, size_rectangle]⟩
    · exact (gives_regions TwoDLocation.roundTrips 8 (fun _ => rfl) (by decide)).bind fun list =>
        .pure fun h _ => ⟨h.2, by rw [h.1, size_polygon]⟩
    · exact (fixed_octet.gives _).bind fun _ => (fixed_int16.gives _).bind fun _ => IntX.roundTrips.gives.bind fun x =>
        .pure fun h _ _ _ => ⟨h.1, rfl⟩
    · exact .failure
  length {reg} h := by
    cases reg with
    | none => rfl
    | circle reg =>
      simp [serialize, getSize, be16, TwoDLocation.roundTrips.length]
      omega
    | rectangle list =>
      simp only [serialize, getSize, List.length_append, List.length_singleton,
        length_list RectangularRegion.roundTrips (fun _ _ => trivial) (lt_of_le_of_lt h (by decide))]
    | polygon list =>
      simp only [serialize, getSize, List.length_append, List.length_singleton,
        length_list TwoDLocation.roundTrips (fun _ _ => trivial) (lt_of_le_of_lt h (by decide))]
    | id reg =>
      simp [serialize, getSize, beInt16, be16, IntX.roundTrips.length h]
      omega
  pos reg := by
    cases reg <;> simp only [getSize] <;> omega

end GeographicRegion

/-! ### Validity -/

abbrev ValidityRestrictionType := UInt8

namespace ValidityRestrictionType
@[match_pattern] def timeEnd : ValidityRestrictionType := 0
@[match_pattern] def timeStartAndEnd : ValidityRestrictionType := 1
@[match_pattern] def timeStartAndDuration : ValidityRestrictionType := 2
@[match_pattern] def region : ValidityRestrictionType := 3
end ValidityRestrictionType

/-- `ValidityRestriction`; a duration is its raw value. -/
inductive ValidityRestriction
  | timeEnd (endValidity : UInt32)
  | timeStartAndEnd (startValidity endValidity : UInt32)
  | timeStartAndDuration (startValidity : UInt32) (duration : UInt16)
  | region (reg : GeographicRegion)
deriving DecidableEq

namespace ValidityRestriction

def getSize : ValidityRestriction → ℕ
  | timeEnd _ => 1 + 4
  | timeStartAndEnd _ _ => 1 + (4 + 4)
  | timeStartAndDuration _ _ => 1 + (4 + 2)
  | region reg => 1 + reg.getSize

def serialize : ValidityRestriction → ByteBuffer
  | timeEnd endValidity => [ValidityRestrictionType.timeEnd] ++ be32 endValidity
  | timeStartAndEnd startValidity endValidity =>
    [ValidityRestrictionType.timeStartAndEnd] ++ (be32 startValidity ++ be32 endValidity)
  | timeStartAndDuration startValidity duration =>
    [ValidityRestrictionType.timeStartAndDuration] ++ (be32 startValidity ++ be16 duration)
  | region reg => [ValidityRestrictionType.region] ++ reg.serialize

def deserialize : Archive (ValidityRestriction × ℕ) := do
  let type ← octet
  match type with
  | ValidityRestrictionType.timeEnd => do
    let endValidity ← uint32
    pure (.timeEnd endValidity, 1 + 4)
  | ValidityRestrictionType.timeStartAndDuration => do
    let startValidity ← uint32
    let duration ← uint16
    pure (.timeStartAndDuration startValidity duration, 1 + (4 + 2))
  | ValidityRestrictionType.timeStartAndEnd => do
    let startValidity ← uint32
    let endValidity ← uint32
    pure (.timeStartAndEnd startValidity endValidity, 1 + (4 + 4))
  | ValidityRestrictionType.region => do
    let reg ← GeographicRegion.deserialize
    pure (.region reg.1, 1 + reg.2)
  | _ => failure

/-- Only a region can be too large. -/
def WellFormed : ValidityRestriction → Prop
  | region reg => reg.WellFormed
  | _ => True

theorem roundTrips : RoundTrips deserialize serialize getSize WellFormed where
  reads {restriction} h := by
    cases restriction with
    | timeEnd endValidity => exact (fixed_octet.reads _ _).bind ((fixed_uint32.reads _ _).last rfl)
    | timeStartAndEnd startValidity endValidity =>
      exact (fixed_octet.reads _ _).bind ((fixed_uint32.reads _ _).bind ((fixed_uint32.reads _ _).last rfl))
    | timeStartAndDuration startValidity duration =>
      exact (fixed_octet.reads _ _).bind ((fixed_uint32.reads _ _).bind ((fixed_uint16.reads _ _).last rfl))
    | region reg => exact (fixed_octet.reads _ _).bind ((GeographicRegion.roundTrips.reads h).last rfl)
  gives := by
    refine (fixed_octet.gives _).bind fun type => ?_
    split
    · exact (fixed_uint32.gives _).bind fun _ => .pure fun _ _ => ⟨trivial, rfl⟩
    · exact (fixed_uint32.gives _).bind fun _ => (fixed_uint16.gives _).bind fun _ => .pure fun _ _ _ => ⟨trivial, rfl⟩
    · exact (fixed_uint32.gives _).bind fun _ => (fixed_uint32.gives _).bind fun _ => .pure fun _ _ _ => ⟨trivial, rfl⟩
    · exact GeographicRegion.roundTrips.gives.bind fun reg => .pure fun h _ => ⟨h.1, congrArg (1 + ·) h.2⟩
    · exact .failure
  length {restriction} h := by
    cases restriction with
    | region reg =>
      simp only [serialize, getSize, List.length_append, List.length_singleton, GeographicRegion.roundTrips.length h]
    | _ => simp [serialize, getSize, be32, be16]
  pos restriction := by
    cases restriction <;> simp only [getSize] <;> omega

end ValidityRestriction

/-! ### Certificates -/

abbrev SignerInfoType := UInt8

namespace SignerInfoType
@[match_pattern] def self : SignerInfoType := 0
@[match_pattern] def certificateDigestWithSha256 : SignerInfoType := 1
@[match_pattern] def certificate : SignerInfoType := 2
@[match_pattern] def certificateChain : SignerInfoType := 3
@[match_pattern] def certificateDigestWithOtherAlgorithm : SignerInfoType := 4
end SignerInfoType

inductive CertificateSigner
  | self
  | certificateDigestWithSha256 (digest : HashedId8)
  | certificateDigestWithOtherAlgorithm (algorithm : PublicKeyAlgorithm) (digest : HashedId8)
deriving DecidableEq

namespace CertificateSigner

def getSize : CertificateSigner → ℕ
  | self => 1
  | certificateDigestWithSha256 _ => 1 + 8
  | certificateDigestWithOtherAlgorithm _ _ => 1 + (8 + 1)

def serialize : CertificateSigner → ByteBuffer
  | self => [SignerInfoType.self]
  | certificateDigestWithSha256 digest => [SignerInfoType.certificateDigestWithSha256] ++ digest.toList
  | certificateDigestWithOtherAlgorithm algorithm digest =>
    [SignerInfoType.certificateDigestWithOtherAlgorithm] ++ ([algorithm] ++ digest.toList)

def deserializeDigest (type : SignerInfoType) : Archive (CertificateSigner × ℕ) :=
  match type with
  | SignerInfoType.certificateDigestWithSha256 => do
    let digest ← vector 8
    pure (.certificateDigestWithSha256 digest, 1 + 8)
  | SignerInfoType.certificateDigestWithOtherAlgorithm => do
    let algorithm ← octet
    let digest ← vector 8
    pure (.certificateDigestWithOtherAlgorithm algorithm digest, 1 + (8 + 1))
  | SignerInfoType.self => pure (.self, 1)
  | _ => failure

def deserialize : Archive (CertificateSigner × ℕ) := do
  let type ← octet
  deserializeDigest type

theorem reads (signer : CertificateSigner) : ReadsIn .ok deserialize signer.serialize (signer, signer.getSize) := by
  cases signer with
  | self =>
    rw [show serialize self = [SignerInfoType.self] ++ [] from rfl]
    exact (fixed_octet.reads _ _).bind (ReadsIn.pure rfl)
  | certificateDigestWithSha256 digest => exact (fixed_octet.reads _ _).bind (((fixed_vector 8).reads _ _).last rfl)
  | certificateDigestWithOtherAlgorithm algorithm digest =>
    exact (fixed_octet.reads _ _).bind ((fixed_octet.reads _ _).bind (((fixed_vector 8).reads _ _).last rfl))

theorem gives_digest (type : SignerInfoType) : GivesIn .ok (deserializeDigest type) fun x => x.2 = x.1.getSize := by
  unfold deserializeDigest
  split
  · exact ((fixed_vector 8).gives _).bind fun _ => .pure fun _ => rfl
  · exact (fixed_octet.gives _).bind fun _ => ((fixed_vector 8).gives _).bind fun _ => .pure fun _ _ => rfl
  · exact .pure rfl
  · exact .failure

@[simp] theorem length_serialize (signer : CertificateSigner) : signer.serialize.length = signer.getSize := by
  cases signer <;> simp [serialize, getSize]

end CertificateSigner

structure Certificate where
  signerInfo : CertificateSigner
  subjectInfo : SubjectInfo
  subjectAttributes : List SubjectAttribute
  validityRestriction : List ValidityRestriction
  signature : Signature
deriving DecidableEq

namespace Certificate

variable (cert : Certificate)

def attributesSize : ℕ := getSizeList SubjectAttribute.getSize cert.subjectAttributes

def restrictionsSize : ℕ := getSizeList ValidityRestriction.getSize cert.validityRestriction

def getSize : ℕ :=
  1 + cert.signerInfo.getSize + cert.subjectInfo.getSize + cert.attributesSize + lengthCodingSize cert.attributesSize +
    cert.restrictionsSize + lengthCodingSize cert.restrictionsSize + cert.signature.getSize

def serialize : ByteBuffer :=
  [2] ++ (cert.signerInfo.serialize ++ (cert.subjectInfo.serialize ++
    (serializeList SubjectAttribute.getSize SubjectAttribute.serialize cert.subjectAttributes ++
      (serializeList ValidityRestriction.getSize ValidityRestriction.serialize cert.validityRestriction ++
        cert.signature.serialize))))

/-- `deserialize`. The octets of a list's length are computed from the size of
what was read, not from the length. -/
def deserialize : Archive (Certificate × ℕ) := do
  let version ← octet
  if version = 2 then do
    let signerInfo ← CertificateSigner.deserialize
    let subjectInfo ← SubjectInfo.deserialize
    let attributes ← deserializeList SubjectAttribute.deserialize
    let restrictions ← deserializeList ValidityRestriction.deserialize
    let signature ← Signature.deserialize
    pure (⟨signerInfo.1, subjectInfo.1, attributes.1, restrictions.1, signature.1⟩,
      1 + signerInfo.2 + subjectInfo.2 + attributes.2 + lengthCodingSize
        (getSizeList SubjectAttribute.getSize attributes.1) +
        restrictions.2 + lengthCodingSize (getSizeList ValidityRestriction.getSize restrictions.1) + signature.2)
  else failure

/-- A certificate that is read back as it was written. -/
structure WellFormed (cert : Certificate) : Prop where
  subjectInfo : cert.subjectInfo.WellFormed
  attributes : ∀ x ∈ cert.subjectAttributes, x.WellFormed
  attributesSize_le : cert.attributesSize ≤ 4096
  restrictions : ∀ x ∈ cert.validityRestriction, x.WellFormed
  restrictionsSize_le : cert.restrictionsSize ≤ 4096

theorem roundTrips : RoundTrips deserialize serialize getSize WellFormed where
  reads {cert} h := by
    refine (fixed_octet.reads 2 _).bind ?_
    rw [if_pos rfl]
    exact cert.signerInfo.reads.bind ((SubjectInfo.roundTrips.reads h.subjectInfo).bind
      ((readsIn_list SubjectAttribute.roundTrips h.attributes h.attributesSize_le).bind
        ((readsIn_list ValidityRestriction.roundTrips h.restrictions h.restrictionsSize_le).bind
          (cert.signature.reads.last rfl))))
  gives := by
    refine (fixed_octet.gives _).bind fun version => ?_
    split_ifs
    · refine ((fixed_octet.gives _).bind fun type => (CertificateSigner.gives_digest type).imp fun _ h _ => h).bind
        fun signerInfo =>
        SubjectInfo.roundTrips.gives.bind fun subjectInfo => (gives_list SubjectAttribute.roundTrips).bind
          fun attributes =>
          (gives_list ValidityRestriction.roundTrips).bind fun restrictions => Signature.gives.bind fun signature =>
            .pure ?_
      rintro hsignature ⟨hrestrictions, hrsize, hrlimit⟩ ⟨hattributes, hasize, halimit⟩ ⟨hsubject, hssize⟩ hsigner -
      refine ⟨⟨hsubject, hattributes, halimit, hrestrictions, hrlimit⟩, ?_⟩
      rw [hsignature, hrsize, hasize, hssize, hsigner]
      rfl
    · exact .failure
  length {cert} h := by
    have hattributes := length_list SubjectAttribute.roundTrips h.attributes
      (h.attributesSize_le.trans_lt (by norm_num))
    have hrestrictions := length_list ValidityRestriction.roundTrips h.restrictions
      (h.restrictionsSize_le.trans_lt (by norm_num))
    simp only [serialize, getSize, attributesSize, restrictionsSize, List.length_append, List.length_singleton,
      CertificateSigner.length_serialize, Signature.length_serialize, SubjectInfo.roundTrips.length h.subjectInfo,
        hattributes,
      hrestrictions]
    omega
  pos cert := by
    unfold getSize
    omega

end Certificate

end VanetzaIdf.V2
