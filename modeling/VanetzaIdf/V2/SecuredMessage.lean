/-
# Messages of the older format

Header fields, payload and trailer fields of `security/v2`. What `serialize` writes
for a well-formed message is read back (`SecuredMessage.reads`), also from a packet
(`packet_read`). Header fields are read as long as the sizes reported so far are
less than the length in front of them; that of a certificate chain is one too many
if the chain has 127 octets (`overcounted`).
-/
import VanetzaIdf.V2.Certificate
import VanetzaIdf.Geonet.Wire.Codec

namespace VanetzaIdf.V2

open Lib Decoder

/-! ### Signers -/

inductive SignerInfo
  | digest (signer : CertificateSigner)
  | certificate (cert : Certificate)
  | certificateChain (list : List Certificate)
deriving DecidableEq

namespace SignerInfo

def getSize : SignerInfo → ℕ
  | digest signer => signer.getSize
  | certificate cert => 1 + cert.getSize
  | certificateChain list => 1 + (getSizeList Certificate.getSize list + lengthCodingSize
    (getSizeList Certificate.getSize list))

def serialize : SignerInfo → ByteBuffer
  | digest signer => signer.serialize
  | certificate cert => [SignerInfoType.certificate] ++ cert.serialize
  | certificateChain list => [SignerInfoType.certificateChain] ++ serializeList Certificate.getSize
    Certificate.serialize list

/-- `deserialize`. For a chain the octets of the length are computed from a
size that includes the type. -/
def deserialize : Archive (SignerInfo × ℕ) := do
  let type ← octet
  match type with
  | SignerInfoType.certificate => do
    let cert ← Certificate.deserialize
    pure (.certificate cert.1, 1 + cert.2)
  | SignerInfoType.certificateChain => do
    let list ← deserializeList Certificate.deserialize
    pure (.certificateChain list.1, 1 + list.2 + lengthCodingSize (1 + list.2))
  | type => do
    let signer ← CertificateSigner.deserializeDigest type
    pure (.digest signer.1, signer.2)

/-- The certificates are well-formed, within the limit of their list. -/
def WellFormed : SignerInfo → Prop
  | digest _ => True
  | certificate cert => cert.WellFormed
  | certificateChain list => (∀ x ∈ list, x.WellFormed) ∧ getSizeList Certificate.getSize list ≤ 4096

/-- A certificate chain of 127 octets, for which one too many is reported. -/
def overcounted : SignerInfo → Bool
  | certificateChain list => getSizeList Certificate.getSize list == 127
  | _ => false

theorem size_chain {n : ℕ} (h : n ≤ 4096) :
    1 + n + lengthCodingSize (1 + n) = 1 + (n + lengthCodingSize n) + (n == 127).toNat := by
  rw [lengthCodingSize_of_lt (by omega), lengthCodingSize_of_lt (by omega)]
  by_cases hn : n = 127
  · subst hn
    rfl
  · rw [beq_false_of_ne hn]
    split_ifs <;> simp <;> omega

theorem reads {info : SignerInfo} (h : info.WellFormed) :
    ReadsIn .ok deserialize info.serialize (info, info.getSize + info.overcounted.toNat) := by
  cases info with
  | digest signer =>
    cases signer with
    | self =>
      rw [show serialize (digest .self) = [SignerInfoType.self] ++ [] from rfl]
      exact (fixed_octet.reads _ _).bind (ReadsIn.pure rfl)
    | certificateDigestWithSha256 digest =>
      exact (fixed_octet.reads _ _).bind ((((fixed_vector 8).reads _ _).last rfl).last rfl)
    | certificateDigestWithOtherAlgorithm algorithm digest =>
      exact (fixed_octet.reads _ _).bind
        (((fixed_octet.reads _ _).bind (((fixed_vector 8).reads _ _).last rfl)).last rfl)
  | certificate cert => exact (fixed_octet.reads _ _).bind ((Certificate.roundTrips.reads h).last rfl)
  | certificateChain list =>
    exact (fixed_octet.reads _ _).bind ((readsIn_list Certificate.roundTrips h.1 h.2).last
      (congrArg (Prod.mk _) (size_chain h.2)))

theorem gives : GivesIn .ok deserialize fun x => x.1.WellFormed := by
  refine (fixed_octet.gives _).bind fun type => ?_
  split
  · exact Certificate.roundTrips.gives.bind fun _ => .pure fun h _ => h.1
  · exact (gives_list Certificate.roundTrips).bind fun _ => .pure fun h _ => ⟨h.1, h.2.2⟩
  · exact (CertificateSigner.gives_digest _).bind fun _ => .pure fun _ _ => trivial

theorem length_serialize {info : SignerInfo} (h : info.WellFormed) : info.serialize.length = info.getSize := by
  cases info with
  | digest signer => exact signer.length_serialize
  | certificate cert =>
    simp only [serialize, getSize, List.length_append, List.length_singleton, Certificate.roundTrips.length h]
  | certificateChain list =>
    simp only [serialize, getSize, List.length_append, List.length_singleton,
      length_list Certificate.roundTrips h.1 (h.2.trans_lt (by norm_num))]

end SignerInfo

/-! ### Recipients -/

/-- `Key`; an ECIES key is encrypted with AES-128. -/
inductive Key
  | eciesEncryptedKey (v : EccPoint) (c : Vector UInt8 16) (t : Vector UInt8 16)
  | opaqueKey (data : ByteBuffer)
deriving DecidableEq

structure RecipientInfo where
  certId : HashedId8
  encKey : Key
deriving DecidableEq

namespace Key

def getSize : Key → ℕ
  | eciesEncryptedKey v _ _ => 16 + 16 + v.getSize
  | opaqueKey data => lengthCodingSize data.length + data.length

/-- The algorithm and the key; any other algorithm may have been read. -/
def serialize : Key → ByteBuffer
  | eciesEncryptedKey v c t => [PublicKeyAlgorithm.eciesNistp256] ++ (v.serialize ++ (c.toList ++ t.toList))
  | opaqueKey data => [PublicKeyAlgorithm.ecdsaNistp256WithSha256] ++ (serializeLength data.length ++ data)

def deserializeEcies (symAlgo : SymmetricAlgorithm) : Archive Key := do
  let v ← EccPoint.deserialize
  match symAlgo with
  | SymmetricAlgorithm.aes128Ccm => do
    let c ← vector 16
    let t ← vector 16
    pure (.eciesEncryptedKey v c t)
  | _ => failure

/-- `deserialize_opaque`: nothing is read of a key that is too long. -/
def deserializeOpaque : Archive Key := do
  let length ← deserializeLength
  if length ≤ 512 then do
    let data ← octets length
    pure (.opaqueKey data)
  else pure (.opaqueKey [])

/-- A key that is not of ECIES is short enough to be read. -/
def WellFormed : Key → Prop
  | eciesEncryptedKey _ _ _ => True
  | opaqueKey data => data.length ≤ 512

end Key

namespace RecipientInfo

variable (info : RecipientInfo)

def getSize : ℕ := 8 + 1 + info.encKey.getSize

def serialize : ByteBuffer := info.certId.toList ++ info.encKey.serialize

def deserialize (symAlgo : SymmetricAlgorithm) : Archive (RecipientInfo × ℕ) := do
  let certId ← vector 8
  let algo ← octet
  let encKey ← if algo = PublicKeyAlgorithm.eciesNistp256 then Key.deserializeEcies symAlgo else Key.deserializeOpaque
  pure (⟨certId, encKey⟩, getSize ⟨certId, encKey⟩)

/-- The encrypted key can be written. -/
def WellFormed : Prop := info.encKey.WellFormed

theorem roundTrips : RoundTrips (deserialize .aes128Ccm) serialize getSize WellFormed where
  reads {info} h := by
    obtain ⟨certId, encKey⟩ := info
    refine ((fixed_vector 8).reads _ _).bind ?_
    cases encKey with
    | eciesEncryptedKey v c t =>
      refine (fixed_octet.reads _ _).bind ?_
      rw [if_pos rfl]
      exact ReadsIn.last (v.reads.bind (((fixed_vector 16).reads _ _).bind (((fixed_vector 16).reads _ _).last rfl)))
        rfl
    | opaqueKey data =>
      have hlimit : data.length ≤ 512 := h
      refine (fixed_octet.reads _ _).bind ?_
      rw [if_neg (by decide)]
      refine ReadsIn.last ((readsIn_length (by omega)).bind ?_) rfl
      rw [if_pos hlimit]
      exact (reads_octets rfl _).last rfl
  gives := by
    refine ((fixed_vector 8).gives _).bind fun certId => (fixed_octet.gives _).bind fun algo => ?_
    split_ifs
    · refine GivesIn.bind (P := Key.WellFormed) ?_ fun _ => .pure fun h _ _ => ⟨h, rfl⟩
      exact EccPoint.gives.bind fun _ => ((fixed_vector 16).gives _).bind fun _ =>
        ((fixed_vector 16).gives _).bind fun _ =>
        .pure fun _ _ _ => trivial
    · refine GivesIn.bind (P := Key.WellFormed) (gives_length.bind fun length => ?_) fun _ =>
        .pure fun h _ _ => ⟨h, rfl⟩
      split_ifs with hlimit
      · exact GivesIn.octets.bind fun data => .pure fun hlength _ => hlength.trans_le hlimit
      · exact .pure fun _ => Nat.zero_le 512
  length {info} h := by
    obtain ⟨certId, encKey⟩ := info
    cases encKey with
    | eciesEncryptedKey v c t =>
      simp [serialize, Key.serialize, getSize, Key.getSize]
      omega
    | opaqueKey data =>
      have hlimit : data.length ≤ 512 := h
      simp only [serialize, Key.serialize, getSize, Key.getSize, serializeLength, List.length_append,
        List.length_singleton,
        Vector.length_toList, length_encodeLength (show data.length < 2 ^ 56 by omega)]
      omega
  pos info := by
    unfold getSize
    omega

end RecipientInfo

/-! ### Header fields -/

abbrev HashedId3 := Vector UInt8 3

/-- `Nonce`, the only `EncryptionParameter`. -/
abbrev Nonce := Vector UInt8 12

abbrev HeaderFieldType := UInt8

namespace HeaderFieldType
@[match_pattern] def generationTime : HeaderFieldType := 0
@[match_pattern] def generationTimeConfidence : HeaderFieldType := 1
@[match_pattern] def expiration : HeaderFieldType := 2
@[match_pattern] def generationLocation : HeaderFieldType := 3
@[match_pattern] def requestUnrecognizedCertificate : HeaderFieldType := 4
@[match_pattern] def itsAid : HeaderFieldType := 5
@[match_pattern] def signerInfo : HeaderFieldType := 128
@[match_pattern] def encryptionParameters : HeaderFieldType := 129
@[match_pattern] def recipientInfo : HeaderFieldType := 130
end HeaderFieldType

inductive HeaderField
  | generationTime (time : UInt64)
  | generationTimeConfidence (time64 : UInt64) (logStdDev : UInt8)
  | expiration (time : UInt32)
  | generationLocation (loc : ThreeDLocation)
  | requestUnrecognizedCertificate (list : List HashedId3)
  | itsAid (x : IntX)
  | signerInfo (info : SignerInfo)
  | encryptionParameters (nonce : Nonce)
  | recipientInfo (list : List RecipientInfo)
deriving DecidableEq

namespace HeaderField

def getSize : HeaderField → ℕ
  | generationTime _ => 1 + 8
  | generationTimeConfidence _ _ => 1 + (8 + 1)
  | expiration _ => 1 + 4
  | generationLocation loc => 1 + loc.getSize
  | requestUnrecognizedCertificate list => 1 + (3 * list.length + lengthCodingSize (3 * list.length))
  | itsAid x => 1 + x.getSize
  | signerInfo info => 1 + info.getSize
  | encryptionParameters _ => 1 + (1 + 12)
  | recipientInfo list =>
    1 + (getSizeList RecipientInfo.getSize list + lengthCodingSize (getSizeList RecipientInfo.getSize list))

def serialize : HeaderField → ByteBuffer
  | generationTime time => [HeaderFieldType.generationTime] ++ be64 time
  | generationTimeConfidence time64 logStdDev => [HeaderFieldType.generationTimeConfidence] ++
    (be64 time64 ++ [logStdDev])
  | expiration time => [HeaderFieldType.expiration] ++ be32 time
  | generationLocation loc => [HeaderFieldType.generationLocation] ++ loc.serialize
  | requestUnrecognizedCertificate list =>
    [HeaderFieldType.requestUnrecognizedCertificate] ++
      (serializeLength (3 * list.length) ++ list.flatMap Vector.toList)
  | itsAid x => [HeaderFieldType.itsAid] ++ x.serialize
  | signerInfo info => [HeaderFieldType.signerInfo] ++ info.serialize
  | encryptionParameters nonce => [HeaderFieldType.encryptionParameters] ++
    ([SymmetricAlgorithm.aes128Ccm] ++ nonce.toList)
  | recipientInfo list => [HeaderFieldType.recipientInfo] ++ serializeList RecipientInfo.getSize
    RecipientInfo.serialize list

def deserializeHashedIds : ℕ → Archive (List HashedId3)
  | 0 => pure []
  | n + 1 => do
    let id ← vector 3
    let list ← deserializeHashedIds n
    pure (id :: list)

/-- One turn of the loop in `deserialize`: the field, and what is added to
`read`. Digests are read as long as the counter, which goes up in threes, is
less than the length. -/
def deserialize (symAlgo : Option SymmetricAlgorithm) : Archive (HeaderField × ℕ) := do
  let type ← octet
  match type with
  | HeaderFieldType.generationTime => do
    let time ← uint64
    pure (.generationTime time, 1 + 8)
  | HeaderFieldType.generationTimeConfidence => do
    let time64 ← uint64
    let logStdDev ← octet
    pure (.generationTimeConfidence time64 logStdDev, 1 + (8 + 1))
  | HeaderFieldType.expiration => do
    let time ← uint32
    pure (.expiration time, 1 + 4)
  | HeaderFieldType.generationLocation => do
    let loc ← ThreeDLocation.deserialize
    pure (.generationLocation loc.1, 1 + loc.2)
  | HeaderFieldType.requestUnrecognizedCertificate => do
    let coded ← deserializeLength
    let tmpSize ← trimSize coded
    let list ← deserializeHashedIds ((tmpSize + 2) / 3)
    pure (.requestUnrecognizedCertificate list, 1 + (tmpSize + lengthCodingSize tmpSize))
  | HeaderFieldType.itsAid => do
    let x ← IntX.deserialize
    pure (.itsAid x.1, 1 + x.2)
  | HeaderFieldType.signerInfo => do
    let info ← SignerInfo.deserialize
    pure (.signerInfo info.1, 1 + info.2)
  | HeaderFieldType.recipientInfo =>
    match symAlgo with
    | some symAlgo => do
      let list ← deserializeList (RecipientInfo.deserialize symAlgo)
      pure (.recipientInfo list.1, 1 + (list.2 + lengthCodingSize list.2))
    | none => failure
  | HeaderFieldType.encryptionParameters => do
    let algo ← octet
    match algo with
    | SymmetricAlgorithm.aes128Ccm => do
      let nonce ← vector 12
      pure (.encryptionParameters nonce, 1 + (1 + 12))
    | _ => failure
  | _ => failure

/-- `sym_algo` after the field. -/
def symAlgo (known : Option SymmetricAlgorithm) : HeaderField → Option SymmetricAlgorithm
  | encryptionParameters _ => some .aes128Ccm
  | _ => known

variable (field : HeaderField)

variable {known : Option SymmetricAlgorithm}

theorem symAlgo_eq (h : ∀ algo ∈ known, algo = .aes128Ccm) :
    ∀ algo ∈ field.symAlgo known, algo = .aes128Ccm := by
  cases field with
  | encryptionParameters nonce => exact fun algo halgo => (Option.some.inj halgo).symm
  | _ => exact h

/-- The contents are well-formed, and the key of recipients is of a known
algorithm. -/
def WellFormed (known : Option SymmetricAlgorithm) : HeaderField → Prop
  | requestUnrecognizedCertificate list => 3 * list.length ≤ sizeMax
  | itsAid x => x.WellFormed
  | signerInfo info => info.WellFormed
  | recipientInfo list => known = some .aes128Ccm ∧ (∀ x ∈ list, x.WellFormed) ∧
    getSizeList RecipientInfo.getSize list ≤ 4096
  | _ => True

/-- A signer with a certificate chain of 127 octets. -/
def overcounted : HeaderField → Bool
  | signerInfo info => info.overcounted
  | _ => false

/-- The size that the reader reports for what was written. -/
def reportedSize : ℕ := field.getSize + field.overcounted.toNat

theorem pos : 0 < field.getSize := by
  cases field <;> simp only [getSize] <;> omega

theorem readsIn_hashedIds : ∀ list : List HashedId3,
    ReadsIn .ok (deserializeHashedIds list.length) (list.flatMap Vector.toList) list
  | [] => ReadsIn.pure rfl
  | id :: list => by
    rw [List.flatMap_cons]
    exact ((fixed_vector 3).reads id _).bind ((readsIn_hashedIds list).last rfl)

theorem reads {field : HeaderField} (h : field.WellFormed known) :
    ReadsIn .ok (deserialize known) field.serialize (field, field.reportedSize) := by
  cases field with
  | generationTime time => exact (fixed_octet.reads _ _).bind ((fixed_uint64.reads _ _).last rfl)
  | generationTimeConfidence time64 logStdDev =>
    exact (fixed_octet.reads _ _).bind ((fixed_uint64.reads _ _).bind ((fixed_octet.reads _ _).last rfl))
  | expiration time => exact (fixed_octet.reads _ _).bind ((fixed_uint32.reads _ _).last rfl)
  | generationLocation loc => exact (fixed_octet.reads _ _).bind (loc.reads.last rfl)
  | requestUnrecognizedCertificate list =>
    have hmax : 3 * list.length < 2 ^ 56 := lt_of_le_of_lt h (by decide)
    have hids := readsIn_hashedIds list
    rw [show list.length = (3 * list.length + 2) / 3 by omega] at hids
    exact (fixed_octet.reads _ _).bind ((readsIn_length hmax).bind ((readsIn_trimSize h).bind (hids.last rfl)))
  | itsAid x => exact (fixed_octet.reads _ _).bind ((IntX.roundTrips.reads h).last rfl)
  | signerInfo info =>
    exact (fixed_octet.reads _ _).bind ((SignerInfo.reads h).last (congrArg (Prod.mk _) (Nat.add_assoc 1 _ _).symm))
  | encryptionParameters nonce =>
    exact (fixed_octet.reads _ _).bind ((fixed_octet.reads _ _).bind (((fixed_vector 12).reads _ _).last rfl))
  | recipientInfo list =>
    obtain ⟨rfl, hlist, hlimit⟩ := h
    exact (fixed_octet.reads _ _).bind ((readsIn_list RecipientInfo.roundTrips hlist hlimit).last rfl)

theorem gives_hashedIds : ∀ n, GivesIn .ok (deserializeHashedIds n) (·.length = n)
  | 0 => .pure rfl
  | n + 1 => ((fixed_vector 3).gives _).bind fun _ => (gives_hashedIds n).bind fun _ => .pure fun h _ =>
    congrArg (· + 1) h

theorem gives (hknown : ∀ algo ∈ known, algo = .aes128Ccm) :
    GivesIn .ok (deserialize known) fun x => x.1.WellFormed known := by
  refine (fixed_octet.gives _).bind fun type => ?_
  split
  · exact (fixed_uint64.gives _).bind fun _ => .pure fun _ _ => trivial
  · exact (fixed_uint64.gives _).bind fun _ => (fixed_octet.gives _).bind fun _ => .pure fun _ _ _ => trivial
  · exact (fixed_uint32.gives _).bind fun _ => .pure fun _ _ => trivial
  · exact ThreeDLocation.gives.bind fun _ => .pure fun _ _ => trivial
  · refine gives_length.bind fun coded => (gives_trimSize coded).bind fun tmpSize => (gives_hashedIds _).bind
      fun list => .pure ?_
    rintro hlength ⟨rfl, hmax⟩ - -
    -- the largest size is a multiple of three
    show 3 * list.length ≤ sizeMax
    unfold sizeMax at hmax ⊢
    omega
  · exact IntX.roundTrips.gives.bind fun _ => .pure fun h _ => h.1
  · exact SignerInfo.gives.bind fun _ => .pure fun h _ => h
  · split
    · obtain rfl := hknown _ rfl
      exact (gives_list RecipientInfo.roundTrips).bind fun _ => .pure fun h _ => ⟨rfl, h.1, h.2.2⟩
    · exact .failure
  · refine (fixed_octet.gives _).bind fun algo => ?_
    split
    · exact ((fixed_vector 12).gives _).bind fun _ => .pure fun _ _ _ => trivial
    · exact .failure
  · exact .failure

theorem length_serialize {field : HeaderField} (h : field.WellFormed known) :
    field.serialize.length = field.getSize := by
  cases field with
  | requestUnrecognizedCertificate list =>
    have hmax : 3 * list.length < 2 ^ 56 := lt_of_le_of_lt h (by decide)
    simp only [serialize, getSize, serializeLength, List.length_append, List.length_singleton, length_encodeLength hmax,
      List.length_flatMap, Vector.length_toList, List.map_const', List.sum_replicate_nat]
    omega
  | itsAid x => simp only [serialize, getSize, List.length_append, List.length_singleton, IntX.roundTrips.length h]
  | signerInfo info => simp only [serialize, getSize, List.length_append, List.length_singleton,
    SignerInfo.length_serialize h]
  | recipientInfo list =>
    simp only [serialize, getSize, List.length_append, List.length_singleton,
      length_list RecipientInfo.roundTrips h.2.1 (h.2.2.trans_lt (by norm_num))]
  | _ => simp [serialize, getSize, be64, be32, Nat.add_comm]

end HeaderField

/-- The loop of `deserialize` of header fields, at most as many as the length says. -/
def deserializeFields (size : ℕ) : ℕ → ℕ → Option SymmetricAlgorithm → List HeaderField → Archive (List HeaderField × ℕ)
  | 0, read, _, list => pure (list, read)
  | fuel + 1, read, symAlgo, list => do
    let good ← Archive.isGood
    if read < size ∧ good then do
      let x ← HeaderField.deserialize symAlgo
      deserializeFields size fuel (read + x.2) (x.1.symAlgo symAlgo) (list ++ [x.1])
    else pure (list, read)

def deserializeHeaderFields : Archive (List HeaderField × ℕ) := do
  let coded ← deserializeLength
  let size ← trimSize coded
  if 1024 < size then do
    Archive.fail .excessiveLength
    deserializeFields size size 0 none []
  else deserializeFields size size 0 none []

/-- Each field is well-formed after those before it. -/
def FieldsWellFormed : Option SymmetricAlgorithm → List HeaderField → Prop
  | _, [] => True
  | known, field :: list => field.WellFormed known ∧ FieldsWellFormed (field.symAlgo known) list

def headerFieldsSize (list : List HeaderField) : ℕ := getSizeList HeaderField.getSize list

theorem headerFieldsSize_cons (field : HeaderField) (list : List HeaderField) :
    headerFieldsSize (field :: list) = field.getSize + headerFieldsSize list := getSizeList_cons field list

section Fields

variable {size fuel read : ℕ} {known : Option SymmetricAlgorithm} {done : List HeaderField}

theorem deserializeFields_step (hread : read < size) (input : ByteBuffer) :
    deserializeFields size (fuel + 1) read known done (input, .ok) =
      (HeaderField.deserialize known (input, .ok)).bind fun r =>
        deserializeFields size fuel (read + r.1.2) (r.1.1.symAlgo known) (done ++ [r.1.1]) r.2 := by
  rw [deserializeFields]
  exact congrFun (if_pos ⟨hread, rfl⟩) _

theorem deserializeFields_stop (hstop : ¬ (read < size ∧ 0 < fuel)) (input : ByteBuffer) :
    deserializeFields size fuel read known done (input, .ok) = some ((done, read), input, .ok) := by
  cases fuel with
  | zero => rfl
  | succ fuel =>
    rw [deserializeFields]
    exact congrFun (if_neg fun h => hstop ⟨h.1, Nat.succ_pos fuel⟩) _

theorem readsIn_fields : ∀ {list : List HeaderField} (fuel read : ℕ) {known : Option SymmetricAlgorithm}
    (done : List HeaderField), FieldsWellFormed known list → (∀ field ∈ list, field.overcounted = false) →
    read + headerFieldsSize list = size → headerFieldsSize list ≤ fuel →
    ReadsIn .ok (deserializeFields size fuel read known done) (list.flatMap HeaderField.serialize) (done ++ list, size)
  | [], fuel, read, known, done, _, _, hread, _ => by
    intro rest
    obtain rfl : read = size := hread
    rw [List.append_nil]
    exact deserializeFields_stop (fun h => lt_irrefl _ h.1) rest
  | field :: list, fuel, read, known, done, h, hchains, hread, hfuel => by
    intro rest
    have hpos := field.pos
    obtain ⟨hchain, hchains⟩ := List.forall_mem_cons.mp hchains
    have hreported : field.reportedSize = field.getSize := by rw [HeaderField.reportedSize, hchain,
      Bool.toNat_false, Nat.add_zero]
    rw [headerFieldsSize_cons] at hread hfuel
    obtain ⟨fuel, rfl⟩ : ∃ k, fuel = k + 1 := ⟨fuel - 1, by omega⟩
    rw [List.flatMap_cons, List.append_assoc, deserializeFields_step (by omega), HeaderField.reads h.1,
      Option.bind_some,
      hreported]
    have hnext := readsIn_fields fuel (read + field.getSize) (done ++ [field]) h.2 hchains (by omega) (by omega)
    rw [List.append_assoc, List.singleton_append] at hnext
    exact hnext rest

theorem gives_fields (size : ℕ) : ∀ (fuel read : ℕ) (known : Option SymmetricAlgorithm) (done : List HeaderField),
    (∀ algo ∈ known, algo = .aes128Ccm) → GivesIn .ok (deserializeFields size fuel read known done) fun x =>
      ∃ new, x.1 = done ++ new ∧ FieldsWellFormed known new
  | 0, read, known, done, _ => .pure ⟨[], (List.append_nil _).symm, trivial⟩
  | fuel + 1, read, known, done, hknown => by
    refine Archive.gives_isGood.bind fun good => ?_
    split_ifs
    · refine (HeaderField.gives hknown).bind fun x => ?_
      refine (gives_fields size fuel (read + x.2) _ (done ++ [x.1]) (x.1.symAlgo_eq hknown)).imp ?_
      rintro y ⟨new, hy, hnew⟩ hx -
      exact ⟨x.1 :: new, by rw [hy, List.append_assoc, List.singleton_append], hx, hnew⟩
    · exact .pure fun _ => ⟨[], (List.append_nil _).symm, trivial⟩

theorem fields_reported : ∀ {list : List HeaderField} {fuel read : ℕ} {known : Option SymmetricAlgorithm}
    {done : List HeaderField} {rest after : ByteBuffer} {n : ℕ}, FieldsWellFormed known list →
    (∀ algo ∈ known, algo = .aes128Ccm) →
    deserializeFields size fuel read known done (list.flatMap HeaderField.serialize ++ rest, .ok) =
      some ((done ++ list, n), after, .ok) →
    n = read + getSizeList HeaderField.reportedSize list ∧ after = rest
  | [], fuel, read, known, done, rest, after, n, _, hknown, h => by
    rw [List.flatMap_nil, List.nil_append, List.append_nil] at h
    by_cases hturn : read < size ∧ 0 < fuel
    · -- another field would be in the list
      obtain ⟨fuel, rfl⟩ := Nat.exists_eq_add_of_le' hturn.2
      rw [deserializeFields_step hturn.1, Option.bind_eq_some_iff] at h
      obtain ⟨⟨x, input, st⟩, -, h⟩ := h
      obtain ⟨-, new, hdone, -⟩ := gives_fields size fuel _ _ _ (x.1.symAlgo_eq hknown) h
      exact absurd (congrArg List.length hdone) (by simp)
    · rw [deserializeFields_stop hturn] at h
      cases h
      exact ⟨rfl, rfl⟩
  | field :: list, fuel, read, known, done, rest, after, n, hwf, hknown, h => by
    by_cases hturn : read < size ∧ 0 < fuel
    · obtain ⟨fuel, rfl⟩ := Nat.exists_eq_add_of_le' hturn.2
      rw [List.append_cons done field list, List.flatMap_cons, List.append_assoc, deserializeFields_step hturn.1,
        HeaderField.reads hwf.1] at h
      obtain ⟨hn, hafter⟩ := fields_reported hwf.2 (field.symAlgo_eq hknown) h
      exact ⟨by rw [hn, getSizeList_cons, Nat.add_assoc], hafter⟩
    · rw [deserializeFields_stop hturn] at h
      have hdone := (Prod.mk.inj (Prod.mk.inj (Option.some.inj h)).1).1
      exact absurd (congrArg List.length hdone) (by simp)

end Fields

theorem readsIn_headerFields {list : List HeaderField} (h : FieldsWellFormed none list)
    (hchains : ∀ field ∈ list, field.overcounted = false) (hlimit : headerFieldsSize list ≤ 1024) :
    ReadsIn .ok deserializeHeaderFields (serializeList HeaderField.getSize HeaderField.serialize list)
      (list, headerFieldsSize list) := by
  unfold deserializeHeaderFields serializeList
  refine (readsIn_length (show headerFieldsSize list < 2 ^ 56 by omega)).bind
    ((readsIn_trimSize (hlimit.trans (by decide))).bind ?_)
  rw [if_neg (by omega)]
  exact readsIn_fields _ _ [] h hchains (Nat.zero_add _) le_rfl

theorem length_fields : ∀ {list : List HeaderField} {known : Option SymmetricAlgorithm}, FieldsWellFormed known list →
    (list.flatMap HeaderField.serialize).length = headerFieldsSize list
  | [], _, _ => rfl
  | field :: list, known, h => by
    rw [List.flatMap_cons, List.length_append, HeaderField.length_serialize h.1, length_fields h.2,
      headerFieldsSize_cons]

/-! ### Payload and trailer fields -/

/-- `Payload`: its type is an octet, its data is that of the network layer. -/
structure Payload where
  type : UInt8
  data : ByteBuffer
deriving DecidableEq

namespace Payload

def getSize (payload : Payload) : ℕ := 1 + payload.data.length + lengthCodingSize payload.data.length

def serialize (payload : Payload) : ByteBuffer := [payload.type] ++
  (serializeLength payload.data.length ++ payload.data)

def deserialize : Archive (Payload × ℕ) := do
  let type ← octet
  let dataLength ← deserializeLength
  if dataLength ≤ 4096 then do
    let data ← octets dataLength
    pure (⟨type, data⟩, 1 + lengthCodingSize dataLength + dataLength)
  else do
    Archive.fail .excessiveLength
    pure (⟨type, []⟩, 1)

theorem reads {payload : Payload} (h : payload.data.length ≤ 4096) :
    ReadsIn .ok deserialize payload.serialize (payload, payload.getSize) := by
  refine (fixed_octet.reads _ _).bind ((readsIn_length (by omega)).bind ?_)
  rw [if_pos h]
  exact (reads_octets rfl _).last (congrArg (Prod.mk payload) (Nat.add_right_comm _ _ _))

theorem length_serialize {payload : Payload} (h : payload.data.length ≤ 4096) :
    payload.serialize.length = payload.getSize := by
  simp only [serialize, getSize, serializeLength, List.length_append, List.length_singleton,
    length_encodeLength (show payload.data.length < 2 ^ 56 by omega)]
  omega

end Payload

abbrev TrailerFieldType := UInt8

namespace TrailerFieldType
@[match_pattern] def signature : TrailerFieldType := 1
end TrailerFieldType

/-- `TrailerField`, which is a signature. -/
structure TrailerField where
  signature : Signature
deriving DecidableEq

namespace TrailerField

def getSize (field : TrailerField) : ℕ := 1 + field.signature.getSize

def serialize (field : TrailerField) : ByteBuffer := [TrailerFieldType.signature] ++ field.signature.serialize

def deserialize : Archive (TrailerField × ℕ) := do
  let type ← octet
  match type with
  | TrailerFieldType.signature => do
    let sig ← Signature.deserialize
    pure (⟨sig.1⟩, 1 + sig.2)
  | _ => failure

theorem roundTrips : RoundTrips deserialize serialize getSize fun _ => True where
  reads {field} _ := (fixed_octet.reads _ _).bind (field.signature.reads.last rfl)
  gives := by
    refine (fixed_octet.gives _).bind fun type => ?_
    split
    · exact Signature.gives.bind fun _ => .pure fun h _ => ⟨trivial, congrArg (1 + ·) h⟩
    · exact .failure
  length {field} _ := by simp [serialize, getSize, Nat.add_comm]
  pos field := by
    unfold getSize
    omega

end TrailerField

/-! ### Messages -/

structure SecuredMessage where
  headerFields : List HeaderField
  payload : Payload
  trailerFields : List TrailerField
deriving DecidableEq

namespace SecuredMessage

variable (message : SecuredMessage)

def trailerFieldsSize : ℕ := getSizeList TrailerField.getSize message.trailerFields

def serialize : ByteBuffer :=
  [2] ++ (serializeList HeaderField.getSize HeaderField.serialize message.headerFields ++
    (message.payload.serialize ++ serializeList TrailerField.getSize TrailerField.serialize message.trailerFields))

/-- `deserialize`: the message, and the size that is reported. -/
def deserialize : Archive (SecuredMessage × ℕ) := do
  let protocolVersion ← octet
  if protocolVersion = 2 then do
    let header ← deserializeHeaderFields
    let payload ← Payload.deserialize
    let trailer ← deserializeList TrailerField.deserialize
    pure (⟨header.1, payload.1, trailer.1⟩,
      1 + (header.2 + lengthCodingSize header.2) + payload.2 + (trailer.2 + lengthCodingSize trailer.2))
  else failure

/-- The fields are well-formed, within the limits of their readers. -/
structure Limited (message : SecuredMessage) : Prop where
  headerFields : FieldsWellFormed none message.headerFields
  headerFields_le : headerFieldsSize message.headerFields ≤ 1024
  payload_le : message.payload.data.length ≤ 4096
  trailerFields_le : message.trailerFieldsSize ≤ 4096

/-- Besides, the size of every field is reported as it is. -/
structure WellFormed (message : SecuredMessage) : Prop extends Limited message where
  chains : ∀ field ∈ message.headerFields, field.overcounted = false

def getSize : ℕ :=
  1 + (headerFieldsSize message.headerFields + lengthCodingSize (headerFieldsSize message.headerFields))
    + message.payload.getSize +
    (message.trailerFieldsSize + lengthCodingSize message.trailerFieldsSize)

theorem reads {message : SecuredMessage} (h : message.WellFormed) :
    ReadsIn .ok deserialize message.serialize (message, message.getSize) := by
  refine (fixed_octet.reads 2 _).bind ?_
  rw [if_pos rfl]
  exact (readsIn_headerFields h.headerFields h.chains h.headerFields_le).bind ((Payload.reads h.payload_le).bind
    ((readsIn_list TrailerField.roundTrips (fun _ _ => trivial) h.trailerFields_le).last rfl))

theorem length_serialize {message : SecuredMessage} (h : message.Limited) :
    message.serialize.length = message.getSize := by
  have hheader : (serializeList HeaderField.getSize HeaderField.serialize message.headerFields).length =
      lengthCodingSize (headerFieldsSize message.headerFields) + headerFieldsSize message.headerFields := by
    have hlimit : getSizeList HeaderField.getSize message.headerFields ≤ 1024 := h.headerFields_le
    unfold serializeList
    rw [List.length_append, length_fields h.headerFields, serializeLength, length_encodeLength (by omega)]
    rfl
  have htrailer := length_list TrailerField.roundTrips (fun _ _ => trivial) (h.trailerFields_le.trans_lt (by norm_num))
  simp only [serialize, getSize, trailerFieldsSize, List.length_append, List.length_singleton, hheader,
    Payload.length_serialize h.payload_le, htrailer]
  omega

/-- A message with a digest, an application and a signature. -/
def sample : SecuredMessage where
  headerFields := [.signerInfo (.digest (.certificateDigestWithSha256 (Vector.replicate 8 7))),
    .generationTime 5, .itsAid 36]
  payload := ⟨1, [7, 8, 9]⟩
  trailerFields := [⟨⟨.xCoordinateOnly (Vector.replicate 32 3), Vector.replicate 32 4⟩⟩]

/-! ### Packets -/

open Geonet.Wire

/-- Packets of stations that know this format only. -/
instance : SecuredCodec SecuredMessage where
  serialize := serialize
  getSize := getSize
  deserializeV2 b := (deserialize (b, .ok)).map fun x => (x.1.1, x.1.2, x.2.1)
  deserializeV3 _ := none

theorem parseSecured_serialize {message : SecuredMessage} (h : message.WellFormed) {p : Parser} (hgood : p.good = true)
    {rest : ByteBuffer} (hp : p.input = message.serialize ++ rest) :
    p.parseSecured = (some message, { p with input := rest, readBytes := p.readBytes + message.getSize }) := by
  have hread : SecuredCodec.deserializeV2 (message.serialize ++ rest) = some (message, message.getSize, rest) :=
    congrArg (Option.map _) (reads h rest)
  have hpos : 0 < message.getSize := by
    unfold getSize
    omega
  rw [← hp] at hread
  exact Parser.parseSecured_v2 hgood hp (by decide) hread hpos

/-- **Secured packets.** Basic header and message of a packet are read back,
and as many octets are counted as the packet is said to have. -/
theorem packet_read {pdu : Pdu SecuredMessage} {message : SecuredMessage} (hsec : pdu.secured = some message)
    (h : message.WellFormed) (rest : ByteBuffer) :
    ∃ p, ({ input := pdu.serialize ++ rest } : Parser).parseBasic = (some pdu.basic, p) ∧
      p.parseSecured = (some message, { input := rest, readBytes := pdu.getLength }) := by
  have hserialize : pdu.serialize = pdu.basic.serialize ++ message.serialize := by
    unfold Pdu.serialize
    rw [hsec]
    rfl
  have hlength : pdu.getLength = 0 + 4 + message.getSize := by
    unfold Pdu.getLength
    rw [hsec]
    rfl
  rw [hserialize, List.append_assoc, hlength]
  exact ⟨_, Parser.parse_reads (BasicHeader.fixed.reads _) _ _ rfl 4, parseSecured_serialize h rfl rfl⟩

theorem packet_read_sample :
    ∃ p, ({ input := ({ secured := some sample } : Pdu SecuredMessage).serialize ++ [1, 2] } : Parser).parseBasic =
      (some {}, p) ∧
      p.parseSecured = (some sample, { input := [1, 2], readBytes :=
        ({ secured := some sample } : Pdu SecuredMessage).getLength }) :=
  packet_read rfl
    { headerFields := by simp [FieldsWellFormed, sample, HeaderField.WellFormed, SignerInfo.WellFormed, IntX.WellFormed]
      chains := by decide
      headerFields_le := by decide
      payload_le := by decide
      trailerFields_le := by decide } [1, 2]

end SecuredMessage

end VanetzaIdf.V2
