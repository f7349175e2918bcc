/-
# The octets that are accounted for

A grammar of messages of the older format, about octets alone: every length and
number has its shortest coding and is within the limit of its list, lists end where
their length says, keys that are not of ECIES have the algorithm 0, and no
certificate chain has 127 octets. Its strings are those written for well-formed
values (`Spells`), so octets are accepted and accounted for exactly if they start
with such a string (`message_accounted`).
-/
import VanetzaIdf.Lib.Grammar
import VanetzaIdf.V2.Accounting

namespace VanetzaIdf.V2

open Lib Decoder Computability

/-! ### The grammar -/

namespace Grammar

/-- The shortest coding of a number: `k` ones, a zero and the number, which has
more than `k` groups of seven bits. -/
def number (n : ℕ) : Language UInt8 := {bs | ∃ k, IntX.Complete bs k n ∧ bs.length = k + 1 ∧ (0 < k → 128 ^ k ≤ n)}

def anyNumber : Language UInt8 := {bs | ∃ n, bs ∈ number n}

/-- A string of `l`, with its length in front, if the length is such. -/
def counted (p : ℕ → Prop) (l : Language UInt8) : Language UInt8 := {bs | ∃ n, p n ∧ bs ∈ number n * (l ⊓ bytes n)}

def point : Language UInt8 := tag 0 * bytes 32 + tag 2 * bytes 32 + tag 3 * bytes 32 + tag 4 * (bytes 32 * bytes 32)

def publicKey : Language UInt8 := tag 0 * point + tag 1 * (bytes 1 * point)

def signature : Language UInt8 := tag 0 * (point * bytes 32)

def subjectInfo : Language UInt8 := bytes 1 * counted (· < 2 ^ 56) ⊤

def itsAidSsp : Language UInt8 := anyNumber * counted (· ≤ 1024) ⊤

def subjectAttribute : Language UInt8 :=
  tag 0 * publicKey + tag 1 * publicKey + tag 2 * bytes 1 + tag 32 * counted (· ≤ 4096) anyNumber∗ +
    tag 33 * counted (· ≤ 4096) itsAidSsp∗

def location : Language UInt8 := bytes 4 * bytes 4

def region : Language UInt8 :=
  tag 0 + tag 1 * (location * bytes 2) + tag 2 * counted (· ≤ sizeMax) (location * location)∗ +
    tag 3 * counted (· ≤ sizeMax) location∗ + tag 4 * (bytes 1 * (bytes 2 * anyNumber))

def validityRestriction : Language UInt8 :=
  tag 0 * bytes 4 + tag 1 * (bytes 4 * bytes 4) + tag 2 * (bytes 4 * bytes 2) + tag 3 * region

def signer : Language UInt8 := tag 0 + tag 1 * bytes 8 + tag 4 * (bytes 1 * bytes 8)

def certificate : Language UInt8 :=
  tag 2 * (signer * (subjectInfo * (counted (· ≤ 4096) subjectAttribute∗ *
    (counted (· ≤ 4096) validityRestriction∗ * signature))))

/-- The signer of a message: a chain has any length but 127. -/
def signerInfo : Language UInt8 :=
  signer + tag 2 * certificate + tag 3 * counted (fun n => n ≤ 4096 ∧ n ≠ 127) certificate∗

/-- Keys that are not of ECIES have the algorithm 0 and at most 512 octets. -/
def key : Language UInt8 := tag 1 * (point * (bytes 16 * bytes 16)) + tag 0 * counted (· ≤ 512) ⊤

/-- Header fields but encryption parameters and recipients. -/
def plainField : Language UInt8 :=
  tag 0 * bytes 8 + tag 1 * (bytes 8 * bytes 1) + tag 2 * bytes 4 + tag 3 * (bytes 4 * (bytes 4 * bytes 2)) +
    tag 4 * counted (· ≤ sizeMax) (bytes 3)∗ + tag 5 * anyNumber + tag 128 * signerInfo

def encryptionParameters : Language UInt8 := tag 129 * (tag 0 * bytes 12)

def recipients : Language UInt8 := tag 130 * counted (· ≤ 4096) (bytes 8 * key)∗

/-- Header fields; there are recipients only after encryption parameters. -/
inductive Fields : Option SymmetricAlgorithm → ByteBuffer → Prop
  | nil (known : Option SymmetricAlgorithm) : Fields known []
  | plain {known : Option SymmetricAlgorithm} {field rest : ByteBuffer} (h : field ∈ plainField)
    (hrest : Fields known rest) :
    Fields known (field ++ rest)
  | parameters {known : Option SymmetricAlgorithm} {field rest : ByteBuffer} (h : field ∈ encryptionParameters)
    (hrest : Fields (some .aes128Ccm) rest) : Fields known (field ++ rest)
  | recipients {field rest : ByteBuffer} (h : field ∈ recipients) (hrest : Fields (some .aes128Ccm) rest) :
    Fields (some .aes128Ccm) (field ++ rest)

def fields : Language UInt8 := {bs | Fields none bs}

def trailerField : Language UInt8 := tag 1 * signature

def message : Language UInt8 :=
  tag 2 * (counted (· ≤ 1024) fields * (bytes 1 * counted (· ≤ 4096) ⊤ * counted (· ≤ 4096) trailerField∗))

end Grammar

open Grammar

theorem mem_number {n : ℕ} {bs : ByteBuffer} : bs ∈ number n ↔ n < 2 ^ 56 ∧ encodeLength n = bs := by
  constructor
  · rintro ⟨k, h, hlen, hshort⟩
    have hk := h.narrow
    have hn := h.number
    rw [← hlen, List.take_length, hlen] at hn
    have hlt : n < 128 ^ (k + 1) := hn ▸ Nat.mod_lt _ (by positivity)
    have hn56 : n < 2 ^ 56 := hlt.trans_le ((Nat.pow_le_pow_right (by norm_num) hk).trans (by norm_num))
    have hsize : lengthCodingSize n = k + 1 :=
      lengthCodingSize_eq (hn56.trans (by norm_num)) (Nat.succ_pos k) hlt fun _ => hshort (by omega)
    -- the number with the prefix above it
    have hvalue : ofBe bs = n + lead (k + 1) * 256 ^ k := by
      have hlead : 128 ^ (k + 1) * (2 ^ (k + 1) - 2) = lead (k + 1) * 256 ^ k := by
        interval_cases k <;> rfl
      have hpow : 128 ^ (k + 1) = 256 ^ k * 2 ^ (7 - k) := by
        interval_cases k <;> rfl
      cases bs with
      | nil => cases hlen
      | cons front rest =>
        have hrest : rest.length = k := Nat.succ.inj hlen
        have hfront : ofBe (front :: rest) / 256 ^ k = front.toNat := by
          rw [← List.singleton_append, ofBe_append, ofBe_singleton, hrest, Nat.mul_comm,
            Nat.mul_add_div (by positivity),
            Nat.div_eq_of_lt (hrest ▸ ofBe_lt rest), Nat.add_zero]
        rw [← Nat.mod_add_div (ofBe (front :: rest)) (128 ^ (k + 1)), ← hn, ← hlead, ← h.ones front rfl, ← hfront,
          Nat.div_div_eq_div_mul, ← hpow]
    refine ⟨hn56, ?_⟩
    rw [(encodeLength_eq hn56).1, hsize, Nat.add_sub_cancel, ← hvalue, ← hlen, beBytes_ofBe]
  · rintro ⟨hn, rfl⟩
    obtain ⟨front, k, hk, heq, hones, -⟩ := encodeLength_cons hn
    have hdecoded := decodeLength_encodeLength hn []
    have hlen := length_encodeLength hn
    rw [List.append_nil, heq, decodeLength_complete (hones ▸ hk) (by rw [length_beBytes, hones]), hones] at hdecoded
    rw [heq] at hlen ⊢
    refine ⟨k, ⟨hk, by simp, ?_, (Prod.mk.inj hdecoded).2.symm⟩, by simp, fun hpos => ?_⟩
    · intro front' hfront
      obtain rfl : front = front' := Option.some.inj hfront
      exact (IntX.countLeadingOnes_iff front k hk).mpr hones
    · have hspec := (@lengthCodingSizeFrom_spec 9 n (hn.trans (by norm_num))).2.2
      rw [List.length_cons, length_beBytes] at hlen
      rw [← lengthCodingSize, ← hlen, Nat.add_sub_cancel] at hspec
      exact hspec (by omega)

/-! ### What is written

The languages of the types, with one constructor of the type for each
alternative.
-/

theorem spells_number : Spells anyNumber IntX.serialize IntX.WellFormed := by
  intro bs
  constructor
  · rintro ⟨n, h⟩
    exact ⟨n, mem_number.mp h⟩
  · rintro ⟨n, h⟩
    exact ⟨n, mem_number.mpr h⟩

section Counted

variable {α : Type} {l : Language UInt8} {write : α → ByteBuffer} (size : α → ℕ) {wf : α → Prop} {p : ℕ → Prop}

theorem spells_counted (h : Spells l write wf) (hsize : ∀ a, wf a → (write a).length = size a)
    (hp : ∀ n, p n → n < 2 ^ 56) :
    Spells (counted p l) (fun a => serializeLength (size a) ++ write a) fun a => wf a ∧ p (size a) := by
  intro bs
  constructor
  · rintro ⟨n, hn, hbs⟩
    obtain ⟨cs, hcs, ds, ⟨hds, hlen⟩, rfl⟩ := Language.mem_mul.mp hbs
    obtain ⟨a, ha, rfl⟩ := (h ds).mp hds
    obtain rfl : size a = n := (hsize a ha).symm.trans hlen
    exact ⟨a, ⟨ha, hn⟩, congrArg (· ++ write a) (mem_number.mp hcs).2⟩
  · rintro ⟨a, ⟨ha, hn⟩, rfl⟩
    exact ⟨size a, hn, Language.append_mem_mul (mem_number.mpr ⟨hp _ hn, rfl⟩) ⟨(h _).mpr ⟨a, ha, rfl⟩, hsize a ha⟩⟩

theorem spells_list {size : α → ℕ} {read : Archive (α × ℕ)} (hr : RoundTrips read write size wf) (h : Spells l write wf)
    (hp : ∀ n, p n → n < 2 ^ 56) :
    Spells (counted p l∗) (serializeList size write) fun list => (∀ a ∈ list, wf a) ∧ p (getSizeList size list) :=
  spells_counted _ h.star (fun _ hlist => length_flatMap hr hlist) hp

theorem spells_buffer (hp : ∀ n, p n → n < 2 ^ 56) :
    Spells (counted p ⊤) (fun data => serializeLength data.length ++ data) fun data : ByteBuffer => p data.length := by
  have htop : Spells ⊤ (fun data : ByteBuffer => data) fun _ => True := fun bs =>
    ⟨fun _ => ⟨bs, trivial, rfl⟩, fun _ => Set.mem_univ bs⟩
  exact (spells_counted List.length htop (fun _ _ => rfl) hp).map id (fun _ => ⟨rfl, by simp⟩) fun b _ => ⟨b, rfl⟩

end Counted

theorem spells_tag (t : UInt8) : Spells (tag t) (fun _ : Unit => [t]) fun _ => True :=
  fun _ => ⟨fun h => ⟨(), trivial, Eq.symm h⟩, fun ⟨_, _, h⟩ => h.symm⟩

theorem spells_octet : Spells (bytes 1) (fun b => [b]) fun _ => True := (fixed_octet (σ := ErrorCode)).spells

theorem spells_vector (n : ℕ) : Spells (bytes n) (Vector.toList (n := n)) fun _ => True :=
  (fixed_vector (σ := ErrorCode) n).spells

theorem spells_uint16 : Spells (bytes 2) be16 fun _ => True := (fixed_uint16 (σ := ErrorCode)).spells

theorem spells_uint32 : Spells (bytes 4) be32 fun _ => True := (fixed_uint32 (σ := ErrorCode)).spells

theorem spells_int32 : Spells (bytes 4) beInt32 fun _ => True := (fixed_int32 (σ := ErrorCode)).spells

theorem EccPoint.spells : Spells point serialize fun _ => True := by
  have hx := spells_vector 32
  exact ((((hx.tagged 0).add (hx.tagged 2)).add (hx.tagged 3)).add ((hx.mul hx).tagged 4)).map
    (Sum.elim (Sum.elim (Sum.elim xCoordinateOnly compressedLsbY0) compressedLsbY1) fun p => uncompressed p.1 p.2)
    (by rintro (((_ | _) | _) | _) <;> exact ⟨rfl, by simp⟩) (by rintro (_ | _ | _ | _) <;> simp)

theorem PublicKey.spells : Spells publicKey serialize fun _ => True :=
  ((EccPoint.spells.tagged 0).add ((spells_octet.mul EccPoint.spells).tagged 1)).map
    (Sum.elim ecdsaNistp256WithSha256 fun x => eciesNistp256 x.1 x.2)
    (by rintro (_ | _) <;> exact ⟨rfl, by simp⟩) (by rintro (_ | _) <;> simp)

theorem Signature.spells : Spells signature serialize fun _ => True :=
  ((EccPoint.spells.mul (spells_vector 32)).tagged 0).map (fun x => ⟨x.1, x.2⟩) (fun _ => ⟨rfl, by simp⟩)
    fun sig _ => ⟨(sig.r, sig.s), rfl⟩

theorem SubjectInfo.spells : Spells subjectInfo serialize WellFormed :=
  (spells_octet.mul (spells_buffer fun _ h => h)).map (fun x => ⟨x.1, x.2⟩) (fun _ => ⟨rfl, by simp [WellFormed]⟩)
    fun sub _ => ⟨(sub.subjectType, sub.subjectName), rfl⟩

theorem ItsAidSsp.spells : Spells itsAidSsp serialize WellFormed :=
  (spells_number.mul (spells_buffer fun _ h => by omega)).map (fun x => ⟨x.1, x.2⟩) (fun _ => ⟨rfl, Iff.rfl⟩)
    fun x _ => ⟨(x.itsAid, x.serviceSpecificPermissions), rfl⟩

theorem SubjectAttribute.spells : Spells subjectAttribute serialize WellFormed :=
  (((((PublicKey.spells.tagged 0).add (PublicKey.spells.tagged 1)).add (spells_octet.tagged 2)).add
    ((spells_list IntX.roundTrips spells_number fun _ h => by omega).tagged 32)).add
    ((spells_list ItsAidSsp.roundTrips ItsAidSsp.spells fun _ h => by omega).tagged 33)).map
    (Sum.elim (Sum.elim (Sum.elim (Sum.elim verificationKey encryptionKey) assuranceLevel) itsAidList) itsAidSspList)
    (by rintro ((((_ | _) | _) | _) | _) <;> exact ⟨rfl, Iff.rfl⟩) (by rintro (_ | _ | _ | _ | _) <;> simp)

theorem TwoDLocation.spells : Spells location serialize fun _ => True :=
  (spells_int32.mul spells_int32).map (fun x => ⟨x.1, x.2⟩) (fun _ => ⟨rfl, by simp⟩)
    fun loc _ => ⟨(loc.latitude, loc.longitude), rfl⟩

theorem RectangularRegion.spells : Spells (location * location) serialize fun _ => True :=
  (TwoDLocation.spells.mul TwoDLocation.spells).map (fun x => ⟨x.1, x.2⟩) (fun _ => ⟨rfl, by simp⟩)
    fun reg _ => ⟨(reg.northwest, reg.southeast), rfl⟩

theorem GeographicRegion.spells : Spells region serialize WellFormed := by
  have hmax : ∀ n ≤ sizeMax, n < 2 ^ 56 := fun n h => h.trans_lt (by decide)
  exact (((((spells_tag 0).add ((TwoDLocation.spells.mul spells_uint16).tagged 1)).add
    ((spells_list RectangularRegion.roundTrips RectangularRegion.spells hmax).tagged 2)).add
    ((spells_list TwoDLocation.roundTrips TwoDLocation.spells hmax).tagged 3)).add
    ((spells_octet.mul ((fixed_int16 (σ := ErrorCode)).spells.mul spells_number)).tagged 4)).map
    (Sum.elim (Sum.elim (Sum.elim (Sum.elim (fun _ => none) fun x => circle ⟨x.1, x.2⟩) rectangle) polygon)
      fun x => id ⟨x.1, x.2.1, x.2.2⟩)
    (by rintro ((((_ | _) | _) | _) | _) <;> exact ⟨rfl, by simp [WellFormed]⟩) (by rintro (_ | _ | _ | _ | _) <;> simp)

theorem ValidityRestriction.spells : Spells validityRestriction serialize WellFormed :=
  ((((spells_uint32.tagged 0).add ((spells_uint32.mul spells_uint32).tagged 1)).add
    ((spells_uint32.mul spells_uint16).tagged 2)).add (GeographicRegion.spells.tagged 3)).map
    (Sum.elim (Sum.elim (Sum.elim timeEnd fun x => timeStartAndEnd x.1 x.2) fun x => timeStartAndDuration x.1 x.2)
      region)
    (by rintro (((_ | _) | _) | _) <;> exact ⟨rfl, by simp [WellFormed]⟩) (by rintro (_ | _ | _ | _) <;> simp)

theorem CertificateSigner.spells : Spells signer serialize fun _ => True :=
  (((spells_tag 0).add ((spells_vector 8).tagged 1)).add ((spells_octet.mul (spells_vector 8)).tagged 4)).map
    (Sum.elim (Sum.elim (fun _ => self) certificateDigestWithSha256) fun x =>
      certificateDigestWithOtherAlgorithm x.1 x.2)
    (by rintro ((_ | _) | _) <;> exact ⟨rfl, by simp⟩) (by rintro (_ | _ | _) <;> simp)

theorem Certificate.spells : Spells certificate serialize WellFormed :=
  ((CertificateSigner.spells.mul (SubjectInfo.spells.mul
    ((spells_list SubjectAttribute.roundTrips SubjectAttribute.spells fun _ h => by omega).mul
      ((spells_list ValidityRestriction.roundTrips ValidityRestriction.spells fun _ h => by omega).mul
        Signature.spells)))).tagged 2).map
    (fun x => ⟨x.1, x.2.1, x.2.2.1, x.2.2.2.1, x.2.2.2.2⟩)
    (fun _ => ⟨rfl, fun h => ⟨trivial, h.1, ⟨h.2, h.3⟩, ⟨h.4, h.5⟩, trivial⟩,
      fun h => ⟨h.2.1, h.2.2.1.1, h.2.2.1.2, h.2.2.2.1.1, h.2.2.2.1.2⟩⟩)
    fun cert _ => ⟨(cert.signerInfo, cert.subjectInfo, cert.subjectAttributes, cert.validityRestriction,
      cert.signature), rfl⟩

theorem SignerInfo.spells : Spells signerInfo serialize fun info => info.WellFormed ∧ info.overcounted = false :=
  ((CertificateSigner.spells.add (Certificate.spells.tagged 2)).add
    ((spells_list Certificate.roundTrips Certificate.spells fun _ h => by omega).tagged 3)).map
    (Sum.elim (Sum.elim digest certificate) certificateChain)
    (by rintro ((_ | _) | _) <;> exact ⟨rfl, by simp [WellFormed, overcounted, and_assoc]⟩)
      (by rintro (_ | _ | _) <;> simp)

theorem RecipientInfo.spells : Spells (bytes 8 * key) serialize WellFormed := by
  have hkey : Spells key Key.serialize Key.WellFormed :=
    (((EccPoint.spells.mul ((spells_vector 16).mul (spells_vector 16))).tagged 1).add
      ((spells_buffer fun _ h => by omega).tagged 0)).map
      (Sum.elim (fun x => .eciesEncryptedKey x.1 x.2.1 x.2.2) .opaqueKey)
      (by rintro (_ | _) <;> exact ⟨rfl, by simp [Key.WellFormed]⟩) (by rintro (_ | _) <;> simp)
  exact ((spells_vector 8).mul hkey).map (fun x => ⟨x.1, x.2⟩) (fun _ => ⟨rfl, by simp [WellFormed]⟩)
    fun info _ => ⟨(info.certId, info.encKey), rfl⟩

theorem TrailerField.spells : Spells trailerField serialize fun _ => True :=
  (Signature.spells.tagged 1).map (fun sig => ⟨sig⟩) (fun _ => ⟨rfl, Iff.rfl⟩) fun field _ => ⟨field.signature, rfl⟩

namespace HeaderField

theorem spells_plain : Spells plainField serialize fun field =>
    (∀ known, field.WellFormed known ∧ field.symAlgo known = known) ∧ field.overcounted = false := by
  have hids : Spells (counted (· ≤ sizeMax) (bytes 3)∗)
      (fun list : List HashedId3 => serializeLength (3 * list.length) ++ list.flatMap Vector.toList)
      fun list => 3 * list.length ≤ sizeMax :=
    (spells_counted (3 * ·.length) (spells_vector 3).star (fun list _ => by simp [mul_comm])
      fun n h => lt_of_le_of_lt h (by decide)).map (fun list => list) (fun _ => ⟨rfl, by simp⟩) fun list _ =>
        ⟨list, rfl⟩
  have hlocation : Spells (bytes 4 * (bytes 4 * bytes 2)) ThreeDLocation.serialize fun _ => True :=
    (spells_int32.mul (spells_int32.mul (spells_vector 2))).map (fun x => ⟨x.1, x.2.1, x.2.2⟩) (fun _ => ⟨rfl, by simp⟩)
      fun loc _ => ⟨(loc.latitude, loc.longitude, loc.elevation), rfl⟩
  have htime := (fixed_uint64 (σ := ErrorCode)).spells
  exact (((((((htime.tagged 0).add ((htime.mul spells_octet).tagged 1)).add (spells_uint32.tagged 2)).add
    (hlocation.tagged 3)).add (hids.tagged 4)).add (spells_number.tagged 5)).add (SignerInfo.spells.tagged 128)).map
    (Sum.elim (Sum.elim (Sum.elim (Sum.elim
      (Sum.elim (Sum.elim generationTime fun x => generationTimeConfidence x.1 x.2)
      expiration) generationLocation) requestUnrecognizedCertificate) itsAid) signerInfo)
    (by rintro ((((((_ | _) | _) | _) | _) | _) | _) <;> exact ⟨rfl, by simp [WellFormed, symAlgo, overcounted]⟩)
    (by
      rintro field ⟨hplain, -⟩
      obtain ⟨hwf, hsym⟩ := hplain none
      cases field <;> simp [WellFormed, symAlgo] at hwf hsym ⊢)

theorem spells_parameters : Spells Grammar.encryptionParameters (fun nonce => serialize (.encryptionParameters nonce))
    fun _ => True :=
  (((spells_vector 12).tagged 0).tagged 129)

theorem spells_recipients : Spells recipients (fun list => serialize (.recipientInfo list)) fun list =>
    (∀ x ∈ list, x.WellFormed) ∧ getSizeList RecipientInfo.getSize list ≤ 4096 :=
  (spells_list RecipientInfo.roundTrips RecipientInfo.spells fun _ h => by omega).tagged 130

end HeaderField

theorem fields_iff {known : Option SymmetricAlgorithm} (bs : ByteBuffer) : Fields known bs ↔
    ∃ list, (FieldsWellFormed known list ∧ ∀ field ∈ list, field.overcounted = false) ∧
      list.flatMap HeaderField.serialize = bs := by
  constructor
  · intro h
    induction h with
    | nil known => exact ⟨[], ⟨trivial, nofun⟩, rfl⟩
    | plain h _ ih =>
      obtain ⟨list, ⟨hlist, hchains⟩, rfl⟩ := ih
      obtain ⟨field, ⟨hwf, hchain⟩, rfl⟩ := (HeaderField.spells_plain _).mp h
      refine ⟨field :: list, ⟨⟨(hwf _).1, ?_⟩, List.forall_mem_cons.mpr ⟨hchain, hchains⟩⟩, rfl⟩
      rwa [(hwf _).2]
    | parameters h _ ih =>
      obtain ⟨list, ⟨hlist, hchains⟩, rfl⟩ := ih
      obtain ⟨nonce, -, rfl⟩ := (HeaderField.spells_parameters _).mp h
      exact ⟨.encryptionParameters nonce :: list, ⟨⟨trivial, hlist⟩, List.forall_mem_cons.mpr ⟨rfl, hchains⟩⟩, rfl⟩
    | recipients h _ ih =>
      obtain ⟨list, ⟨hlist, hchains⟩, rfl⟩ := ih
      obtain ⟨infos, hinfos, rfl⟩ := (HeaderField.spells_recipients _).mp h
      exact ⟨.recipientInfo infos :: list, ⟨⟨⟨rfl, hinfos⟩, hlist⟩, List.forall_mem_cons.mpr ⟨rfl, hchains⟩⟩, rfl⟩
  · rintro ⟨list, ⟨hwf, hchains⟩, rfl⟩
    induction list generalizing known with
    | nil => exact .nil known
    | cons field list ih =>
      obtain ⟨hchain, hchains⟩ := List.forall_mem_cons.mp hchains
      have hrest := ih hwf.2 hchains
      have hplain (h : ∀ known, field.WellFormed known ∧ field.symAlgo known = known) :
          Fields known ((field :: list).flatMap HeaderField.serialize) :=
        .plain ((HeaderField.spells_plain _).mpr ⟨field, ⟨h, hchain⟩, rfl⟩) ((h known).2 ▸ hrest)
      cases field with
      | encryptionParameters nonce =>
        exact .parameters ((HeaderField.spells_parameters _).mpr ⟨nonce, trivial, rfl⟩) hrest
      | recipientInfo infos =>
        obtain ⟨rfl, hinfos⟩ := hwf.1
        exact .recipients ((HeaderField.spells_recipients _).mpr ⟨infos, hinfos, rfl⟩) hrest
      | _ => exact hplain fun _ => ⟨hwf.1, rfl⟩

namespace SecuredMessage

theorem spells : Spells message serialize WellFormed := by
  have hfields : Spells fields (List.flatMap HeaderField.serialize) fun list =>
      FieldsWellFormed none list ∧ ∀ field ∈ list, field.overcounted = false := fields_iff
  have hheader := spells_counted (p := (· ≤ 1024)) headerFieldsSize hfields (fun _ h => length_fields h.1) fun _ h => by
    omega
  have hpayload := spells_octet.mul (spells_buffer (p := (· ≤ 4096)) fun _ h => by omega)
  have htrailer := spells_list (p := (· ≤ 4096)) TrailerField.roundTrips TrailerField.spells fun _ h => by omega
  exact ((hheader.mul (hpayload.mul htrailer)).tagged 2).map (fun x => ⟨x.1, ⟨x.2.1.1, x.2.1.2⟩, x.2.2⟩)
    (fun x => ⟨rfl, fun h => ⟨⟨⟨h.headerFields, h.chains⟩, h.headerFields_le⟩, ⟨trivial, h.payload_le⟩,
      fun _ _ => trivial,
        h.trailerFields_le⟩,
      fun h => ⟨⟨h.1.1.1, h.1.2, h.2.1.2, h.2.2.2⟩, h.1.1.2⟩⟩)
    fun message _ => ⟨(message.headerFields, (message.payload.type, message.payload.data), message.trailerFields), rfl⟩

/-- **Byte accounting.** Octets are accepted, with the archive in a good state,
and accounted for exactly if they start with a string of the grammar. -/
theorem message_accounted (b : ByteBuffer) :
    (∃ message n rest, deserialize (b, .ok) = some ((message, n), rest, .ok)) ∧ Accounted b ↔
      b ∈ Grammar.message * ⊤ := by
  rw [Language.mem_mul]
  constructor
  · rintro ⟨⟨message, n, rest, h⟩, haccounted⟩
    obtain ⟨hn, -, rfl⟩ := haccounted message n rest h
    have hwf := wellFormed_of_accounted h (by rw [List.length_append] at hn; omega)
    exact ⟨_, (spells _).mpr ⟨message, hwf, rfl⟩, rest, Set.mem_univ rest, rfl⟩
  · rintro ⟨front, hfront, rest, -, rfl⟩
    obtain ⟨message, hwf, rfl⟩ := (spells front).mp hfront
    exact ⟨⟨message, _, rest, reads hwf rest⟩, accounted_of_wellFormed hwf rest⟩

/-- No header fields, with a length of two octets; five octets are reported,
and six are consumed. -/
theorem message_unaccounted : ¬ ∀ b, Accounted b := by
  intro h
  have haccepted : deserialize ([2, 0x80, 0, 0, 0, 0], .ok) = some ((⟨[], ⟨0, []⟩, []⟩, 5), [], .ok) := by
    decide +kernel
  exact absurd (h _ _ _ _ haccepted).1 (by decide)

end SecuredMessage

end VanetzaIdf.V2
