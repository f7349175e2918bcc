/-
# ECIES key wrapping

`ecies_encrypt_key` and `ecies_decrypt_key` of `pki.cpp`. The backend is a
parameter, of which `KeyPairs` asks that generated keys are uncompressed points
of the curve and that the shared secret of two key pairs does not depend on whose
private key is used. A point and its compressed form give the same peer key
(`uncompressed_compressed`), so both sides derive the same octets.
-/
import VanetzaIdf.Ecc
import VanetzaIdf.V3.Types

namespace VanetzaIdf.V3.Pki

open Lib

open List hiding Vector

/-! ### Keys -/

/-- `uncompressed`: the form for backends that need y. -/
def uncompressed (key : PublicKey) : Option PublicKey :=
  if key.compression = .noCompression then some key
  else
    match Ecc.decompress key.type key.x (key.compression = .y1) with
    | none => none
    | some point => some { key with compression := .noCompression, y := point.y }

def compressed (key : PublicKey) : PublicKey :=
  match key.y.getLast? with
  | none => key
  | some last =>
    if key.compression ≠ .noCompression then key
    else { key with compression := if last &&& 1 ≠ 0 then .y1 else .y0, y := [] }

structure KeyPair where
  priv : PrivateKey
  pub : PublicKey
deriving DecidableEq, Repr

/-- The calls that wrapping a key makes; `ρ` is what `generate_key` draws. `none` is a refusal or
an exception. -/
structure EciesBackend (ρ : Type) where
  generateKey : KeyType → ρ → Option KeyPair
  ecdhX : PrivateKey → PublicKey → Option ByteBuffer
  hmacSha256 : ByteBuffer → ByteBuffer → ByteBuffer

structure EncryptedKey where
  v : PublicKey
  c : Vector UInt8 16
  t : Vector UInt8 16
deriving DecidableEq, Repr

/-! ### Key derivation -/

/-- `std::vector::resize`. -/
def resize (octets : ByteBuffer) (length : ℕ) : ByteBuffer :=
  octets.take length ++ List.replicate (length - octets.length) 0

/-- The loop of `kdf2_sha256`. A block has 32 octets, so it ends. -/
def kdf2Loop (P : Platform) (sharedSecret kdp : ByteBuffer) (length : ℕ) (counter : UInt32) (derived : ByteBuffer) :
    ByteBuffer :=
  if derived.length < length then
    let input := sharedSecret ++ [(counter >>> 24).toUInt8, (counter >>> 16).toUInt8, (counter >>> 8).toUInt8,
      counter.toUInt8] ++ kdp
    kdf2Loop P sharedSecret kdp length (counter + 1) (derived ++ P.calculateHash .sha256 input)
  else derived
termination_by length - derived.length
decreasing_by
  simp only [Platform.calculateHash, length_append, Vector.length_toList]
  omega

variable (P : Platform) (sharedSecret kdp : ByteBuffer)

def kdf2Sha256 (length : ℕ) : ByteBuffer :=
  resize (kdf2Loop P sharedSecret kdp length 1 []) length

/-! ### Wrapping -/

def aesKeyLength : ℕ := 16

def tagLength : ℕ := 16

/-- `left16`, zeros where the octets end. -/
def left16 (octets : ByteBuffer) : Vector UInt8 16 := Vector.ofFn fun i => octets.getD i 0

/-- The first octets of `k` over those of a key. -/
def masked (k : ByteBuffer) (octets : Vector UInt8 16) : Vector UInt8 16 :=
  Vector.ofFn fun i => k.getD i 0 ^^^ octets[i]

variable {ρ : Type}

def eciesEncryptKey (E : EciesBackend ρ) (draw : ρ) (recipient : PublicKey) (p1 : ByteBuffer)
    (aesKey : Vector UInt8 16) : Option EncryptedKey := do
  let peer ← uncompressed recipient
  if peer.type ≠ .nistP256 ∧ peer.type ≠ .brainpoolP256r1 then none
  else
    let ephemeral ← E.generateKey peer.type draw
    let secret ← E.ecdhX ephemeral.priv peer
    -- K1 (16 octets, key encryption) || K2 (32 octets, MAC key)
    let k := kdf2Sha256 P secret p1 (aesKeyLength + 32)
    let c := (masked k aesKey).toList
    let tag := E.hmacSha256 (k.drop aesKeyLength) c
    if tag.length < tagLength then none
    else some ⟨ephemeral.pub, left16 c, left16 tag⟩

/-- The octets in which a tag differs from the one received, in one. -/
def difference (tag : ByteBuffer) (t : Vector UInt8 16) : UInt8 :=
  (List.finRange 16).foldl (fun diff (i : Fin 16) => diff ||| (tag.getD i 0 ^^^ t[i])) 0

def eciesDecryptKey (E : EciesBackend ρ) (recipient : PrivateKey) (p1 : ByteBuffer)
    (encrypted : EncryptedKey) : Option (Vector UInt8 16) := do
  let peer ← uncompressed encrypted.v
  let secret ← E.ecdhX recipient peer
  let k := kdf2Sha256 P secret p1 (aesKeyLength + 32)
  let c := encrypted.c.toList
  let tag := E.hmacSha256 (k.drop aesKeyLength) c
  if tag.length < tagLength then none
  else if difference tag encrypted.t ≠ 0 then none
  else some (masked k encrypted.c)

/-! ### The key derived -/

theorem kdf2Loop_length (length : ℕ) (counter : UInt32)
    (derived : ByteBuffer) : length ≤ (kdf2Loop P sharedSecret kdp length counter derived).length := by
  fun_induction kdf2Loop P sharedSecret kdp length counter derived with
  | case1 counter derived _ _ ih => exact ih
  | case2 counter derived h => exact not_lt.mp h

theorem length_kdf2Sha256 (length : ℕ) :
    (kdf2Sha256 P sharedSecret kdp length).length = length := by
  have h := kdf2Loop_length P sharedSecret kdp length 1 []
  unfold kdf2Sha256 resize
  rw [length_append, length_take, length_replicate]
  omega

/-! ### Both sides -/

theorem left16_toList (v : Vector UInt8 16) : left16 v.toList = v := by
  ext i hi
  simp [left16]

theorem masked_masked (k : ByteBuffer) (v : Vector UInt8 16) : masked k (masked k v) = v := by
  ext i hi
  simp only [masked, Vector.getElem_ofFn, Fin.getElem_fin]
  rw [← UInt8.xor_assoc, UInt8.xor_self, UInt8.zero_xor]

theorem difference_left16 (tag : ByteBuffer) : difference tag (left16 tag) = 0 := by
  have h : ∀ l : List (Fin 16), l.foldl (fun diff (i : Fin 16) => diff ||| (tag.getD i 0 ^^^ (left16 tag)[i])) 0 =
    0 := by
    intro l
    induction l with
    | nil => rfl
    | cons i l ih =>
      have hzero : tag.getD i 0 ^^^ (left16 tag)[i] = 0 := by simp [left16]
      rw [foldl_cons, hzero, UInt8.or_zero]
      exact ih
  exact h _

/-- An uncompressed point of its curve. -/
structure IsPoint (type : KeyType) (key : PublicKey) : Prop where
  type_eq : key.type = type
  compression_eq : key.compression = .noCompression
  onCurve : ∃ c, Ecc.curve type = some c ∧ Ecc.OnCurve c key.x key.y

/-- The field of a curve has a prime number of elements. -/
def PrimeField (type : KeyType) : Prop := ∀ c, Ecc.curve type = some c → c.p.Prime

variable {key : PublicKey}

theorem IsPoint.uncompressed_eq {type : KeyType} (h : IsPoint type key) : uncompressed key = some key := by
  rw [uncompressed, if_pos h.compression_eq]

theorem compressed_eq (h : key.compression = .noCompression) (hy : key.y ≠ []) :
    compressed key = { key with
      compression := if ofBe key.y % 2 = 1 then .y1 else .y0
      y := [] } := by
  unfold compressed
  rw [List.getLast?_eq_some_getLast hy]
  simp only [h, ne_eq, not_true_eq_false, if_false]
  by_cases hodd : ofBe key.y % 2 = 1
  · rw [if_pos hodd, if_pos ((Ecc.ofBe_odd hy).mpr hodd)]
  · rw [if_neg hodd, if_neg fun hbit => hodd ((Ecc.ofBe_odd hy).mp hbit)]

theorem uncompressed_compressed {type : KeyType} (hp : PrimeField type) (h : IsPoint type key) :
    uncompressed (compressed key) = some key := by
  obtain ⟨c, hc, hpoint⟩ := h.onCurve
  have hy : key.y ≠ [] := by
    intro hnil
    have hlength := hpoint.length_y
    have hpos := (Ecc.curve_mod_four hc).2
    rw [hnil, length_nil] at hlength
    omega
  have hdecompress := Ecc.decompress_of_onCurve hc (hp c hc) hpoint
  rw [← h.type_eq] at hdecompress
  have hkey : ({ key with compression := .noCompression } : PublicKey) = key := by
    rw [← h.compression_eq]
  rw [compressed_eq h.compression_eq hy, uncompressed]
  by_cases hodd : ofBe key.y % 2 = 1
  · rw [decide_eq_true hodd] at hdecompress
    simp [hodd, hdecompress, hkey]
  · rw [decide_eq_false hodd] at hdecompress
    simp [hodd, hdecompress, hkey]

/-- The generated pairs, on which the key agreement is symmetric. -/
structure KeyPairs (E : EciesBackend ρ) (type : KeyType) (pairs : KeyPair → Prop) : Prop where
  isPoint : ∀ k, pairs k → IsPoint type k.pub
  generated : ∀ draw k, E.generateKey type draw = some k → pairs k
  symmetric : ∀ k l, pairs k → pairs l → E.ecdhX k.priv l.pub = E.ecdhX l.priv k.pub

theorem eciesEncryptKey_some {P : Platform} {E : EciesBackend ρ} {draw : ρ} {recipient peer : PublicKey}
    {p1 : ByteBuffer}
    {aesKey : Vector UInt8 16} {w : EncryptedKey} (hpeer : uncompressed recipient = some peer)
    (h : eciesEncryptKey P E draw recipient p1 aesKey = some w) :
    ∃ ephemeral secret, E.generateKey peer.type draw = some ephemeral ∧ E.ecdhX ephemeral.priv peer = some secret ∧
      let k := kdf2Sha256 P secret p1 (aesKeyLength + 32)
      let tag := E.hmacSha256 (k.drop aesKeyLength) (masked k aesKey).toList
      tagLength ≤ tag.length ∧ w = ⟨ephemeral.pub, masked k aesKey, left16 tag⟩ := by
  unfold eciesEncryptKey at h
  simp only [hpeer, Option.bind_eq_bind, Option.bind_some] at h
  split_ifs at h
  obtain ⟨ephemeral, hephemeral, h⟩ := Option.bind_eq_some_iff.mp h
  obtain ⟨secret, hsecret, h⟩ := Option.bind_eq_some_iff.mp h
  split_ifs at h with hlength
  refine ⟨ephemeral, secret, hephemeral, hsecret, not_lt.mp hlength, ?_⟩
  rw [← Option.some.inj h, left16_toList]

/-- The recipient gets the key back if the ephemeral point arrives compressed,
whether their own key was given compressed or not. -/
theorem ecies_key_unwrapped (P : Platform) {E : EciesBackend ρ} {type : KeyType} {pairs : KeyPair → Prop}
    (hE : KeyPairs E type pairs) (hp : PrimeField type) {recipient : KeyPair} (hr : pairs recipient) {given : PublicKey}
    (hgiven : given = recipient.pub ∨ given = compressed recipient.pub) {draw : ρ} {p1 : ByteBuffer}
    {aesKey : Vector UInt8 16} {w : EncryptedKey} (h : eciesEncryptKey P E draw given p1 aesKey = some w) :
    eciesDecryptKey P E recipient.priv p1 { w with v := compressed w.v } = some aesKey := by
  have hpoint := hE.isPoint recipient hr
  have hpeer : uncompressed given = some recipient.pub := by
    rcases hgiven with rfl | rfl
    · exact hpoint.uncompressed_eq
    · exact uncompressed_compressed hp hpoint
  obtain ⟨ephemeral, secret, hephemeral, hsecret, hlength, rfl⟩ := eciesEncryptKey_some hpeer h
  rw [hpoint.type_eq] at hephemeral
  have hpair := hE.generated draw ephemeral hephemeral
  have hback : uncompressed (compressed ephemeral.pub) = some ephemeral.pub :=
    uncompressed_compressed hp (hE.isPoint ephemeral hpair)
  have hsame : E.ecdhX recipient.priv ephemeral.pub = some secret := by
    rw [hE.symmetric recipient ephemeral hr hpair, hsecret]
  unfold eciesDecryptKey
  simp only [hback, hsame, Option.bind_eq_bind, Option.bind_some]
  rw [if_neg (not_lt.mpr hlength), difference_left16, if_neg (not_not.mpr rfl), masked_masked]

/-! ### Two keys on P-256 -/

/-- The private keys 1 and 2: the generator and its double. -/
def sampleKey (scalar : UInt8) (x y : ℕ) : KeyPair where
  priv := ⟨.nistP256, [scalar]⟩
  pub := { type := .nistP256, compression := .noCompression, x := beBytes 32 x, y := beBytes 32 y }

def sampleOne : KeyPair := sampleKey 1 0x6B17D1F2E12C4247F8BCE6E563A440F277037D812DEB33A0F4A13945D898C296
  0x4FE342E2FE1A7F9B8EE7EB4A7C0F9E162BCE33576B315ECECBB6406837BF51F5

def sampleTwo : KeyPair := sampleKey 2 0x7CF27B188D034F7E8A52380304B51AC3C08969E277F21B35A60B48FC47669978
  0x07775510DB8ED040293D9AC69F7430DBBA7DADE63CE982299E04B79D227873D1

def sampleBackend : EciesBackend Unit where
  generateKey _ _ := some sampleOne
  ecdhX own peer :=
    if own = sampleOne.priv then some peer.x
    else if peer = sampleOne.pub then some sampleTwo.pub.x
    else none
  hmacSha256 key data := key ++ data

theorem sampleBackend_secret : sampleBackend.ecdhX sampleOne.priv sampleTwo.pub = some sampleTwo.pub.x := by
  decide +kernel

theorem sampleKey_isPoint {scalar : UInt8} {x y : ℕ} (hx : x < Ecc.nistP256.p) (hy : y < Ecc.nistP256.p)
    (h : y ^ 2 ≡ x ^ 3 + Ecc.nistP256.a * x + Ecc.nistP256.b [MOD Ecc.nistP256.p]) :
    IsPoint .nistP256 (sampleKey scalar x y).pub := by
  have hp : Ecc.nistP256.p < 256 ^ 32 := by decide +kernel
  have hx' : ofBe (beBytes 32 x) = x := ofBe_beBytes (hx.trans hp)
  have hy' : ofBe (beBytes 32 y) = y := ofBe_beBytes (hy.trans hp)
  refine ⟨rfl, rfl, Ecc.nistP256, rfl, ?_⟩
  exact ⟨length_beBytes 32 x, length_beBytes 32 y, hx'.symm ▸ hx, hy'.symm ▸ hy, by
    show ofBe (beBytes 32 y) ^ 2 ≡ ofBe (beBytes 32 x) ^ 3 + Ecc.nistP256.a * ofBe (beBytes 32 x) +
      Ecc.nistP256.b [MOD Ecc.nistP256.p]
    rw [hx', hy']
    exact h⟩

theorem sampleBackend_keyPairs : KeyPairs sampleBackend .nistP256 fun k => k = sampleOne ∨ k = sampleTwo where
  isPoint := by
    rintro k (rfl | rfl)
    · exact sampleKey_isPoint (by decide +kernel) (by decide +kernel) (by decide +kernel)
    · exact sampleKey_isPoint (by decide +kernel) (by decide +kernel) (by decide +kernel)
  generated := by
    rintro draw k h
    exact .inl (Option.some.inj h).symm
  symmetric := by
    have h21 : sampleBackend.ecdhX sampleTwo.priv sampleOne.pub = some sampleTwo.pub.x := by decide +kernel
    rintro k l (rfl | rfl) (rfl | rfl)
    · rfl
    · rw [sampleBackend_secret, h21]
    · rw [sampleBackend_secret, h21]
    · rfl

theorem nistP256_primeField : PrimeField .nistP256 := by
  intro c hc
  obtain rfl := Option.some.inj hc
  exact Ecc.nistP256_prime

theorem ecies_key_unwrapped_sample : ∃ w,
    eciesEncryptKey (samplePlatform fun _ => 0) sampleBackend () (compressed sampleTwo.pub) [1]
      (Vector.replicate 16 7) = some w ∧
    eciesDecryptKey (samplePlatform fun _ => 0) sampleBackend sampleTwo.priv [1] { w with v := compressed w.v } =
      some (Vector.replicate 16 7) := by
  have hpeer : uncompressed (compressed sampleTwo.pub) = some sampleTwo.pub :=
    uncompressed_compressed nistP256_primeField (sampleBackend_keyPairs.isPoint sampleTwo (.inr rfl))
  have hwrapped : ∃ w, eciesEncryptKey (samplePlatform fun _ => 0) sampleBackend () (compressed sampleTwo.pub) [1]
      (Vector.replicate 16 7) = some w := by
    unfold eciesEncryptKey
    have htype : ¬(sampleTwo.pub.type ≠ .nistP256 ∧ sampleTwo.pub.type ≠ .brainpoolP256r1) := fun h => h.1 rfl
    have hgenerated : sampleBackend.generateKey sampleTwo.pub.type () = some sampleOne := rfl
    simp only [hpeer, Option.bind_eq_bind, Option.bind_some, if_neg htype, hgenerated, sampleBackend_secret]
    refine ⟨_, if_neg ?_⟩
    simp only [sampleBackend, length_append, length_drop, length_kdf2Sha256, aesKeyLength, tagLength]
    omega
  obtain ⟨w, hw⟩ := hwrapped
  exact ⟨w, hw, ecies_key_unwrapped _ sampleBackend_keyPairs nistP256_primeField (.inr rfl) (.inr rfl) hw⟩

end VanetzaIdf.V3.Pki
