/-
# The digest of a certificate

`calculate_digest` of `vanetza/security/v3/certificate.cpp` hashes a certificate
that `is_canonical` accepts as it is, any other one after `canonicalize`
(`hashed`, `digest_eq_iff`). The two differ: the encryption key is only looked at
by `canonicalize`, `make_x_only` refuses a compressed `r`, and a signature that is
no ECDSA one cannot be canonicalized. So the digest depends on the form of the
points (`digest_depends_on_encoding`); `digest_encoding` says when it does not.
-/
import VanetzaIdf.V3.Certificate

namespace VanetzaIdf.V3

open Option

/-! ### Points -/

namespace EccCurvePoint

def isCompressed : EccCurvePoint → Bool
  | .compressedY0 _ | .compressedY1 _ => true
  | _ => false

def isUncompressed : EccCurvePoint → Bool
  | .uncompressed _ _ => true
  | _ => false

def isXOnly : EccCurvePoint → Bool
  | .xOnly _ => true
  | _ => false

/-- The lowest bit of `y`. -/
def yOdd (y : ByteBuffer) : Bool := y.getLast?.any fun octet => octet &&& 1 != 0

/-- `compress`; `none` where it returns false. -/
def compress : EccCurvePoint → Option EccCurvePoint
  | .uncompressed x y => some (if yOdd y then .compressedY1 x else .compressedY0 x)
  | .compressedY0 x => some (.compressedY0 x)
  | .compressedY1 x => some (.compressedY1 x)
  | _ => none

/-- `make_x_only`; `none` where it returns false. -/
def makeXOnly : EccCurvePoint → Option EccCurvePoint
  | .uncompressed x _ => some (.xOnly x)
  | .xOnly x => some (.xOnly x)
  | _ => none

def xForm : EccCurvePoint → Option EccCurvePoint
  | .compressedY0 x | .compressedY1 x | .xOnly x | .uncompressed x _ => some (.xOnly x)
  | _ => none

variable {p q : EccCurvePoint}

theorem isCompressed_of_compress (h : p.compress = some q) : q.isCompressed = true := by
  cases p <;> simp only [compress, some.injEq, reduceCtorEq] at h <;> subst h <;> try rfl
  split <;> rfl

theorem compress_eq_self : p.compress = some p ↔ p.isCompressed = true := by
  cases p <;> simp only [compress, isCompressed, reduceCtorEq, some.injEq, iff_false]
  split <;> simp

theorem compress_isSome : p.compress.isSome = true ↔ p.isCompressed = true ∨ p.isUncompressed = true := by
  cases p <;> simp [compress, isCompressed, isUncompressed]

theorem makeXOnly_eq_self : p.makeXOnly = some p ↔ p.isXOnly = true := by
  cases p <;> simp [makeXOnly, isXOnly]

theorem makeXOnly_isSome : p.makeXOnly.isSome = true ↔ p.isXOnly = true ∨ p.isUncompressed = true := by
  cases p <;> simp [makeXOnly, isXOnly, isUncompressed]

theorem isXOnly_of_makeXOnly (h : p.makeXOnly = some q) : q.isXOnly = true := by
  cases p <;> simp only [makeXOnly, some.injEq, reduceCtorEq] at h <;> subst h <;> rfl

theorem makeXOnly_xForm (h : p.makeXOnly = some q) : p.xForm = some q := by
  cases p <;> simp_all [makeXOnly, xForm]

theorem compress_xForm (h : p.compress = some q) : q.xForm = p.xForm := by
  cases p <;> simp only [compress, some.injEq, reduceCtorEq] at h <;> subst h <;> try rfl
  split <;> rfl

theorem xForm_xForm (h : p.xForm = some q) : q.xForm = p.xForm := by
  cases p <;> simp only [xForm, some.injEq, reduceCtorEq] at h <;> subst h <;> rfl

end EccCurvePoint

/-! ### The fields that hold points -/

open EccCurvePoint

/-- The indicator with `f` applied to its point, if it holds one. -/
def VerificationKeyIndicator.traverse (f : EccCurvePoint → Option EccCurvePoint) :
    VerificationKeyIndicator → Option VerificationKeyIndicator
  | .verificationKey (.ecdsaNistP256 p) => (f p).map fun q => .verificationKey (.ecdsaNistP256 q)
  | .verificationKey (.ecdsaBrainpoolP256r1 p) => (f p).map fun q => .verificationKey (.ecdsaBrainpoolP256r1 q)
  | .verificationKey (.ecdsaBrainpoolP384r1 p) => (f p).map fun q => .verificationKey (.ecdsaBrainpoolP384r1 q)
  | .reconstructionValue p => (f p).map .reconstructionValue
  | i => some i

def VerificationKeyIndicator.compressedPoint : VerificationKeyIndicator → Bool
  | .verificationKey (.ecdsaNistP256 p) | .verificationKey (.ecdsaBrainpoolP256r1 p)
  | .verificationKey (.ecdsaBrainpoolP384r1 p) | .reconstructionValue p => p.isCompressed
  | _ => true

def VerificationKeyIndicator.digestHashAlgorithm : VerificationKeyIndicator → HashAlgorithm
  | .verificationKey (.ecdsaNistP256 _) | .verificationKey (.ecdsaBrainpoolP256r1 _) => .sha256
  | .verificationKey (.ecdsaBrainpoolP384r1 _) => .sha384
  | .reconstructionValue _ => .sha256
  | _ => .unspecified

def VerificationKeyIndicator.point : VerificationKeyIndicator → Option EccCurvePoint
  | .verificationKey (.ecdsaNistP256 p) | .verificationKey (.ecdsaBrainpoolP256r1 p)
  | .verificationKey (.ecdsaBrainpoolP384r1 p) | .reconstructionValue p => some p
  | _ => none

def BasePublicEncryptionKey.traverse (f : EccCurvePoint → Option EccCurvePoint) :
    BasePublicEncryptionKey → Option BasePublicEncryptionKey
  | .eciesNistP256 p => (f p).map .eciesNistP256
  | .eciesBrainpoolP256r1 p => (f p).map .eciesBrainpoolP256r1
  | .nothing => some .nothing

def BasePublicEncryptionKey.point : BasePublicEncryptionKey → Option EccCurvePoint
  | .eciesNistP256 p | .eciesBrainpoolP256r1 p => some p
  | .nothing => none

/-- The signature with `f` applied to `r`; `none` if it is no ECDSA one. -/
def Signature.traverse (f : EccCurvePoint → Option EccCurvePoint) : Signature → Option Signature
  | .ecdsaNistP256Signature r s => (f r).map (.ecdsaNistP256Signature · s)
  | .ecdsaBrainpoolP256r1Signature r s => (f r).map (.ecdsaBrainpoolP256r1Signature · s)
  | .ecdsaBrainpoolP384r1Signature r s => (f r).map (.ecdsaBrainpoolP384r1Signature · s)
  | .nothing => none

def Signature.rSig : Signature → Option EccCurvePoint
  | .ecdsaNistP256Signature r _ | .ecdsaBrainpoolP256r1Signature r _ | .ecdsaBrainpoolP384r1Signature r _ => some r
  | .nothing => none

def Signature.isSignatureXOnly : Signature → Bool
  | .ecdsaNistP256Signature r _ | .ecdsaBrainpoolP256r1Signature r _ | .ecdsaBrainpoolP384r1Signature r _ => r.isXOnly
  -- not an ECDSA signature at all
  | .nothing => true

/-- `make_signature_x_only`; `none` where it returns false. -/
def Signature.makeSignatureXOnly (s : Signature) : Option Signature := s.traverse makeXOnly

/-! ### Canonical certificates -/

namespace Certificate

variable (c : Certificate)

def isCanonical : Bool :=
  c.toBeSigned.verifyKeyIndicator.compressedPoint && c.signature.all Signature.isSignatureXOnly

/-- The certificate with other keys and another signature. -/
def withPoints (indicator : VerificationKeyIndicator) (key : Option BasePublicEncryptionKey)
    (signature : Option Signature) : Certificate :=
  { c with
    toBeSigned := { c.toBeSigned with verifyKeyIndicator := indicator, encryptionKey := key }
    signature }

def canonicalize : Option Certificate := do
  let indicator ← c.toBeSigned.verifyKeyIndicator.traverse compress
  let key ← c.toBeSigned.encryptionKey.mapM (BasePublicEncryptionKey.traverse compress)
  let signature ← c.signature.mapM Signature.makeSignatureXOnly
  return c.withPoints indicator key signature

def digestHashAlgorithm : HashAlgorithm := c.toBeSigned.verifyKeyIndicator.digestHashAlgorithm

def calculateDigestInternal (P : Platform) (c : Certificate) (algorithm : HashAlgorithm) : Option HashedId8 :=
  (P.encodeCertificate c).bind fun buffer =>
    match algorithm with
    | .sha256 => some (createHashedId8 (P.sha256 buffer))
    | .sha384 => some (createHashedId8 (P.sha384 buffer))
    | .unspecified => none

def calculateDigest (P : Platform) (c : Certificate) : Option HashedId8 :=
  if c.digestHashAlgorithm = .unspecified then none
  else if c.isCanonical then calculateDigestInternal P c c.digestHashAlgorithm
  else c.canonicalize.bind fun canonical => calculateDigestInternal P canonical c.digestHashAlgorithm

/-- The certificate whose octets `calculate_digest` hashes. -/
def hashed : Option Certificate := if c.isCanonical then some c else c.canonicalize

theorem calculateDigest_eq (P : Platform) (c : Certificate) :
    c.calculateDigest P = c.hashed.bind (calculateDigestInternal P · c.digestHashAlgorithm) := by
  unfold calculateDigest hashed
  by_cases hu : c.digestHashAlgorithm = .unspecified
  · rw [if_pos hu, hu]
    symm
    rw [bind_eq_none_iff]
    intro a _
    simp [calculateDigestInternal]
  · rw [if_neg hu]
    split_ifs <;> rfl

end Certificate

/-! ### Traversals

A traversal fails or changes the point and nothing else; so two of them
compose point by point. -/

theorem mapM_eq_some {α : Type} {f : α → Option α} {s t : Option α} :
    s.mapM f = some t ↔ s = none ∧ t = none ∨ ∃ a b, s = some a ∧ f a = some b ∧ t = some b := by
  cases s with
  | none | some => simp [eq_comm]

variable {f g : EccCurvePoint → Option EccCurvePoint} {i j : VerificationKeyIndicator} {k : BasePublicEncryptionKey}
  {s t : Signature}

theorem VerificationKeyIndicator.traverse_congr (h : i.traverse f = some j) (hg : ∀ p q, f p = some q → g q = g p) :
    j.traverse g = i.traverse g := by
  unfold traverse at h
  split at h
  all_goals first
    | (obtain ⟨q, hq, rfl⟩ := map_eq_some_iff.mp h
       simp only [traverse, hg _ _ hq])
    | rw [some.inj h]

theorem BasePublicEncryptionKey.traverse_congr
    {i j : BasePublicEncryptionKey} (h : i.traverse f = some j) (hg : ∀ p q, f p = some q → g q = g p) :
    j.traverse g = i.traverse g := by
  unfold traverse at h
  split at h
  all_goals first
    | (obtain ⟨q, hq, rfl⟩ := map_eq_some_iff.mp h
       simp only [traverse, hg _ _ hq])
    | rw [← some.inj h]

theorem Signature.traverse_congr {i j : Signature}
    (h : i.traverse f = some j) (hg : ∀ p q, f p = some q → g q = g p) : j.traverse g = i.traverse g := by
  unfold traverse at h
  split at h
  all_goals first
    | (obtain ⟨q, hq, rfl⟩ := map_eq_some_iff.mp h
       simp only [traverse, hg _ _ hq])
    | exact absurd h (by simp)

theorem EccCurvePoint.compress_compress {p q : EccCurvePoint} (h : p.compress = some q) : q.compress = p.compress := by
  rw [h, compress_eq_self]
  exact isCompressed_of_compress h

theorem VerificationKeyIndicator.digestHashAlgorithm_traverse
    (h : i.traverse f = some j) : j.digestHashAlgorithm = i.digestHashAlgorithm := by
  unfold traverse at h
  split at h
  all_goals first
    | (obtain ⟨q, -, rfl⟩ := map_eq_some_iff.mp h
       rfl)
    | rw [some.inj h]

theorem VerificationKeyIndicator.traverse_compress_eq_self :
    i.traverse compress = some i ↔ i.compressedPoint = true := by
  unfold traverse compressedPoint
  split <;> simp [compress_eq_self]

theorem VerificationKeyIndicator.traverse_isSome :
    (i.traverse f).isSome = true ↔ ∀ p, i.point = some p → (f p).isSome = true := by
  unfold traverse point
  split <;> simp_all

theorem BasePublicEncryptionKey.traverse_isSome :
    (k.traverse f).isSome = true ↔ ∀ p, k.point = some p → (f p).isSome = true := by
  cases k <;> simp [traverse, point]

theorem BasePublicEncryptionKey.traverse_eq_self : k.traverse f = some k ↔ ∀ p, k.point = some p → f p = some p := by
  cases k <;> simp [traverse, point]

theorem Signature.traverse_isSome : (s.traverse f).isSome = true ↔ ∃ r, s.rSig = some r ∧ (f r).isSome = true := by
  cases s <;> simp [traverse, rSig]

theorem Signature.traverse_mono (hfg : ∀ {p q}, f p = some q → g p = some q) (h : s.traverse f = some t) :
    s.traverse g = some t := by
  unfold traverse at h ⊢
  split at h
  all_goals first
    | (obtain ⟨q, hq, rfl⟩ := map_eq_some_iff.mp h
       simp only [hfg hq, map_some])
    | exact absurd h (by simp)

theorem Signature.makeSignatureXOnly_eq_self :
    s.makeSignatureXOnly = some s ↔ s.isSignatureXOnly = true ∧ s ≠ .nothing := by
  cases s <;> simp [makeSignatureXOnly, traverse, isSignatureXOnly, makeXOnly_eq_self]

theorem Signature.isSignatureXOnly_of_make (h : s.makeSignatureXOnly = some t) : t.isSignatureXOnly = true := by
  have hs : t.makeSignatureXOnly = s.makeSignatureXOnly := by
    apply traverse_congr h
    intro p q hq
    rw [hq, makeXOnly_eq_self]
    exact isXOnly_of_makeXOnly hq
  rw [h] at hs
  exact (makeSignatureXOnly_eq_self.mp hs).1

theorem Signature.eq_of_xForm (hs : s.isSignatureXOnly = true) (ht : t.isSignatureXOnly = true)
    (h : s.traverse xForm = t.traverse xForm) : s = t := by
  have hself : ∀ {s : Signature}, s.isSignatureXOnly = true → s ≠ .nothing → s.traverse xForm = some s :=
    fun hs hn => traverse_mono makeXOnly_xForm (makeSignatureXOnly_eq_self.mpr ⟨hs, hn⟩)
  by_cases hsn : s = .nothing <;> by_cases htn : t = .nothing
  · rw [hsn, htn]
  · rw [hsn, hself ht htn] at h
    simp [traverse] at h
  · rw [htn, hself hs hsn] at h
    simp [traverse] at h
  · rw [hself hs hsn, hself ht htn] at h
    exact some.inj h

/-! ### Certificates that differ in the form of their points -/

/-- The same value, or one is what `f` makes of the other. -/
def VariantBy {α : Type} (f : α → Option α) (a b : α) : Prop := a = b ∨ f a = some b ∨ f b = some a

theorem VariantBy.congr {α β : Type} {f : α → Option α} {a b : α} (h : VariantBy f a b) {g : α → β}
    (hg : ∀ x y, f x = some y → g y = g x) : g a = g b := by
  rcases h with rfl | h | h
  · rfl
  · exact (hg _ _ h).symm
  · exact hg _ _ h

namespace Certificate

/-- The certificates differ only in the forms of their keys and of `r` of the signature. -/
structure PointVariant (c d : Certificate) : Prop where
  others : d = c.withPoints d.toBeSigned.verifyKeyIndicator d.toBeSigned.encryptionKey d.signature
  indicator : VariantBy (·.traverse compress) c.toBeSigned.verifyKeyIndicator d.toBeSigned.verifyKeyIndicator
  key : VariantBy (Option.mapM (BasePublicEncryptionKey.traverse compress)) c.toBeSigned.encryptionKey
    d.toBeSigned.encryptionKey
  signature : VariantBy (Option.mapM (Signature.traverse compress)) c.signature d.signature ∨
    VariantBy (Option.mapM (Signature.traverse xForm)) c.signature d.signature

def keyPoints (c : Certificate) : List EccCurvePoint :=
  c.toBeSigned.verifyKeyIndicator.point.toList ++ (c.toBeSigned.encryptionKey.bind BasePublicEncryptionKey.point).toList

def encryptionUncompressed (c : Certificate) : Bool :=
  (c.toBeSigned.encryptionKey.bind BasePublicEncryptionKey.point).any isUncompressed

/-- The forms `canonicalize` can convert: keys compressed or uncompressed, no
signature or an ECDSA signature whose `r` is x-only or uncompressed. -/
structure Convertible (c : Certificate) : Prop where
  keys : ∀ p ∈ c.keyPoints, p.isCompressed = true ∨ p.isUncompressed = true
  signature : ∀ s, c.signature = some s → ∃ r, s.rSig = some r ∧ (r.isXOnly = true ∨ r.isUncompressed = true)

variable {c d : Certificate}

theorem canonicalize_eq_some : c.canonicalize = some d ↔
    ∃ i k s, c.toBeSigned.verifyKeyIndicator.traverse compress = some i ∧
      c.toBeSigned.encryptionKey.mapM (BasePublicEncryptionKey.traverse compress) = some k ∧
      c.signature.mapM Signature.makeSignatureXOnly = some s ∧ d = c.withPoints i k s := by
  simp only [canonicalize, bind_eq_bind, bind_eq_some_iff, pure_def, some.injEq]
  constructor
  · rintro ⟨i, hi, k, hk, s, hs, rfl⟩
    exact ⟨i, k, s, hi, hk, hs, rfl⟩
  · rintro ⟨i, k, s, hi, hk, hs, rfl⟩
    exact ⟨i, hi, k, hk, s, hs, rfl⟩

theorem canonicalize_isSome : c.canonicalize.isSome = true ↔ c.Convertible := by
  have hK : (c.toBeSigned.verifyKeyIndicator.traverse compress).isSome = true ↔
      ∀ p, c.toBeSigned.verifyKeyIndicator.point = some p → p.isCompressed = true ∨ p.isUncompressed = true := by
    simp only [VerificationKeyIndicator.traverse_isSome, compress_isSome]
  have hE : (c.toBeSigned.encryptionKey.mapM (BasePublicEncryptionKey.traverse compress)).isSome = true ↔
      ∀ p, c.toBeSigned.encryptionKey.bind BasePublicEncryptionKey.point = some p →
        p.isCompressed = true ∨ p.isUncompressed = true := by
    cases c.toBeSigned.encryptionKey with
    | none => simp
    | some k => simp [BasePublicEncryptionKey.traverse_isSome, compress_isSome]
  have hS : (c.signature.mapM Signature.makeSignatureXOnly).isSome = true ↔
      ∀ s, c.signature = some s → ∃ r, s.rSig = some r ∧ (r.isXOnly = true ∨ r.isUncompressed = true) := by
    cases c.signature with
    | none => simp
    | some s => simp [Signature.makeSignatureXOnly, Signature.traverse_isSome, makeXOnly_isSome]
  constructor
  · intro h
    obtain ⟨d, hd⟩ := isSome_iff_exists.mp h
    obtain ⟨i, k, s, hi, hk, hs, -⟩ := canonicalize_eq_some.mp hd
    refine ⟨fun p hp => ?_, hS.mp (by rw [hs]; rfl)⟩
    simp only [keyPoints, List.mem_append, mem_toList] at hp
    rcases hp with hp | hp
    · exact hK.mp (by rw [hi]; rfl) p hp
    · exact hE.mp (by rw [hk]; rfl) p hp
  · rintro ⟨hk, hs⟩
    simp only [keyPoints, List.mem_append, mem_toList] at hk
    obtain ⟨i, hi⟩ := isSome_iff_exists.mp (hK.mpr fun p hp => hk p (.inl hp))
    obtain ⟨k, hk⟩ := isSome_iff_exists.mp (hE.mpr fun p hp => hk p (.inr hp))
    obtain ⟨s, hs⟩ := isSome_iff_exists.mp (hS.mpr hs)
    rw [canonicalize_eq_some.mpr ⟨i, k, s, hi, hk, hs, rfl⟩]
    rfl

theorem isCanonical_of_canonicalize (h : c.canonicalize = some d) : d.isCanonical = true := by
  obtain ⟨i, k, s, hi, -, hs, rfl⟩ := canonicalize_eq_some.mp h
  have hi' : i.compressedPoint = true := by
    rw [← VerificationKeyIndicator.traverse_compress_eq_self, ← hi]
    exact VerificationKeyIndicator.traverse_congr hi fun _ _ => compress_compress
  have hs' : s.all Signature.isSignatureXOnly = true := by
    rcases mapM_eq_some.mp hs with ⟨-, rfl⟩ | ⟨σ, τ, -, hτ, rfl⟩
    · rfl
    · exact Signature.isSignatureXOnly_of_make hτ
  simp only [isCanonical, withPoints, hi', hs', Bool.and_self]

theorem canonicalize_of_isCanonical (hc : c.isCanonical = true) (h : c.Convertible) :
    c.canonicalize = some c ↔ c.encryptionUncompressed = false := by
  obtain ⟨d, hd⟩ := isSome_iff_exists.mp (canonicalize_isSome.mpr h)
  obtain ⟨i, k, s, hi, hk, hs, rfl⟩ := canonicalize_eq_some.mp hd
  simp only [isCanonical, Bool.and_eq_true] at hc
  obtain rfl : c.toBeSigned.verifyKeyIndicator = i := by
    rw [VerificationKeyIndicator.traverse_compress_eq_self.mpr hc.1] at hi
    exact some.inj hi
  obtain rfl : c.signature = s := by
    rcases mapM_eq_some.mp hs with ⟨hσ, rfl⟩ | ⟨σ, τ, hσ, hτ, rfl⟩
    · exact hσ
    · obtain ⟨r, hr, -⟩ := h.signature σ hσ
      have hn : σ ≠ .nothing := by
        rintro rfl
        simp [Signature.rSig] at hr
      rw [hσ] at hc
      rw [Signature.makeSignatureXOnly_eq_self.mpr ⟨by simpa using hc.2, hn⟩] at hτ
      rw [hσ, hτ]
  have hself : c.withPoints c.toBeSigned.verifyKeyIndicator k c.signature = c ↔ k = c.toBeSigned.encryptionKey := by
    constructor
    · intro he
      rw [← he]
      rfl
    · rintro rfl
      rfl
  rw [hd, some.injEq, hself]
  -- what is left is about the encryption key alone
  have hkeys := h.keys
  simp only [keyPoints, List.mem_append, mem_toList] at hkeys
  unfold encryptionUncompressed
  rcases mapM_eq_some.mp hk with ⟨hE, rfl⟩ | ⟨key, key', hE, hkey, rfl⟩
  · simp [hE]
  · rw [hE, some.injEq, ← some.injEq, ← hkey, BasePublicEncryptionKey.traverse_eq_self]
    rw [hE] at hkeys
    cases hp : key.point with
    | none => simp [hp]
    | some p =>
      have hpc := hkeys p (.inr (by simpa using hp))
      simp only [some.injEq, forall_eq', compress_eq_self, bind_some, hp, any_some]
      cases p <;> simp_all [isCompressed, isUncompressed]

namespace PointVariant

variable {c d : Certificate}

theorem symm (h : c.PointVariant d) : d.PointVariant c := by
  have hrev : ∀ {α : Type} {f : α → Option α} {a b : α}, VariantBy f a b → VariantBy f b a := by
    rintro α f a b (rfl | h | h)
    · exact .inl rfl
    · exact .inr (.inr h)
    · exact .inr (.inl h)
  refine ⟨?_, hrev h.indicator, hrev h.key, h.signature.imp hrev hrev⟩
  rw [h.others]
  rfl

theorem digestHashAlgorithm (h : c.PointVariant d) : c.digestHashAlgorithm = d.digestHashAlgorithm :=
  h.indicator.congr (g := VerificationKeyIndicator.digestHashAlgorithm) fun _ _ =>
    VerificationKeyIndicator.digestHashAlgorithm_traverse

theorem traverse_indicator (h : c.PointVariant d) :
    c.toBeSigned.verifyKeyIndicator.traverse compress = d.toBeSigned.verifyKeyIndicator.traverse compress :=
  h.indicator.congr fun _ _ hij => VerificationKeyIndicator.traverse_congr hij fun _ _ => compress_compress

theorem traverse_key (h : c.PointVariant d) :
    c.toBeSigned.encryptionKey.mapM (BasePublicEncryptionKey.traverse compress) =
      d.toBeSigned.encryptionKey.mapM (BasePublicEncryptionKey.traverse compress) := by
  apply h.key.congr
  intro k l hkl
  rcases mapM_eq_some.mp hkl with ⟨rfl, rfl⟩ | ⟨k, l, rfl, hl, rfl⟩
  · rfl
  · simp [BasePublicEncryptionKey.traverse_congr hl fun _ _ => compress_compress]

theorem xForm_signature (h : c.PointVariant d) :
    c.signature.mapM (Signature.traverse xForm) = d.signature.mapM (Signature.traverse xForm) := by
  have hcongr : ∀ {f : EccCurvePoint → Option EccCurvePoint}, (∀ p q, f p = some q → q.xForm = p.xForm) →
      ∀ {s t : Option Signature}, s.mapM (Signature.traverse f) = some t →
        t.mapM (Signature.traverse xForm) = s.mapM (Signature.traverse xForm) := by
    intro f hf s t hst
    rcases mapM_eq_some.mp hst with ⟨rfl, rfl⟩ | ⟨s, t, rfl, ht, rfl⟩
    · rfl
    · simp [Signature.traverse_congr ht hf]
  rcases h.signature with h | h
  · exact h.congr fun _ _ => hcongr fun _ _ => compress_xForm
  · exact h.congr fun _ _ => hcongr fun _ _ => xForm_xForm

theorem mapM_makeXOnly {s t : Option Signature} (h : s.mapM Signature.makeSignatureXOnly = some t) :
    s.mapM (Signature.traverse xForm) = some t := by
  rcases mapM_eq_some.mp h with ⟨rfl, rfl⟩ | ⟨s, t, rfl, ht, rfl⟩
  · rfl
  · rw [mapM_eq_some]
    exact .inr ⟨s, t, rfl, Signature.traverse_mono makeXOnly_xForm ht, rfl⟩

theorem canonicalize_eq (h : c.PointVariant d) {a b : Certificate} (ha : c.canonicalize = some a)
    (hb : d.canonicalize = some b) : a = b := by
  obtain ⟨i, k, s, hi, hk, hs, rfl⟩ := canonicalize_eq_some.mp ha
  obtain ⟨i', k', s', hi', hk', hs', rfl⟩ := canonicalize_eq_some.mp hb
  rw [h.traverse_indicator, hi'] at hi
  rw [h.traverse_key, hk'] at hk
  have hx := mapM_makeXOnly hs
  rw [h.xForm_signature, mapM_makeXOnly hs'] at hx
  obtain rfl := some.inj hi
  obtain rfl := some.inj hk
  obtain rfl := some.inj hx
  rw [h.others]
  rfl

theorem eq_iff_of_isCanonical (h : c.PointVariant d) (hc : c.isCanonical = true) (hd : d.isCanonical = true) :
    c = d ↔ c.toBeSigned.encryptionKey = d.toBeSigned.encryptionKey := by
  constructor
  · rintro rfl
    rfl
  intro hE
  simp only [isCanonical, Bool.and_eq_true] at hc hd
  have hi := h.traverse_indicator
  rw [VerificationKeyIndicator.traverse_compress_eq_self.mpr hc.1,
    VerificationKeyIndicator.traverse_compress_eq_self.mpr hd.1, some.injEq] at hi
  have hs : c.signature = d.signature := by
    have hx := h.xForm_signature
    cases hsc : c.signature <;> cases hsd : d.signature
    · rfl
    · simp [hsc, hsd, eq_comm] at hx
    · simp [hsc, hsd] at hx
    · rename_i σ τ
      rw [hsc, hsd] at hx
      rw [hsc] at hc
      rw [hsd] at hd
      have hx' : σ.traverse xForm = τ.traverse xForm :=
        map_injective (some_injective _) (by simpa using hx)
      rw [Signature.eq_of_xForm (by simpa using hc.2) (by simpa using hd.2) hx']
  rw [h.others, ← hi, ← hE, ← hs]
  rfl

theorem convertible (h : c.PointVariant d) (hc : c.isCanonical = true) (hd : d.Convertible) : c.Convertible := by
  obtain ⟨e, he⟩ := isSome_iff_exists.mp (canonicalize_isSome.mpr hd)
  obtain ⟨i, k, s, hi, hk, hs, -⟩ := canonicalize_eq_some.mp he
  have hx := mapM_makeXOnly hs
  rw [← h.xForm_signature] at hx
  have hsig : ∃ s, c.signature.mapM Signature.makeSignatureXOnly = some s := by
    rcases mapM_eq_some.mp hx with ⟨hn, -⟩ | ⟨σ, τ, hσ, hτ, -⟩
    · exact ⟨none, by simp [hn]⟩
    · -- no other signature than an ECDSA one has an x-coordinate
      have hn : σ ≠ .nothing := by
        rintro rfl
        simp [Signature.traverse] at hτ
      simp only [isCanonical, hσ, all_some, Bool.and_eq_true] at hc
      exact ⟨some σ, by simp [hσ, Signature.makeSignatureXOnly_eq_self.mpr ⟨hc.2, hn⟩]⟩
  obtain ⟨s', hs'⟩ := hsig
  rw [← h.traverse_indicator] at hi
  rw [← h.traverse_key] at hk
  rw [← canonicalize_isSome, canonicalize_eq_some.mpr ⟨i, k, s', hi, hk, hs', rfl⟩]
  rfl

end PointVariant

/-! ### Equal digests -/

theorem createHashedId8_replicate_inj {n : ℕ} (hn : 8 ≤ n) {a b : UInt8}
    (h : createHashedId8 (Vector.replicate n a) = createHashedId8 (Vector.replicate n b)) : a = b := by
  have h0 := congrArg (fun v : HashedId8 => v[0]) h
  have hlt : n - 8 < n := by omega
  simpa [createHashedId8, List.getD_eq_getElem?_getD, hlt] using h0

theorem calculateDigestInternal_sample (mark : Certificate → UInt8) {algorithm : HashAlgorithm}
    (h : algorithm ≠ .unspecified) : ∃ f : UInt8 → HashedId8, Function.Injective f ∧
      ∀ c, calculateDigestInternal (samplePlatform mark) c algorithm = some (f (mark c)) := by
  cases algorithm with
  | unspecified => exact absurd rfl h
  | sha256 =>
    exact ⟨fun a => createHashedId8 (Vector.replicate 32 a),
      fun _ _ hab => createHashedId8_replicate_inj (by omega) hab, fun _ => rfl⟩
  | sha384 =>
    exact ⟨fun a => createHashedId8 (Vector.replicate 48 a),
      fun _ _ hab => createHashedId8_replicate_inj (by omega) hab, fun _ => rfl⟩

theorem digest_eq_iff (ha : c.digestHashAlgorithm = d.digestHashAlgorithm) :
    (∀ P, c.calculateDigest P = d.calculateDigest P) ↔
      c.digestHashAlgorithm = .unspecified ∨ c.hashed = d.hashed := by
  constructor
  · intro h
    by_cases hu : c.digestHashAlgorithm = .unspecified
    · exact .inl hu
    refine .inr ?_
    -- a platform that tells what is hashed of `c` from everything else
    set mark : Certificate → UInt8 := fun x => if c.hashed = some x then 1 else 0 with hmark
    obtain ⟨f, hf, hdigest⟩ := calculateDigestInternal_sample mark hu
    have hP := h (samplePlatform mark)
    simp only [calculateDigest_eq, ← ha, hdigest] at hP
    cases hc : c.hashed with
    | none =>
      cases hd : d.hashed with
      | none => rfl
      | some e => simp [hc, hd] at hP
    | some e =>
      cases hd : d.hashed with
      | none => simp [hc, hd] at hP
      | some e' =>
        simp only [hc, hd, bind_some, some.injEq] at hP
        have hm := hf hP
        by_contra hne
        have hee : e ≠ e' := fun he => hne (by rw [he])
        simp [hmark, hc, hee] at hm
  · rintro (hu | he) P
    · rw [calculateDigest, calculateDigest, if_pos hu, if_pos (ha ▸ hu)]
    · rw [calculateDigest_eq, calculateDigest_eq, he, ha]

/-- Nothing is hashed, both are hashed as they are, one is what the other is converted to, or both
are converted. -/
def DigestAgrees (c d : Certificate) : Prop :=
  c.digestHashAlgorithm = .unspecified ∨
    (c.isCanonical = true ∧ d.isCanonical = true ∧ c.toBeSigned.encryptionKey = d.toBeSigned.encryptionKey) ∨
    (c.isCanonical = true ∧ d.isCanonical = false ∧ d.Convertible ∧ c.encryptionUncompressed = false) ∨
    (c.isCanonical = false ∧ d.isCanonical = true ∧ c.Convertible ∧ d.encryptionUncompressed = false) ∨
    (c.isCanonical = false ∧ d.isCanonical = false ∧ (c.Convertible ↔ d.Convertible))

theorem hashed_of_isCanonical (h : c.isCanonical = true) : c.hashed = some c := by
  rw [hashed, if_pos h]

theorem hashed_of_not_isCanonical (h : c.isCanonical = false) : c.hashed = c.canonicalize := by
  rw [hashed, if_neg (by simp [h])]

theorem PointVariant.hashed_eq_iff (h : c.PointVariant d) (hc : c.isCanonical = true)
    (hd : d.isCanonical = false) : c.hashed = d.hashed ↔ d.Convertible ∧ c.encryptionUncompressed = false := by
  rw [hashed_of_isCanonical hc, hashed_of_not_isCanonical hd]
  constructor
  · intro he
    have hconv : d.Convertible := by
      rw [← canonicalize_isSome, ← he]
      rfl
    have hcc := h.convertible hc hconv
    obtain ⟨e, hce⟩ := isSome_iff_exists.mp (canonicalize_isSome.mpr hcc)
    refine ⟨hconv, (canonicalize_of_isCanonical hc hcc).mp ?_⟩
    rw [hce, h.canonicalize_eq hce he.symm]
  · rintro ⟨hconv, hE⟩
    obtain ⟨e, he⟩ := isSome_iff_exists.mp (canonicalize_isSome.mpr hconv)
    have hcc := (canonicalize_of_isCanonical hc (h.convertible hc hconv)).mpr hE
    rw [he, h.canonicalize_eq hcc he]

theorem PointVariant.hashed_eq_iff_of_not_canonical (h : c.PointVariant d) (hc : c.isCanonical = false)
    (hd : d.isCanonical = false) : c.hashed = d.hashed ↔ (c.Convertible ↔ d.Convertible) := by
  rw [hashed_of_not_isCanonical hc, hashed_of_not_isCanonical hd, ← canonicalize_isSome, ← canonicalize_isSome]
  constructor
  · intro he
    rw [he]
  · intro hiff
    cases hcc : c.canonicalize with
    | none =>
      cases hdd : d.canonicalize with
      | none => rfl
      | some e => simp [hcc, hdd] at hiff
    | some e =>
      cases hdd : d.canonicalize with
      | none => simp [hcc, hdd] at hiff
      | some e' => rw [h.canonicalize_eq hcc hdd]

/-- **The digest and the form of the points:** when a certificate and its canonical form, and when
two certificates that differ only in the form of their points, have the same digest. -/
theorem digest_encoding (c c' : Certificate) (h : c.canonicalize = some c') (d e : Certificate)
    (hv : d.PointVariant e) :
    ((∀ P, c.calculateDigest P = c'.calculateDigest P) ↔
      c.digestHashAlgorithm = .unspecified ∨ c.isCanonical = false ∨ c.encryptionUncompressed = false) ∧
    ((∀ P, d.calculateDigest P = e.calculateDigest P) ↔ d.DigestAgrees e) := by
  constructor
  · have hconv : c.Convertible := by
      rw [← canonicalize_isSome, h]
      rfl
    have ha : c.digestHashAlgorithm = c'.digestHashAlgorithm := by
      obtain ⟨i, k, s, hi, -, -, rfl⟩ := canonicalize_eq_some.mp h
      exact (VerificationKeyIndicator.digestHashAlgorithm_traverse hi).symm
    rw [digest_eq_iff ha, hashed_of_isCanonical (isCanonical_of_canonicalize h)]
    cases hc : c.isCanonical with
    | false => simp [hashed_of_not_isCanonical hc, h]
    | true =>
      have hself := canonicalize_of_isCanonical hc hconv
      rw [hashed_of_isCanonical hc, ← h, eq_comm (a := some c), hself]
      simp
  · rw [digest_eq_iff hv.digestHashAlgorithm, DigestAgrees]
    apply or_congr Iff.rfl
    cases hd : d.isCanonical <;> cases he : e.isCanonical
    · simp [hv.hashed_eq_iff_of_not_canonical hd he]
    · rw [eq_comm, hv.symm.hashed_eq_iff he hd]
      simp
    · rw [hv.hashed_eq_iff hd he]
      simp
    · rw [hashed_of_isCanonical hd, hashed_of_isCanonical he, some.injEq, hv.eq_iff_of_isCanonical hd he]
      simp

def samplePoints (key : EccCurvePoint) (encryptionKey : Option BasePublicEncryptionKey)
    (signature : Option Signature) : Certificate where
  issuer := .self .sha256
  toBeSigned :=
    { validityPeriod := ⟨0, .years, 1⟩
      verifyKeyIndicator := .verificationKey (.ecdsaNistP256 key)
      encryptionKey }
  signature

/-- An uncompressed verification key does not show in the digest, nor does an
uncompressed `r`. -/
theorem digest_encoding_uncompressed :
    (∀ P, (samplePoints (.uncompressed [1] [2]) none none).calculateDigest P =
      (samplePoints (.compressedY0 [1]) none none).calculateDigest P) ∧
    ∀ P, (samplePoints (.compressedY0 [1]) none
        (some (.ecdsaNistP256Signature (.xOnly [3]) [4]))).calculateDigest P =
      (samplePoints (.compressedY0 [1]) none
        (some (.ecdsaNistP256Signature (.uncompressed [3] [5]) [4]))).calculateDigest P := by
  obtain ⟨hcanonical, hvariant⟩ := digest_encoding (samplePoints (.uncompressed [1] [2]) none none)
    (samplePoints (.compressedY0 [1]) none none) rfl
    (samplePoints (.compressedY0 [1]) none (some (.ecdsaNistP256Signature (.xOnly [3]) [4])))
    (samplePoints (.compressedY0 [1]) none (some (.ecdsaNistP256Signature (.uncompressed [3] [5]) [4])))
    ⟨rfl, .inl rfl, .inl rfl, .inr (.inr (.inr rfl))⟩
  refine ⟨hcanonical.mpr (.inr (.inl rfl)), hvariant.mpr (.inr (.inr (.inl ⟨rfl, rfl, ⟨?_, ?_⟩, rfl⟩)))⟩
  · simp [keyPoints, samplePoints, VerificationKeyIndicator.point, isCompressed]
  · simp [samplePoints, Signature.rSig, isUncompressed]

/-- Compressing the encryption key of a certificate changes its digest, and a compressed `r`
leaves a certificate without one. -/
theorem digest_depends_on_encoding :
    (∃ (P : Platform) (c c' : Certificate), c.canonicalize = some c' ∧ c.calculateDigest P ≠ c'.calculateDigest P) ∧
    ∃ (P : Platform) (c d : Certificate), c.PointVariant d ∧ c.calculateDigest P ≠ d.calculateDigest P := by
  refine ⟨⟨samplePlatform fun c => if c.encryptionUncompressed then 1 else 0,
    samplePoints (.compressedY0 [1]) (some (.eciesNistP256 (.uncompressed [1] [2]))) none,
    samplePoints (.compressedY0 [1]) (some (.eciesNistP256 (.compressedY0 [1]))) none, rfl, by decide⟩,
    ⟨samplePlatform fun _ => 0,
      samplePoints (.compressedY0 [1]) none (some (.ecdsaNistP256Signature (.xOnly [3]) [4])),
      samplePoints (.compressedY0 [1]) none (some (.ecdsaNistP256Signature (.compressedY0 [3]) [4])),
      ⟨rfl, .inl rfl, .inl rfl, .inr (.inr (.inr rfl))⟩, by decide⟩⟩

end Certificate
end VanetzaIdf.V3
