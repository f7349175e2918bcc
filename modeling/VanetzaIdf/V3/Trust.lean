/-
# Authorities

`TrustConfiguration` of `ports/esp_idf/src/security.cpp` with the trust store and
the lookups it holds, the lookup that adds learned authorities
(`CombinedIssuerLookup`), and `verify_certificate_signature`. A map is the function
that looks a digest up. Certificates are filed under their digest, self-signed
issuers are in the trust store, and a learned authority is a CA certificate that is
not self-signed.
-/
import VanetzaIdf.V3.Canonical
import Mathlib.Logic.Function.Basic

namespace VanetzaIdf.V3

/-! ### Certificate signatures -/

/-- The hash algorithm that the issuer field names, and the certificate whose key signs. -/
def Certificate.signedBy (subject : Certificate) (issuer : Option Certificate) :
    Option (HashAlgorithm × Option Certificate) :=
  match subject.issuer with
  | .sha256AndDigest _ => issuer.map fun i => (.sha256, some i)
  | .sha384AndDigest _ => issuer.map fun i => (.sha384, some i)
  | .self algorithm => some (if algorithm = .sha384 then .sha384 else .sha256, none)
  | .nothing => none

/-- `verify_certificate_signature`; `none` is the exception of an encoder. -/
def verifyCertificateSignature (P : Platform) (subject : Certificate) (issuer : Option Certificate) : Option Bool :=
  match subject.getSignature, subject.signedBy issuer with
  | some signature, some (hash, signer) =>
    match (signer.getD subject).getPublicKey with
    | some key => do
      let tbs ← P.encodeToBeSigned subject.toBeSigned
      let octets ← signer.elim (some []) P.encodeCertificate
      let input := P.calculateHash hash tbs ++ P.calculateHash hash octets
      return P.verifyDigest key (P.calculateHash hash input) signature
    | none => some false
  | _, _ => some false

/-! ### The trust configuration -/

/-- The trust store, the issuer lookup, every authority added, and for each issuer what it has
revoked. -/
structure TrustConfiguration (P : Platform) where
  roots : HashedId8 → List Certificate := fun _ => []
  issuers : HashedId8 → Option Certificate := fun _ => none
  authorities : List Certificate := []
  revocations : HashedId8 → List HashedId8 := fun _ => []
  roots_digest : ∀ d, ∀ c ∈ roots d, c.calculateDigest P = some d := by simp
  issuers_digest : ∀ d c, issuers d = some c → c.calculateDigest P = some d := by simp
  issuers_root : ∀ d c, issuers d = some c → c.issuerIsSelf = true → c ∈ roots d := by simp

namespace TrustConfiguration

variable {P : Platform} (t : TrustConfiguration P)

theorem digest_update {d : HashedId8} {c : Certificate} (hd : c.calculateDigest P = some d)
    (e : HashedId8) (b : Certificate) (hb : Function.update t.issuers d (some c) e = some b) :
    b.calculateDigest P = some e := by
  by_cases he : e = d
  · subst he
    rw [Function.update_self, Option.some.injEq] at hb
    exact hb ▸ hd
  · rw [Function.update_of_ne he] at hb
    exact t.issuers_digest e b hb

/-- `TrustStore::insert` and `IssuerMemoryLookup::insert` of a root; the
lookup keeps the last certificate of a digest. -/
def insertRoot {d : HashedId8} {c : Certificate} (hd : c.calculateDigest P = some d) :
    TrustConfiguration P where
  roots := Function.update t.roots d (t.roots d ++ [c])
  issuers := Function.update t.issuers d (some c)
  authorities := t.authorities ++ [c]
  revocations := t.revocations
  roots_digest e b hb := by
    by_cases he : e = d
    · subst he
      rw [Function.update_self, List.mem_append, List.mem_singleton] at hb
      rcases hb with hb | rfl
      · exact t.roots_digest _ b hb
      · exact hd
    · rw [Function.update_of_ne he] at hb
      exact t.roots_digest e b hb
  issuers_digest := t.digest_update hd
  issuers_root e b hb hs := by
    by_cases he : e = d
    · subst he
      rw [Function.update_self, Option.some.injEq] at hb
      simp [hb]
    · rw [Function.update_of_ne he] at hb ⊢
      exact t.issuers_root e b hb hs

def addRoot (c : Certificate) : Result × TrustConfiguration P :=
  if c.issuerIsSelf && c.isCaCertificate then
    match hd : c.calculateDigest P with
    | some _ => (.accepted, t.insertRoot hd)
    | none => (.invalidArgument, t)
  else (.invalidArgument, t)

/-- `IssuerMemoryLookup::insert` of an authority. -/
def insertAuthority {d : HashedId8} {c : Certificate}
    (hd : c.calculateDigest P = some d) (hs : c.issuerIsSelf = false) : TrustConfiguration P where
  roots := t.roots
  issuers := Function.update t.issuers d (some c)
  authorities := t.authorities ++ [c]
  revocations := t.revocations
  roots_digest := t.roots_digest
  issuers_digest := t.digest_update hd
  issuers_root e b hb hb' := by
    by_cases he : e = d
    · subst he
      rw [Function.update_self, Option.some.injEq] at hb
      rw [← hb, hs] at hb'
      exact absurd hb' Bool.false_ne_true
    · rw [Function.update_of_ne he] at hb
      exact t.issuers_root e b hb hb'

/-- `add_authority`; a digest known already is rejected. -/
def addAuthority (c : Certificate) : Result × TrustConfiguration P :=
  if h : c.issuerIsSelf = false ∧ c.isCaCertificate = true then
    match hd : c.calculateDigest P with
    | some d =>
      if (t.issuers d).isSome then (.rejected, t) else (.accepted, t.insertAuthority hd h.1)
    | none => (.invalidArgument, t)
  else (.invalidArgument, t)

def revoke (issuer certificate : HashedId8) : TrustConfiguration P :=
  { t with revocations := Function.update t.revocations issuer ((t.revocations issuer).insert certificate) }

def clearRevocations (issuer : HashedId8) : TrustConfiguration P :=
  { t with revocations := Function.update t.revocations issuer [] }

/-- `RevocationMemoryLookup::is_revoked`. -/
def isRevoked (issuer certificate : HashedId8) : Bool :=
  (t.revocations issuer).contains certificate

end TrustConfiguration

/-! ### Learned authorities -/

/-- A CA certificate that is not self-signed, as `learn_authority` keeps it. -/
abbrev Authority := { c : Certificate // c.isCaCertificate = true ∧ c.issuerIsSelf = false }

/-- `CombinedIssuerLookup`: the provisioned authorities and the ones learned
over the air. -/
structure CombinedIssuerLookup (P : Platform) where
  trust : TrustConfiguration P
  learned : List Authority := []

namespace CombinedIssuerLookup

variable {P : Platform}

/-- `find_issuer`: first the provisioned authorities, then the learned ones. -/
def findIssuer (i : CombinedIssuerLookup P) (digest : HashedId8) : Option Certificate :=
  (i.trust.issuers digest).or ((i.learned.map Subtype.val).find? fun c => c.calculateDigest P == some digest)

variable {i : CombinedIssuerLookup P} {d : HashedId8} {c : Certificate}

theorem findIssuer_cases (h : i.findIssuer d = some c) :
    i.trust.issuers d = some c ∨ (∃ a ∈ i.learned, a.val = c) ∧ c.calculateDigest P = some d := by
  rcases Option.or_eq_some_iff.mp h with h | ⟨-, h⟩
  · exact .inl h
  · refine .inr ⟨?_, by simpa using List.find?_some h⟩
    obtain ⟨a, ha, rfl⟩ := List.mem_map.mp (List.mem_of_find?_eq_some h)
    exact ⟨a, ha, rfl⟩

theorem findIssuer_digest (h : i.findIssuer d = some c) : c.calculateDigest P = some d := by
  rcases findIssuer_cases h with h | ⟨-, h⟩
  · exact i.trust.issuers_digest d c h
  · exact h

theorem findIssuer_root (h : i.findIssuer d = some c) (hs : c.issuerIsSelf = true) : c ∈ i.trust.roots d := by
  rcases findIssuer_cases h with h | ⟨⟨a, -, rfl⟩, -⟩
  · exact i.trust.issuers_root d c h hs
  · rw [a.property.2] at hs
    exact absurd hs Bool.false_ne_true

end CombinedIssuerLookup
end VanetzaIdf.V3
