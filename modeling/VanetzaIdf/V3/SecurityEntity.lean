/-
# The security entity

`SecurityEntity::Impl` of `ports/esp_idf/src/security.cpp` with verification
compiled in: what happens to a received message (`decapsulate_packet`), and how a
message is signed (`encapsulate_packet`).

`verify_signed` works on the `Receiver`. Before a message is verified its header
moves the distribution of certificates (`distribute`). An exception keeps what has
happened so far. The pool is the ticket in use (`own`), the identity manager what
its clients see. `decapsulatePacket_cases` is all that can become of a message.
-/
import VanetzaIdf.SecurityEntity
import VanetzaIdf.V3.Verifier
import VanetzaIdf.V3.Message
import VanetzaIdf.V3.HeaderPolicy

namespace VanetzaIdf.V3

open Lib Option

/-! ### Certificates seen -/

/-- `CertificateCache`: the certificates by digest, and the digests known. -/
structure CertificateCache where
  storage : List (HashedId8 × Certificate) := []
  digests : List HashedId8 := []
deriving DecidableEq, Repr

namespace CertificateCache

variable (k : CertificateCache) (digest : HashedId8)

def lookup : Option Certificate := k.storage.lookup digest

def isKnown : Bool := k.digests.contains digest

/-- `announce`: whether the digest was unknown. -/
def announce : Bool × CertificateCache :=
  (!k.isKnown digest, { k with digests := k.digests.insert digest })

/-- `store`: the first certificate of a digest stays. -/
def store (P : Platform) (k : CertificateCache) (c : Certificate) : CertificateCache :=
  match c.calculateDigest P with
  | some digest =>
    if (k.lookup digest).isSome then k
    else { storage := (digest, c) :: k.storage, digests := k.digests.insert digest }
  | none => k

theorem announce_of_known {k : CertificateCache} {digest : HashedId8} (h : k.isKnown digest = true) :
    k.announce digest = (false, k) := by
  have hmem : digest ∈ k.digests := by simpa [isKnown] using h
  simp [announce, h, List.insert_of_mem hmem]

end CertificateCache

/-! ### Verification of a message -/

structure VerifyConfirm where
  report : VerificationReport
  itsAid : ItsAid
  permissions : ByteBuffer := []
  certificateValidity : Option CertificateInvalidReason := none
  certificateId : Option HashedId8 := none
deriving DecidableEq, Repr

/-- The report on a certificate with a verdict other than Valid. -/
def VerifyConfirm.ofVerdict (aid : ItsAid) : Verdict → VerifyConfirm
  | .revoked => { report := .revokedCertificate, itsAid := aid }
  | .expired => { report := .invalidCertificate, itsAid := aid, certificateValidity := some .offTimePeriod }
  | .untrusted => { report := .invalidCertificate, itsAid := aid, certificateValidity := some .unknownSigner }
  | .inconsistentChain =>
    { report := .inconsistentChain, itsAid := aid, certificateValidity := some .inconsistentWithSigner }
  | .outsideRegion => { report := .invalidCertificate, itsAid := aid, certificateValidity := some .offRegion }
  | .insufficientPermission =>
    { report := .invalidCertificate, itsAid := aid, certificateValidity := some .insufficientItsAid }
  | .unknown | .valid | .misconfiguration => { report := .invalidCertificate, itsAid := aid }

structure Receiver (P : Platform) where
  verifier : Verifier P
  policy : HeaderPolicy := {}
  cache : CertificateCache := {}

namespace Receiver

variable {P : Platform}

/-- A CAM from a station seen for the first time makes the next own CAM carry
the certificate. -/
def announceSigner (r : Receiver P) (aid : ItsAid) : Option HashedId8 → Receiver P
  | none => r
  | some digest =>
    let (wasUnknown, cache) := r.cache.announce digest
    { r with cache, policy := if wasUnknown && aid = Aid.CA then r.policy.requestCertificate else r.policy }

def takeRequests (r : Receiver P) (header : HeaderInfo) : Receiver P :=
  let policy := (header.inlineP2pcdRequest.getD []).foldl HeaderPolicy.enqueueP2pRequest r.policy
  { r with
    policy :=
      match header.requestedCertificate.bind (Certificate.calculateDigest P) with
      | some included => policy.discardP2pRequest (truncate included)
      | none => policy }

/-- What `verify_signed` does before it looks for the certificate. -/
def distribute (r : Receiver P) (data : SignedData) (aid : ItsAid) : Receiver P :=
  let r := r.announceSigner aid (data.signer.certificateId P)
  if aid = Aid.CA then r.takeRequests data.tbsData.headerInfo else r

def signingCertificate (r : Receiver P) (data : SignedData) : Option Certificate :=
  data.signer.inlineCertificate.or ((data.signer.certificateId P).bind r.cache.lookup)

/-- The signer of a CAM is not known: ask for its certificate. -/
def askForSigner (r : Receiver P) (data : SignedData) (aid : ItsAid) : Receiver P :=
  match data.signer.certificateId P with
  | some digest => if aid = Aid.CA then { r with policy := r.policy.requestUnrecognizedCertificate digest } else r
  | none => r

def askForIssuer (r : Receiver P) (certificate : Certificate) : Receiver P :=
  match certificate.issuerDigest with
  | some aa =>
    if (r.verifier.issuers.findIssuer aa).isNone && !r.cache.isKnown aa then
      { r with policy := r.policy.requestUnrecognizedCertificate aa }
    else r
  | none => r

/-- A certificate that came with a verified message is kept. -/
def keepSigner (r : Receiver P) (data : SignedData) (aid : ItsAid) (certificate : Certificate)
    (certificateId : Option HashedId8) : Receiver P :=
  match data.signer.inlineCertificate, certificateId with
  | some _, some id =>
    if (r.cache.lookup id).isSome then r
    else
      { r with
        policy := if aid = Aid.CA then r.policy.requestCertificate else r.policy
        cache := r.cache.store P certificate }
  | _, _ => r

/-- The end of `verify_signed`: the signature of the message under the key of
a certificate that is valid. -/
def verifySignature (r : Receiver P) (data : SignedData) (aid : ItsAid) (certificate : Certificate)
    (signature : EcdsaSignature) : Option VerifyConfirm × Receiver P :=
  match certificate.getPublicKey with
  | none =>
    (some { report := .invalidCertificate, itsAid := aid, certificateValidity := some .missingPublicKey }, r)
  | some key =>
    match calculateMessageHash P data.hashId data.tbsData certificate with
    | none => (none, r)
    | some hash =>
      if P.verifyDigest key hash signature then
        let certificateId := (data.signer.certificateId P).or (certificate.calculateDigest P)
        (some { report := .success, itsAid := aid, permissions := certificate.getAppPermissions aid, certificateId },
          r.keepSigner data aid certificate certificateId)
      else (some { report := .falseSignature, itsAid := aid }, r)

def judge (r : Receiver P) (data : SignedData) (aid : ItsAid) (certificate : Certificate) (signature : EcdsaSignature) :
    Option Verdict → Option VerifyConfirm × Receiver P
  | none => (none, r)
  | some .valid => r.verifySignature data aid certificate signature
  | some verdict => (some (.ofVerdict aid verdict), r.askForIssuer certificate)

/-- `verify_signed`; `none` is the exception of an encoder. -/
def verifySigned (r : Receiver P) (data : SignedData) (aid : ItsAid) : Option VerifyConfirm × Receiver P :=
  match data.signature.toEcdsa with
  | none => (some { report := .unsignedMessage, itsAid := aid }, r)
  | some signature =>
    let r := r.distribute data aid
    match r.signingCertificate data with
    | none => (some { report := .signerCertificateNotFound, itsAid := aid }, r.askForSigner data aid)
    | some certificate =>
      let (verdict, verifier) := r.verifier.validForSigning certificate aid
      judge { r with verifier } data aid certificate signature verdict

variable {r : Receiver P} {data : SignedData} {aid : ItsAid}

theorem announceSigner_frame (digest : Option HashedId8) : (r.announceSigner aid digest).verifier = r.verifier ∧
    (r.announceSigner aid digest).cache.storage = r.cache.storage := by
  cases digest with
  | none | some => exact ⟨rfl, rfl⟩

@[simp] theorem distribute_frame (r : Receiver P) (data : SignedData) (aid : ItsAid) :
    (r.distribute data aid).verifier = r.verifier ∧ (r.distribute data aid).cache.storage = r.cache.storage := by
  unfold distribute
  split_ifs <;> exact announceSigner_frame _

@[simp] theorem askForSigner_frame : (r.askForSigner data aid).verifier = r.verifier ∧
    (r.askForSigner data aid).cache = r.cache := by
  unfold askForSigner
  split
  · split_ifs <;> exact ⟨rfl, rfl⟩
  · exact ⟨rfl, rfl⟩

@[simp] theorem askForIssuer_frame (c : Certificate) : (r.askForIssuer c).verifier = r.verifier ∧
    (r.askForIssuer c).cache = r.cache := by
  unfold askForIssuer
  split
  · split_ifs <;> exact ⟨rfl, rfl⟩
  · exact ⟨rfl, rfl⟩

theorem keepSigner_frame (c : Certificate) (id : Option HashedId8) :
    (r.keepSigner data aid c id).verifier = r.verifier ∧
    ((r.keepSigner data aid c id).cache = r.cache ∨ (r.keepSigner data aid c id).cache = r.cache.store P c) := by
  unfold keepSigner
  split
  · split
    · exact ⟨rfl, .inl rfl⟩
    · exact ⟨rfl, .inr rfl⟩
  · exact ⟨rfl, .inl rfl⟩

theorem verifySignature_cases (r : Receiver P) (data : SignedData) (aid : ItsAid) (c : Certificate)
    (signature : EcdsaSignature) :
    (∃ confirm, confirm.report = .success ∧
      confirm.certificateId = (data.signer.certificateId P).or (c.calculateDigest P) ∧
      r.verifySignature data aid c signature = (some confirm, r.keepSigner data aid c confirm.certificateId)) ∨
    (r.verifySignature data aid c signature).2 = r ∧
      ∀ confirm, (r.verifySignature data aid c signature).1 = some confirm → confirm.report ≠ .success := by
  unfold verifySignature
  cases c.getPublicKey with
  | none => exact .inr ⟨rfl, fun confirm h => by simp [← some.inj h]⟩
  | some key =>
    cases calculateMessageHash P data.hashId data.tbsData c with
    | none => exact .inr ⟨rfl, fun confirm h => by simp at h⟩
    | some hash =>
      dsimp only
      split_ifs
      · exact .inl ⟨_, rfl, rfl, rfl⟩
      · exact .inr ⟨rfl, fun confirm h => by simp [← some.inj h]⟩

theorem ofVerdict_ne (verdict : Verdict) : (VerifyConfirm.ofVerdict aid verdict).report ≠ .success ∧
    (VerifyConfirm.ofVerdict aid verdict).report ≠ .falseSignature := by
  cases verdict <;> simp [VerifyConfirm.ofVerdict]

theorem verifySigned_cases (r : Receiver P) (data : SignedData) (aid : ItsAid) :
    (∃ report, (r.verifySigned data aid).1 = some { report, itsAid := aid } ∧ report ≠ .success ∧
      report ≠ .falseSignature ∧ (r.verifySigned data aid).2.verifier = r.verifier ∧
      (r.verifySigned data aid).2.cache.storage = r.cache.storage) ∨
    ∃ signature certificate, (r.distribute data aid).signingCertificate data = some certificate ∧
      r.verifySigned data aid =
        judge { r.distribute data aid with verifier := (r.verifier.validForSigning certificate aid).2 }
          data aid certificate signature (r.verifier.chain.verdict certificate aid) := by
  unfold verifySigned
  cases data.signature.toEcdsa with
  | none => exact .inl ⟨.unsignedMessage, rfl, by simp⟩
  | some signature =>
    cases hc : (r.distribute data aid).signingCertificate data with
    | none => exact .inl ⟨.signerCertificateNotFound, by simp [hc]⟩
    | some certificate =>
      refine .inr ⟨signature, certificate, rfl, ?_⟩
      simp only [distribute_frame, hc]
      rfl

/-- The certificate is valid for the service, and the signature of the message
verifies under its key. -/
def Verifies (r : Receiver P) (data : SignedData) (aid : ItsAid) (c : Certificate) : Prop :=
  r.verifier.chain.verdict c aid = some .valid ∧ ∃ key hash signature, c.getPublicKey = some key ∧
    calculateMessageHash P data.hashId data.tbsData c = some hash ∧ data.signature.toEcdsa = some signature ∧
    P.verifyDigest key hash signature = true

theorem verifySigned_of_verifies {c : Certificate} (hc : (r.distribute data aid).signingCertificate data = some c)
    (h : r.Verifies data aid c) : (r.verifySigned data aid).1 = some
      { report := .success
        itsAid := aid
        permissions := c.getAppPermissions aid
        certificateId := (data.signer.certificateId P).or (c.calculateDigest P) } := by
  obtain ⟨hvalid, key, hash, signature, hkey, hhash, hsignature, hverify⟩ := h
  unfold verifySigned
  rw [hsignature]
  dsimp only
  rw [hc, (distribute_frame _ _ _).1]
  show (judge _ data aid c signature (r.verifier.chain.verdict c aid)).1 = _
  rw [hvalid, judge, verifySignature]
  simp [hkey, hhash, hverify]

/-- After the verdict the signature verifies under a valid certificate and the
signer may be kept, or nothing is kept, and a False_Signature has changed nothing. -/
theorem judge_cases (r : Receiver P) (data : SignedData) (aid : ItsAid) (c : Certificate) (signature : EcdsaSignature)
    (verdict : Option Verdict) :
    (∃ confirm, verdict = some .valid ∧ confirm.report = .success ∧
      confirm.certificateId = (data.signer.certificateId P).or (c.calculateDigest P) ∧
      r.judge data aid c signature verdict = (some confirm, r.keepSigner data aid c confirm.certificateId)) ∨
    ((r.judge data aid c signature verdict).2.verifier = r.verifier ∧
      (r.judge data aid c signature verdict).2.cache = r.cache) ∧
      ∀ confirm, (r.judge data aid c signature verdict).1 = some confirm → confirm.report ≠ .success ∧
        (confirm.report = .falseSignature → (r.judge data aid c signature verdict).2 = r) := by
  unfold judge
  split
  · exact .inr ⟨⟨rfl, rfl⟩, fun _ h => nomatch h⟩
  · rcases r.verifySignature_cases data aid c signature with ⟨confirm, h⟩ | ⟨hsame, hne⟩
    · exact .inl ⟨confirm, rfl, h⟩
    · refine .inr ⟨?_, fun confirm h => ⟨hne confirm h, fun _ => hsame⟩⟩
      rw [hsame]
      exact ⟨rfl, rfl⟩
  · refine .inr ⟨askForIssuer_frame c, fun confirm h => ?_⟩
    obtain rfl := some.inj h
    exact ⟨(ofVerdict_ne _).1, fun hr => absurd hr (ofVerdict_ne _).2⟩

theorem judge_frame (r : Receiver P) (data : SignedData) (aid : ItsAid) (c : Certificate) (signature : EcdsaSignature)
    (verdict : Option Verdict) : (r.judge data aid c signature verdict).2.verifier = r.verifier ∧
      ((r.judge data aid c signature verdict).2.cache = r.cache ∨
        (r.judge data aid c signature verdict).2.cache = r.cache.store P c) := by
  rcases r.judge_cases data aid c signature verdict with ⟨confirm, -, -, -, heq⟩ | ⟨⟨hv, hc⟩, -⟩
  · rw [heq]
    exact keepSigner_frame c confirm.certificateId
  · exact ⟨hv, .inl hc⟩

theorem verifySigned_success {confirm : VerifyConfirm} (h : (r.verifySigned data aid).1 = some confirm)
    (hr : confirm.report = .success) :
    ∃ certificate id, r.verifier.chain.verdict certificate aid = some .valid ∧ confirm.certificateId = some id := by
  rcases r.verifySigned_cases data aid with ⟨report, heq, hne, -⟩ | ⟨signature, certificate, -, heq⟩
  · rw [heq] at h
    obtain rfl := some.inj h
    exact absurd hr hne
  · rw [heq] at h
    rcases judge_cases _ data aid certificate signature _ with ⟨confirm', hv, -, hid, hj⟩ | ⟨-, hne⟩
    · obtain rfl : confirm' = confirm := some.inj ((congrArg Prod.fst hj).symm.trans h)
      obtain ⟨-, digest, hd, -⟩ := ChainValidator.verdict_eq_valid.mp hv
      rw [hd] at hid
      cases hs : data.signer.certificateId P with
      | none => exact ⟨certificate, digest, hv, by simpa [hs] using hid⟩
      | some id => exact ⟨certificate, id, hv, by simpa [hs] using hid⟩
    · exact absurd hr (hne confirm h).1

theorem verifySigned_falseSignature {confirm : VerifyConfirm} (h : (r.verifySigned data aid).1 = some confirm)
    (hr : confirm.report = .falseSignature) :
    ∃ certificate, (r.distribute data aid).signingCertificate data = some certificate ∧ (r.verifySigned data aid).2 =
      { r.distribute data aid with verifier := (r.verifier.validForSigning certificate aid).2 } := by
  rcases r.verifySigned_cases data aid with ⟨report, heq, -, hne, -⟩ | ⟨signature, certificate, hc, heq⟩
  · rw [heq] at h
    obtain rfl := some.inj h
    exact absurd hr hne
  · rw [heq] at h ⊢
    rcases judge_cases _ data aid certificate signature _ with ⟨confirm', -, hr', -, hj⟩ | ⟨-, hne⟩
    · obtain rfl : confirm' = confirm := some.inj ((congrArg Prod.fst hj).symm.trans h)
      exact absurd (hr'.symm.trans hr) (by simp)
    · exact ⟨certificate, hc, (hne confirm h).2 hr⟩

theorem verifySigned_frame (r : Receiver P) (data : SignedData) (aid : ItsAid) :
    (r.verifySigned data aid).2.verifier.base = r.verifier.base ∧
      (r.verifySigned data aid).2.verifier.verification = r.verifier.verification := by
  rcases r.verifySigned_cases data aid with ⟨report, -, -, -, hv, -⟩ | ⟨signature, certificate, -, heq⟩
  · rw [hv]
    exact ⟨rfl, rfl⟩
  · rw [heq, (judge_frame _ _ _ _ _ _).1]
    refine ⟨?_, rfl⟩
    show (r.verifier.chain.validForSigning certificate aid).2.base = r.verifier.chain.base
    rcases r.verifier.chain.validForSigning_cases certificate aid with hs | ⟨digest, -, -, hs⟩
    · rw [hs]
    · rw [hs]
      rfl

end Receiver

/-! ### The entity -/

/-- `SecurityEntity::Statistics`. -/
structure Statistics extends Security.Statistics where
  verified : UInt32 := 0
  rejectedProfile : UInt32 := 0
  rejectedSigner : UInt32 := 0
  rejectedCertificate : UInt32 := 0
  rejectedSignature : UInt32 := 0
  rejectedTime : UInt32 := 0
  replayed : UInt32 := 0
  learnedAuthorities : UInt32 := 0
deriving DecidableEq, Repr

def Statistics.count (stats : Statistics) : VerificationReport → Statistics
  | .success => { stats with verified := stats.verified + 1 }
  | .invalidTimestamp | .duplicateMessage => stats
  | .signerCertificateNotFound | .unsupportedSignerIdentifierType =>
    { stats with rejectedSigner := stats.rejectedSigner + 1 }
  | .falseSignature => { stats with rejectedSignature := stats.rejectedSignature + 1 }
  | _ => { stats with rejectedCertificate := stats.rejectedCertificate + 1 }

structure SecurityEntity (P : Platform) where
  receiver : Receiver P
  accepted : List (HashedId8 × UInt64) := []
  stats : Statistics := {}
  own : Option (OwnTicket P) := none
  changePending : Bool := false

/-- `SecuredMessage`, of either version; a v2 message is only refused. -/
inductive SecuredPacket
  | v2
  | v3 (message : SecuredMessage)
deriving DecidableEq, Repr

namespace SecurityEntity

variable {P : Platform} (s : SecurityEntity P)

def verification : VerificationPolicy := s.receiver.verifier.verification

def now : TimePoint := s.receiver.verifier.base.now

def withPolicy (policy : HeaderPolicy) : SecurityEntity P :=
  { s with receiver := { s.receiver with policy } }

def withVerifier (verifier : Verifier P) : SecurityEntity P :=
  { s with receiver := { s.receiver with verifier } }

/-- The entity up to its counters. -/
def uncounted : SecurityEntity P := { s with stats := {} }

/-- The requested certificate of the header goes to `learn_authority`. -/
def learn (data : SignedData) : Option (SecurityEntity P) :=
  match data.tbsData.headerInfo.requestedCertificate with
  | none => some s
  | some c =>
    (s.receiver.verifier.learnAuthority c).map fun r =>
      { s.withVerifier r.2 with
        stats.learnedAuthorities := s.stats.learnedAuthorities + if r.1 then 1 else 0 }

/-- The generation time is neither in the future nor too old; sums are in 64
bits. -/
def timely (generation : UInt64) : Bool :=
  let now := convertTime64 s.now
  let future := convertTime64 s.verification.generationTimeFutureTolerance
  let age := convertTime64 s.verification.generationTimeMaxAge
  !(decide (now + future < generation) || decide (generation + age < now))

variable (confirm : VerifyConfirm)

/-- Time and replay of a message whose signature is verified. -/
def checkReplay (generation : Option UInt64) :
    VerifyConfirm × SecurityEntity P :=
  match generation.filter s.timely with
  | none =>
    ({ confirm with report := .invalidTimestamp },
      { s with stats.rejectedTime := s.stats.rejectedTime + 1 })
  | some generation =>
    match confirm.certificateId with
    | none => (confirm, s)
    | some id =>
      if s.verification.replayWindow = 0 then (confirm, s)
      else if (id, generation) ∈ s.accepted then
        ({ confirm with report := .duplicateMessage },
          { s with stats.replayed := s.stats.replayed + 1 })
      else (confirm, { s with accepted := push s.verification.replayWindow s.accepted (id, generation) })

def boundCache : SecurityEntity P :=
  if s.verification.certificateCacheLimit < s.receiver.cache.storage.length then
    { s with receiver := { s.receiver with cache := {} } }
  else s

/-- The end of `verify`, with what `verify_signed` came to. -/
def conclude (generation : Option UInt64) :
    VerifyConfirm × SecurityEntity P :=
  let (confirm, s) := if confirm.report = .success then s.checkReplay confirm generation else (confirm, s)
  (confirm, boundCache { s with stats := s.stats.count confirm.report })

variable (m : SecuredMessage)

/-- `verify` of signed data; `none` is an exception. -/
def verifyData (data : SignedData) : Option VerifyConfirm × SecurityEntity P :=
  let verified := s.receiver.verifySigned data m.itsAid
  let s := { s with receiver := verified.2 }
  match verified.1 with
  | none => (none, s)
  | some confirm => (some (s.conclude confirm m.generationTime).1, (s.conclude confirm m.generationTime).2)

def verify : Option VerifyConfirm × SecurityEntity P :=
  if checkProfile m ≠ .success then
    (some { report := checkProfile m, itsAid := m.itsAid },
      { s with stats.rejectedProfile := s.stats.rejectedProfile + 1 })
  else
    match m.signedData.bind fun data => (s.learn data).map (data, ·) with
    | none => (none, s)
    | some (data, s) => s.verifyData m data

/-- An exception becomes a report. -/
def catchFailure (verified : Option VerifyConfirm × SecurityEntity P) :
    VerifyConfirm × SecurityEntity P :=
  match verified.1 with
  | some confirm => (confirm, verified.2)
  | none =>
    ({ report := .incompatibleProtocol, itsAid := m.itsAid },
      { verified.2 with stats.failed := verified.2.stats.failed + 1 })

def decapsulatePacket : SecuredPacket → VerifyConfirm × SecurityEntity P
  | .v2 => ({ report := .incompatibleProtocol, itsAid := 0 }, s)
  | .v3 m => catchFailure m (s.verify m)

theorem learn_frame {s t : SecurityEntity P} {data : SignedData} (h : s.learn data = some t) :
    t.verification = s.verification ∧ t.now = s.now ∧ t.accepted = s.accepted ∧ t.receiver.cache =
      s.receiver.cache := by
  unfold learn at h
  split at h
  · rw [some.inj h]
    exact ⟨rfl, rfl, rfl, rfl⟩
  · obtain ⟨r, hr, rfl⟩ := map_eq_some_iff.mp h
    obtain ⟨r', -, rfl⟩ := map_eq_some_iff.mp hr
    exact ⟨rfl, rfl, rfl, rfl⟩

theorem checkReplay_frame (generation : Option UInt64) :
    (s.checkReplay confirm generation).2.receiver = s.receiver ∧
      ((s.checkReplay confirm generation).1.report = confirm.report ∨
        (s.checkReplay confirm generation).1.report = .invalidTimestamp ∨
        (s.checkReplay confirm generation).1.report = .duplicateMessage) := by
  unfold checkReplay
  split
  · exact ⟨rfl, .inr (.inl rfl)⟩
  · split
    · exact ⟨rfl, .inl rfl⟩
    · split_ifs
      · exact ⟨rfl, .inl rfl⟩
      · exact ⟨rfl, .inr (.inr rfl)⟩
      · exact ⟨rfl, .inl rfl⟩

theorem conclude_receiver (generation : Option UInt64) :
    (s.conclude confirm generation).2.receiver = s.receiver ∨
      (s.conclude confirm generation).2.receiver = { s.receiver with cache := {} } := by
  have hbound : ∀ u : SecurityEntity P, u.boundCache.receiver = u.receiver ∨
      u.boundCache.receiver = { u.receiver with cache := {} } := by
    intro u
    unfold boundCache
    split_ifs
    · exact .inr rfl
    · exact .inl rfl
  unfold conclude
  split_ifs
  · rw [← (s.checkReplay_frame confirm generation).1]
    exact hbound _
  · exact hbound _

theorem verify_refused {s : SecurityEntity P} {m : SecuredMessage} (hp : checkProfile m ≠ .success) : s.verify m =
    (some { report := checkProfile m, itsAid := m.itsAid },
      { s with stats.rejectedProfile := s.stats.rejectedProfile + 1 }) := by
  rw [verify, if_pos hp]

theorem verify_of_profile {s : SecurityEntity P} {m : SecuredMessage} (hp : checkProfile m = .success)
    {data : SignedData}
    (hd : m.signedData = some data) : s.verify m = (s.learn data).elim (none, s) fun t => t.verifyData m data := by
  rw [verify, if_neg (not_not.mpr hp), hd, bind_some]
  cases s.learn data <;> rfl

/-- Everything `decapsulate_packet` can do with a message: it is refused as it
is, or something throws, before or after its signer was looked at, or its
verification is concluded. -/
theorem decapsulatePacket_cases :
    ((s.decapsulatePacket (.v3 m)).1.report ≠ .success ∧ (s.decapsulatePacket (.v3 m)).1.report ≠ .falseSignature ∧
      (s.decapsulatePacket (.v3 m)).2.uncounted = s.uncounted) ∨
    ∃ data t, m.signedData = some data ∧ s.learn data = some t ∧
      let verified := t.receiver.verifySigned data m.itsAid
      let u : SecurityEntity P := { t with receiver := verified.2 }
      ((s.decapsulatePacket (.v3 m)).1.report = .incompatibleProtocol ∧ verified.1 = none ∧
        (s.decapsulatePacket (.v3 m)).2.uncounted = u.uncounted) ∨
      ∃ confirm, verified.1 = some confirm ∧ s.decapsulatePacket (.v3 m) = u.conclude confirm m.generationTime := by
  have hdec : s.decapsulatePacket (.v3 m) = catchFailure m (s.verify m) := rfl
  rw [hdec]
  by_cases hp : checkProfile m = .success
  · obtain ⟨data, hd⟩ := signedData_of_profile hp
    rw [verify_of_profile hp hd]
    cases hl : s.learn data with
    | none => exact .inl ⟨by simp [catchFailure], by simp [catchFailure], rfl⟩
    | some t =>
      refine .inr ⟨data, t, hd, hl, ?_⟩
      simp only [elim_some, verifyData]
      cases hv : (t.receiver.verifySigned data m.itsAid).1 with
      | none => exact .inl ⟨rfl, rfl, rfl⟩
      | some confirm => exact .inr ⟨confirm, rfl, rfl⟩
  · rw [verify_refused hp]
    exact .inl ⟨hp, checkProfile_ne_falseSignature m, rfl⟩

/-! ### Signing -/

inductive SignConfirmError
  | unspecified | noCertificate | noService
deriving DecidableEq, Repr

def specifiedHashAlgorithm : KeyType → HashAlgorithm
  | .nistP256 | .brainpoolP256r1 => .sha256
  | .brainpoolP384r1 => .sha384
  | .unspecified => .unspecified

/-- `set_signature`; a signature of no known kind becomes the dummy one. -/
def ofEcdsa (signature : EcdsaSignature) : Signature :=
  match signature.type with
  | .nistP256 => .ecdsaNistP256Signature (.xOnly signature.r) signature.s
  | .brainpoolP256r1 => .ecdsaBrainpoolP256r1Signature (.xOnly signature.r) signature.s
  | .brainpoolP384r1 => .ecdsaBrainpoolP384r1Signature (.xOnly signature.r) signature.s
  | .unspecified => .ecdsaNistP256Signature (.xOnly (List.replicate 32 0)) (List.replicate 32 0)

variable (request : SignRequest)

def toBeSigned (prepared : Prepared) : ToBeSignedData where
  payload := some { data := some (3, request.plainMessage) }
  headerInfo := prepared.headerInfo

variable (ticket : OwnTicket P)

/-- The message with its signature; `none` is an exception. -/
def signedMessage (request : SignRequest) (prepared : Prepared) : Option SecuredMessage := do
  let hash := specifiedHashAlgorithm ticket.certificate.getVerificationKeyType
  let tbsData := toBeSigned request prepared
  let digest ← calculateMessageHash P hash tbsData ticket.certificate
  let signature ← P.signDigest ticket.key digest
  return ⟨3, .signedData ⟨hash, tbsData, prepared.signer, ofEcdsa signature⟩⟩

def prepare (request : SignRequest) : Prepared × HeaderPolicy :=
  let base := s.receiver.verifier.base
  s.receiver.policy.prepareHeader base.issuers.trust.authorities ticket base.now base.position request

/-- `StraightSignService::sign`; `none` is an exception. The header is prepared
before the verdict on the own certificate is asked for. -/
def sign (request : SignRequest) :
    Option (Except SignConfirmError SecuredMessage) × SecurityEntity P :=
  (if s.receiver.verifier.base.validForSigning ticket.certificate request.itsAid ≠ .valid then
      some (.error .noCertificate)
    else (signedMessage ticket request (s.prepare ticket request).1).map .ok,
    s.withPolicy (s.prepare ticket request).2)

variable (signed : Option (Except SignConfirmError SecuredMessage) × SecurityEntity P)

/-- The end of `encapsulate_packet`, with what the sign service came to. -/
def concludeSigning :
    Except SignConfirmError SecuredMessage × SecurityEntity P :=
  let s := signed.2
  match signed.1 with
  | some (.ok message) => (.ok message, { s with stats.signedMessages := s.stats.signedMessages + 1 })
  | some (.error error) => (.error error, { s with stats.refusedPermission := s.stats.refusedPermission + 1 })
  | none => (.error .unspecified, { s with stats.failed := s.stats.failed + 1 })

def encapsulatePacket :
    Except SignConfirmError SecuredMessage × SecurityEntity P :=
  match s.own with
  | none =>
    (.error .noCertificate, { s with stats.refusedNoTicket := s.stats.refusedNoTicket + 1 })
  | some ticket =>
    if s.changePending then
      (.error .noCertificate,
        { s with stats.refusedChangePending := s.stats.refusedChangePending + 1 })
    else concludeSigning (s.sign ticket request)

theorem concludeSigning_uncounted :
    (concludeSigning signed).2.uncounted = signed.2.uncounted := by
  unfold concludeSigning
  split <;> rfl

theorem encapsulatePacket_uncounted :
    ∃ policy, (s.encapsulatePacket request).2.uncounted = (s.withPolicy policy).uncounted := by
  unfold encapsulatePacket
  split
  · exact ⟨s.receiver.policy, rfl⟩
  · split_ifs
    · exact ⟨s.receiver.policy, rfl⟩
    · exact ⟨_, concludeSigning_uncounted _⟩

end SecurityEntity

/-! ### The machine -/

/-- Its operations, what changes around it, the ticket in use, and the phases of an identifier
change. -/
inductive EntityEvent (P : Platform)
  | decapsulate (packet : SecuredPacket)
  | encapsulate (request : SignRequest)
  | environment (e : EnvironmentEvent)
  | useTicket (ticket : Option (OwnTicket P))
  | changePending (pending : Bool)
  | committed
  | reportNewCamSigner

inductive EntityOutput
  | decapsulated (confirm : VerifyConfirm)
  | encapsulated (outcome : Except SecurityEntity.SignConfirmError SecuredMessage)
  | silent

namespace SecurityEntity

variable {P : Platform}

def step (s : SecurityEntity P) : EntityEvent P → EntityOutput × SecurityEntity P
  | .decapsulate packet => (.decapsulated (s.decapsulatePacket packet).1, (s.decapsulatePacket packet).2)
  | .encapsulate request => (.encapsulated (s.encapsulatePacket request).1, (s.encapsulatePacket request).2)
  | .environment e => (.silent, s.withVerifier (s.receiver.verifier.environment e))
  | .useTicket own => (.silent, { s with own })
  | .changePending changePending => (.silent, { s with changePending })
  | .committed => (.silent, s.withPolicy s.receiver.policy.resetAfterIdentifierChange)
  | .reportNewCamSigner => (.silent, s.withPolicy s.receiver.policy.reportNewCamSigner)

end SecurityEntity

/-! ### A station -/

/-- The station of the sample verifier, an hour after 2004. -/
def sampleEntity (verification : VerificationPolicy) : SecurityEntity markedPlatform where
  receiver := { verifier := { sampleVerifier with verification } }

def sampleCam (signer : SignerIdentifier) (generation : UInt64) (octet : UInt8) : SecuredMessage where
  protocolVersion := 3
  content := .signedData {
    hashId := .sha256
    tbsData := {
      payload := some { data := some (3, []) }
      headerInfo := { psid := Aid.CA, generationTime := some generation } }
    signer
    signature := .ecdsaNistP256Signature (.xOnly []) [octet] }
end VanetzaIdf.V3
