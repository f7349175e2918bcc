/-
# A refused signature

`StraightSignService::sign` prepares the header before it asks for the verdict and
signs. If the message is refused then, the header policy stays as if it had been
sent, and the next one may carry the digest of a certificate that never left the
station (`refused_signature_moves`); `refused_harmless_iff` says when it leaves no
trace.
-/
import VanetzaIdf.V3.Resolvable
import VanetzaIdf.V3.SecurityEntity

namespace VanetzaIdf.V3

theorem PeerRequestTracker.discardRequest_ne {t : PeerRequestTracker} {id : HashedId3} (h : t.isPending id = true) :
    t.discardRequest id ≠ t := by
  intro heq
  have hmem : id ∈ t.fifo := by simpa [PeerRequestTracker.isPending] using h
  have hlen := congrArg (fun u => u.fifo.length) heq
  have hpos := List.length_pos_of_mem hmem
  simp only [PeerRequestTracker.discardRequest, List.length_erase_of_mem hmem] at hlen
  omega

namespace HeaderPolicy

variable {P : Platform} {p : HeaderPolicy} {authorities : List Certificate} {ticket : OwnTicket P} {now : TimePoint}
  {position : PositionFix} {request : SignRequest} {k : MessageClass}

/-! ### No trace -/

/-- Timers, request flags and both queues are the same. -/
structure Kept (p q : HeaderPolicy) : Prop where
  camLastCertificate : q.camLastCertificate = p.camLastCertificate
  camCertificateRequested : q.camCertificateRequested = p.camCertificateRequested
  incomingRequests : q.incomingRequests = p.incomingRequests
  outgoingRequests : q.outgoingRequests = p.outgoingRequests
  vamLastCertificate : q.vamLastCertificate = p.vamLastCertificate
  newCamSigner : q.newCamSigner = p.newCamSigner
  genericLastCertificate : q.genericLastCertificate = p.genericLastCertificate

/-- The next header is the same, whatever it is prepared for. -/
def SameChoice (P : Platform) (p q : HeaderPolicy) : Prop :=
  ∀ (authorities : List Certificate) (ticket : OwnTicket P) (now : TimePoint) (position : PositionFix)
    (request : SignRequest), (q.prepareHeader authorities ticket now position request).1 =
      (p.prepareHeader authorities ticket now position request).1

theorem Kept.refl (p : HeaderPolicy) : Kept p p := ⟨rfl, rfl, rfl, rfl, rfl, rfl, rfl⟩

theorem SameChoice.refl (p : HeaderPolicy) : SameChoice P p p := fun _ _ _ _ _ => rfl

/-- No timer runs, and the own certificate is not asked for. -/
structure Cleared (p : HeaderPolicy) : Prop where
  camLastCertificate : p.camLastCertificate = none
  camCertificateRequested : p.camCertificateRequested = false
  vamLastCertificate : p.vamLastCertificate = none
  genericLastCertificate : p.genericLastCertificate = fun _ => none

/-- What the header of the request leaves as it is: its ticket is the one the
timers refer to, or no timer runs; a message of a class carries the digest,
and a CAM finds empty queues. -/
def Unmoved (p : HeaderPolicy) (own : HashedId8) (now : TimePoint) (request : SignRequest) : Prop :=
  match request.messageClass with
  | none => p.signerDigest = some own ∨ p.Cleared
  | some k => p.signerDigest = some own ∧ p.certificateDue own now request k = false ∧
      (k = .cam → p.incomingRequests.fifo = [] ∧ p.outgoingRequests.fifo = [])

/-! ### What a header does -/

variable {own : HashedId8} {header : HeaderInfo} {aid : ItsAid}

theorem noticeTicket_of_eq (h : p.signerDigest = some own) : p.noticeTicket own = p := if_pos h

theorem noticeTicket_requests (p : HeaderPolicy) (own : HashedId8) :
    (p.noticeTicket own).incomingRequests = p.incomingRequests := by
  unfold noticeTicket
  split_ifs <;> rfl

theorem elapsed_self (now : TimePoint) {interval : Duration} (h : (0 : ℤ) < interval) :
    elapsed (some now) now interval = false := by
  simp [elapsed, h]

/-- The certificate is due: the header carries it, and the timer of its class
is restarted. -/
structure Restarted (p : HeaderPolicy) (own : HashedId8) (now : TimePoint) (request : SignRequest) (k : MessageClass)
    (q : HeaderPolicy) : Prop where
  signerDigest : q.signerDigest = p.signerDigest
  incoming : q.incomingRequests =
    if k = .cam then (p.noticeOwnRequest own).incomingRequests else p.incomingRequests
  due : (k = .cam → q.incomingRequests.isPending (truncate own) = false) → q.certificateDue own now request k = false

theorem prepareHeader_due (authorities : List Certificate) (position : PositionFix) (hk : request.messageClass = some k)
    (h : (p.noticeTicket ticket.digest).certificateDue ticket.digest now request k = true) :
    (p.prepareHeader authorities ticket now position request).1.signer = .certificate [ticket.certificate] ∧
      Restarted (p.noticeTicket ticket.digest) ticket.digest now request k
        (p.prepareHeader authorities ticket now position request).2 := by
  have hsecond := elapsed_self now (show (0 : ℤ) < seconds 1 by decide)
  have hhalf := elapsed_self now (show (0 : ℤ) < halfSecond by decide)
  rcases p.prepareHeader_cases authorities ticket now position hk with ⟨-, hs, hr⟩ | ⟨hnot, -⟩
  · rw [hr]
    refine ⟨hs, ?_⟩
    cases k with
    | cam =>
      refine ⟨(noticeOwnRequest_frame _ ticket.digest).1, rfl, fun hpend => ?_⟩
      simp only [certificateDue, restarted, Bool.false_or, hsecond, Bool.or_false]
      exact hpend rfl
    | vam => exact ⟨rfl, rfl, fun _ => by simp [certificateDue, restarted, hsecond, hhalf]⟩
    | generic aid => exact ⟨rfl, rfl, fun _ => by simp [certificateDue, restarted, hsecond]⟩
  · exact absurd (h.symm.trans hnot) (by simp)

theorem prepareHeader_not_due (authorities : List Certificate) (position : PositionFix)
    (hk : request.messageClass = some k)
    (h : (p.noticeTicket ticket.digest).certificateDue ticket.digest now request k = false) :
    (p.prepareHeader authorities ticket now position request).1.signer = .digest ticket.digest ∧
      (p.prepareHeader authorities ticket now position request).2 =
        (p.noticeTicket ticket.digest).answered P authorities k := by
  rcases p.prepareHeader_cases authorities ticket now position hk with ⟨hdue, -⟩ | ⟨-, hs, hr⟩
  · exact absurd (h.symm.trans hdue) (by simp)
  · exact ⟨hs, hr⟩

theorem signerDigest_of_not_due (h : (p.noticeTicket own).certificateDue own now request k = false) :
    p.signerDigest = some own := by
  by_contra hne
  have hnotice : p.noticeTicket own = { p.resetAfterIdentifierChange with signerDigest := some own } := if_neg hne
  rw [hnotice] at h
  cases k with
  | cam | vam | generic => simp [certificateDue, resetAfterIdentifierChange, elapsed] at h

/-! ### When a header leaves no trace -/

theorem length_answerRequest_lt (authorities : List Certificate) : ∀ {ids : List HashedId3}, ids ≠ [] →
    (answerRequest P authorities ids).2.length < ids.length
  | [], h => absurd rfl h
  | id :: ids, _ => by
    unfold answerRequest
    split
    · simp
    · by_cases hids : ids = []
      · simp [hids, answerRequest]
      · have ih := length_answerRequest_lt authorities hids
        rw [List.length_cons]
        omega

theorem Cleared.noticeTicket (h : p.Cleared) (signer : Option HashedId8) (own : HashedId8) :
    ({ p with signerDigest := signer } : HeaderPolicy).noticeTicket own = { p with signerDigest := some own } := by
  obtain ⟨h1, h2, h3, h4⟩ := h
  cases p
  simp only at h1 h2 h3 h4
  subst h1 h2 h3 h4
  unfold HeaderPolicy.noticeTicket
  split_ifs with hs
  · simp only at hs
    rw [hs]
  · rfl

theorem prepareHeader_congr {q : HeaderPolicy} (h : q.noticeTicket ticket.digest = p.noticeTicket ticket.digest) :
    q.prepareHeader authorities ticket now position request = p.prepareHeader authorities ticket now
      position request := by
  unfold prepareHeader
  rw [h]

theorem Cleared.sameChoice (h : p.Cleared) (own : HashedId8) : SameChoice P p { p with signerDigest := some own } := by
  intro authorities ticket now position request
  have hq := h.noticeTicket (some own) ticket.digest
  have hp := h.noticeTicket p.signerDigest ticket.digest
  rw [prepareHeader_congr (hq.trans hp.symm)]

theorem Unmoved.harmless (h : p.Unmoved ticket.digest now request) :
    Kept p (p.prepareHeader authorities ticket now position request).2 ∧
      SameChoice P p (p.prepareHeader authorities ticket now position request).2 := by
  unfold Unmoved at h
  cases hk : request.messageClass with
  | none =>
    rw [hk] at h
    rw [(prepareHeader_classless hk).1]
    rcases h with h | h
    · rw [noticeTicket_of_eq h]
      exact ⟨.refl p, .refl p⟩
    · have hp := h.noticeTicket p.signerDigest ticket.digest
      have hp' : p.noticeTicket ticket.digest = { p with signerDigest := some ticket.digest } := hp
      rw [hp']
      exact ⟨⟨rfl, rfl, rfl, rfl, rfl, rfl, rfl⟩, h.sameChoice ticket.digest⟩
  | some k =>
    rw [hk] at h
    obtain ⟨hsigner, hdue, hqueues⟩ := h
    have hnotice := noticeTicket_of_eq hsigner
    have hsame : (p.prepareHeader authorities ticket now position request).2 = p := by
      rw [(prepareHeader_not_due authorities position hk (by rw [hnotice]; exact hdue)).2, hnotice]
      cases k with
      | cam =>
        obtain ⟨hin, hout⟩ := hqueues rfl
        cases p with
        | mk _ _ incoming outgoing _ _ _ _ =>
          cases incoming
          cases outgoing
          simp only at hin hout
          subst hin hout
          rfl
      | vam | generic => rfl
    rw [hsame]
    exact ⟨.refl p, .refl p⟩

theorem cleared_of_kept (h : Kept p (p.noticeTicket own)) (hne : p.signerDigest ≠ some own) : p.Cleared := by
  have hnotice : p.noticeTicket own = { p.resetAfterIdentifierChange with signerDigest := some own } := if_neg hne
  rw [hnotice] at h
  exact ⟨h.camLastCertificate.symm, h.camCertificateRequested.symm, h.vamLastCertificate.symm,
    h.genericLastCertificate.symm⟩

theorem not_due_of_harmless (hk : request.messageClass = some k)
    (hkept : Kept p (p.prepareHeader authorities ticket now position request).2)
    (hsame : SameChoice P p (p.prepareHeader authorities ticket now position request).2) :
    (p.noticeTicket ticket.digest).certificateDue ticket.digest now request k = false := by
  by_contra hdue
  obtain ⟨hcert, hre⟩ := prepareHeader_due authorities position hk
    (eq_true_of_ne_false hdue)
  have hsd : (p.prepareHeader authorities ticket now position request).2.signerDigest = some ticket.digest :=
    hre.signerDigest.trans (p.signerDigest_noticeTicket ticket.digest)
  have hpend : k = .cam → (p.prepareHeader authorities ticket now position request).2.incomingRequests.isPending
      (truncate ticket.digest) = false := by
    intro hcam
    have hin := hre.incoming
    rw [if_pos hcam, hkept.incomingRequests] at hin
    rw [hkept.incomingRequests]
    by_contra hp
    have hp' : (p.noticeTicket ticket.digest).incomingRequests.isPending (truncate ticket.digest) = true := by
      rw [noticeTicket_requests]
      exact eq_true_of_ne_false hp
    rw [noticeOwnRequest, if_pos hp', noticeTicket_requests] at hin
    exact PeerRequestTracker.discardRequest_ne (eq_true_of_ne_false hp) hin.symm
  have hagain := hre.due hpend
  rw [← noticeTicket_of_eq hsd] at hagain
  have hdigest := (prepareHeader_not_due authorities position hk hagain).1
  rw [hsame authorities ticket now position request, hcert] at hdigest
  exact absurd hdigest (by simp)

theorem harmless_iff (p : HeaderPolicy) (authorities : List Certificate) (ticket : OwnTicket P) (now : TimePoint)
    (position : PositionFix) (request : SignRequest) :
    (Kept p (p.prepareHeader authorities ticket now position request).2 ∧
    SameChoice P p (p.prepareHeader authorities ticket now position request).2) ↔
      p.Unmoved ticket.digest now request := by
  refine ⟨fun ⟨hkept, hsame⟩ => ?_, fun h => h.harmless⟩
  unfold Unmoved
  cases hk : request.messageClass with
  | none =>
    rw [(prepareHeader_classless hk).1] at hkept
    by_cases hs : p.signerDigest = some ticket.digest
    · exact .inl hs
    · exact .inr (cleared_of_kept hkept hs)
  | some k =>
    have hdue := not_due_of_harmless hk hkept hsame
    have hs := signerDigest_of_not_due hdue
    rw [(prepareHeader_not_due authorities position hk hdue).2, noticeTicket_of_eq hs] at hkept
    rw [noticeTicket_of_eq hs] at hdue
    refine ⟨hs, hdue, fun hcam => ?_⟩
    subst hcam
    have hin := congrArg PeerRequestTracker.fifo hkept.incomingRequests
    have hout := congrArg PeerRequestTracker.fifo hkept.outgoingRequests
    refine ⟨?_, hout.symm⟩
    by_contra hne
    have hlt := length_answerRequest_lt (P := P) authorities hne
    exact absurd (congrArg List.length hin) hlt.ne

end HeaderPolicy

/-! ### The entity -/

namespace SecurityEntity

variable {P : Platform}

theorem encapsulatePacket_policy (s : SecurityEntity P) (request : SignRequest) :
    (s.encapsulatePacket request).2.receiver.policy =
      match s.own with
      | none => s.receiver.policy
      | some ticket => if s.changePending then s.receiver.policy else (s.prepare ticket request).2 := by
  unfold encapsulatePacket
  cases s.own with
  | none => rfl
  | some ticket =>
    by_cases hp : s.changePending = true
    · simp only [if_pos hp]
    · simp only [if_neg hp]
      have hu := concludeSigning_uncounted (s.sign ticket request)
      exact congrArg (fun u => u.receiver.policy) hu

/-- **A refused signature leaves no trace** in the header policy exactly if it
did not get as far as the header, or its header is unmoved. -/
theorem refused_harmless_iff (s : SecurityEntity P) (request : SignRequest) {error : SignConfirmError}
    (_ : (s.encapsulatePacket request).1 = .error error) :
    (s.receiver.policy.Kept (s.encapsulatePacket request).2.receiver.policy ∧
        HeaderPolicy.SameChoice P s.receiver.policy (s.encapsulatePacket request).2.receiver.policy) ↔
      ∀ ticket, s.own = some ticket → s.changePending = false →
        s.receiver.policy.Unmoved ticket.digest s.now request := by
  rw [encapsulatePacket_policy]
  cases hown : s.own with
  | none => exact ⟨fun _ ticket ht => absurd ht (by simp), fun _ => ⟨.refl _, .refl _⟩⟩
  | some ticket =>
    by_cases hp : s.changePending = true
    · simp only [if_pos hp]
      refine ⟨fun _ _ _ hf => absurd (hp.symm.trans hf) (by simp), fun _ => ⟨.refl _, .refl _⟩⟩
    · simp only [if_neg hp]
      have hiff := s.receiver.policy.harmless_iff s.receiver.verifier.base.issuers.trust.authorities ticket s.now
        s.receiver.verifier.base.position request
      refine ⟨fun h ticket' ht _ => ?_, fun h => ?_⟩
      · obtain rfl := Option.some.inj ht
        exact hiff.mp h
      · exact hiff.mpr (h ticket rfl (eq_false_of_ne_true hp))

/-- A station whose ticket permits CAMs only. -/
def sampleRefuser : SecurityEntity markedPlatform := { sampleEntity {} with own := some (Signer.sampleOwnTicket 4) }

/-- A VAM is refused while its timer runs and peers wait for certificates. -/
theorem refused_harmless_vam :
    let policy : HeaderPolicy := {
      vamLastCertificate := some (sampleRefuser.now - 999999), signerDigest := some (Vector.replicate 8 4)
      incomingRequests := { fifo := [Vector.replicate 3 7] }, outgoingRequests := { fifo := [Vector.replicate 3 8] } }
    let s := { sampleRefuser with receiver := { sampleRefuser.receiver with policy } }
    let r := s.encapsulatePacket { plainMessage := [], itsAid := Aid.VRU }
    r.1 = .error .noCertificate ∧ policy.Kept r.2.receiver.policy ∧
      HeaderPolicy.SameChoice markedPlatform policy r.2.receiver.policy := by
  intro policy s r
  refine ⟨rfl, (refused_harmless_iff s { plainMessage := [], itsAid := Aid.VRU } rfl).mpr fun ticket hown _ => ?_⟩
  obtain rfl : Signer.sampleOwnTicket 4 = ticket := Option.some.inj hown
  exact ⟨rfl, by decide +kernel, nofun⟩

/-- A VAM is refused: its timer runs from now on. -/
theorem refused_signature_moves : ¬ ∀ (P : Platform) (s : SecurityEntity P) (request : SignRequest)
    (error : SignConfirmError), (s.encapsulatePacket request).1 = .error error →
      s.receiver.policy.Kept (s.encapsulatePacket request).2.receiver.policy := by
  intro h
  have hkept := h markedPlatform sampleRefuser { plainMessage := [], itsAid := Aid.VRU } .noCertificate rfl
  exact absurd hkept.vamLastCertificate (by decide +kernel)

end SecurityEntity
end VanetzaIdf.V3
