/-
# Digests that receivers can resolve

A message of a class with an inclusion timer should carry the digest only shortly
after one of its class that carried the certificate. A timer that is set says just
that, for the signer that the timers refer to (`Witnessed`, `digest_resolvable`).
If the pool switches to another ticket and back and no message is prepared in
between, the policy does not notice (`switch_unnoticed`).
-/
import VanetzaIdf.Lib.Machine
import VanetzaIdf.V3.ChainValidator
import VanetzaIdf.V3.HeaderPolicy

namespace VanetzaIdf.V3

open Lib Option

/-! ### Classes of messages -/

/-- The kinds of messages that have an inclusion timer. -/
inductive MessageClass
  | cam
  | vam
  | generic (aid : ItsAid)
deriving DecidableEq, Repr

/-- The class a request falls into; a self-signed message and a DENM have none. -/
def SignRequest.messageClass (request : SignRequest) : Option MessageClass :=
  if request.selfSigned then none
  else if request.itsAid = Aid.CA then some .cam
  else if request.itsAid = Aid.DEN then none
  else if request.itsAid = Aid.VRU then some .vam
  else some (.generic request.itsAid)

/-- How long the certificate may be ago when a message carries the digest. -/
def SignRequest.inclusionInterval (request : SignRequest) : Duration :=
  if request.itsAid = Aid.VRU ∧ request.contextInformation = vamCluster then halfSecond else seconds 1

namespace HeaderPolicy

def timer (p : HeaderPolicy) : MessageClass → Option TimePoint
  | .cam => p.camLastCertificate
  | .vam => p.vamLastCertificate
  | .generic aid => p.genericLastCertificate aid

variable {P : Platform} {p : HeaderPolicy} {authorities : List Certificate} {ticket : OwnTicket P} {now : TimePoint}
  {position : PositionFix} {request : SignRequest} {header : HeaderInfo} {k : MessageClass} {t : TimePoint}

theorem timer_reset (p : HeaderPolicy) (k : MessageClass) : p.resetAfterIdentifierChange.timer k = none := by
  cases k <;> rfl

theorem timer_noticeTicket {d : HashedId8} (h : (p.noticeTicket d).timer k = some t) :
    p.timer k = some t ∧ p.signerDigest = some d := by
  unfold noticeTicket at h
  split_ifs at h with hd
  · exact ⟨h, hd⟩
  · have hnone : timer { p.resetAfterIdentifierChange with signerDigest := some d } k = none := by
      cases k <;> rfl
    exact absurd (hnone.symm.trans h) (by simp)

theorem signerDigest_noticeTicket (p : HeaderPolicy) (d : HashedId8) : (p.noticeTicket d).signerDigest = some d := by
  unfold noticeTicket
  split_ifs with hd
  · exact hd
  · rfl

theorem not_elapsed {last : Option TimePoint} {interval : Duration} (h : elapsed last now interval = false) :
    ∃ t, last = some t ∧ now - t < interval := by
  cases last with
  | none => simp [elapsed] at h
  | some t => exact ⟨t, rfl, by simpa [elapsed] using h⟩

/-! ### What one message does -/

/-- The message of class `k` carries the certificate and restarts its timer, or
carries the digest, which its timer allows, and the timers stay. -/
inductive Included (p : HeaderPolicy) (ticket : OwnTicket P) (now : TimePoint) (interval : Duration) (k : MessageClass)
    (r : Prepared × HeaderPolicy) : Prop
  | certificate (hs : r.1.signer = .certificate [ticket.certificate]) (hk : r.2.timer k = some now)
      (hd : r.2.signerDigest = p.signerDigest) (ho : ∀ k' ≠ k, r.2.timer k' = p.timer k')
  | digest (t : TimePoint) (hs : r.1.signer = .digest ticket.digest) (ht : p.timer k = some t)
      (hlt : now - t < interval) (hd : r.2.signerDigest = p.signerDigest) (ho : ∀ k', r.2.timer k' = p.timer k')

theorem noticeOwnRequest_frame (p : HeaderPolicy) (d : HashedId8) :
    (p.noticeOwnRequest d).signerDigest = p.signerDigest ∧ ∀ k, (p.noticeOwnRequest d).timer k = p.timer k := by
  unfold noticeOwnRequest
  split_ifs
  · exact ⟨rfl, fun k => by cases k <;> rfl⟩
  · exact ⟨rfl, fun _ => rfl⟩

/-- The next message of class `k` carries the certificate. -/
def certificateDue (p : HeaderPolicy) (own : HashedId8) (now : TimePoint) (request : SignRequest) : MessageClass → Bool
  | .cam => p.camCertificateRequested || p.incomingRequests.isPending (truncate own) ||
      elapsed p.camLastCertificate now (seconds 1)
  | .vam =>
    if request.contextInformation = vamCluster then elapsed p.vamLastCertificate now halfSecond
    else p.newCamSigner || elapsed p.vamLastCertificate now (seconds 1)
  | .generic aid => elapsed (p.genericLastCertificate aid) now (seconds 1)

def restarted (p : HeaderPolicy) (own : HashedId8) (now : TimePoint) : MessageClass → HeaderPolicy
  | .cam =>
    { p.noticeOwnRequest own with
      camLastCertificate := some now
      camCertificateRequested := false
      outgoingRequests := (p.noticeOwnRequest own).outgoingRequests.all.2 }
  | .vam => { p with vamLastCertificate := some now, newCamSigner := false }
  | .generic aid => { p with genericLastCertificate := Function.update p.genericLastCertificate aid (some now) }

/-- The policy after one that carries the digest. A CAM takes every own request
out, and those of peers up to the one it answers. -/
def answered (p : HeaderPolicy) (P : Platform) (authorities : List Certificate) : MessageClass → HeaderPolicy
  | .cam =>
    { p with
      outgoingRequests := p.outgoingRequests.all.2
      incomingRequests := { p.incomingRequests with fifo := (answerRequest P authorities p.incomingRequests.fifo).2 } }
  | _ => p

theorem noticeOwnRequest_of_not_pending {own : HashedId8} (h : p.incomingRequests.isPending (truncate own) = false) :
    p.noticeOwnRequest own = p := by
  rw [noticeOwnRequest, if_neg (by simp [h])]

theorem cam_full (p : HeaderPolicy) (own : HashedId8) (now : TimePoint) (request : SignRequest) :
    ((p.noticeOwnRequest own).camCertificateRequested ||
      elapsed (p.noticeOwnRequest own).camLastCertificate now (seconds 1)) =
        p.certificateDue own now request .cam := by
  unfold noticeOwnRequest certificateDue
  by_cases hpend : p.incomingRequests.isPending (truncate own) = true <;> simp [hpend]

theorem prepareHeader_eq (hk : request.messageClass = some k) :
    p.prepareHeader authorities ticket now position request =
      match k with
      | .cam => (p.noticeTicket ticket.digest).cam authorities ticket now
          { psid := request.itsAid, generationTime := some (convertTime64 now) }
      | .vam => (p.noticeTicket ticket.digest).vam request ticket now
          { psid := request.itsAid, generationTime := some (convertTime64 now) }
      | .generic aid => (p.noticeTicket ticket.digest).generic aid ticket now
          { psid := request.itsAid, generationTime := some (convertTime64 now) } := by
  unfold SignRequest.messageClass at hk
  unfold prepareHeader
  split_ifs at hk with hself hca hden hvru
  · obtain rfl := some.inj hk
    simp only [if_neg hself, if_pos hca]
  · obtain rfl := some.inj hk
    simp only [if_neg hself, if_neg hca, if_neg hden, if_pos hvru]
  · obtain rfl := some.inj hk
    simp only [if_neg hself, if_neg hca, if_neg hden, if_neg hvru]

theorem inclusionInterval_eq (hk : request.messageClass = some k) : request.inclusionInterval =
    match k with
    | .vam => if request.contextInformation = vamCluster then halfSecond else seconds 1
    | _ => seconds 1 := by
  unfold SignRequest.messageClass at hk
  unfold SignRequest.inclusionInterval
  split_ifs at hk with hself hca hden hvru
  · obtain rfl := some.inj hk
    rw [if_neg]
    rw [hca]
    exact fun h => absurd h.1 (by decide)
  · obtain rfl := some.inj hk
    simp only [and_iff_right hvru]
  · obtain rfl := some.inj hk
    exact if_neg fun h => hvru h.1

theorem prepareHeader_cases (p : HeaderPolicy) (authorities : List Certificate) (ticket : OwnTicket P) (now : TimePoint)
    (position : PositionFix) (hk : request.messageClass = some k) :
    let q := p.noticeTicket ticket.digest
    let r := p.prepareHeader authorities ticket now position request
    (q.certificateDue ticket.digest now request k = true ∧ r.1.signer = .certificate [ticket.certificate] ∧
        r.2 = q.restarted ticket.digest now k) ∨
      (q.certificateDue ticket.digest now request k = false ∧ r.1.signer = .digest ticket.digest ∧
        r.2 = q.answered P authorities k) := by
  intro q r
  have hr : r = _ := prepareHeader_eq hk
  cases hdue : q.certificateDue ticket.digest now request k with
  | true =>
    refine .inl ⟨rfl, ?_⟩
    cases k with
    | cam =>
      have hcam := hr.trans (if_pos ((q.cam_full ticket.digest now request).trans hdue))
      rw [hcam]
      exact ⟨rfl, rfl⟩
    | vam | generic =>
      rw [hr.trans (if_pos hdue)]
      exact ⟨rfl, rfl⟩
  | false =>
    refine .inr ⟨rfl, ?_⟩
    cases k with
    | cam =>
      have hcam := hr.trans (if_neg (ne_true_of_eq_false ((q.cam_full ticket.digest now request).trans hdue)))
      simp only [certificateDue, Bool.or_eq_false_iff] at hdue
      rw [hcam, noticeOwnRequest_of_not_pending hdue.1.2]
      exact ⟨rfl, rfl⟩
    | vam | generic =>
      rw [hr.trans (if_neg (ne_true_of_eq_false hdue))]
      exact ⟨rfl, rfl⟩

theorem timer_of_not_due {own : HashedId8} (hk : request.messageClass = some k)
    (h : p.certificateDue own now request k = false) :
    ∃ t, p.timer k = some t ∧ now - t < request.inclusionInterval := by
  rw [inclusionInterval_eq hk]
  cases k with
  | cam =>
    simp only [certificateDue, Bool.or_eq_false_iff] at h
    exact not_elapsed h.2
  | vam =>
    simp only [certificateDue] at h ⊢
    split_ifs at h ⊢
    · exact not_elapsed h
    · exact not_elapsed (Bool.or_eq_false_iff.mp h).2
  | generic aid => exact not_elapsed h

theorem timer_restarted (p : HeaderPolicy) (own : HashedId8) (now : TimePoint) (k : MessageClass) :
    (p.restarted own now k).timer k = some now ∧
    (p.restarted own now k).signerDigest = p.signerDigest ∧ ∀ k' ≠ k, (p.restarted own now k).timer k' =
      p.timer k' := by
  obtain ⟨hdig, hown⟩ := p.noticeOwnRequest_frame own
  cases k with
  | cam =>
    refine ⟨rfl, hdig, fun k' hk' => ?_⟩
    rw [← hown k']
    cases k' with
    | cam => exact absurd rfl hk'
    | vam | generic => rfl
  | vam =>
    refine ⟨rfl, rfl, fun k' hk' => ?_⟩
    cases k' with
    | cam | generic => rfl
    | vam => exact absurd rfl hk'
  | generic aid =>
    have hset := Function.update_self aid (some now) p.genericLastCertificate
    refine ⟨hset, rfl, fun k' hk' => ?_⟩
    cases k' with
    | cam | vam => rfl
    | generic aid' =>
      have hne : aid' ≠ aid := fun h => hk' (h ▸ rfl)
      exact Function.update_of_ne hne (some now) p.genericLastCertificate

theorem prepareHeader_included (hk : request.messageClass = some k) :
    Included (p.noticeTicket ticket.digest) ticket now request.inclusionInterval k
      (p.prepareHeader authorities ticket now position request) := by
  rcases p.prepareHeader_cases authorities ticket now position hk with ⟨-, hs, hr⟩ | ⟨hdue, hs, hr⟩
  · obtain ⟨hset, hdig, hother⟩ := (p.noticeTicket ticket.digest).timer_restarted ticket.digest now k
    rw [← hr] at hset hdig hother
    exact .certificate hs hset hdig hother
  · obtain ⟨t, ht, hlt⟩ := timer_of_not_due hk hdue
    refine .digest t hs ht hlt ?_ fun k' => ?_
    · rw [hr]
      cases k <;> rfl
    · rw [hr]
      cases k <;> cases k' <;> rfl

theorem prepareHeader_classless (hk : request.messageClass = none) :
    (p.prepareHeader authorities ticket now position request).2 = p.noticeTicket ticket.digest ∧
      ∀ d, (p.prepareHeader authorities ticket now position request).1.signer ≠ .digest d := by
  unfold SignRequest.messageClass at hk
  unfold prepareHeader
  split_ifs at hk with hself hca hden
  · simp [hself]
  · simp [hself, if_neg hca, if_pos hden, denm]

end HeaderPolicy

/-! ### Runs -/

/-- The header policy with what it reads of the rest: the current ticket of the
pool and the clock. -/
structure Signer (P : Platform) where
  policy : HeaderPolicy := {}
  ticket : OwnTicket P
  now : TimePoint

/-- The calls of the policy, and what happens around it. -/
inductive SignerEvent (P : Platform)
  | advance (elapsed : ℕ)
  | switchTicket (ticket : OwnTicket P)
  | prepareHeader (authorities : List Certificate) (position : PositionFix) (request : SignRequest)
  | requestUnrecognizedCertificate (id : HashedId8)
  | requestCertificate
  | enqueueP2pRequest (id : HashedId3)
  | discardP2pRequest (id : HashedId3)
  | reportNewCamSigner
  | resetAfterIdentifierChange

namespace Signer

variable {P : Platform}

def withPolicy (s : Signer P) (policy : HeaderPolicy) : Signer P := { s with policy }

/-- `prepare_header` for the current ticket. -/
def prepare (s : Signer P) (authorities : List Certificate) (position : PositionFix) (request : SignRequest) :
    Prepared × HeaderPolicy :=
  s.policy.prepareHeader authorities s.ticket s.now position request

def step (s : Signer P) : SignerEvent P → Option Prepared × Signer P
  | .advance elapsed => (none, { s with now := s.now + elapsed })
  | .switchTicket ticket => (none, { s with ticket })
  | .prepareHeader authorities position request =>
    (some (s.prepare authorities position request).1, s.withPolicy (s.prepare authorities position request).2)
  | .requestUnrecognizedCertificate id => (none, s.withPolicy (s.policy.requestUnrecognizedCertificate id))
  | .requestCertificate => (none, s.withPolicy s.policy.requestCertificate)
  | .enqueueP2pRequest id => (none, s.withPolicy (s.policy.enqueueP2pRequest id))
  | .discardP2pRequest id => (none, s.withPolicy (s.policy.discardP2pRequest id))
  | .reportNewCamSigner => (none, s.withPolicy s.policy.reportNewCamSigner)
  | .resetAfterIdentifierChange => (none, s.withPolicy s.policy.resetAfterIdentifierChange)

/-- In the course of the events, no header is prepared for another ticket than
the ones with this digest. -/
def OnlyFor (d : HashedId8) : Signer P → List (SignerEvent P) → Prop :=
  Along step fun s e => ∀ a p r, e = .prepareHeader a p r → s.ticket.digest = d

/-- A message of the class carried the certificate of a ticket with this digest, at the given
time, and no header was prepared for another ticket since. -/
def Witnessed (s₀ : Signer P) (es : List (SignerEvent P)) (k : MessageClass) (t : TimePoint) (d : HashedId8) : Prop :=
  ∃ pre authorities position request post, es = pre ++ .prepareHeader authorities position request :: post ∧
    request.messageClass = some k ∧
    let s := final step s₀ pre
    s.now = t ∧ s.ticket.digest = d ∧ (s.prepare authorities position request).1.signer =
      .certificate [s.ticket.certificate] ∧
    OnlyFor d (s.withPolicy (s.prepare authorities position request).2) post

variable {s₀ s : Signer P} {es : List (SignerEvent P)} {k : MessageClass} {t : TimePoint} {d : HashedId8}

theorem Witnessed.snoc (h : Witnessed s₀ es k t d) {e : SignerEvent P}
    (he : ∀ a p r, e = .prepareHeader a p r → (final step s₀ es).ticket.digest = d) :
    Witnessed s₀ (es ++ [e]) k t d := by
  obtain ⟨pre, authorities, position, request, post, rfl, hk, ht, hd, hs, hpost⟩ := h
  refine ⟨pre, authorities, position, request, post ++ [e], by simp, hk, ht, hd, hs, ?_⟩
  refine (along_append step).mpr ⟨hpost, ?_, trivial⟩
  rw [final_append] at he
  exact he

theorem timer_of_quiet {e : SignerEvent P} (he : ∀ a p r, e ≠ .prepareHeader a p r)
    (h : (s.step e).2.policy.timer k = some t) :
    s.policy.timer k = some t ∧ (s.step e).2.policy.signerDigest = s.policy.signerDigest := by
  cases e with
  | prepareHeader a p r => exact absurd rfl (he a p r)
  | resetAfterIdentifierChange =>
    have hnone := s.policy.timer_reset k
    exact absurd (hnone.symm.trans h) (by simp)
  | _ => cases k <;> exact ⟨h, rfl⟩

theorem prepare_included (s : Signer P) (authorities : List Certificate) (position : PositionFix)
    {request : SignRequest}
    (hk : request.messageClass = some k) :
    HeaderPolicy.Included (s.policy.noticeTicket s.ticket.digest) s.ticket s.now request.inclusionInterval k
      (s.policy.prepareHeader authorities s.ticket s.now position request) :=
  HeaderPolicy.prepareHeader_included hk

theorem timer_of_prepare {authorities : List Certificate} {position : PositionFix} {request : SignRequest}
    (h : (s.prepare authorities position request).2.timer k = some t) :
    (s.policy.timer k = some t ∧ s.policy.signerDigest = some s.ticket.digest) ∨
      (t = s.now ∧ request.messageClass = some k ∧
        (s.prepare authorities position request).1.signer = .certificate [s.ticket.certificate]) := by
  unfold prepare at h ⊢
  cases hc : request.messageClass with
  | none =>
    rw [(HeaderPolicy.prepareHeader_classless hc).1] at h
    exact .inl (HeaderPolicy.timer_noticeTicket h)
  | some k' =>
    cases s.prepare_included authorities position hc with
    | certificate hs hk _ ho =>
      by_cases hkk : k = k'
      · subst hkk
        exact .inr ⟨some.inj (h.symm.trans hk), rfl, hs⟩
      · rw [ho k hkk] at h
        exact .inl (HeaderPolicy.timer_noticeTicket h)
    | digest _ _ _ _ _ ho =>
      rw [ho k] at h
      exact .inl (HeaderPolicy.timer_noticeTicket h)

theorem signerDigest_prepare (s : Signer P) (authorities : List Certificate) (position : PositionFix)
    (request : SignRequest) : (s.prepare authorities position request).2.signerDigest = some s.ticket.digest := by
  have hnotice := s.policy.signerDigest_noticeTicket s.ticket.digest
  unfold prepare
  cases hc : request.messageClass with
  | none => rw [(HeaderPolicy.prepareHeader_classless hc).1, hnotice]
  | some k =>
    cases s.prepare_included authorities position hc with
    | certificate _ _ hd | digest _ _ _ _ hd => exact hd.trans hnotice

/-- What a timer that is set says of the run so far. -/
structure Recorded (s₀ : Signer P) (es : List (SignerEvent P)) (s : Signer P) : Prop where
  past : ∀ k t, s.policy.timer k = some t → t ≤ s.now
  witnessed : ∀ k t, s.policy.timer k = some t → ∃ d, s.policy.signerDigest = some d ∧ Witnessed s₀ es k t d

theorem Recorded.of_step (h : Recorded s₀ es (final step s₀ es)) (e : SignerEvent P) :
    Recorded s₀ (es ++ [e]) ((final step s₀ es).step e).2 := by
  by_cases he : ∃ a p r, e = .prepareHeader a p r
  · obtain ⟨authorities, position, request, rfl⟩ := he
    refine ⟨fun k t ht => ?_, fun k t ht => ?_⟩
    · rcases timer_of_prepare ht with ⟨ht, -⟩ | ⟨rfl, -⟩
      · exact h.past k t ht
      · exact le_rfl
    · refine ⟨(final step s₀ es).ticket.digest, signerDigest_prepare _ _ _ _, ?_⟩
      rcases timer_of_prepare ht with ⟨ht, hd⟩ | ⟨rfl, hk, hs⟩
      · obtain ⟨d, hd', hw⟩ := h.witnessed k t ht
        obtain rfl := some.inj (hd.symm.trans hd')
        exact hw.snoc fun _ _ _ _ => rfl
      · exact ⟨es, authorities, position, request, [], rfl, hk, rfl, rfl, hs, trivial⟩
  · have hquiet : ∀ a p r, e ≠ .prepareHeader a p r := fun a p r hr => he ⟨a, p, r, hr⟩
    refine ⟨fun k t ht => ?_, fun k t ht => ?_⟩
    · have hpast := h.past k t (timer_of_quiet hquiet ht).1
      have hnow : (final step s₀ es).now ≤ ((final step s₀ es).step e).2.now := by
        cases e with
        | advance elapsed =>
          exact Int.le_add_of_nonneg_right (Int.natCast_nonneg elapsed)
        | _ => exact le_rfl
      exact le_trans hpast hnow
    · obtain ⟨ht', hd⟩ := timer_of_quiet hquiet ht
      obtain ⟨d, hd', hw⟩ := h.witnessed k t ht'
      exact ⟨d, hd.trans hd', hw.snoc fun a p r hr => absurd hr (hquiet a p r)⟩

theorem recorded (ticket : OwnTicket P) (now : TimePoint) (es : List (SignerEvent P)) :
    Recorded ⟨{}, ticket, now⟩ es (final step ⟨{}, ticket, now⟩ es) := by
  refine final_induction step ?_ (fun es e h => h.of_step e) es
  have hnone : ∀ k, HeaderPolicy.timer {} k = none := fun k => by cases k <;> rfl
  refine ⟨fun k t ht => ?_, fun k t ht => ?_⟩
  · exact absurd ((hnone k).symm.trans ht) (by simp)
  · exact absurd ((hnone k).symm.trans ht) (by simp)

/-- **A digest is always resolvable.** An earlier message of the class carried the certificate,
less than the inclusion interval ago and with no header prepared for another ticket since. -/
theorem digest_resolvable (ticket : OwnTicket P) (now : TimePoint) (es : List (SignerEvent P))
    (authorities : List Certificate) (position : PositionFix) (request : SignRequest) :
    let s₀ : Signer P := ⟨{}, ticket, now⟩
    let s := final step s₀ es
    (∀ d, (s.prepare authorities position request).1.signer = .digest d →
      d = s.ticket.digest ∧ ∃ k t, request.messageClass = some k ∧ Witnessed s₀ es k t d ∧
        t ≤ s.now ∧ s.now - t < request.inclusionInterval) ∧
    ∀ k, request.messageClass = some k →
      (∀ pre a p r post, es = pre ++ .prepareHeader a p r :: post → r.messageClass = some k →
        ¬ OnlyFor s.ticket.digest (final step s₀ pre) (.prepareHeader a p r :: post)) →
      (s.prepare authorities position request).1.signer = .certificate [s.ticket.certificate] := by
  intro s₀ s
  have hrec : Recorded s₀ es s := recorded ticket now es
  have hdigest : ∀ d, (s.prepare authorities position request).1.signer = .digest d →
      d = s.ticket.digest ∧ ∃ k t, request.messageClass = some k ∧ Witnessed s₀ es k t d ∧
        t ≤ s.now ∧ s.now - t < request.inclusionInterval := by
    intro d hd
    unfold prepare at hd
    cases hc : request.messageClass with
    | none => exact absurd hd ((HeaderPolicy.prepareHeader_classless hc).2 d)
    | some k =>
      cases s.prepare_included authorities position hc with
      | certificate hs _ _ _ => exact absurd (hs.symm.trans hd) (by simp)
      | digest t hs ht hlt _ _ =>
        obtain rfl : s.ticket.digest = d := by simpa using hs.symm.trans hd
        obtain ⟨ht, hsd⟩ := HeaderPolicy.timer_noticeTicket ht
        obtain ⟨d, hd', hw⟩ := hrec.witnessed k t ht
        obtain rfl := some.inj (hsd.symm.trans hd')
        exact ⟨rfl, k, t, rfl, hw, hrec.past k t ht, hlt⟩
  refine ⟨hdigest, fun k hk hfirst => ?_⟩
  cases s.prepare_included authorities position hk with
  | certificate hs _ _ _ => exact hs
  | digest t hs _ _ _ _ =>
    -- a digest would rest on an earlier message for this ticket
    obtain ⟨-, k', t', hk', hw, -⟩ := hdigest _ hs
    obtain rfl := some.inj (hk.symm.trans hk')
    obtain ⟨pre, a, p, r, post, hes, hr, -, hd, -, hpost⟩ := hw
    exact absurd ⟨fun _ _ _ _ => hd, hpost⟩ (hfirst pre a p r post hes hr)

def sampleOwnTicket (mark : UInt8) : OwnTicket markedPlatform where
  certificate := sampleIssued mark (.sha256AndDigest (Vector.replicate 8 2)) false ⟨0, .hours, 2⟩ none
  key := ⟨.nistP256, []⟩
  digest := Vector.replicate 8 mark
  digest_eq := rfl

def sampleHeader : SignerEvent markedPlatform := .prepareHeader [] ⟨0, 0⟩ { plainMessage := [], itsAid := Aid.CA }

theorem digest_resolvable_second :
    let s₀ : Signer markedPlatform := ⟨{}, sampleOwnTicket 4, 0⟩
    let es : List (SignerEvent markedPlatform) := [sampleHeader, .advance 999999]
    ((final step s₀ es).prepare [] ⟨0, 0⟩ { plainMessage := [], itsAid := Aid.CA }).1.signer =
      .digest (Vector.replicate 8 4) ∧ ∃ t, Witnessed s₀ es .cam t (Vector.replicate 8 4) :=
  have hsigner : ((final step (⟨{}, sampleOwnTicket 4, 0⟩ : Signer markedPlatform)
      [sampleHeader, .advance 999999]).prepare [] ⟨0, 0⟩ { plainMessage := [], itsAid := Aid.CA }).1.signer =
        .digest (Vector.replicate 8 4) := by
    decide +kernel
  have hres := (digest_resolvable (sampleOwnTicket 4) 0 [sampleHeader, .advance 999999] [] ⟨0, 0⟩
    { plainMessage := [], itsAid := Aid.CA }).1 _ hsigner
  ⟨hsigner, hres.2.elim fun _ hk => hk.elim fun t ht => ⟨t, some.inj ht.1 ▸ ht.2.1⟩⟩

/-- The pool switches to another ticket and back between two CAMs: the second
one carries the digest, and no CAM came after the last switch. -/
theorem switch_unnoticed : ¬ ∀ (P : Platform) (ticket : OwnTicket P) (now : TimePoint) (es : List (SignerEvent P))
    (authorities : List Certificate) (position : PositionFix) (request : SignRequest) (k : MessageClass)
    (d : HashedId8),
    request.messageClass = some k →
    ((final step ⟨{}, ticket, now⟩ es).prepare authorities position request).1.signer = .digest d →
    ∃ (pre : List (SignerEvent P)) (a : List Certificate) (p : PositionFix) (r : SignRequest)
      (post : List (SignerEvent P)), es = pre ++ .prepareHeader a p r :: post ∧ r.messageClass = some k ∧
        ∀ t, .switchTicket t ∉ post := by
  intro h
  obtain ⟨pre, a, p, r, post, hes, -, hno⟩ := h markedPlatform (sampleOwnTicket 4) 0
    [sampleHeader, .switchTicket (sampleOwnTicket 5), .switchTicket (sampleOwnTicket 4)] [] ⟨0, 0⟩
    { plainMessage := [], itsAid := Aid.CA } .cam (Vector.replicate 8 4) rfl (by decide +kernel)
  cases pre with
  | nil =>
    obtain ⟨-, rfl⟩ := List.cons.inj hes
    exact hno (sampleOwnTicket 5) List.mem_cons_self
  | cons x pre =>
    obtain ⟨-, hrest⟩ := List.cons.inj hes
    have hmem : (.prepareHeader a p r : SignerEvent markedPlatform) ∈
        [.switchTicket (sampleOwnTicket 5), .switchTicket (sampleOwnTicket 4)] := by
      rw [hrest]
      exact List.mem_append_right _ List.mem_cons_self
    simp at hmem

end Signer
end VanetzaIdf.V3
