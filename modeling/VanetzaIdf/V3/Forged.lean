/-
# Forged messages

The header of a forged message moves the distribution of certificates, and the
chain of its signer may be remembered. So it shows in what the station sends
(`forged_observed`), unless it brings nothing new (`forged_unobserved`): then it
changes only counters and remembered tickets (`forget_of_harmless`), and states
that are the same up to those answer alike (`step_alike`), since in runs among
certificates with distinct digests remembered tickets are transparent.
-/
import VanetzaIdf.Lib.Machine
import VanetzaIdf.V3.SecurityEntity

namespace VanetzaIdf.V3

open Lib Option

variable {P : Platform}

/-! ### Up to remembered tickets and counters -/

/-- The verifier with nothing remembered. -/
def Verifier.forget (v : Verifier P) : Verifier P := { v with chain := v.chain.forget }

theorem Verifier.forget_validForSigning (v : Verifier P) (c : Certificate) (aid : ItsAid) :
    (v.validForSigning c aid).2.forget = v.forget := by
  show ({ v with chain := (v.chain.validForSigning c aid).2.forget } : Verifier P) = v.forget
  rcases v.chain.validForSigning_cases c aid with h | ⟨digest, -, -, h⟩
  · rw [h]
    rfl
  · rw [h]
    rfl

namespace Receiver

variable {r r' : Receiver P} {data : SignedData} {aid : ItsAid}

def forget (r : Receiver P) : Receiver P := { r with verifier := r.verifier.forget }

@[simp] theorem forget_signingCertificate (r : Receiver P) (data : SignedData) :
    r.forget.signingCertificate data = r.signingCertificate data := rfl

theorem distribute_forget (r : Receiver P) (data : SignedData) (aid : ItsAid) :
    r.forget.distribute data aid = (r.distribute data aid).forget := by
  unfold distribute
  cases data.signer.certificateId P with
  | none | some => split_ifs <;> rfl

theorem askForSigner_forget (r : Receiver P) (data : SignedData) (aid : ItsAid) :
    r.forget.askForSigner data aid = (r.askForSigner data aid).forget := by
  unfold askForSigner
  cases data.signer.certificateId P with
  | none => rfl
  | some digest =>
    dsimp only
    rw [apply_ite forget]
    rfl

theorem askForIssuer_forget (r : Receiver P) (c : Certificate) :
    r.forget.askForIssuer c = (r.askForIssuer c).forget := by
  unfold askForIssuer
  cases c.issuerDigest with
  | none => rfl
  | some aa =>
    dsimp only
    rw [apply_ite forget]
    rfl

theorem keepSigner_forget (r : Receiver P) (data : SignedData) (aid : ItsAid) (c : Certificate)
    (id : Option HashedId8) :
    r.forget.keepSigner data aid c id = (r.keepSigner data aid c id).forget := by
  unfold keepSigner
  cases data.signer.inlineCertificate with
  | none => rfl
  | some _ =>
    cases id with
    | none => rfl
    | some id =>
      dsimp only
      rw [apply_ite forget]
      rfl

theorem verifySignature_forget (r : Receiver P) (data : SignedData) (aid : ItsAid) (c : Certificate)
    (signature : EcdsaSignature) : r.forget.verifySignature data aid c signature =
      ((r.verifySignature data aid c signature).1, (r.verifySignature data aid c signature).2.forget) := by
  unfold verifySignature
  cases c.getPublicKey with
  | none => rfl
  | some key =>
    cases calculateMessageHash P data.hashId data.tbsData c with
    | none => rfl
    | some hash =>
      dsimp only
      split_ifs
      · rw [keepSigner_forget]
      · rfl

theorem judge_forget (r : Receiver P) (data : SignedData) (aid : ItsAid) (c : Certificate) (signature : EcdsaSignature)
    (verdict : Option Verdict) : r.forget.judge data aid c signature verdict =
      ((r.judge data aid c signature verdict).1, (r.judge data aid c signature verdict).2.forget) := by
  unfold judge
  split
  · rfl
  · exact verifySignature_forget _ _ _ _ _
  · rw [askForIssuer_forget]

theorem judge_alike (h : r.forget = r'.forget) (data : SignedData) (aid : ItsAid) (c : Certificate)
    (signature : EcdsaSignature) (verdict : Option Verdict) :
    (r.judge data aid c signature verdict).1 = (r'.judge data aid c signature verdict).1 ∧
      (r.judge data aid c signature verdict).2.forget = (r'.judge data aid c signature verdict).2.forget := by
  have hj := judge_forget r data aid c signature verdict
  rw [h, judge_forget r'] at hj
  obtain ⟨h1, h2⟩ := Prod.mk.inj hj
  exact ⟨h1.symm, h2.symm⟩

/-- The verdict on the signing certificate is one that does not depend on what
is remembered. -/
def Transparent (r : Receiver P) (data : SignedData) (aid : ItsAid) : Prop :=
  ∀ c, (r.distribute data aid).signingCertificate data = some c →
    r.verifier.chain.verdict c aid = r.verifier.chain.forget.verdict c aid

theorem verifySigned_forget (h : r.Transparent data aid) :
    (r.forget.verifySigned data aid).1 = (r.verifySigned data aid).1 ∧
      (r.forget.verifySigned data aid).2.forget = (r.verifySigned data aid).2.forget := by
  unfold verifySigned
  cases data.signature.toEcdsa with
  | none => exact ⟨rfl, rfl⟩
  | some signature =>
    simp only [distribute_forget, forget_signingCertificate]
    cases hc : (r.distribute data aid).signingCertificate data with
    | none =>
      rw [askForSigner_forget]
      exact ⟨rfl, rfl⟩
    | some c =>
      -- both judge on the same verdict, in states that are the same when forgotten
      have hver : (r.distribute data aid).verifier = r.verifier := (distribute_frame r data aid).1
      have hfver : (r.distribute data aid).forget.verifier = r.verifier.forget := congrArg Verifier.forget hver
      have hverdict : (r.verifier.forget.validForSigning c aid).1 = (r.verifier.validForSigning c aid).1 :=
        (h c hc).symm
      simp only [hver, hfver, hverdict]
      refine judge_alike ?_ _ _ _ _ _
      show ({ r.distribute data aid with
        verifier := (r.verifier.forget.validForSigning c aid).2.forget } : Receiver P) =
        { r.distribute data aid with verifier := (r.verifier.validForSigning c aid).2.forget }
      rw [Verifier.forget_validForSigning, Verifier.forget_validForSigning]
      rfl

theorem verifySigned_alike (h : r.forget = r'.forget) (hr : r.Transparent data aid) (hr' : r'.Transparent data aid) :
    (r.verifySigned data aid).1 = (r'.verifySigned data aid).1 ∧
      (r.verifySigned data aid).2.forget = (r'.verifySigned data aid).2.forget := by
  obtain ⟨h1, h2⟩ := verifySigned_forget hr
  obtain ⟨h1', h2'⟩ := verifySigned_forget hr'
  rw [h] at h1 h2
  exact ⟨h1.symm.trans h1', h2.symm.trans h2'⟩

end Receiver

namespace SecurityEntity

variable {s t : SecurityEntity P} {α : Type}

/-- The entity up to remembered tickets and counters. -/
def forget (s : SecurityEntity P) : SecurityEntity P := { s with receiver := s.receiver.forget, stats := {} }

/-- The same answer, and states that are the same up to what `forget` drops. -/
structure Alike (a b : α × SecurityEntity P) : Prop where
  answer : a.1 = b.1
  state : a.2.forget = b.2.forget

theorem Alike.of_forget {f : SecurityEntity P → α × SecurityEntity P} (hf : ∀ s, Alike (f s.forget) (f s))
    (h : s.forget = t.forget) : Alike (f s) (f t) := by
  have hs := hf s
  rw [h] at hs
  exact ⟨hs.answer.symm.trans (hf t).answer, hs.state.symm.trans (hf t).state⟩

theorem learn_alike (h : s.forget = t.forget) (data : SignedData) :
    (s.learn data).map forget = (t.learn data).map forget := by
  have hforget : ∀ u : SecurityEntity P, (u.forget.learn data).map forget = (u.learn data).map forget := by
    intro u
    unfold learn
    cases data.tbsData.headerInfo.requestedCertificate with
    | none => rfl
    | some c =>
      simp only [Verifier.learnAuthority, map_map]
      rfl
  rw [← hforget s, h, hforget t]

theorem checkReplay_forget (s : SecurityEntity P) (confirm : VerifyConfirm) (generation : Option UInt64) :
    Alike (s.forget.checkReplay confirm generation) (s.checkReplay confirm generation) := by
  have htimely : s.forget.timely = s.timely := rfl
  have haccepted : s.forget.accepted = s.accepted := rfl
  have hverification : s.forget.verification = s.verification := rfl
  unfold checkReplay
  rw [htimely, haccepted, hverification]
  cases generation.filter s.timely with
  | none => exact ⟨rfl, rfl⟩
  | some g =>
    cases confirm.certificateId with
    | none => exact ⟨rfl, rfl⟩
    | some id =>
      dsimp only
      split_ifs <;> exact ⟨rfl, rfl⟩

theorem boundCache_alike (h : s.forget = t.forget) : s.boundCache.forget = t.boundCache.forget := by
  have hforget : ∀ u : SecurityEntity P, u.forget.boundCache.forget = u.boundCache.forget := by
    intro u
    have hcache : u.forget.receiver.cache = u.receiver.cache := rfl
    have hverification : u.forget.verification = u.verification := rfl
    unfold boundCache
    rw [hcache, hverification]
    split_ifs <;> rfl
  rw [← hforget s, h, hforget t]

theorem conclude_alike (h : s.forget = t.forget) (confirm : VerifyConfirm) (generation : Option UInt64) :
    Alike (s.conclude confirm generation) (t.conclude confirm generation) := by
  unfold conclude
  split_ifs with hr
  · have ha := Alike.of_forget (f := fun u => u.checkReplay confirm generation)
      (fun u => u.checkReplay_forget confirm generation) h
    exact ⟨ha.answer, boundCache_alike ha.state⟩
  · exact ⟨rfl, boundCache_alike h⟩

variable {m : SecuredMessage}

theorem verifyData_alike (h : s.forget = t.forget) {data : SignedData}
    (hs : s.receiver.Transparent data m.itsAid) (ht : t.receiver.Transparent data m.itsAid) :
    Alike (s.verifyData m data) (t.verifyData m data) := by
  obtain ⟨hconfirm, hreceiver⟩ := Receiver.verifySigned_alike (congrArg SecurityEntity.receiver h) hs ht
  have hstate : ({ s with receiver := (s.receiver.verifySigned data m.itsAid).2 } : SecurityEntity P).forget =
      ({ t with receiver := (t.receiver.verifySigned data m.itsAid).2 } : SecurityEntity P).forget := by
    show ({ s.forget with receiver := (s.receiver.verifySigned data m.itsAid).2.forget } : SecurityEntity P) =
      { t.forget with receiver := (t.receiver.verifySigned data m.itsAid).2.forget }
    rw [h, hreceiver]
  simp only [verifyData, hconfirm]
  cases (t.receiver.verifySigned data m.itsAid).1 with
  | none => exact ⟨rfl, hstate⟩
  | some confirm =>
    have hc := conclude_alike hstate confirm m.generationTime
    exact ⟨congrArg some hc.answer, hc.state⟩

theorem catchFailure_alike {a b : Option VerifyConfirm × SecurityEntity P} (h : Alike a b) :
    Alike (catchFailure m a) (catchFailure m b) := by
  unfold catchFailure
  rw [h.answer]
  cases b.1 with
  | none | some => exact ⟨rfl, h.state⟩

theorem decapsulatePacket_alike (h : s.forget = t.forget)
    (hs : ∀ data u, m.signedData = some data → s.learn data = some u → u.receiver.Transparent data m.itsAid)
    (ht : ∀ data u, m.signedData = some data → t.learn data = some u → u.receiver.Transparent data m.itsAid) :
    Alike (s.decapsulatePacket (.v3 m)) (t.decapsulatePacket (.v3 m)) := by
  refine catchFailure_alike (m := m) (a := s.verify m) (b := t.verify m) ?_
  by_cases hp : checkProfile m = .success
  · obtain ⟨data, hd⟩ := signedData_of_profile hp
    have hl := learn_alike h data
    rw [verify_of_profile hp hd, verify_of_profile hp hd]
    cases hls : s.learn data with
    | none =>
      cases hlt : t.learn data with
      | none => exact ⟨rfl, h⟩
      | some u => simp [hls, hlt] at hl
    | some u =>
      cases hlt : t.learn data with
      | none => simp [hls, hlt] at hl
      | some u' =>
        have hu : u.forget = u'.forget := by simpa [hls, hlt] using hl
        exact verifyData_alike hu (hs data u hd hls) (ht data u' hd hlt)
  · rw [verify_refused hp, verify_refused hp]
    exact ⟨rfl, h⟩

theorem encapsulatePacket_alike (h : s.forget = t.forget) (request : SignRequest) :
    Alike (s.encapsulatePacket request) (t.encapsulatePacket request) := by
  refine Alike.of_forget (f := fun u => u.encapsulatePacket request) (fun u => ?_) h
  have hown : u.forget.own = u.own := rfl
  have hpending : u.forget.changePending = u.changePending := rfl
  unfold encapsulatePacket
  rw [hown, hpending]
  cases u.own with
  | none => exact ⟨rfl, rfl⟩
  | some ticket =>
    dsimp only
    split_ifs
    · exact ⟨rfl, rfl⟩
    · have hsign : (u.forget.sign ticket request).1 = (u.sign ticket request).1 := rfl
      unfold concludeSigning
      rw [hsign]
      cases (u.sign ticket request).1 with
      | none => exact ⟨rfl, rfl⟩
      | some outcome => cases outcome <;> exact ⟨rfl, rfl⟩

end SecurityEntity

/-! ### Runs among known certificates -/

def EntityEvent.certificates : EntityEvent P → List Certificate
  | .decapsulate (.v3 m) => (m.signedData.map fun data =>
      data.signer.inlineCertificate.toList ++ data.tbsData.headerInfo.requestedCertificate.toList).getD []
  | .environment e => e.certificate.toList
  | _ => []

namespace Receiver

variable {known : Certificate → Prop} {r : Receiver P} {data : SignedData} {aid : ItsAid}

/-- Everything that is stored is known. -/
structure Sound (known : Certificate → Prop) (r : Receiver P) : Prop where
  coherent : Coherent known r.verifier.chain.permissiveIdentifiedRegion r.verifier
  cached : ∀ e ∈ r.cache.storage, known e.2

theorem Sound.known_signer (h : r.Sound known) (hi : ∀ c, data.signer.inlineCertificate = some c → known c)
    {c : Certificate} (hc : (r.distribute data aid).signingCertificate data = some c) : known c := by
  rcases or_eq_some_iff.mp hc with hc | ⟨-, hc⟩
  · exact hi c hc
  · obtain ⟨d, -, hl⟩ := bind_eq_some_iff.mp hc
    have hl' : r.cache.storage.lookup d = some c := by
      rw [← (distribute_frame r data aid).2]
      exact hl
    obtain ⟨l₁, l₂, hsplit, -⟩ := List.lookup_eq_some_iff.mp hl'
    exact h.cached (d, c) (by simp [hsplit])

theorem Sound.transparent (hk : DistinctDigests P known) (h : r.Sound known)
    (hi : ∀ c, data.signer.inlineCertificate = some c → known c) : r.Transparent data aid :=
  fun _ hc => h.coherent.verdict_eq hk (h.known_signer hi hc) aid

theorem Sound.store {k : CertificateCache} {c : Certificate} (h : ∀ e ∈ k.storage, known e.2) (hc : known c) :
    ∀ e ∈ (k.store P c).storage, known e.2 := by
  unfold CertificateCache.store
  split
  · split_ifs
    · exact h
    · exact List.forall_mem_cons.mpr ⟨hc, h⟩
  · exact h

theorem Sound.verifySigned (h : r.Sound known) (hi : ∀ c, data.signer.inlineCertificate = some c → known c) :
    (r.verifySigned data aid).2.Sound known := by
  rcases r.verifySigned_cases data aid with ⟨report, -, -, -, hv, hs⟩ | ⟨signature, c, hc, heq⟩
  · exact ⟨hv ▸ h.coherent, hs ▸ h.cached⟩
  · have hknown := h.known_signer hi hc
    have hcached : ∀ e ∈ (r.distribute data aid).cache.storage, known e.2 := by
      rw [(distribute_frame r data aid).2]
      exact h.cached
    obtain ⟨hv, hj⟩ := judge_frame { r.distribute data aid with verifier := (r.verifier.validForSigning c aid).2 } data
      aid c signature (r.verifier.chain.verdict c aid)
    rw [heq]
    refine ⟨?_, ?_⟩
    · rw [hv]
      exact h.coherent.step_admissible (e := .validForSigning c aid)
        ⟨fun _ he => some.inj he ▸ hknown, fun _ hp => nomatch hp⟩ rfl
    · rcases hj with hj | hj
      · rw [hj]
        exact hcached
      · rw [hj]
        exact Sound.store hcached hknown

end Receiver

namespace SecurityEntity

variable {known : Certificate → Prop} {s t : SecurityEntity P}

theorem sound_learn (h : s.receiver.Sound known) {data : SignedData}
    (hr : ∀ c, data.tbsData.headerInfo.requestedCertificate = some c → known c) (hl : s.learn data = some t) :
    t.receiver.Sound known := by
  unfold learn at hl
  split at hl
  · exact some.inj hl ▸ h
  · rename_i c hc
    obtain ⟨r, hr', rfl⟩ := map_eq_some_iff.mp hl
    have hstep : s.receiver.verifier.step (.learnAuthority c) = some r.2 := by simp [Verifier.step, hr']
    refine ⟨?_, h.cached⟩
    exact h.coherent.step_admissible (e := .learnAuthority c)
      ⟨fun _ he => some.inj he ▸ hr c hc, fun _ hp => nomatch hp⟩ hstep

theorem sound_conclude (h : s.receiver.Sound known) (confirm : VerifyConfirm) (generation : Option UInt64) :
    (s.conclude confirm generation).2.receiver.Sound known := by
  rcases s.conclude_receiver confirm generation with hc | hc
  · rw [hc]
    exact h
  · rw [hc]
    exact ⟨h.coherent, fun e he => nomatch he⟩

theorem sound_of_uncounted (h : s.receiver.Sound known) (hu : t.uncounted = s.uncounted) : t.receiver.Sound known := by
  have hr : t.uncounted.receiver = s.uncounted.receiver := by rw [hu]
  exact (show t.receiver = s.receiver from hr) ▸ h

theorem known_of_decapsulate {m : SecuredMessage} {data : SignedData} (hd : m.signedData = some data)
    (h : ∀ c ∈ (.decapsulate (.v3 m) : EntityEvent P).certificates, known c) :
    (∀ c, data.signer.inlineCertificate = some c → known c) ∧
      ∀ c, data.tbsData.headerInfo.requestedCertificate = some c → known c := by
  simp only [EntityEvent.certificates, hd, map_some, getD_some, List.mem_append, mem_toList] at h
  exact ⟨fun c hc => h c (.inl hc), fun c hc => h c (.inr hc)⟩

theorem sound_decapsulate (h : s.receiver.Sound known) {m : SecuredMessage}
    (hm : ∀ c ∈ (.decapsulate (.v3 m) : EntityEvent P).certificates, known c) :
    (s.decapsulatePacket (.v3 m)).2.receiver.Sound known := by
  rcases s.decapsulatePacket_cases m with ⟨-, -, hu⟩ | ⟨data, t, hd, hl, hcases⟩
  · exact sound_of_uncounted h hu
  · obtain ⟨hinline, hrequested⟩ := known_of_decapsulate hd hm
    have hv : (t.receiver.verifySigned data m.itsAid).2.Sound known :=
      (sound_learn h hrequested hl).verifySigned hinline
    rcases hcases with ⟨-, -, hu⟩ | ⟨confirm, -, heq⟩
    · exact sound_of_uncounted hv hu
    · rw [heq]
      exact sound_conclude hv confirm m.generationTime

/-- A policy does not turn the permissive flag off. -/
def KeepsPermissive (s : SecurityEntity P) : EntityEvent P → Prop
  | .environment (.setVerificationPolicy p) =>
    p.permissiveIdentifiedRegion = false → s.receiver.verifier.chain.permissiveIdentifiedRegion = false
  | _ => True

variable {e : EntityEvent P}

theorem keepsPermissive_iff (h : s.forget = t.forget) : s.KeepsPermissive e ↔ t.KeepsPermissive e := by
  have hflag : s.forget.receiver.verifier.chain.permissiveIdentifiedRegion =
      t.forget.receiver.verifier.chain.permissiveIdentifiedRegion := by rw [h]
  replace hflag : s.receiver.verifier.chain.permissiveIdentifiedRegion =
      t.receiver.verifier.chain.permissiveIdentifiedRegion := hflag
  unfold KeepsPermissive
  rw [hflag]

theorem sound_step (h : s.receiver.Sound known) (he : ∀ c ∈ e.certificates, known c)
    (hp : s.KeepsPermissive e) : (s.step e).2.receiver.Sound known := by
  cases e with
  | decapsulate packet =>
    cases packet with
    | v2 => exact h
    | v3 m => exact sound_decapsulate h he
  | encapsulate request =>
    obtain ⟨policy, hu⟩ := s.encapsulatePacket_uncounted request
    exact sound_of_uncounted (s := s.withPolicy policy) ⟨h.coherent, h.cached⟩ hu
  | environment e =>
    refine ⟨h.coherent.step_admissible (e := .environment e) ⟨fun c hc => he c ?_, ?_⟩ rfl, h.cached⟩
    · exact mem_toList.mpr hc
    · rintro p heq hoff
      obtain rfl : e = .setVerificationPolicy p := VerifierEvent.environment.inj heq
      exact .inl (hp hoff)
  | useTicket _ | changePending _ | committed | reportNewCamSigner => exact ⟨h.coherent, h.cached⟩

theorem step_alike (hk : DistinctDigests P known) (h : s.forget = t.forget) (hs : s.receiver.Sound known)
    (ht : t.receiver.Sound known) (he : ∀ c ∈ e.certificates, known c) :
    Alike (s.step e) (t.step e) := by
  cases e with
  | decapsulate packet =>
    cases packet with
    | v2 => exact ⟨rfl, h⟩
    | v3 m =>
      have hsound : ∀ u : SecurityEntity P, u.receiver.Sound known → ∀ data v, m.signedData = some data →
          u.learn data = some v → v.receiver.Transparent data m.itsAid := by
        intro u hu data v hd hl
        obtain ⟨hinline, hrequested⟩ := known_of_decapsulate hd he
        exact (sound_learn hu hrequested hl).transparent hk hinline
      have ha := decapsulatePacket_alike h (hsound s hs) (hsound t ht)
      exact ⟨congrArg EntityOutput.decapsulated ha.answer, ha.state⟩
  | encapsulate request =>
    have ha := encapsulatePacket_alike h request
    exact ⟨congrArg EntityOutput.encapsulated ha.answer, ha.state⟩
  | environment e =>
    refine Alike.of_forget (f := fun u => u.step (.environment e)) (fun u => ⟨rfl, ?_⟩) h
    cases e <;> rfl
  | useTicket ticket => exact Alike.of_forget (f := fun u => u.step (.useTicket ticket)) (fun u => ⟨rfl, rfl⟩) h
  | changePending pending =>
    exact Alike.of_forget (f := fun u => u.step (.changePending pending)) (fun u => ⟨rfl, rfl⟩) h
  | committed => exact Alike.of_forget (f := fun u => u.step .committed) (fun u => ⟨rfl, rfl⟩) h
  | reportNewCamSigner => exact Alike.of_forget (f := fun u => u.step .reportNewCamSigner) (fun u => ⟨rfl, rfl⟩) h

end SecurityEntity

/-! ### Messages that bring nothing new -/

/-- What a message may bring without a trace: its signer is known, the
requests in it are pending already, the certificate in it was not asked for
and is not learned, and the cache is within its limit. -/
structure Harmless (r : Receiver P) (data : SignedData) (aid : ItsAid) : Prop where
  signer : ∀ d, data.signer.certificateId P = some d → r.cache.isKnown d = true
  requests : aid = Aid.CA → ∀ id ∈ data.tbsData.headerInfo.inlineP2pcdRequest.getD [],
    r.policy.incomingRequests.isPending id = true
  answer : aid = Aid.CA → ∀ d, data.tbsData.headerInfo.requestedCertificate.bind (Certificate.calculateDigest P) =
    some d →
    r.policy.incomingRequests.isPending (truncate d) = false
  authority : ∀ learned, data.tbsData.headerInfo.requestedCertificate.bind r.verifier.learnAuthority = some learned →
    learned.1 = false
  cache : r.cache.storage.length ≤ r.verifier.verification.certificateCacheLimit

theorem HeaderPolicy.foldl_enqueue_of_pending {p : HeaderPolicy} : ∀ {ids : List HashedId3},
    (∀ id ∈ ids, p.incomingRequests.isPending id = true) → ids.foldl HeaderPolicy.enqueueP2pRequest p = p
  | [], _ => rfl
  | id :: ids, h => by
    have hid : p.enqueueP2pRequest id = p := by
      rw [enqueueP2pRequest, PeerRequestTracker.addRequest_of_pending (h id List.mem_cons_self)]
    rw [List.foldl_cons, hid]
    exact foldl_enqueue_of_pending fun id' h' => h id' (List.mem_cons_of_mem _ h')

theorem CombinedIssuerLookup.learnAuthority_false {i : CombinedIssuerLookup P} {limit : ℕ} {c : Certificate}
    {r : Bool × CombinedIssuerLookup P} (h : i.learnAuthority limit c = some r) (hr : r.1 = false) : r.2 = i := by
  rcases learnAuthority_cases h with rfl | ⟨_, -, rfl⟩
  · rfl
  · simp at hr

namespace Receiver

variable {r : Receiver P} {data : SignedData} {aid : ItsAid}

theorem announceSigner_of_known {digest : Option HashedId8} (h : ∀ d, digest = some d → r.cache.isKnown d = true) :
    r.announceSigner aid digest = r := by
  cases digest with
  | none => rfl
  | some d =>
    rw [announceSigner, CertificateCache.announce_of_known (h d rfl)]
    rfl

theorem distribute_of_harmless (h : Harmless r data aid) : r.distribute data aid = r := by
  unfold distribute
  rw [announceSigner_of_known h.signer]
  split_ifs with haid
  · simp only [takeRequests, HeaderPolicy.foldl_enqueue_of_pending (h.requests haid)]
    cases hd : data.tbsData.headerInfo.requestedCertificate.bind (Certificate.calculateDigest P) with
    | none => rfl
    | some d =>
      dsimp only
      rw [HeaderPolicy.discardP2pRequest, PeerRequestTracker.discardRequest_of_not_pending (h.answer haid d hd)]
  · rfl

end Receiver

namespace SecurityEntity

variable {s t : SecurityEntity P} {m : SecuredMessage} {data : SignedData}

theorem learn_of_harmless (h : Harmless s.receiver data m.itsAid) (hl : s.learn data = some t) :
    t.uncounted = s.uncounted := by
  unfold learn at hl
  split at hl
  · rw [some.inj hl]
  · rename_i c hc
    obtain ⟨r, hr, rfl⟩ := map_eq_some_iff.mp hl
    have hfalse := h.authority r (by rw [hc]; exact hr)
    obtain ⟨i, hi, rfl⟩ := map_eq_some_iff.mp hr
    have hsame : s.receiver.verifier.withIssuers i.2 = s.receiver.verifier := by
      rw [CombinedIssuerLookup.learnAuthority_false hi hfalse]
      rfl
    show ({ s.withVerifier (s.receiver.verifier.withIssuers i.2) with stats := {} } : SecurityEntity P) = s.uncounted
    rw [hsame]
    rfl

variable {confirm : VerifyConfirm}

theorem checkReplay_ne_falseSignature (hr : confirm.report = .success)
    (generation : Option UInt64) : (s.checkReplay confirm generation).1.report ≠ .falseSignature := by
  rcases (s.checkReplay_frame confirm generation).2 with h | h | h
  · simp [h, hr]
  · simp [h]
  · simp [h]

theorem report_of_conclude {generation : Option UInt64}
    (h : (s.conclude confirm generation).1.report = .falseSignature) : confirm.report = .falseSignature := by
  unfold conclude at h
  split_ifs at h with hr
  · exact absurd h (checkReplay_ne_falseSignature hr generation)
  · exact h

theorem conclude_forget (generation : Option UInt64) (hr : confirm.report ≠ .success)
    (hcache : s.receiver.cache.storage.length ≤ s.verification.certificateCacheLimit) :
    (s.conclude confirm generation).2.forget = s.forget := by
  have hbound : ({ s with stats := s.stats.count confirm.report } : SecurityEntity P).boundCache =
      { s with stats := s.stats.count confirm.report } := if_neg (not_lt.mpr hcache)
  rw [conclude, if_neg hr]
  show SecurityEntity.forget (boundCache _) = s.forget
  rw [hbound]
  rfl

theorem forget_of_uncounted (h : t.uncounted = s.uncounted) : t.forget = s.forget := by
  show t.uncounted.forget = s.uncounted.forget
  rw [h]

theorem forget_of_harmless (hf : (s.decapsulatePacket (.v3 m)).1.report = .falseSignature)
    (h : ∀ data, m.signedData = some data → Harmless s.receiver data m.itsAid) :
    (s.decapsulatePacket (.v3 m)).2.forget = s.forget := by
  rcases s.decapsulatePacket_cases m with ⟨-, hne, -⟩ | ⟨data, t, hd, hl, ⟨hr, -, -⟩ | ⟨confirm, hc, heq⟩⟩
  · exact absurd hf hne
  · simp [hr] at hf
  · have ht := learn_of_harmless (h data hd) hl
    have hreceiver : t.receiver = s.receiver := show t.uncounted.receiver = s.uncounted.receiver by rw [ht]
    have hharmless : Harmless t.receiver data m.itsAid := hreceiver ▸ h data hd
    rw [heq] at hf ⊢
    have hreport := report_of_conclude hf
    obtain ⟨c, -, hverified⟩ := Receiver.verifySigned_falseSignature hc hreport
    rw [Receiver.distribute_of_harmless hharmless] at hverified
    -- what is left of the message is a remembered ticket
    have hu : ({ t with receiver := (t.receiver.verifySigned data m.itsAid).2 } : SecurityEntity P) =
        t.withVerifier (t.receiver.verifier.validForSigning c m.itsAid).2 := by
      rw [hverified]
      rfl
    have hne : confirm.report ≠ .success := by simp [hreport]
    have hlast := conclude_forget (s := t.withVerifier (t.receiver.verifier.validForSigning c m.itsAid).2)
      m.generationTime hne hharmless.cache
    rw [hu, hlast]
    show t.forget.withVerifier (t.receiver.verifier.validForSigning c m.itsAid).2.forget = s.forget
    rw [Verifier.forget_validForSigning]
    exact forget_of_uncounted ht

/-! ### Two runs -/

/-- An event among known certificates that keeps the permissive flag; one slipped in is a forged
message that brings nothing new. -/
structure Slipped (known : Certificate → Prop) (s : SecurityEntity P) (e : EntityEvent P) (extra : Bool) : Prop where
  certificates : ∀ c ∈ e.certificates, known c
  permissive : s.KeepsPermissive e
  forged : extra = true → ∃ m, e = .decapsulate (.v3 m) ∧ (s.decapsulatePacket (.v3 m)).1.report = .falseSignature ∧
    ∀ data, m.signedData = some data → Harmless s.receiver data m.itsAid

theorem Slipped.common {known : Certificate → Prop} {e : EntityEvent P} (hc : ∀ c ∈ e.certificates, known c)
    (hp : s.KeepsPermissive e) : Slipped known s e false :=
  ⟨hc, hp, fun h => absurd h Bool.false_ne_true⟩

/-- **Forged messages that bring nothing new do not show**, in runs among certificates with
distinct digests in which no policy turns the permissive flag off. -/
theorem forged_unobserved {known : Certificate → Prop} (hk : DistinctDigests P known) (s₀ : SecurityEntity P)
    (h₀ : s₀.receiver.verifier.chain.verified = []) (hi : KnownIssuers known s₀.receiver.verifier.issuers)
    (hc : ∀ e ∈ s₀.receiver.cache.storage, known e.2) (l : List (EntityEvent P × Bool))
    (hl : Meets step (Slipped known) s₀ l) : outputs step s₀ (common l) = observed step s₀ l := by
  have hsound : s₀.receiver.Sound known := ⟨.of_forgotten hi h₀, hc⟩
  refine outputs_common step (C := Slipped known)
    (R := fun s t => s.forget = t.forget ∧ s.receiver.Sound known ∧ t.receiver.Sound known) ?_ ?_
      ⟨rfl, hsound, hsound⟩ hl
  · rintro s t e ⟨hst, hs, ht⟩ he
    have ha := step_alike hk hst hs ht he.certificates
    have hp : s.KeepsPermissive e := (keepsPermissive_iff hst).mpr he.permissive
    exact ⟨ha.answer, ha.state, sound_step hs he.certificates hp, sound_step ht he.certificates he.permissive⟩
  · rintro s t e ⟨hst, hs, ht⟩ he
    obtain ⟨m, rfl, hf, hh⟩ := he.forged rfl
    exact ⟨hst.trans (forget_of_harmless hf hh).symm, hs, sound_step ht he.certificates he.permissive⟩

end SecurityEntity

/-! ### A station that is listened to -/

/-- What a message carries for the distribution of certificates. -/
structure SentHeader where
  /-- The signer identifier is the certificate, not the digest. -/
  certificate : Bool
  inlineP2pcdRequest : Option (List HashedId3)
  requestedCertificate : Option Certificate
deriving DecidableEq, Repr

def EntityOutput.sent : EntityOutput → Option SentHeader
  | .encapsulated (.ok m) => m.signedData.map fun data =>
    { certificate := data.signer.inlineCertificate.isSome
      inlineP2pcdRequest := data.tbsData.headerInfo.inlineP2pcdRequest
      requestedCertificate := data.tbsData.headerInfo.requestedCertificate }
  | _ => none

/-- An event that is slipped in is a message with a false signature. -/
def Forged (s : SecurityEntity P) (e : EntityEvent P) (extra : Bool) : Prop :=
  extra = true → ∃ m, e = .decapsulate (.v3 m) ∧ (s.decapsulatePacket (.v3 m)).1.report = .falseSignature

/-- The station with a ticket of its own. -/
def sampleSender : SecurityEntity markedPlatform :=
  { sampleEntity {} with
    own := some {
      certificate := sampleIssued 4 (.sha256AndDigest (Vector.replicate 8 2)) false ⟨0, .hours, 2⟩ none
      key := ⟨.nistP256, []⟩
      digest := Vector.replicate 8 4
      digest_eq := rfl } }

/-- Two CAMs within a second, and a forged one in between. -/
def sampleForgery : List (EntityEvent markedPlatform × Bool) :=
  [(.encapsulate { plainMessage := [], itsAid := Aid.CA }, false),
    (.decapsulate (.v3 (sampleCam (.certificate [circleTicket]) 3600000000 0xff)), true),
    (.environment (.advance (seconds 3600 + 100000)), false),
    (.encapsulate { plainMessage := [], itsAid := Aid.CA }, false)]

/-- A forged CAM from an unknown station makes the next CAM carry the
certificate. -/
theorem forged_observed : ∃ (P : Platform) (s₀ : SecurityEntity P) (l : List (EntityEvent P × Bool)),
    Meets SecurityEntity.step Forged s₀ l ∧ (outputs SecurityEntity.step s₀ (common l)).map EntityOutput.sent ≠
      (observed SecurityEntity.step s₀ l).map EntityOutput.sent := by
  refine ⟨markedPlatform, sampleSender, sampleForgery, ⟨?_, ?_, ?_, ?_, trivial⟩, by decide +kernel⟩
  · exact fun h => absurd h Bool.false_ne_true
  · exact fun _ => ⟨_, rfl, by decide +kernel⟩
  · exact fun h => absurd h Bool.false_ne_true
  · exact fun h => absurd h Bool.false_ne_true

/-- A CAM of a station, one of its own, and then a forged one. -/
def knownForgery : List (EntityEvent markedPlatform × Bool) :=
  (.decapsulate (.v3 (sampleCam (.certificate [circleTicket]) 3600000000 0)), false) :: sampleForgery

/-- A forged CAM from the station that was heard before. -/
theorem forged_unobserved_known : outputs SecurityEntity.step sampleSender (common knownForgery) =
    observed SecurityEntity.step sampleSender knownForgery := by
  refine SecurityEntity.forged_unobserved sampleKnown_distinct sampleSender rfl sampleVerifier_known
    (fun _ he => nomatch he)
    knownForgery ⟨?_, ?_, ?_, ?_, ?_, trivial⟩
  · exact .common (List.forall_mem_singleton.mpr (.inl rfl)) trivial
  · exact .common (List.forall_mem_nil _) trivial
  · refine ⟨List.forall_mem_singleton.mpr (.inl rfl), trivial, fun _ => ⟨_, rfl, by decide +kernel, ?_⟩⟩
    rintro data hd
    obtain rfl := some.inj hd
    exact {
      signer := fun d hd => by
        obtain rfl : Vector.replicate 8 3 = d := some.inj (Eq.trans (by decide +kernel) hd)
        decide +kernel
      requests := fun _ => List.forall_mem_nil _
      answer := fun _ _ hd => nomatch hd
      authority := fun _ hl => nomatch hl
      cache := by decide +kernel }
  · exact .common (List.forall_mem_nil _) trivial
  · exact .common (List.forall_mem_nil _) trivial

end VanetzaIdf.V3
