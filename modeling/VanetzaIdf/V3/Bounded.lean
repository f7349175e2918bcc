/-
# What reception leaves behind

Cache, replay window and learned authorities are trimmed to a limit of the policy
(`Trimmed`). The digests that the cache knows are forgotten only together with the
certificates, and messages from strangers fill it with digests and never with
certificates (`known_digests_unbounded`).

If every message that gets past its profile comes from a known signer or brings a
certificate under which it verifies (`Introduced`), every digest is that of a
stored certificate (`Backed`), and the limit holds for both (`reception_bounded`).
-/
import VanetzaIdf.Lib.Decoder
import VanetzaIdf.V3.Learned
import VanetzaIdf.V3.Replay

namespace VanetzaIdf.V3

open Lib Option

variable {P : Platform}

/-! ### The cache -/

namespace CertificateCache

/-- Every known digest is the one of a stored certificate. -/
structure Backed (k : CertificateCache) : Prop where
  stored : ∀ d ∈ k.digests, d ∈ k.storage.map Prod.fst
  nodup : k.digests.Nodup

theorem Backed.empty : Backed {} := ⟨by simp, by simp⟩

variable {k k' : CertificateCache} {d : HashedId8} {c : Certificate}

theorem Backed.length_le (h : k.Backed) : k.digests.length ≤ k.storage.length := by
  have hsub := (List.subperm_of_subset h.nodup h.stored).length_le
  rwa [List.length_map] at hsub

theorem mem_storage_of_lookup (h : k.lookup d = some c) : d ∈ k.storage.map Prod.fst := by
  obtain ⟨l₁, l₂, hsplit, -⟩ := List.lookup_eq_some_iff.mp h
  simp [hsplit]

theorem nodup_store (h : k.digests.Nodup) : (k.store P c).digests.Nodup := by
  unfold store
  split
  · split_ifs
    · exact h
    · exact h.insert
  · exact h

theorem mem_store (hd : c.calculateDigest P = some d) : d ∈ (k.store P c).storage.map Prod.fst := by
  unfold store
  simp only [hd]
  split_ifs with hl
  · obtain ⟨b, hb⟩ := isSome_iff_exists.mp hl
    exact mem_storage_of_lookup hb
  · simp

theorem stored_of_store (h : d ∈ k.storage.map Prod.fst) : d ∈ (k.store P c).storage.map Prod.fst := by
  unfold store
  split
  · split_ifs
    · exact h
    · exact List.mem_cons_of_mem _ h
  · exact h

theorem mem_digests_store (h : d ∈ (k.store P c).digests) : d ∈ k.digests ∨ c.calculateDigest P = some d := by
  unfold store at h
  split at h
  · rename_i digest hd
    split_ifs at h
    · exact .inl h
    · rcases List.mem_insert_iff.mp h with rfl | h
      · exact .inr hd
      · exact .inl h
  · exact .inl h

theorem Backed.store (h : k.Backed) (c : Certificate) : (k.store P c).Backed := by
  refine ⟨fun d hd => ?_, nodup_store h.nodup⟩
  rcases mem_digests_store hd with hd | hd
  · exact stored_of_store (h.stored d hd)
  · exact mem_store hd

theorem Backed.announce (h : k.Backed) (hs : k'.storage = k.storage)
    (hd : k'.digests = k.digests.insert d) (hmem : d ∈ k.storage.map Prod.fst) : k'.Backed := by
  refine ⟨fun e he => ?_, hd ▸ h.nodup.insert⟩
  rw [hs]
  rw [hd] at he
  rcases List.mem_insert_iff.mp he with rfl | he
  · exact hmem
  · exact h.stored e he

theorem Backed.announce_store (h : k.Backed)
    (hs : k'.storage = k.storage) (hd : k'.digests = k.digests.insert d) (hc : c.calculateDigest P = some d) :
    (k'.store P c).Backed := by
  refine ⟨fun e he => ?_, nodup_store (hd ▸ h.nodup.insert)⟩
  rcases mem_digests_store he with he | he
  · rw [hd] at he
    rcases List.mem_insert_iff.mp he with rfl | he
    · exact mem_store hc
    · exact stored_of_store (hs ▸ h.stored e he)
  · exact mem_store he

end CertificateCache

/-! ### One message at the receiver -/

namespace Receiver

variable {r : Receiver P} {data : SignedData} {aid : ItsAid}

theorem distribute_digests (r : Receiver P) (data : SignedData) (aid : ItsAid) :
    (r.distribute data aid).cache.digests =
      (data.signer.certificateId P).elim r.cache.digests fun d => r.cache.digests.insert d := by
  unfold distribute
  cases data.signer.certificateId P with
  | none | some => split_ifs <;> rfl

theorem distribute_of_known (aid : ItsAid) (h : ∀ d, data.signer.certificateId P = some d → r.cache.isKnown d = true) :
    (r.distribute data aid).cache = r.cache := by
  have hd : (r.distribute data aid).cache.digests = r.cache.digests := by
    rw [distribute_digests]
    cases hid : data.signer.certificateId P with
    | none => rfl
    | some d => exact List.insert_of_mem (by simpa [CertificateCache.isKnown] using h d hid)
  have hs := (distribute_frame r data aid).2
  cases hc : (r.distribute data aid).cache
  cases hc' : r.cache
  simp_all

theorem verifySigned_storage (h : ∀ confirm, (r.verifySigned data aid).1 = some confirm → confirm.report ≠ .success) :
    (r.verifySigned data aid).2.cache.storage = r.cache.storage := by
  rcases r.verifySigned_cases data aid with ⟨report, -, -, -, -, hs⟩ | ⟨signature, c, -, heq⟩
  · exact hs
  · rw [heq] at h ⊢
    rcases judge_cases { r.distribute data aid with verifier := (r.verifier.validForSigning c aid).2 } data aid c
      signature (r.verifier.chain.verdict c aid) with ⟨confirm, -, hr, -, hj⟩ | ⟨⟨-, hcache⟩, -⟩
    · exact absurd hr (h confirm (congrArg Prod.fst hj))
    · rw [hcache]
      exact (distribute_frame r data aid).2

theorem backed_of_known (h : r.cache.Backed)
    (hd : ∀ d, data.signer.certificateId P = some d → r.cache.isKnown d = true) :
    (r.verifySigned data aid).2.cache.Backed := by
  have hdist := distribute_of_known aid hd
  unfold verifySigned
  cases data.signature.toEcdsa with
  | none => exact h
  | some signature =>
    cases hc : (r.distribute data aid).signingCertificate data with
    | none =>
      simp only [hc, (askForSigner_frame (r := r.distribute data aid)).2, hdist]
      exact h
    | some c =>
      simp only [hc]
      rcases (judge_frame { r.distribute data aid with
          verifier := ((r.distribute data aid).verifier.validForSigning c aid).2 } data aid c signature
        ((r.distribute data aid).verifier.validForSigning c aid).1).2 with hj | hj
      · rw [hj]
        exact hdist.symm ▸ h
      · rw [hj]
        exact (hdist.symm ▸ h : (r.distribute data aid).cache.Backed).store c

theorem backed_of_keepSigner {r' : Receiver P} (h : r.cache.Backed) (hs : r'.cache.storage = r.cache.storage)
    (hd : r'.cache.digests = (data.signer.certificateId P).elim r.cache.digests fun d => r.cache.digests.insert d)
    {c : Certificate} (hc : r'.signingCertificate data = some c) :
    (r'.keepSigner data aid c ((data.signer.certificateId P).or (c.calculateDigest P))).cache.Backed := by
  cases hid : data.signer.certificateId P with
  | none =>
    have hback : r'.cache.Backed := by
      rw [hid, elim_none] at hd
      exact ⟨fun d hmem => hs ▸ h.stored d (hd ▸ hmem), hd ▸ h.nodup⟩
    rcases (@keepSigner_frame P r' data aid c ((none : Option HashedId8).or (c.calculateDigest P))).2 with hk | hk
    · exact hk ▸ hback
    · exact hk ▸ hback.store c
  | some d =>
    rw [hid, elim_some] at hd
    have hstored : ∀ b, r'.cache.lookup d = some b → d ∈ r.cache.storage.map Prod.fst := fun b hb =>
      hs ▸ CertificateCache.mem_storage_of_lookup hb
    unfold keepSigner
    cases hin : data.signer.inlineCertificate with
    | none =>
      have hl : r'.cache.lookup d = some c := by simpa [signingCertificate, hin, hid] using hc
      exact h.announce hs hd (hstored c hl)
    | some b =>
      obtain rfl : b = c := by simpa [signingCertificate, hin] using hc
      simp only [some_or]
      by_cases hl : (r'.cache.lookup d).isSome = true
      · rw [if_pos hl]
        obtain ⟨b', hb'⟩ := isSome_iff_exists.mp hl
        exact h.announce hs hd (hstored b' hb')
      · have hdig : b.calculateDigest P = some d := by
          unfold SignerIdentifier.inlineCertificate at hin
          split at hin
          · rename_i heq
            obtain rfl := some.inj hin
            rw [heq] at hid
            exact hid
          · exact absurd hin (by simp)
        rw [if_neg hl]
        exact h.announce_store hs hd hdig

theorem backed_of_success (h : r.cache.Backed) {confirm : VerifyConfirm}
    (hc : (r.verifySigned data aid).1 = some confirm)
    (hr : confirm.report = .success) : (r.verifySigned data aid).2.cache.Backed := by
  rcases r.verifySigned_cases data aid with ⟨report, heq, hne, -⟩ | ⟨signature, c, hcert, heq⟩
  · rw [heq] at hc
    obtain rfl := some.inj hc
    exact absurd hr hne
  · rw [heq] at hc ⊢
    rcases judge_cases { r.distribute data aid with verifier := (r.verifier.validForSigning c aid).2 } data aid c
      signature (r.verifier.chain.verdict c aid) with ⟨confirm', -, -, hid, hj⟩ | ⟨-, hne⟩
    · have hs : ({ r.distribute data aid with
          verifier := (r.verifier.validForSigning c aid).2 } : Receiver P).cache.storage =
          r.cache.storage := (distribute_frame r data aid).2
      rw [hj, hid]
      exact backed_of_keepSigner h hs (distribute_digests r data aid) hcert
    · exact absurd hr (hne confirm hc).1

end Receiver

/-! ### One message at the entity -/

namespace SecurityEntity

variable {s t : SecurityEntity P}

/-- Nothing has been received yet. -/
structure Fresh (s : SecurityEntity P) : Prop where
  cache : s.receiver.cache = {}
  accepted : s.accepted = []
  learned : s.learnedAuthorities = []

/-- What the limits of the policy are about. -/
structure Trimmed (p : VerificationPolicy) (s : SecurityEntity P) : Prop where
  verification : s.verification = p
  storage : s.receiver.cache.storage.length ≤ p.certificateCacheLimit
  accepted : s.accepted.length ≤ p.replayWindow
  learned : s.learnedAuthorities.length ≤ max 1 p.learnedAuthorityLimit

variable (confirm : VerifyConfirm) (generation : Option UInt64)

theorem checkReplay_accepted (h : s.accepted.length ≤ s.verification.replayWindow) :
    (s.checkReplay confirm generation).2.accepted.length ≤ s.verification.replayWindow := by
  unfold checkReplay
  split
  · exact h
  · split
    · exact h
    · split_ifs with hw
      · exact h
      · exact h
      · exact length_push_le (Nat.pos_of_ne_zero hw) _ _

theorem boundCache_storage (s : SecurityEntity P) :
    s.boundCache.receiver.cache.storage.length ≤ s.verification.certificateCacheLimit := by
  unfold boundCache
  split_ifs with h
  · exact Nat.zero_le _
  · exact Nat.not_lt.mp h

theorem conclude_trimmed (h : s.accepted.length ≤ s.verification.replayWindow) :
    (s.conclude confirm generation).2.receiver.cache.storage.length ≤ s.verification.certificateCacheLimit ∧
      (s.conclude confirm generation).2.accepted.length ≤ s.verification.replayWindow := by
  unfold conclude
  split_ifs
  · have hrec := (s.checkReplay_frame confirm generation).1
    have hver : (s.checkReplay confirm generation).2.verification = s.verification := by
      rw [verification, hrec]
      rfl
    refine ⟨?_, ?_⟩
    · rw [← hver]
      exact boundCache_storage _
    · rw [(boundCache_frame _).2]
      exact checkReplay_accepted confirm generation h
  · refine ⟨boundCache_storage _, ?_⟩
    rw [(boundCache_frame _).2]
    exact h

variable {p : VerificationPolicy} {e : EntityEvent P} {m n : ℕ}

theorem Trimmed.decapsulate (h : Trimmed p s) (packet : SecuredPacket) :
    Trimmed p (s.decapsulatePacket packet).2 := by
  obtain ⟨hver, hissuers⟩ := s.decapsulatePacket_issuers packet
  have hlearned : (s.decapsulatePacket packet).2.learnedAuthorities.length ≤ max 1 p.learnedAuthorityLimit := by
    rcases hissuers with hi | ⟨a, ha⟩
    · rw [learnedAuthorities, hi]
      exact h.learned
    · have hle := ha.length_le
      rwa [hver, h.verification] at hle
  suffices hrest : (s.decapsulatePacket packet).2.receiver.cache.storage.length ≤ p.certificateCacheLimit ∧
      (s.decapsulatePacket packet).2.accepted.length ≤ p.replayWindow from
    ⟨hver.trans h.verification, hrest.1, hrest.2, hlearned⟩
  cases packet with
  | v2 => exact ⟨h.storage, h.accepted⟩
  | v3 m =>
    rcases s.decapsulatePacket_cases m with ⟨-, -, hu⟩ | ⟨data, t, -, hl, hcases⟩
    · have hc := congrArg (fun u => u.receiver.cache.storage.length) hu
      have ha := congrArg (fun u => u.accepted.length) hu
      exact ⟨hc.trans_le h.storage, ha.trans_le h.accepted⟩
    · obtain ⟨hsame, -, haccepted, hcache⟩ := learn_frame hl
      have hpol : t.verification = p := hsame.trans h.verification
      have hacc : t.accepted.length ≤ t.verification.replayWindow := by
        rw [haccepted, hpol]
        exact h.accepted
      rcases hcases with ⟨-, hnone, hu⟩ | ⟨confirm, -, hd⟩
      · -- an exception: no certificate has been stored
        have hst : (t.receiver.verifySigned data m.itsAid).2.cache.storage = s.receiver.cache.storage := by
          rw [Receiver.verifySigned_storage (by simp [hnone]), hcache]
        have hc := congrArg (fun u => u.receiver.cache.storage.length) hu
        have ha := congrArg (fun u => u.accepted.length) hu
        refine ⟨hc.trans_le ?_, ha.trans_le (hpol ▸ hacc)⟩
        show (t.receiver.verifySigned data m.itsAid).2.cache.storage.length ≤ p.certificateCacheLimit
        rw [hst]
        exact h.storage
      · have hu : SecurityEntity.verification { t with receiver := (t.receiver.verifySigned data m.itsAid).2 } =
            t.verification :=
          (t.receiver.verifySigned_frame data m.itsAid).2
        have hend := conclude_trimmed (s := { t with receiver := (t.receiver.verifySigned data m.itsAid).2 }) confirm
          m.generationTime (by rw [hu]; exact hacc)
        rw [hu, hpol] at hend
        rw [hd]
        exact hend

/-- The message is refused for its profile, or its signature cannot be read, or
the cache knows its signer, or it brings a certificate that is valid once the
certificate in its header has been learned, and its signature verifies under
it. -/
def Introduced (s : SecurityEntity P) : EntityEvent P → Prop
  | .decapsulate (.v3 m) => checkProfile m ≠ .success ∨ ∀ data, m.signedData = some data →
      data.signature.toEcdsa = none ∨
      (∀ d, data.signer.certificateId P = some d → s.receiver.cache.isKnown d = true) ∨
      ∀ t, s.learn data = some t →
        ∃ c, data.signer.inlineCertificate = some c ∧ t.receiver.Verifies data m.itsAid c
  | _ => True

theorem backed_conclude (h : s.receiver.cache.Backed) (confirm : VerifyConfirm) (generation : Option UInt64) :
    (s.conclude confirm generation).2.receiver.cache.Backed := by
  rcases s.conclude_receiver confirm generation with hc | hc
  · rw [hc]
    exact h
  · rw [hc]
    exact .empty

theorem backed_verifySigned (h : s.receiver.cache.Backed) {data : SignedData} {aid : ItsAid}
    (hl : s.learn data = some t)
    (hi : data.signature.toEcdsa = none ∨
      (∀ d, data.signer.certificateId P = some d → s.receiver.cache.isKnown d = true) ∨
      ∀ t, s.learn data = some t → ∃ c, data.signer.inlineCertificate = some c ∧ t.receiver.Verifies data aid c) :
    (t.receiver.verifySigned data aid).2.cache.Backed := by
  have hcache := (learn_frame hl).2.2.2
  rw [← hcache] at h hi
  rcases hi with hnone | hknown | hverifies
  · unfold Receiver.verifySigned
    rw [hnone]
    exact h
  · exact Receiver.backed_of_known h hknown
  · obtain ⟨c, hin, hv⟩ := hverifies t hl
    have hfound : (t.receiver.distribute data aid).signingCertificate data = some c := by
      simp [Receiver.signingCertificate, hin]
    exact Receiver.backed_of_success h (Receiver.verifySigned_of_verifies hfound hv) rfl

theorem backed_decapsulate (h : s.receiver.cache.Backed) {packet : SecuredPacket}
    (hi : Introduced s (.decapsulate packet)) : (s.decapsulatePacket packet).2.receiver.cache.Backed := by
  cases packet with
  | v2 => exact h
  | v3 m =>
    rcases hi with hprofile | hi
    · show (catchFailure m (s.verify m)).2.receiver.cache.Backed
      rw [verify_refused hprofile]
      exact h
    · rcases s.decapsulatePacket_cases m with ⟨-, -, hu⟩ | ⟨data, t, hdata, hl, hcases⟩
      · have hc := congrArg (fun u => u.receiver.cache) hu
        exact (show (s.decapsulatePacket (.v3 m)).2.receiver.cache = s.receiver.cache from hc) ▸ h
      · have hback := backed_verifySigned h hl (hi data hdata)
        rcases hcases with ⟨-, -, hu⟩ | ⟨confirm, -, hd⟩
        · have hc := congrArg (fun u => u.receiver.cache) hu
          exact (show (s.decapsulatePacket (.v3 m)).2.receiver.cache = _ from hc) ▸ hback
        · rw [hd]
          exact backed_conclude hback confirm m.generationTime

/-! ### Runs -/

/-- The verification policy is not changed. -/
def KeepsPolicy : EntityEvent P → Prop
  | .environment (.setVerificationPolicy _) => False
  | _ => True

theorem frame_of_step (hd : ∀ packet, e ≠ .decapsulate packet) :
    (s.step e).2.receiver.cache = s.receiver.cache ∧ (s.step e).2.accepted = s.accepted ∧
      (s.step e).2.learnedAuthorities = s.learnedAuthorities ∧
      (KeepsPolicy e → (s.step e).2.verification = s.verification) := by
  cases e with
  | decapsulate packet => exact absurd rfl (hd packet)
  | encapsulate request =>
    obtain ⟨policy, hu⟩ := s.encapsulatePacket_uncounted request
    have hc := congrArg (fun u => u.receiver.cache) hu
    have ha := congrArg accepted hu
    have hl := congrArg learnedAuthorities hu
    have hv := congrArg verification hu
    exact ⟨hc, ha, hl, fun _ => hv⟩
  | environment e =>
    cases e with
    | setVerificationPolicy p => exact ⟨rfl, rfl, rfl, fun h => h.elim⟩
    | _ => exact ⟨rfl, rfl, rfl, fun _ => rfl⟩
  | useTicket _ | changePending _ | committed | reportNewCamSigner => exact ⟨rfl, rfl, rfl, fun _ => rfl⟩

theorem Trimmed.step (h : Trimmed p s) (he : KeepsPolicy e) : Trimmed p (s.step e).2 := by
  by_cases hd : ∃ packet, e = .decapsulate packet
  · obtain ⟨packet, rfl⟩ := hd
    exact h.decapsulate packet
  · obtain ⟨hc, ha, hl, hv⟩ := frame_of_step (s := s) fun packet hp => hd ⟨packet, hp⟩
    exact ⟨(hv he).trans h.verification, hc ▸ h.storage, ha ▸ h.accepted, hl ▸ h.learned⟩

theorem backed_step (h : s.receiver.cache.Backed) (he : Introduced s e) : (s.step e).2.receiver.cache.Backed := by
  by_cases hd : ∃ packet, e = .decapsulate packet
  · obtain ⟨packet, rfl⟩ := hd
    exact backed_decapsulate h he
  · rw [(frame_of_step (s := s) fun packet hp => hd ⟨packet, hp⟩).1]
    exact h

theorem Fresh.trimmed (h : Fresh s) : Trimmed s.verification s where
  verification := rfl
  storage := by simp [h.cache]
  accepted := by simp [h.accepted]
  learned := by simp [h.learned]

/-- **Reception is bounded** by the limits of the policy, if no message gets past
its profile with a signer that is unknown and a signature that does not verify
under a certificate it brings along. -/
theorem reception_bounded (s₀ : SecurityEntity P) (h₀ : Fresh s₀) (es : List (EntityEvent P))
    (hp : ∀ e ∈ es, KeepsPolicy e) (hi : Along step Introduced s₀ es) :
    (final step s₀ es).receiver.cache.storage.length ≤ s₀.verification.certificateCacheLimit ∧
    (final step s₀ es).receiver.cache.digests.length ≤ s₀.verification.certificateCacheLimit ∧
    (final step s₀ es).accepted.length ≤ s₀.verification.replayWindow ∧
    (final step s₀ es).learnedAuthorities.length ≤ max 1 s₀.verification.learnedAuthorityLimit := by
  have htrim : Trimmed s₀.verification (final step s₀ es) :=
    along_invariant step (fun _ _ h he => h.step he) es s₀ h₀.trimmed (along_of_forall step s₀ hp)
  have hback : (final step s₀ es).receiver.cache.Backed :=
    along_invariant step (I := fun s => s.receiver.cache.Backed) (fun _ _ h he => backed_step h he) es s₀
      (h₀.cache.symm ▸ .empty) hi
  exact ⟨htrim.storage, hback.length_le.trans htrim.storage, htrim.accepted, htrim.learned⟩

/-! ### Strangers -/

/-- A CAM that names the digest as its signer; nothing in it is true. -/
def strangerCam (d : HashedId8) : EntityEvent P := .decapsulate (.v3 (sampleCam (.digest d) 0 0))

theorem strangerCam_cache (h : s.receiver.cache.storage = []) (d : HashedId8) :
    (s.step (strangerCam d)).2.receiver.cache = ⟨[], s.receiver.cache.digests.insert d⟩ := by
  obtain ⟨data, hdata, hsigner, hsig, hreq⟩ : ∃ data : SignedData, (sampleCam (.digest d) 0 0).signedData = some data ∧
      data.signer = .digest d ∧ data.signature.toEcdsa = some ⟨.nistP256, [], [0]⟩ ∧
      data.tbsData.headerInfo.requestedCertificate = none := ⟨_, rfl, rfl, rfl, rfl⟩
  have hprof : checkProfile (sampleCam (.digest d) 0 0) = .success := rfl
  have hlearn : s.learn data = some s := by simp [learn, hreq]
  have hcache : ∀ aid, (s.receiver.distribute data aid).cache = ⟨[], s.receiver.cache.digests.insert d⟩ := by
    intro aid
    have hst := (Receiver.distribute_frame s.receiver data aid).2
    have hdi := Receiver.distribute_digests s.receiver data aid
    rw [hsigner, SignerIdentifier.certificateId, elim_some] at hdi
    cases hc : (s.receiver.distribute data aid).cache
    simp_all
  -- neither the message nor the cache has a certificate
  have hnone : ∀ aid, (s.receiver.distribute data aid).signingCertificate data = none := by
    intro aid
    simp [Receiver.signingCertificate, hsigner, SignerIdentifier.inlineCertificate, SignerIdentifier.certificateId,
      CertificateCache.lookup, hcache]
  have hverify : ∀ aid, s.receiver.verifySigned data aid =
      (some { report := .signerCertificateNotFound, itsAid := aid },
        (s.receiver.distribute data aid).askForSigner data aid) := by
    intro aid
    simp [Receiver.verifySigned, hsig, hnone]
  show (catchFailure _ (s.verify _)).2.receiver.cache = _
  rw [verify_of_profile hprof hdata, hlearn]
  simp [verifyData, hverify, catchFailure, conclude, boundCache, hcache]

theorem strangers_known (ds : List HashedId8) (hn : ds.Nodup) (h : s.receiver.cache.storage = [])
    (hd : ∀ d ∈ ds, d ∉ s.receiver.cache.digests) :
    (final step s (ds.map strangerCam)).receiver.cache.digests.length =
      s.receiver.cache.digests.length + ds.length := by
  induction ds generalizing s with
  | nil => rfl
  | cons d ds ih =>
    have hnew : d ∉ s.receiver.cache.digests := hd d List.mem_cons_self
    have hc := strangerCam_cache h d
    have hrest := ih (s := (s.step (strangerCam d)).2) hn.of_cons (by rw [hc]) (by
      intro e he
      rw [hc, List.mem_insert_iff, not_or]
      refine ⟨?_, hd e (List.mem_cons_of_mem _ he)⟩
      rintro rfl
      exact (List.nodup_cons.mp hn).1 he)
    rw [List.map_cons, final, hrest, hc, List.length_insert_of_not_mem hnew, List.length_cons]
    omega

/-- No bound below the number of all digests holds, whatever the policy is. -/
theorem known_digests_unbounded : ¬ ∃ bound : VerificationPolicy → ℕ, (∀ p, bound p < 2 ^ 64) ∧
    ∀ (P : Platform) (s₀ : SecurityEntity P) (packets : List SecuredPacket), Fresh s₀ →
      (final step s₀ (packets.map .decapsulate)).receiver.cache.digests.length ≤ bound s₀.verification := by
  rintro ⟨bound, hlt, hbound⟩
  -- one stranger more than the bound
  let ds : List HashedId8 := (List.range (bound {} + 1)).map (Decoder.beVector 8)
  have hn : ds.Nodup := by
    refine List.Nodup.map_on (fun m hm n hn h => ?_) List.nodup_range
    rw [List.mem_range] at hm hn
    have hoctets := congrArg (fun v => ofBe v.toList) h
    have := hlt {}
    simpa only [Decoder.toList_beVector, ofBe_beBytes (show m < 256 ^ 8 by omega),
      ofBe_beBytes (show n < 256 ^ 8 by omega)]
      using hoctets
  have hknown := strangers_known (s := sampleEntity {}) ds hn rfl (fun _ _ => List.not_mem_nil)
  have hle := hbound markedPlatform (sampleEntity {}) (ds.map fun d => .v3 (sampleCam (.digest d) 0 0)) ⟨rfl, rfl, rfl⟩
  rw [List.map_map] at hle
  have hlen : ds.length = bound {} + 1 := by simp [ds]
  have hzero : (sampleEntity {}).receiver.cache.digests.length = 0 := rfl
  have hver : (sampleEntity {}).verification = {} := rfl
  have hsame : ds.map ((EntityEvent.decapsulate (P := markedPlatform)) ∘ fun d => .v3 (sampleCam (.digest d) 0 0)) =
      ds.map strangerCam := rfl
  rw [hsame, hknown, hlen, hzero, hver] at hle
  omega

/-- A stranger is refused for its profile, then a station introduces itself and is known by its
digest. -/
def sampleIntroduction : List (EntityEvent markedPlatform) :=
  [.decapsulate (.v3 { sampleCam (.digest (Vector.replicate 8 9)) 0 0 with protocolVersion := 2 }),
    .decapsulate (.v3 (sampleCam (.certificate [circleTicket]) 3600000000 0)),
    .decapsulate (.v3 (sampleCam (.digest (Vector.replicate 8 3)) 3600000001 0))]

theorem reception_bounded_introduced :
    (final step (sampleEntity {}) sampleIntroduction).receiver.cache.digests = [Vector.replicate 8 3] ∧
      (final step (sampleEntity {}) sampleIntroduction).receiver.cache.digests.length ≤ 32 := by
  refine ⟨by decide +kernel, (reception_bounded (sampleEntity {}) ⟨rfl, rfl, rfl⟩ sampleIntroduction
    (by simp [sampleIntroduction, KeepsPolicy])
    ⟨.inl (by decide +kernel), .inr fun data hdata => ?_, .inr fun data hdata => ?_, trivial⟩).2.1⟩
  · obtain rfl := some.inj hdata
    refine .inr (.inr fun t ht => ?_)
    obtain rfl := some.inj ht
    exact ⟨circleTicket, rfl, by decide +kernel, _, _, _, rfl, rfl, rfl, by decide +kernel⟩
  · obtain rfl := some.inj hdata
    refine .inr (.inl fun d hd => ?_)
    obtain rfl := some.inj hd
    decide +kernel

end SecurityEntity
end VanetzaIdf.V3
