/-
# Replay protection

`verify` remembers the pairs of certificate id and generation time of the last
messages it accepted. With a constant window `W` each accepted pair is none of the
`W` before it (`Window.of_run`), so between two acceptances of one pair there are
`W` of other, pairwise distinct ones (`replay_protection`). Generation times are
compared in 64-bit sums; one that wraps only gets smaller (`bounds_of_timely`).
-/
import VanetzaIdf.Lib.Machine
import VanetzaIdf.V3.Validity
import VanetzaIdf.V3.SecurityEntity

namespace VanetzaIdf.V3

open Lib

/-! ### Generation times -/

theorem toNat_convertTime64 (tp : ℤ) : ((convertTime64 tp).toNat : ℤ) = tp % 2 ^ 64 := by
  have hlt : (tp % 2 ^ 64).toNat < 2 ^ 64 := by omega
  rw [convertTime64, UInt64.toNat_ofNat', Nat.mod_eq_of_lt hlt]
  omega

theorem bounds_of_sums {now future age : ℤ} {generation : UInt64} (hnow : 0 ≤ now ∧ now < 2 ^ 64) (hf : 0 ≤ future)
    (ha : 0 ≤ age) (hle : ¬ convertTime64 now + convertTime64 future < generation)
    (hge : ¬ generation + convertTime64 age < convertTime64 now) :
    now - age ≤ generation.toNat ∧ (generation.toNat : ℤ) ≤ now + future := by
  have hn := toNat_convertTime64 now
  have hfut := toNat_convertTime64 future
  have hage := toNat_convertTime64 age
  rw [UInt64.not_lt, UInt64.le_iff_toNat_le, UInt64.toNat_add] at hle hge
  omega

/-- A certificate is valid only while the clock counts forward from 2004 and
fits in 64 bits. -/
theorem clock_of_valid {c : Certificate} {now : ℤ} (h : c.validAtTimepoint now = true) : 0 ≤ now ∧ now < 2 ^ 64 := by
  obtain ⟨hstart, hend⟩ := ValidityPeriod.validAtTimepoint_iff.mp h
  have hs : c.toBeSigned.validityPeriod.start.toNat < 2 ^ 32 := UInt32.toNat_lt _
  have hl := c.toBeSigned.validityPeriod.length_lt
  unfold Duration at hl
  omega

def SecuredPacket.generationTime : SecuredPacket → Option UInt64
  | .v2 => none
  | .v3 m => m.generationTime

namespace SecurityEntity

variable {P : Platform} {s : SecurityEntity P}

theorem bounds_of_timely {generation : UInt64} (h : s.timely generation = true) {c : Certificate}
    (hc : c.validAtTimepoint s.now = true) (hf : (0 : ℤ) ≤ s.verification.generationTimeFutureTolerance)
    (ha : (0 : ℤ) ≤ s.verification.generationTimeMaxAge) :
    s.now - s.verification.generationTimeMaxAge ≤ (generation.toNat : ℤ) ∧
      (generation.toNat : ℤ) ≤ s.now + s.verification.generationTimeFutureTolerance := by
  simp only [timely, Bool.not_eq_true', Bool.or_eq_false_iff, decide_eq_false_iff_not] at h
  exact bounds_of_sums (clock_of_valid hc) hf ha h.1 h.2

/-! ### One message -/

/-- Policy and clock are the same, as `verify` leaves them. -/
structure SamePolicy (s t : SecurityEntity P) : Prop where
  verification : t.verification = s.verification
  now : t.now = s.now

theorem SamePolicy.trans {s t u : SecurityEntity P} (h : SamePolicy s t) (h' : SamePolicy t u) : SamePolicy s u :=
  ⟨h'.verification.trans h.verification, h'.now.trans h.now⟩

theorem SamePolicy.of_uncounted {s t : SecurityEntity P} (h : t.uncounted = s.uncounted) :
    SamePolicy s t ∧ t.accepted = s.accepted :=
  have hproj {β : Type} (f : SecurityEntity P → β) : f t.uncounted = f s.uncounted := congrArg f h
  ⟨⟨hproj SecurityEntity.verification, hproj SecurityEntity.now⟩, hproj SecurityEntity.accepted⟩

variable {t : SecurityEntity P} {confirm : VerifyConfirm} {id : HashedId8} {W : ℕ} {acc : List (HashedId8 × UInt64)}

theorem boundCache_frame (s : SecurityEntity P) : SamePolicy s s.boundCache ∧ s.boundCache.accepted = s.accepted := by
  unfold boundCache
  split_ifs <;> exact ⟨⟨rfl, rfl⟩, rfl⟩

/-- A message with the certificate id and the generation time is accepted: the
pair is new, and it is remembered. -/
structure Admitted (s t : SecurityEntity P) (confirm : VerifyConfirm) (generation : Option UInt64) (id : HashedId8)
    (g : UInt64) : Prop where
  report : confirm.report = .success
  certificateId : confirm.certificateId = some id
  generation_eq : generation = some g
  timely : s.timely g = true
  new : (id, g) ∉ s.accepted
  accepted : t.accepted = push s.verification.replayWindow s.accepted (id, g)

theorem Admitted.of_samePolicy {s t u : SecurityEntity P} {generation : Option UInt64}
    {g : UInt64} (h : Admitted u t confirm generation id g) (hs : SamePolicy s u)
    (ha : u.accepted = s.accepted) : Admitted s t confirm generation id g where
  report := h.report
  certificateId := h.certificateId
  generation_eq := h.generation_eq
  timely := by
    have ht := h.timely
    rw [SecurityEntity.timely, hs.verification, hs.now] at ht
    exact ht
  new := ha ▸ h.new
  accepted := by rw [h.accepted, hs.verification, ha]

theorem checkReplay_cases (hW : s.verification.replayWindow ≠ 0)
    (hr : confirm.report = .success) (hid : confirm.certificateId = some id) (generation : Option UInt64) :
    SamePolicy s (s.checkReplay confirm generation).2 ∧
      ((∃ g, Admitted s (s.checkReplay confirm generation).2 (s.checkReplay confirm generation).1 generation id g) ∨
        (s.checkReplay confirm generation).1.report ≠ .success ∧
          (s.checkReplay confirm generation).2.accepted = s.accepted) := by
  unfold checkReplay
  cases hg : generation.filter s.timely with
  | none => exact ⟨⟨rfl, rfl⟩, .inr ⟨by simp, rfl⟩⟩
  | some g =>
    obtain ⟨hgen, ht⟩ := Option.filter_eq_some_iff.mp hg
    simp only [hid, if_neg hW]
    split_ifs with hmem
    · exact ⟨⟨rfl, rfl⟩, .inr ⟨by simp, rfl⟩⟩
    · exact ⟨⟨rfl, rfl⟩, .inl ⟨g, hr, hid, hgen, ht, hmem, rfl⟩⟩

theorem conclude_cases (hW : s.verification.replayWindow ≠ 0)
    (hid : confirm.report = .success → ∃ id, confirm.certificateId = some id) (generation : Option UInt64) :
    SamePolicy s (s.conclude confirm generation).2 ∧
      ((confirm.report = .success ∧
          ∃ id g, Admitted s (s.conclude confirm generation).2 (s.conclude confirm generation).1 generation id g) ∨
        (s.conclude confirm generation).1.report ≠ .success ∧
          (s.conclude confirm generation).2.accepted = s.accepted) := by
  unfold conclude
  split_ifs with hr
  · obtain ⟨id, hid⟩ := hid hr
    obtain ⟨hsame, hcases⟩ := checkReplay_cases hW hr hid generation
    obtain ⟨hb, hba⟩ := boundCache_frame
      { (s.checkReplay confirm generation).2 with
        stats := (s.checkReplay confirm generation).2.stats.count (s.checkReplay confirm generation).1.report }
    refine ⟨hsame.trans ⟨hb.verification, hb.now⟩, ?_⟩
    rcases hcases with ⟨g, hg⟩ | ⟨hne, hacc⟩
    · exact .inl ⟨hr, id, g, { hg with accepted := hba.trans hg.accepted }⟩
    · exact .inr ⟨hne, hba.trans hacc⟩
  · obtain ⟨hb, hba⟩ := boundCache_frame { s with stats := s.stats.count confirm.report }
    exact ⟨⟨hb.verification, hb.now⟩, .inr ⟨hr, hba⟩⟩

theorem decapsulatePacket_window (hW : s.verification.replayWindow ≠ 0) (packet : SecuredPacket) :
    SamePolicy s (s.decapsulatePacket packet).2 ∧
      ((∃ c : Certificate, c.validAtTimepoint s.now = true ∧ ∃ id g, Admitted s (s.decapsulatePacket packet).2
          (s.decapsulatePacket packet).1 packet.generationTime id g) ∨
        (s.decapsulatePacket packet).1.report ≠ .success ∧
          (s.decapsulatePacket packet).2.accepted = s.accepted) := by
  cases packet with
  | v2 => exact ⟨⟨rfl, rfl⟩, .inr ⟨by simp [decapsulatePacket], rfl⟩⟩
  | v3 m =>
    rcases s.decapsulatePacket_cases m with ⟨hne, -, hu⟩ | ⟨data, t, -, hl, hcases⟩
    · have hs := SamePolicy.of_uncounted hu
      exact ⟨hs.1, .inr ⟨hne, hs.2⟩⟩
    · obtain ⟨hpolicy, hnow, hacc, -⟩ := learn_frame hl
      have hst : SamePolicy s t := ⟨hpolicy, hnow⟩
      obtain ⟨hbase, hver⟩ := t.receiver.verifySigned_frame data m.itsAid
      have hsame : SamePolicy s { t with receiver := (t.receiver.verifySigned data m.itsAid).2 } :=
        hst.trans ⟨hver, congrArg CertificateValidator.now hbase⟩
      rcases hcases with ⟨hr, -, hu⟩ | ⟨confirm, hc, hd⟩
      · have hs := SamePolicy.of_uncounted hu
        exact ⟨hsame.trans hs.1, .inr ⟨by simp [hr], hs.2.trans hacc⟩⟩
      · have hid : confirm.report = .success → ∃ id, confirm.certificateId = some id := fun hr => by
          obtain ⟨c, id, -, hid⟩ := Receiver.verifySigned_success hc hr
          exact ⟨id, hid⟩
        obtain ⟨hu, h⟩ := conclude_cases (by rw [hsame.verification]; exact hW) hid m.generationTime
        rw [hd]
        refine ⟨hsame.trans hu, ?_⟩
        rcases h with ⟨hr, id, g, hg⟩ | ⟨hne, ha⟩
        · obtain ⟨c, -, hv, -⟩ := Receiver.verifySigned_success hc hr
          have hbase := (ChainValidator.verdict_eq_valid.mp hv).1
          have hvalid : c.validAtTimepoint t.now = true := (CertificateValidator.validForSigning_eq_valid.mp hbase).2.1
          exact .inl ⟨c, hst.now ▸ hvalid, id, g, hg.of_samePolicy hsame hacc⟩
        · exact .inr ⟨hne, ha.trans hacc⟩

/-! ### Runs -/

def acceptedPair : EntityEvent P → EntityOutput → Option (HashedId8 × UInt64)
  | .decapsulate packet, .decapsulated confirm =>
    if confirm.report = .success then confirm.certificateId.bind fun id => packet.generationTime.map (id, ·) else none
  | _, _ => none

/-- No new policy changes the window. -/
def KeepsWindow (W : ℕ) (e : EntityEvent P) : Prop :=
  ∀ p, e = .environment (.setVerificationPolicy p) → p.replayWindow = W

/-- The window holds the last of the pairs accepted so far, and each of them
was new to it. -/
structure Window (W : ℕ) (s : SecurityEntity P) (acc : List (HashedId8 × UInt64)) : Prop where
  size : s.verification.replayWindow = W
  accepted : s.accepted = last W acc
  spaced : Spaced W acc

theorem Window.of_unchanged (h : Window W s acc)
    (hv : t.verification.replayWindow = s.verification.replayWindow) (ha : t.accepted = s.accepted) :
    Window W t (acc ++ Option.toList none) := by
  rw [Option.toList_none, List.append_nil]
  exact ⟨hv.trans h.size, ha.trans h.accepted, h.spaced⟩

theorem Window.of_decapsulate (hW : 0 < W) (h : Window W s acc)
    (packet : SecuredPacket) : Window W (s.decapsulatePacket packet).2 (acc ++
      (acceptedPair (P := P) (.decapsulate packet) (.decapsulated (s.decapsulatePacket packet).1)).toList) := by
  have hsize : s.verification.replayWindow ≠ 0 := by
    rw [h.size]
    omega
  obtain ⟨hs, ⟨-, -, id, g, hg⟩ | ⟨hne, ha⟩⟩ := decapsulatePacket_window hsize packet
  · have hnew : (id, g) ∉ last W acc := h.accepted ▸ hg.new
    simp only [acceptedPair, hg.report, if_true, hg.certificateId, hg.generation_eq, Option.bind_some, Option.map_some,
      Option.toList_some]
    refine ⟨by rw [hs.verification, h.size], ?_, h.spaced.snoc hnew⟩
    rw [hg.accepted, h.size, h.accepted, last_append hW]
  · rw [acceptedPair, if_neg hne]
    exact h.of_unchanged (by rw [hs.verification]) ha

theorem Window.of_step (hW : 0 < W) (h : Window W s acc) {e : EntityEvent P}
    (he : KeepsWindow W e) : Window W (s.step e).2 (acc ++ (acceptedPair e (s.step e).1).toList) := by
  cases e with
  | decapsulate packet => exact h.of_decapsulate hW packet
  | encapsulate request =>
    obtain ⟨policy, hp⟩ := s.encapsulatePacket_uncounted request
    obtain ⟨hs, ha⟩ := SamePolicy.of_uncounted hp
    exact h.of_unchanged (congrArg VerificationPolicy.replayWindow hs.verification) ha
  | environment e =>
    cases e with
    | setVerificationPolicy p => exact h.of_unchanged ((he p rfl).trans h.size.symm) rfl
    | _ => exact h.of_unchanged rfl rfl
  | _ => exact h.of_unchanged rfl rfl

theorem Window.of_run (hW : 0 < W) (hs : s.verification.replayWindow = W) (ha : s.accepted = [])
    (es : List (EntityEvent P)) (hes : ∀ e ∈ es, KeepsWindow W e) :
    Window W (final step s es) (history step acceptedPair s es) := by
  have hinit : Window W s [] := ⟨hs, ha.trans (by simp [last]), .nil⟩
  simpa using history_invariant step (fun _ _ _ h he => h.of_step hW he) es s [] hinit hes

/-- **Replay protection** with a window of constant length `W`: between two acceptances of one
pair at least `W` others are accepted, pairwise distinct. -/
theorem replay_protection (s₀ : SecurityEntity P) (W : ℕ) (hW : 0 < W) (h₀ : s₀.verification.replayWindow = W)
    (ha : s₀.accepted = []) (es : List (EntityEvent P)) (hes : ∀ e ∈ es, KeepsWindow W e) :
    let s := final step s₀ es
    (∀ pre mid post a, history step acceptedPair s₀ es = pre ++ a :: mid ++ a :: post →
      ∃ others, others <:+ mid ∧ others.length = W ∧ others.Nodup ∧ a ∉ others) ∧
    s.accepted.Nodup ∧ s.accepted.length ≤ W ∧
    ∀ packet, (s.decapsulatePacket packet).1.report = .success →
      ∃ id g, acceptedPair (P := P) (.decapsulate packet) (.decapsulated (s.decapsulatePacket packet).1) =
        some (id, g) ∧
        ((0 : ℤ) ≤ s.verification.generationTimeFutureTolerance → (0 : ℤ) ≤ s.verification.generationTimeMaxAge →
          s.now - s.verification.generationTimeMaxAge ≤ (g.toNat : ℤ) ∧
          (g.toNat : ℤ) ≤ s.now + s.verification.generationTimeFutureTolerance) := by
  intro s
  have hrun := Window.of_run hW h₀ ha es hes
  refine ⟨fun pre mid post a hl => Spaced.between hW (hl ▸ hrun.spaced), ?_, ?_, fun packet hr => ?_⟩
  · show (final step s₀ es).accepted.Nodup
    rw [hrun.accepted]
    exact hrun.spaced.nodup_last hW
  · show (final step s₀ es).accepted.length ≤ W
    rw [hrun.accepted, length_last]
    omega
  · have hsize : s.verification.replayWindow ≠ 0 := by
      have hs : s.verification.replayWindow = W := hrun.size
      omega
    obtain ⟨-, ⟨c, hc, id, g, hg⟩ | ⟨hne, -⟩⟩ := decapsulatePacket_window hsize packet
    · refine ⟨id, g, ?_, bounds_of_timely hg.timely hc⟩
      simp [acceptedPair, hr, hg.certificateId, hg.generation_eq]
    · exact absurd hr hne

/-- CAMs of an hour after 2004, all with the same signer. -/
def sampleReplay (generations : List UInt64) : List (EntityEvent markedPlatform) :=
  generations.map fun g => .decapsulate (.v3 (sampleCam (.certificate [circleTicket]) g 0))

/-- With a window of one, a message is accepted again after another one. -/
theorem replay_protection_two :
    let a : HashedId8 × UInt64 := (Vector.replicate 8 3, 3600000000)
    let b : HashedId8 × UInt64 := (Vector.replicate 8 3, 3600000001)
    history step acceptedPair (sampleEntity { replayWindow := 1 }) (sampleReplay [a.2, a.2, b.2, a.2, a.2]) =
      [a, b, a] ∧
      ∃ others, others <:+ [b] ∧ others.length = 1 ∧ others.Nodup ∧ a ∉ others :=
  have hrun : history step acceptedPair (sampleEntity { replayWindow := 1 })
      (sampleReplay [3600000000, 3600000000, 3600000001, 3600000000, 3600000000]) =
        [(Vector.replicate 8 3, 3600000000), (Vector.replicate 8 3, 3600000001),
          (Vector.replicate 8 3, 3600000000)] := by
    decide +kernel
  ⟨hrun, (replay_protection (sampleEntity { replayWindow := 1 }) 1 Nat.one_pos rfl rfl _
    (by simp [sampleReplay, KeepsWindow])).1 [] _ [] _ hrun⟩

end SecurityEntity
end VanetzaIdf.V3
