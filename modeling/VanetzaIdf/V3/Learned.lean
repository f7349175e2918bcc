/-
# Learned authorities

What `learn_authority` keeps is a CA certificate that was unknown, whose signature
verified under an authority known at that time (`Taken`). Going back through the
run one comes to a provisioned one, whatever was evicted in between
(`learned_rooted`).
-/
import VanetzaIdf.Lib.Machine
import VanetzaIdf.V3.SecurityEntity
import Mathlib.Logic.Relation

namespace VanetzaIdf.V3

open Lib Option

variable {P : Platform}

/-- The issuer is named by its digest, and its key verifies the signature. -/
def SignedUnder (P : Platform) (c issuer : Certificate) : Prop :=
  (∃ d, c.issuerDigest = some d ∧ issuer.calculateDigest P = some d) ∧
    verifyCertificateSignature P c (some issuer) = some true

namespace CombinedIssuerLookup

/-- In the trust store under some digest. -/
def Provisioned (i : CombinedIssuerLookup P) (c : Certificate) : Prop := ∃ d, i.trust.issuers d = some c

theorem Vouched.signedUnder {i : CombinedIssuerLookup P} {c : Certificate} (h : i.Vouched c) :
    ∃ issuer, SignedUnder P c issuer ∧ (i.Provisioned issuer ∨ ∃ a ∈ i.learned, a.val = issuer) := by
  obtain ⟨issuer, hi, hsig⟩ := h.signed
  obtain ⟨d, hd, hf⟩ := bind_eq_some_iff.mp hi
  refine ⟨issuer, ⟨⟨d, hd, findIssuer_digest hf⟩, hsig⟩, ?_⟩
  rcases findIssuer_cases hf with hp | ⟨hl, -⟩
  · exact .inl ⟨d, hp⟩
  · exact .inr hl

theorem digest_ne_of_findIssuer {i : CombinedIssuerLookup P} {d : HashedId8} (h : i.findIssuer d = none) :
    i.trust.issuers d = none ∧ ∀ a ∈ i.learned, a.val.calculateDigest P ≠ some d := by
  obtain ⟨hp, hl⟩ := or_eq_none_iff.mp h
  refine ⟨hp, fun a ha hd => ?_⟩
  have := List.find?_eq_none.mp hl a.val (List.mem_map_of_mem ha)
  simp [hd] at this

end CombinedIssuerLookup

namespace SecurityEntity

variable {s t : SecurityEntity P}

def issuers (s : SecurityEntity P) : CombinedIssuerLookup P := s.receiver.verifier.issuers

def learnedAuthorities (s : SecurityEntity P) : List Authority := s.issuers.learned

/-! ### One step -/

/-- An authority is learned from `s`: it was vouched for, and takes its place
under the limit of the policy in force. -/
structure Learns (s t : SecurityEntity P) (a : Authority) : Prop where
  vouched : s.issuers.Vouched a.val
  issuers : t.issuers = { s.issuers with
    learned := push (max 1 s.verification.learnedAuthorityLimit) s.learnedAuthorities a }
  verification : t.verification = s.verification

variable {data : SignedData} {a : Authority} {s₀ : SecurityEntity P} {es : List (EntityEvent P)}

theorem learn_issuers (h : s.learn data = some t) : t.issuers = s.issuers ∨ ∃ a, Learns s t a := by
  unfold learn at h
  split at h
  · exact .inl (congrArg issuers (some.inj h).symm)
  · obtain ⟨r, hr, rfl⟩ := map_eq_some_iff.mp h
    obtain ⟨r', hr', rfl⟩ := map_eq_some_iff.mp hr
    rcases CombinedIssuerLookup.learnAuthority_cases hr' with rfl | ⟨hca, hv, rfl⟩
    · exact .inl rfl
    · exact .inr ⟨⟨_, hca⟩, hv, rfl, rfl⟩

theorem decapsulatePacket_issuers (s : SecurityEntity P) (packet : SecuredPacket) :
    (s.decapsulatePacket packet).2.verification = s.verification ∧
      ((s.decapsulatePacket packet).2.issuers = s.issuers ∨ ∃ a, Learns s (s.decapsulatePacket packet).2 a) := by
  cases packet with
  | v2 => exact ⟨rfl, .inl rfl⟩
  | v3 m =>
    rcases s.decapsulatePacket_cases m with ⟨-, -, hu⟩ | ⟨data, t, -, hl, hcases⟩
    · have hv := congrArg verification hu
      have hi := congrArg issuers hu
      exact ⟨hv, .inl hi⟩
    · -- the verifier after the message is the one that `learn` left, up to the remembered tickets
      have hframe : (s.decapsulatePacket (.v3 m)).2.issuers = t.issuers ∧
          (s.decapsulatePacket (.v3 m)).2.verification = t.verification := by
        obtain ⟨hbase, hpol⟩ := t.receiver.verifySigned_frame data m.itsAid
        have hbase' := congrArg CertificateValidator.issuers hbase
        rcases hcases with ⟨-, -, hu⟩ | ⟨confirm, -, hd⟩
        · exact ⟨(congrArg issuers hu).trans hbase', (congrArg verification hu).trans hpol⟩
        · rw [hd]
          rcases conclude_receiver { t with receiver := (t.receiver.verifySigned data m.itsAid).2 } confirm
            m.generationTime with hc | hc
          all_goals
            simp only [issuers, verification, hc]
            exact ⟨hbase', hpol⟩
      have hver := hframe.2.trans (learn_frame hl).1
      refine ⟨hver, ?_⟩
      rcases learn_issuers hl with hi | ⟨a, ha⟩
      · exact .inl (hframe.1.trans hi)
      · exact .inr ⟨a, ha.vouched, hframe.1.trans ha.issuers, hver⟩

theorem step_learned (s : SecurityEntity P) (e : EntityEvent P) :
    (s.step e).2.learnedAuthorities = s.learnedAuthorities ∨ ∃ a, Learns s (s.step e).2 a := by
  cases e with
  | decapsulate packet =>
    rcases (s.decapsulatePacket_issuers packet).2 with h | h
    · exact .inl (congrArg CombinedIssuerLookup.learned h)
    · exact .inr h
  | encapsulate request =>
    obtain ⟨policy, hp⟩ := s.encapsulatePacket_uncounted request
    have hl := congrArg learnedAuthorities hp
    exact .inl hl
  | environment e => exact .inl (by cases e <;> rfl)
  | useTicket _ | changePending _ | committed | reportNewCamSigner => exact .inl rfl

theorem Learns.learned (h : Learns s t a) :
    t.learnedAuthorities = push (max 1 s.verification.learnedAuthorityLimit) s.learnedAuthorities a := by
  rw [learnedAuthorities, h.issuers]

theorem Learns.length_le (h : Learns s t a) :
    t.learnedAuthorities.length ≤ max 1 t.verification.learnedAuthorityLimit := by
  rw [h.learned, h.verification]
  exact length_push_le (by omega) _ _

theorem Learns.nodup (h : Learns s t a) (hs : (s.learnedAuthorities.map fun b => b.val.calculateDigest P).Nodup) :
    (t.learnedAuthorities.map fun b => b.val.calculateDigest P).Nodup := by
  obtain ⟨d, hd, hf⟩ := h.vouched.unknown
  obtain ⟨-, hne⟩ := CombinedIssuerLookup.digest_ne_of_findIssuer hf
  rw [h.learned, push, List.map_append, List.nodup_append]
  refine ⟨hs.sublist ((makeRoom_suffix _).sublist.map _), by simp, ?_⟩
  intro x hx y hy hxy
  obtain ⟨b, hb, rfl⟩ := List.mem_map.mp hx
  have hy' : y = a.val.calculateDigest P := by simpa using hy
  exact hne b ((makeRoom_suffix _).subset hb) (hxy.trans (hy'.trans hd))

/-! ### Runs -/

/-- The authority was learned by `e` in state `s`: it was new, and signed by an authority that was
provisioned or learned then. -/
structure Taken (s : SecurityEntity P) (e : EntityEvent P) (a : Authority) : Prop where
  learned : a ∈ (s.step e).2.learnedAuthorities
  signed : ∃ issuer, SignedUnder P a.val issuer ∧
    (s.issuers.Provisioned issuer ∨ ∃ b ∈ s.learnedAuthorities, b.val = issuer)
  not_provisioned : ∀ d c, s.issuers.trust.issuers d = some c → a.val.calculateDigest P ≠ some d
  not_learned : ∀ b ∈ s.learnedAuthorities, a.val.calculateDigest P ≠ b.val.calculateDigest P

theorem Learns.taken {e : EntityEvent P} (h : Learns s (s.step e).2 a) : Taken s e a := by
  obtain ⟨d, hd, hf⟩ := h.vouched.unknown
  obtain ⟨hp, hne⟩ := CombinedIssuerLookup.digest_ne_of_findIssuer hf
  refine ⟨?_, h.vouched.signedUnder, ?_, ?_⟩
  · rw [h.learned, push]
    exact List.mem_append_right _ List.mem_cons_self
  · intro d' c hc hd'
    obtain rfl : d = d' := some.inj (hd.symm.trans hd')
    exact absurd (hp.symm.trans hc) (by simp)
  · intro b hb hbd
    exact hne b hb (hbd.symm.trans hd)

/-- Verified signatures lead from the certificate to one that was provisioned
in the course of the run. -/
def Rooted (s₀ : SecurityEntity P) (es : List (EntityEvent P)) (c : Certificate) : Prop :=
  ∃ root, Relation.TransGen (SignedUnder P) c root ∧
    ∃ pre, pre <+: es ∧ (final step s₀ pre).issuers.Provisioned root

theorem Rooted.snoc {c : Certificate} (h : Rooted s₀ es c) (e : EntityEvent P) : Rooted s₀ (es ++ [e]) c := by
  obtain ⟨root, hroot, pre, hpre, hp⟩ := h
  exact ⟨root, hroot, pre, hpre.trans (List.prefix_append es [e]), hp⟩

/-- What is known of the learned authorities after a run. -/
structure Provenance (s₀ : SecurityEntity P) (es : List (EntityEvent P)) (s : SecurityEntity P) : Prop where
  taken : ∀ a ∈ s.learnedAuthorities, ∃ pre e post, es = pre ++ e :: post ∧ Taken (final step s₀ pre) e a
  rooted : ∀ a ∈ s.learnedAuthorities, Rooted s₀ es a.val
  nodup : (s.learnedAuthorities.map fun a => a.val.calculateDigest P).Nodup

theorem Provenance.of_step (h : Provenance s₀ es (final step s₀ es)) (e : EntityEvent P) :
    Provenance s₀ (es ++ [e]) ((final step s₀ es).step e).2 := by
  have hold : ∀ a ∈ (final step s₀ es).learnedAuthorities,
      (∃ pre e' post, es ++ [e] = pre ++ e' :: post ∧ Taken (final step s₀ pre) e' a) ∧
        Rooted s₀ (es ++ [e]) a.val := by
    intro a ha
    obtain ⟨pre, e', post, rfl, ht⟩ := h.taken a ha
    exact ⟨⟨pre, e', post ++ [e], by simp, ht⟩, (h.rooted a ha).snoc e⟩
  rcases step_learned (final step s₀ es) e with hs | ⟨b, hb⟩
  · rw [← hs] at hold
    exact ⟨fun a ha => (hold a ha).1, fun a ha => (hold a ha).2, hs.symm ▸ h.nodup⟩
  · have hnew : Rooted s₀ (es ++ [e]) b.val := by
      obtain ⟨issuer, hsig, hp | ⟨a, ha, rfl⟩⟩ := hb.vouched.signedUnder
      · exact ⟨issuer, .single hsig, es, List.prefix_append es [e], hp⟩
      · obtain ⟨root, hroot, hpre⟩ := (hold a ha).2
        exact ⟨root, .head hsig hroot, hpre⟩
    have hcases : ∀ a ∈ ((final step s₀ es).step e).2.learnedAuthorities,
        a ∈ (final step s₀ es).learnedAuthorities ∨ a = b := by
      intro a ha
      rw [hb.learned] at ha
      exact mem_of_mem_push ha
    refine ⟨fun a ha => ?_, fun a ha => ?_, hb.nodup h.nodup⟩
    · rcases hcases a ha with ha | rfl
      · exact (hold a ha).1
      · exact ⟨es, e, [], rfl, hb.taken⟩
    · rcases hcases a ha with ha | rfl
      · exact (hold a ha).2
      · exact hnew

/-- **Learned authorities are rooted.** Each was taken by an event of the run, and verified
signatures lead from it to a provisioned authority; they are distinct, and at most as many as the
policy allows. -/
theorem learned_rooted (s₀ : SecurityEntity P) (h₀ : s₀.learnedAuthorities = []) (es : List (EntityEvent P)) :
    (∀ a ∈ (final step s₀ es).learnedAuthorities,
      (a.val.isCaCertificate = true ∧ a.val.issuerIsSelf = false) ∧
      (∃ pre e post, es = pre ++ e :: post ∧ Taken (final step s₀ pre) e a) ∧ Rooted s₀ es a.val) ∧
    ((final step s₀ es).learnedAuthorities.map fun a => a.val.calculateDigest P).Nodup ∧
    ∀ e, ((final step s₀ es).step e).2.learnedAuthorities ≠ (final step s₀ es).learnedAuthorities →
      ((final step s₀ es).step e).2.learnedAuthorities.length ≤
        max 1 ((final step s₀ es).step e).2.verification.learnedAuthorityLimit := by
  have hprov : Provenance s₀ es (final step s₀ es) := by
    refine final_induction step ?_ (fun es e h => h.of_step e) es
    refine ⟨?_, ?_, ?_⟩ <;> simp [h₀]
  refine ⟨fun a ha => ⟨a.property, hprov.taken a ha, hprov.rooted a ha⟩, hprov.nodup, fun e hne => ?_⟩
  rcases step_learned (final step s₀ es) e with hs | ⟨b, hb⟩
  · exact absurd hs hne
  · exact hb.length_le

def sampleLink (mark issuer : UInt8) : Certificate :=
  sampleIssued mark (.sha256AndDigest (Vector.replicate 8 issuer)) true ⟨0, .years, 1⟩ none

/-- A CAM from a station not heard before, with a certificate someone asked for. -/
def sampleAnswer (c : Certificate) : EntityEvent markedPlatform :=
  .decapsulate (.v3 {
    protocolVersion := 3
    content := .signedData {
      hashId := .sha256
      tbsData := {
        payload := some { data := some (3, []) }
        headerInfo := { psid := Aid.CA, generationTime := some 3600000000, requestedCertificate := some c } }
      signer := .digest (Vector.replicate 8 9)
      signature := .ecdsaNistP256Signature (.xOnly []) [0] } })

theorem learned_rooted_evicted :
    let s₀ := sampleEntity { learnedAuthorityLimit := 1 }
    let es := [sampleAnswer (sampleLink 4 2), sampleAnswer (sampleLink 5 4)]
    (final step s₀ es).learnedAuthorities.map Subtype.val = [sampleLink 5 4] ∧ Rooted s₀ es (sampleLink 5 4) :=
  have hlearned : (final step (sampleEntity { learnedAuthorityLimit := 1 })
      [sampleAnswer (sampleLink 4 2), sampleAnswer (sampleLink 5 4)]).learnedAuthorities.map Subtype.val =
        [sampleLink 5 4] := by
    decide +kernel
  have hmem : ∃ a ∈ (final step (sampleEntity { learnedAuthorityLimit := 1 })
      [sampleAnswer (sampleLink 4 2), sampleAnswer (sampleLink 5 4)]).learnedAuthorities, a.val = sampleLink 5 4 :=
    List.mem_map.mp (by rw [hlearned]; exact List.mem_singleton_self _)
  ⟨hlearned, hmem.elim fun a ha =>
    ha.2 ▸ ((learned_rooted (sampleEntity { learnedAuthorityLimit := 1 }) rfl _).1 a ha.1).2.2⟩

end SecurityEntity
end VanetzaIdf.V3
