/-
# The remembered tickets

A certificate once verified is remembered by its digest, and the checks of the
chain validator are skipped from then on. In a run among certificates with distinct
digests a remembered ticket has a chain that would pass again (`Remembered`). So
the verdict is that of a validator that remembers nothing, as long as no call of
`set_verification_policy` turns the permissive flag off while tickets are remembered
(`verdict_transparent`, `verdict_remembered`).
-/
import VanetzaIdf.Lib.Run
import VanetzaIdf.Lib.Window
import VanetzaIdf.V3.ChainValidator

namespace VanetzaIdf.V3

open Lib Option

/-! ### The verifier -/

structure VerificationPolicy where
  generationTimeFutureTolerance : Duration := seconds 3
  generationTimeMaxAge : Duration := seconds 300
  replayWindow : ℕ := 256
  verifiedChainCache : ℕ := 64
  certificateCacheLimit : ℕ := 32
  learnedAuthorityLimit : ℕ := 8
  permissiveIdentifiedRegion : Bool := true
deriving DecidableEq, Repr

variable {P : Platform}

/-- `learn_authority`: whether the certificate was learned, and the lookup
afterwards; `none` is the exception of an encoder. -/
def CombinedIssuerLookup.learnAuthority (i : CombinedIssuerLookup P) (limit : ℕ) (c : Certificate) :
    Option (Bool × CombinedIssuerLookup P) :=
  if h : c.isCaCertificate = true ∧ c.issuerIsSelf = false then
    match c.calculateDigest P, i.findIssuerCertificate c with
    | some digest, some issuer =>
      -- known already
      if (i.findIssuer digest).isSome then some (false, i)
      else (verifyCertificateSignature P c (some issuer)).map fun ok =>
        if ok then (true, { i with learned := push (max 1 limit) i.learned ⟨c, h⟩ }) else (false, i)
    | _, _ => some (false, i)
  else some (false, i)

/-- What `learn_authority` asks of a certificate: it is not known, and its
signature verifies under an issuer that is. -/
structure CombinedIssuerLookup.Vouched (i : CombinedIssuerLookup P) (c : Certificate) : Prop where
  unknown : ∃ digest, c.calculateDigest P = some digest ∧ i.findIssuer digest = none
  signed : ∃ issuer, i.findIssuerCertificate c = some issuer ∧ verifyCertificateSignature P c (some issuer) = some true

variable {i : CombinedIssuerLookup P} {c : Certificate} {known : Certificate → Prop}

theorem CombinedIssuerLookup.learnAuthority_cases {limit : ℕ}
    {r : Bool × CombinedIssuerLookup P} (h : i.learnAuthority limit c = some r) : r = (false, i) ∨
      ∃ hca, i.Vouched c ∧ r = (true, { i with learned := push (max 1 limit) i.learned ⟨c, hca⟩ }) := by
  unfold learnAuthority at h
  split_ifs at h with hca
  · split at h
    · rename_i digest issuer hd hi
      split_ifs at h with hknown
      · exact .inl (some.inj h).symm
      · obtain ⟨ok, hok, rfl⟩ := map_eq_some_iff.mp h
        cases ok with
        | false => exact .inl rfl
        | true => exact .inr ⟨hca, ⟨⟨digest, hd, not_isSome_iff_eq_none.mp hknown⟩, issuer, hi, hok⟩, rfl⟩
    · exact .inl (some.inj h).symm
  · exact .inl (some.inj h).symm

structure Verifier (P : Platform) where
  chain : ChainValidator P
  verification : VerificationPolicy := {}

/-- What may change around the verifier; `advance` and `move` are the clock
and the position. -/
inductive EnvironmentEvent
  | addRoot (c : Certificate)
  | addAuthority (c : Certificate)
  | revoke (issuer certificate : HashedId8)
  | clearRevocations (issuer : HashedId8)
  | setVerificationPolicy (policy : VerificationPolicy)
  | advance (now : TimePoint)
  | move (position : PositionFix)
deriving DecidableEq, Repr

inductive VerifierEvent
  | validForSigning (c : Certificate) (aid : ItsAid)
  | learnAuthority (c : Certificate)
  | environment (e : EnvironmentEvent)
deriving DecidableEq, Repr

def EnvironmentEvent.certificate : EnvironmentEvent → Option Certificate
  | .addRoot c | .addAuthority c => some c
  | _ => none

def VerifierEvent.certificate : VerifierEvent → Option Certificate
  | .validForSigning c _ | .learnAuthority c => some c
  | .environment e => e.certificate

namespace Verifier

variable (s : Verifier P)

def base : CertificateValidator P := s.chain.base

def issuers : CombinedIssuerLookup P := s.base.issuers

def withBase (base : CertificateValidator P) : Verifier P := { s with chain := { s.chain with base } }

def withIssuers (issuers : CombinedIssuerLookup P) : Verifier P :=
  s.withBase { s.base with issuers }

def withTrust (trust : TrustConfiguration P) : Verifier P :=
  s.withIssuers { s.issuers with trust }

/-- `set_verification_policy`; what is remembered stays. -/
def setVerificationPolicy (policy : VerificationPolicy) : Verifier P where
  verification := policy
  chain := {
    base := { s.base with locationPermissive := policy.permissiveIdentifiedRegion }
    capacity := max 1 policy.verifiedChainCache
    permissiveIdentifiedRegion := policy.permissiveIdentifiedRegion
    verified := s.chain.verified }

def validForSigning (c : Certificate) (aid : ItsAid) : Option Verdict × Verifier P :=
  ((s.chain.validForSigning c aid).1, { s with chain := (s.chain.validForSigning c aid).2 })

/-- `learn_authority`; `none` is the exception of an encoder. -/
def learnAuthority (c : Certificate) : Option (Bool × Verifier P) :=
  (s.issuers.learnAuthority s.verification.learnedAuthorityLimit c).map fun r => (r.1, s.withIssuers r.2)

def environment : EnvironmentEvent → Verifier P
  | .addRoot c => s.withTrust (s.issuers.trust.addRoot c).2
  | .addAuthority c => s.withTrust (s.issuers.trust.addAuthority c).2
  | .revoke issuer certificate => s.withTrust (s.issuers.trust.revoke issuer certificate)
  | .clearRevocations issuer => s.withTrust (s.issuers.trust.clearRevocations issuer)
  | .setVerificationPolicy policy => s.setVerificationPolicy policy
  | .advance now => s.withBase { s.base with now }
  | .move position => s.withBase { s.base with position }

/-- An exception leaves everything as it is. -/
def step : VerifierEvent → Option (Verifier P)
  | .validForSigning c aid => some (s.validForSigning c aid).2
  | .learnAuthority c => some (((s.learnAuthority c).map Prod.snd).getD s)
  | .environment e => some (s.environment e)

end Verifier

/-! ### Chains of known certificates -/

/-- No two known certificates have one digest. -/
def DistinctDigests (P : Platform) (known : Certificate → Prop) : Prop :=
  ∀ c d e, known c → known d → c.calculateDigest P = some e → d.calculateDigest P = some e → c = d

/-- A known certificate with the digest that the subject names. -/
def KnownIssuer (P : Platform) (known : Certificate → Prop) (subject issuer : Certificate) : Prop :=
  known issuer ∧ ∃ d, subject.issuerDigest = some d ∧ issuer.calculateDigest P = some d

/-- Known issuers up to a self-signed certificate. -/
def KnownChain (P : Platform) (known : Certificate → Prop) : Certificate → List Certificate → Prop :=
  Path (fun c => c.issuerIsSelf = true) (KnownIssuer P known)

theorem knownIssuer_rightUnique (hk : DistinctDigests P known) : Relator.RightUnique (KnownIssuer P known) := by
  rintro subject issuer issuer' ⟨hi, d, hd, hdi⟩ ⟨hi', d', hd', hdi'⟩
  obtain rfl : d = d' := some.inj (hd.symm.trans hd')
  exact hk issuer issuer' d hi hi' hdi hdi'

/-- Whatever the lookup can find is known. -/
structure KnownIssuers (known : Certificate → Prop) (i : CombinedIssuerLookup P) : Prop where
  provisioned : ∀ d c, i.trust.issuers d = some c → known c
  learned : ∀ a ∈ i.learned, known a.val

theorem KnownIssuers.knownChain (hi : KnownIssuers known i)
    {l : List Certificate} (h : i.Chain c l) : KnownChain P known c l := by
  refine h.mono fun subject issuer hs => ?_
  obtain ⟨d, hd, hf⟩ := CombinedIssuerLookup.IssuedBy.exists_digest hs
  refine ⟨?_, d, hd, CombinedIssuerLookup.findIssuer_digest hf⟩
  rcases CombinedIssuerLookup.findIssuer_cases hf with hp | ⟨⟨a, ha, rfl⟩, -⟩
  · exact hi.provisioned d issuer hp
  · exact hi.learned a ha

theorem ChainValidator.Vetted.mono {permissive permissive' : Bool} {chain : List Certificate}
    (hp : permissive = true → permissive' = true) (h : Vetted P permissive chain) : Vetted P permissive' chain where
  length_le := h.length_le
  signed := h.signed
  permissions := h.permissions
  regions := h.regions.imp fun _ _ hr => Consistency.regionWithin_mono hp hr

/-! ### What is remembered -/

/-- Every remembered digest belongs to a known certificate whose chain passes
the checks behind the cache, under the given permissive flag. -/
def Remembered (known : Certificate → Prop) (permissive : Bool) (v : ChainValidator P) : Prop :=
  ∀ d ∈ v.verified, ∃ c l, known c ∧ c.calculateDigest P = some d ∧ KnownChain P known c l ∧
    ChainValidator.Vetted P permissive l

/-- Issuers are known, and tickets remembered for known certificates only. -/
structure Coherent (known : Certificate → Prop) (permissive : Bool) (s : Verifier P) : Prop where
  issuers : KnownIssuers known s.issuers
  remembered : Remembered known permissive s.chain

/-- The event brings no unknown certificate. -/
def Familiar (known : Certificate → Prop) (_ : Verifier P) (e : VerifierEvent) : Prop :=
  ∀ c, e.certificate = some c → known c

/-- In addition, a policy that turns the permissive flag off comes while
nothing is remembered. -/
def Admissible (known : Certificate → Prop) (s : Verifier P) (e : VerifierEvent) : Prop :=
  Familiar known s e ∧ ∀ p, e = .environment (.setVerificationPolicy p) → p.permissiveIdentifiedRegion = false →
    s.chain.permissiveIdentifiedRegion = false ∨ s.chain.verified = []

namespace KnownIssuers

variable {known : Certificate → Prop} {i : CombinedIssuerLookup P} {c : Certificate}

theorem update (hi : KnownIssuers known i) (hc : known c) {d : HashedId8} :
    ∀ e b, Function.update i.trust.issuers d (some c) e = some b → known b := by
  intro e b hb
  by_cases he : e = d
  · subst he
    rw [Function.update_self, some.injEq] at hb
    exact hb ▸ hc
  · rw [Function.update_of_ne he] at hb
    exact hi.provisioned e b hb

theorem addRoot (hi : KnownIssuers known i) (hc : known c) :
    KnownIssuers known { i with trust := (i.trust.addRoot c).2 } := by
  refine ⟨?_, hi.learned⟩
  unfold TrustConfiguration.addRoot
  split_ifs
  · split
    · exact hi.update hc
    · exact hi.provisioned
  · exact hi.provisioned

theorem addAuthority (hi : KnownIssuers known i) (hc : known c) :
    KnownIssuers known { i with trust := (i.trust.addAuthority c).2 } := by
  refine ⟨?_, hi.learned⟩
  unfold TrustConfiguration.addAuthority
  split_ifs
  · split
    · split_ifs
      · exact hi.provisioned
      · exact hi.update hc
    · exact hi.provisioned
  · exact hi.provisioned

theorem learnAuthority (hi : KnownIssuers known i) (hc : known c) {limit : ℕ} {r : Bool × CombinedIssuerLookup P}
    (h : i.learnAuthority limit c = some r) : KnownIssuers known r.2 := by
  rcases CombinedIssuerLookup.learnAuthority_cases h with rfl | ⟨_, -, rfl⟩
  · exact hi
  · refine ⟨hi.provisioned, fun a ha => ?_⟩
    rcases mem_of_mem_push ha with ha | rfl
    · exact hi.learned a ha
    · exact hc

end KnownIssuers

namespace Coherent

variable {known : Certificate → Prop} {permissive : Bool} {s t : Verifier P}

theorem validForSigning (h : Coherent known permissive s)
    (hp : s.chain.permissiveIdentifiedRegion = true → permissive = true) {c : Certificate} (hc : known c)
    (aid : ItsAid) :
    Coherent known permissive (s.validForSigning c aid).2 := by
  unfold Verifier.validForSigning
  rcases s.chain.validForSigning_cases c aid with hs | ⟨digest, hd, hv, hs⟩
  · rw [hs]
    exact h
  · obtain ⟨l, hl, hvet⟩ := ChainValidator.verifyChain_eq_valid.mp hv
    rw [hs]
    refine ⟨h.issuers, fun d hmem => ?_⟩
    rcases List.mem_cons.mp hmem with rfl | hmem
    · exact ⟨c, l, hc, hd, h.issuers.knownChain hl, hvet.mono hp⟩
    · split_ifs at hmem
      · simp at hmem
      · exact h.remembered d hmem

theorem learnAuthority (h : Coherent known permissive s) {c : Certificate} (hc : known c) {r : Bool × Verifier P}
    (hl : s.learnAuthority c = some r) : Coherent known permissive r.2 := by
  obtain ⟨r', hr', rfl⟩ := map_eq_some_iff.mp hl
  exact ⟨h.issuers.learnAuthority hc hr', h.remembered⟩

theorem environment (h : Coherent known permissive s) {e : EnvironmentEvent}
    (he : ∀ c, e.certificate = some c → known c) :
    Coherent known permissive (s.environment e) := by
  cases e with
  | addRoot c => exact ⟨h.issuers.addRoot (he c rfl), h.remembered⟩
  | addAuthority c => exact ⟨h.issuers.addAuthority (he c rfl), h.remembered⟩
  | revoke _ _ | clearRevocations _ | setVerificationPolicy _ | advance _ | move _ =>
    exact ⟨⟨h.issuers.provisioned, h.issuers.learned⟩, h.remembered⟩

theorem step (h : Coherent known permissive s) (hp : s.chain.permissiveIdentifiedRegion = true → permissive = true)
    {e : VerifierEvent} (he : Familiar known s e) (hs : s.step e = some t) : Coherent known permissive t := by
  cases e with
  | validForSigning c aid =>
    obtain rfl := some.inj hs
    exact h.validForSigning hp (he c rfl) aid
  | learnAuthority c =>
    obtain rfl := some.inj hs
    cases hl : s.learnAuthority c with
    | none => exact h
    | some r => exact h.learnAuthority (he c rfl) hl
  | environment e =>
    obtain rfl := some.inj hs
    exact h.environment he

theorem of_forgotten (hi : KnownIssuers known s.issuers) (hv : s.chain.verified = []) : Coherent known permissive s :=
  ⟨hi, fun d hd => by simp [hv] at hd⟩

theorem of_run (hi : KnownIssuers known s.issuers) (hv : s.chain.verified = [])
    (hr : Run Verifier.step (Familiar known) s t) : Coherent known true t :=
  hr.invariant (I := Coherent known true) (of_forgotten hi hv) fun _ h he hs => h.step (fun _ => rfl) he hs

theorem vetted (hk : DistinctDigests P known) (h : Coherent known permissive s) {c : Certificate} (hc : known c)
    {l : List Certificate} (hl : s.issuers.Chain c l) {digest : HashedId8} (hd : c.calculateDigest P = some digest)
    (hmem : digest ∈ s.chain.verified) : ChainValidator.Vetted P permissive l := by
  obtain ⟨c', l', hc', hd', hl', hv⟩ := h.remembered digest hmem
  obtain rfl := hk c c' digest hc hc' hd hd'
  obtain rfl := Path.unique (knownIssuer_rightUnique hk) hl' (h.issuers.knownChain hl)
  exact hv

end Coherent

/-! ### Transparency -/

variable (v : ChainValidator P)

/-- The same validator with nothing remembered. -/
def ChainValidator.forget : ChainValidator P := { v with verified := [] }

@[simp] theorem ChainValidator.forget_base : v.forget.base = v.base := rfl

@[simp] theorem ChainValidator.forget_verified : v.forget.verified = [] := rfl

@[simp] theorem ChainValidator.forget_verifyChain (c : Certificate) :
    v.forget.verifyChain c = v.verifyChain c := rfl

theorem Verifier.permissive_of_step {s t : Verifier P} {e : VerifierEvent}
    (hp : ∀ p, e ≠ .environment (.setVerificationPolicy p)) (hs : s.step e = some t) :
    t.chain.permissiveIdentifiedRegion = s.chain.permissiveIdentifiedRegion := by
  cases e with
  | validForSigning c aid =>
    obtain rfl := some.inj hs
    unfold validForSigning
    rcases s.chain.validForSigning_cases c aid with hs' | ⟨digest, -, -, hs'⟩
    · rw [hs']
    · rw [hs']
      rfl
  | learnAuthority c =>
    obtain rfl := some.inj hs
    cases hl : s.learnAuthority c with
    | none => rfl
    | some r =>
      obtain ⟨r', -, rfl⟩ := map_eq_some_iff.mp hl
      rfl
  | environment e =>
    obtain rfl := some.inj hs
    cases e with
    | setVerificationPolicy p => exact absurd rfl (hp p)
    | _ => rfl

theorem Coherent.step_admissible {s t : Verifier P} {e : VerifierEvent}
    (h : Coherent known s.chain.permissiveIdentifiedRegion s) (ha : Admissible known s e) (hs : s.step e = some t) :
    Coherent known t.chain.permissiveIdentifiedRegion t := by
  have ht := h.step id ha.1 hs
  by_cases hp : ∃ p, e = .environment (.setVerificationPolicy p)
  · obtain ⟨p, rfl⟩ := hp
    obtain rfl := some.inj hs
    refine ⟨ht.issuers, fun d hd => ?_⟩
    obtain ⟨c, l, hc, hdc, hl, hv⟩ := ht.remembered d hd
    refine ⟨c, l, hc, hdc, hl, hv.mono fun hon => ?_⟩
    -- the flag was on, and something is remembered: it stays on
    by_contra hoff
    rcases ha.2 p rfl (eq_false_of_ne_true hoff) with h' | h'
    · exact Bool.false_ne_true (h'.symm.trans hon)
    · have hd' : d ∈ s.chain.verified := hd
      simp [h'] at hd'
  · rw [Verifier.permissive_of_step (fun p hpe => hp ⟨p, hpe⟩) hs]
    exact ht

theorem Coherent.verdict_eq (hk : DistinctDigests P known) {s : Verifier P}
    (h : Coherent known s.chain.permissiveIdentifiedRegion s) (hc : known c) (aid : ItsAid) :
    s.chain.verdict c aid = s.chain.forget.verdict c aid := by
  rw [ChainValidator.verdict_eq, ChainValidator.verdict_eq, ChainValidator.forget_base]
  split_ifs with hb
  · cases hd : c.calculateDigest P with
    | none => rfl
    | some digest =>
      by_cases hmem : digest ∈ s.chain.verified
      · -- a remembered ticket passes the checks that are skipped
        obtain ⟨l, hl, -⟩ := CertificateValidator.exists_chain hb
        have hv := ChainValidator.verifyChain_eq_valid.mpr ⟨l, hl, h.vetted hk hc hl hd hmem⟩
        simp [hv]
      · simp [hmem]
  · rfl

/-- **The remembered tickets are transparent**, among certificates with distinct digests and as
long as the permissive flag is turned off only while nothing is remembered. -/
theorem verdict_transparent {known : Certificate → Prop} (hk : DistinctDigests P known) {s₀ s : Verifier P}
    (h₀ : s₀.chain.verified = []) (hi : KnownIssuers known s₀.issuers)
    (hr : Run Verifier.step (Admissible known) s₀ s) (c : Certificate) (hc : known c) (aid : ItsAid) :
    s.chain.verdict c aid = s.chain.forget.verdict c aid := by
  have hinv : Coherent known s.chain.permissiveIdentifiedRegion s :=
    hr.invariant (I := fun t => Coherent known t.chain.permissiveIdentifiedRegion t) (.of_forgotten hi h₀)
      fun _ h ha hs => h.step_admissible ha hs
  exact hinv.verdict_eq hk hc aid

def circleTicket : Certificate := sampleTicket ⟨0, .hours, 2⟩ (some (.circularRegion ⟨⟨0, 0⟩, 100⟩))

def countryAuthority : Certificate := sampleAuthority ⟨0, .years, 1⟩ (some (.identifiedRegion [.countryOnly 276]))

def sampleVerifier : Verifier markedPlatform := ⟨sampleValidator (sampleRoot none) countryAuthority (seconds 3600), {}⟩

/-- The chain of the sample. -/
def SampleKnown (c : Certificate) : Prop := c = circleTicket ∨ c = countryAuthority ∨ c = sampleRoot none

theorem sampleKnown_distinct : DistinctDigests markedPlatform SampleKnown := by
  rintro c d e (rfl | rfl | rfl) (rfl | rfl | rfl) hc hd
  all_goals first | rfl | exact absurd (hc.trans hd.symm) (by decide)

theorem sampleVerifier_known : KnownIssuers SampleKnown sampleVerifier.issuers :=
  have h : KnownIssuers SampleKnown (⟨{}, []⟩ : CombinedIssuerLookup markedPlatform) := ⟨by simp, by simp⟩
  (h.addRoot (.inr (.inr rfl))).addAuthority (.inr (.inl rfl))

/-- The ticket is verified, and then remembered. -/
theorem verdict_transparent_twice :
    let s := (sampleVerifier.validForSigning circleTicket Aid.CA).2
    s.chain.verdict circleTicket Aid.CA = s.chain.forget.verdict circleTicket Aid.CA :=
  verdict_transparent sampleKnown_distinct rfl sampleVerifier_known
    (.tail (.validForSigning circleTicket Aid.CA) .refl
      ⟨fun _ hc => .inl (some.inj hc).symm, fun _ hp => nomatch hp⟩ rfl) circleTicket (.inl rfl) Aid.CA

/-- The ticket is verified under the permissive policy, and stays valid when
the policy is made strict. -/
theorem verdict_remembered : ∃ (P : Platform) (known : Certificate → Prop) (s₀ s : Verifier P) (c : Certificate)
    (aid : ItsAid), DistinctDigests P known ∧ s₀.chain.verified = [] ∧ KnownIssuers known s₀.issuers ∧
      Run Verifier.step (Familiar known) s₀ s ∧ known c ∧
      s.chain.verdict c aid = some .valid ∧ s.chain.forget.verdict c aid = some .inconsistentChain :=
  ⟨markedPlatform, SampleKnown, sampleVerifier, _, circleTicket, Aid.CA, sampleKnown_distinct, rfl,
    sampleVerifier_known,
    .tail (.environment (.setVerificationPolicy { permissiveIdentifiedRegion := false }))
      (.tail (.validForSigning circleTicket Aid.CA) .refl (fun _ hc => .inl (some.inj hc).symm) rfl)
      (fun _ hc => nomatch hc) rfl,
    .inl rfl, by decide +kernel, by decide +kernel⟩

end VanetzaIdf.V3
