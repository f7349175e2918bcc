/-
# One pseudonym a packet

The address is set when the stack is made and at every COMMIT, the ticket changed
by `select`, right before COMMIT, and by the first `add` to an empty pool. So every
packet carries the address of the ticket that signed it
(`signed_under_own_address`), in every run in which no ticket is added to an empty
pool (`signed_under_foreign_address`) and no target of a round in PREPARE is pruned
(`PrunesTarget`). The invariant is `Consistent`: the stack follows the manager.
-/
import VanetzaIdf.Stack.Steps

namespace VanetzaIdf.Stack

open Lib Geonet
open IdentityManager

/-- A packet of this station carries the address of the ticket that signed
it, and is sent from it. -/
def Paired (d : DownRequest) : Prop :=
  d.origin ≠ .other → ∃ m ∈ d.pdu.secured, m.request.extended = d.pdu.extended ∧
    d.pdu.extended.sourcePosition.gnAddr.mid = midOf m.signer ∧ d.source = midOf m.signer

instance (d : DownRequest) : Decidable (Paired d) := by
  unfold Paired
  infer_instance

/-- A ticket comes into an empty pool, or the target of a round goes. -/
def Mispairs (s : State) : Event → Prop
  | .manager e => FillsPool s.manager e ∨ PrunesTarget s.manager e
  | _ => False

instance (s : State) (e : Event) : Decidable (Mispairs s e) := by
  cases e <;> unfold Mispairs <;> infer_instance

variable {env : Environment} {s s' : State} {h : SubscriptionHandle}

/-! ### The router at work -/

theorem paired_acts {H H' : List ℕ} {p : CertificatePool} {b : Bool} {r r' : Router Security.Entity}
    (hsec : r.mib.itsGnSecurity = true) (hmeth : r.mib.itsGnLocalAddrConfMethod ≠ .auto) (hs : Sees p b r)
    (hmid : b = false → ∀ t, p.current = some t → r.localPositionVector.gnAddr.mid = midOf t.digest)
    (hp : ∀ d ∈ r.requests, Paired d) (h : Router.Acts env H r H' r') : ∀ d ∈ r'.requests, Paired d := by
  have hall : Router.Keeps r r' ∧ Sees p b r' ∧ ∀ d ∈ r'.requests, Paired d := by
    refine h.invariant (I := fun _ u => Router.Keeps r u ∧ Sees p b u ∧ ∀ d ∈ u.requests, Paired d)
      ⟨.of_runtime rfl rfl rfl, hs, hp⟩ ?_
    rintro K u K' v ⟨hk, hu, hd⟩ ha
    refine ⟨hk.trans ha.keeps, hu.act ha, ?_⟩
    cases ha with
    | quiet _ _ _ _ _ hr _ => exact hr ▸ hd
    | signed e q m d _ he hm hsm hext hsrc hfrom _ =>
      intro d' hd'
      rcases List.mem_cons.mp hd' with rfl | hd'
      · intro _
        obtain ⟨hpend, hreq, t, ht, hsig⟩ := Security.Entity.encapsulatePacket_some hm
        obtain ⟨hpool, hchg⟩ := hu e he
        have hpv : u.localPositionVector.gnAddr.mid = midOf m.signer := by
          rw [hk.address hmeth, hsig]
          exact hmid (hchg.symm.trans hpend) t (hpool ▸ ht)
        refine ⟨m, hsm, by rw [hreq, hext], ?_, hfrom.trans hpv⟩
        rw [hext, hsrc]
        exact hpv
      · exact hd d' hd'
    | plain d hoff _ _ =>
      rw [hk.mib, hsec] at hoff
      cases hoff
    | forwarded d ho =>
      intro d' hd'
      rcases List.mem_cons.mp hd' with rfl | hd'
      · exact fun hne => absurd ho hne
      · exact hd d' hd'
    | _ => exact hd
  exact hall.2.2

/-! ### The station -/

def State.mid (s : State) : MacAddress := s.router.localPositionVector.gnAddr.mid

/-- The stack follows the identifier, and has paired what it sent. -/
structure Consistent (h : SubscriptionHandle) (s : State) : Prop where
  sound : Sound s
  announced : Announced s.manager
  subscription : s.subscription = some h
  method : s.router.mib.itsGnLocalAddrConfMethod = .anonymous
  security : s.router.mib.itsGnSecurity = true
  follows : Follows s.manager h fun id => s.mid = midOf id
  paired : ∀ d ∈ s.router.requests, Paired d

namespace Consistent

theorem mid_eq (hc : Consistent h s) (hr : s.manager.round.isSome = false) (t : Ticket)
    (ht : s.manager.pool.current = some t) : s.mid = midOf t.digest := by
  have hst : s.manager.stage = none := IdentityManager.State.stage_none.mpr (by simpa using hr)
  have hn : s.manager.pool.tickets ≠ [] := fun he => by
    simp [CertificatePool.current, he] at ht
  have := hc.follows.settled (fun r id => by simp [hst]) hn
  simpa [CertificatePool.identifier, ht] using this

theorem keep (hc : Consistent h s) (hs : Sound s') (ha : Announced s'.manager)
    (hsub : s'.subscription = s.subscription) (hm : s'.router.mib = s.router.mib)
    (hf : Follows s'.manager h fun id => s'.mid = midOf id) (hp : ∀ d ∈ s'.router.requests, Paired d) :
    Consistent h s' :=
  ⟨hs, ha, hsub.trans hc.subscription, hm ▸ hc.method, hm ▸ hc.security, hf, hp⟩

theorem paired_router (hc : Consistent h s) {rt : Runtime} {r : Router Security.Entity}
    (ha : Router.Acts env [] { s.load with runtime := rt } [] r) :
    r.localPositionVector.gnAddr.mid = s.mid ∧ ∀ d ∈ r.requests, Paired d := by
  have hmeth : s.load.mib.itsGnLocalAddrConfMethod ≠ .auto := by
    show s.router.mib.itsGnLocalAddrConfMethod ≠ .auto
    simp [hc.method]
  refine ⟨congrArg Address.mid (ha.keeps.address hmeth), ?_⟩
  exact paired_acts (r := { s.load with runtime := rt }) hc.security hmeth (sees_load s) hc.mid_eq hc.paired ha

theorem called (hc : Consistent h s) {n : Notification} {k : SubscriptionHandle} {m : IdentityManager.State}
    (hcall : Calls s.manager n k m) (hcmd : n.command ≠ .commit) :
    Announced m ∧ Follows m h fun id => s.mid = midOf id := by
  refine ⟨announced_step hc.sound.inv hc.announced id hcall.step, ?_⟩
  refine follows_step hc.sound.inv hc.announced hc.follows id (by simp) hcall.step fun id r hlog => ?_
  rw [hcall.log] at hlog
  exact hcmd (by simpa using (List.cons.inj hlog).1 : n.command = .commit ∧ _).1

theorem called_commit (hc : Consistent h s) {n : Notification} {m : IdentityManager.State}
    (hcall : Calls s.manager n h m) (hcmd : n.command = .commit) :
    Announced m ∧ Follows m h fun id => midOf n.id = midOf id := by
  refine ⟨announced_step hc.sound.inv hc.announced id hcall.step, ?_⟩
  have hok := hc.sound.inv.notifications
    n (by rw [IdentityManager.State.active_loop hcall.loop]; exact List.mem_cons_self)
  have hst : m.stage = some (n.subject, .commit, n.id) := by
    rw [← hok.commit hcmd]
    unfold IdentityManager.State.stage
    rw [hcall.round]
  exact follows_commit hst ((hcall.inv hc.sound.inv).2 h hc.follows.subscribed) rfl

end Consistent

/-- **Every step keeps the station consistent**, unless it brings the first
ticket or takes away the target of a round. -/
theorem consistent_step {e : Event} (hc : Consistent h s) (hg : ¬ Mispairs s e) (hst : step env s e = some s') :
    Consistent h s' := by
  have ht := trans_of_step hc.sound hst
  have hs' := sound_step hc.sound ht
  have hi := hc.sound.inv
  cases ht with
  | stay e => exact hc
  | router e rt r _ hu hnow hq ha =>
    obtain ⟨hmid, hp⟩ := hc.paired_router ha
    refine hc.keep hs' (hc.announced.keep rfl rfl rfl rfl (.inl rfl)) rfl ha.keeps.mib ?_ hp
    rw [show (s.save r).mid = s.mid from hmid]
    exact ⟨hc.follows.subscribed, hc.follows.committed, hc.follows.settled⟩
  | position fix hu =>
    exact hc.keep hs' (hc.announced.keep rfl rfl rfl rfl (.inl rfl)) rfl rfl
      ⟨hc.follows.subscribed, hc.follows.committed, hc.follows.settled⟩ hc.paired
  | address addr hu hm =>
    rw [hc.method] at hm
    cases hm
  | manager e m hp hm hno =>
    obtain ⟨hfill, hprune⟩ := not_or.mp hg
    have hne : e ≠ .unsubscribe h := by
      rintro rfl
      exact hp hc.subscription
    refine hc.keep hs' (announced_step hi hc.announced hprune hm) rfl rfl ?_ hc.paired
    exact follows_step hi hc.announced hc.follows hfill hne hm fun id r =>
      not_delivered hm (hno h hc.subscription) .commit id r
  | prepare n k m₁ m₂ m₃ r hsub hcmd hcall hr h₂ h₃ =>
    obtain ⟨ha₁, hf₁⟩ := hc.called hcall (by simp [hcmd])
    obtain ⟨rest, -, hfr⟩ := hcall.frames
    have hacts : Router.Acts env [] s.load [] r := hr ▸ Router.flush_acts _
    have hi₁ : Inv { m₁ with runtime := r.runtime } :=
      (hcall.inv hi).1.of_runtime (hcall.runtime ▸ roundTimeout_of_keeps hacts.keeps)
    obtain ⟨ha₃, hf₃⟩ := follows_answer hi₁ (ha₁.keep rfl rfl rfl rfl (.inl rfl))
      ⟨hf₁.subscribed, hf₁.committed, hf₁.settled⟩ hcall.control hfr h₂ h₃
    obtain ⟨hmid, hp⟩ := hc.paired_router hacts
    refine hc.keep hs' ha₃ rfl hacts.keeps.mib ?_ hp
    rwa [← hmid] at hf₃
  | commit n k m₁ m₂ m₃ hsub hcmd hcall h₂ h₃ =>
    obtain rfl := Option.some.inj (hsub.symm.trans hc.subscription)
    obtain ⟨ha₁, hf₁⟩ := hc.called_commit hcall hcmd
    obtain ⟨rest, -, hfr⟩ := hcall.frames
    obtain ⟨ha₃, hf₃⟩ := follows_answer (hcall.inv hi).1 ha₁ hf₁ hcall.control hfr h₂ h₃
    exact ⟨hs', ha₃, hsub, hc.method, hc.security, hf₃, hc.paired⟩
  | abort n k m₁ m₃ hsub hcmd hcall h₃ =>
    obtain ⟨ha₁, hf₁⟩ := hc.called hcall (by simp [hcmd])
    obtain ⟨ha₃, hf₃⟩ := follows_user_step (hcall.inv hi).1 ha₁ hf₁ hcall.control id id (by simp) h₃
    exact hc.keep hs' ha₃ rfl rfl hf₃ hc.paired

theorem consistent_init {pool : CertificatePool} {now : TimePoint} {m : IdentityManager.State} (cfg : StackConfig)
    {mib : Mib} (e : Security.Entity) (hp : pool.Wf)
    (hm : Run IdentityManager.step (fun u e => ¬ PrunesTarget u e) (IdentityManager.init pool now) m)
    (hu : m.control = .user) (hmeth : mib.itsGnLocalAddrConfMethod = .anonymous) (hsec : mib.itsGnSecurity = true)
    (hid : m.pool.tickets = [] ∨ m.currentIdentifier ≠ Identifier.none) :
    Consistent m.nextSubscription (init env cfg mib m e) := by
  have hsound : Sound (init env cfg mib m e) := sound_init cfg mib e hp hm hu
  have hi := inv_reach hp hm
  have ha := announced_reach hp hm
  obtain ⟨hmib, hreq, -⟩ := Router.init_frame env mib m.runtime (some e)
  set r := (Router.init env mib m.runtime (some e)).setAddress mib.itsGnLocalGnAddr with hr
  set s₀ : State :=
    { cfg := cfg
      manager := (IdentityManager.State.subscribe { m with runtime := r.runtime } []).2
      router := r
      subscription := some m.nextSubscription } with hs₀
  have hinit : init env cfg mib m e =
      if m.currentIdentifier ≠ Identifier.none then s₀.applyIdentifier m.currentIdentifier else s₀ := by
    unfold init
    dsimp only
    rw [if_pos hmeth]
    rfl
  -- the stack goes by the ticket in use, if there is one
  have hmid : m.pool.tickets ≠ [] → (init env cfg mib m e).mid = midOf m.pool.identifier := by
    intro hn
    rw [hinit, if_pos (hid.resolve_left hn)]
    rfl
  have hrest : (init env cfg mib m e).manager = s₀.manager ∧ (init env cfg mib m e).subscription = s₀.subscription ∧
      (init env cfg mib m e).router.mib.itsGnLocalAddrConfMethod = r.mib.itsGnLocalAddrConfMethod ∧
      (init env cfg mib m e).router.mib.itsGnSecurity = r.mib.itsGnSecurity ∧
      (init env cfg mib m e).router.requests = r.requests := by
    rw [hinit]
    split_ifs <;> exact ⟨rfl, rfl, rfl, rfl, rfl⟩
  obtain ⟨h1, h2, h3, h4, h5⟩ := hrest
  have hrm : r.mib = mib := hmib
  have hrr : r.requests = [] := hreq
  refine ⟨hsound, ?_, h2, by rw [h3, hrm, hmeth], by rw [h4, hrm, hsec], ?_, fun d hd => by simp [h5, hrr] at hd⟩
  · rw [h1]
    exact ha.keep rfl rfl rfl rfl (.inl rfl)
  · rw [h1]
    refine ⟨?_, fun n id hst => .inr ?_, fun _ hn => hmid hn⟩
    · rw [IdentityManager.State.handles_subscribe]
      exact List.mem_append_right _ List.mem_cons_self
    · have hst' : m.stage = some (n, .commit, id) := hst
      rw [hmid (hi.tickets (by simp [hst'])), ha.inUse n id hst']

/-- **A packet is signed under its own address**, provided that no ticket comes into an empty pool
after the stack was made and the target of a round in PREPARE is not pruned. -/
theorem signed_under_own_address {pool : CertificatePool} {now : TimePoint} {m : IdentityManager.State}
    {cfg : StackConfig} {mib : Mib} {e : Security.Entity} {s : State} (hp : pool.Wf)
    (hm : Run IdentityManager.step (fun u e => ¬ PrunesTarget u e) (IdentityManager.init pool now) m)
    (hu : m.control = .user) (hmeth : mib.itsGnLocalAddrConfMethod = .anonymous) (hsec : mib.itsGnSecurity = true)
    (hid : m.pool.tickets = [] ∨ m.currentIdentifier ≠ Identifier.none)
    (h : Run (step env) (fun s e => ¬ Mispairs s e) (init env cfg mib m e) s) :
    ∀ d ∈ s.router.requests, Paired d := by
  have hc : Consistent m.nextSubscription s :=
    h.invariant (consistent_init cfg e hp hm hu hmeth hsec hid) fun _ hc hg hs => consistent_step hc hg hs
  exact hc.paired

/-! ### Two stations -/

def sampleRound : List Event := .manager .trigger :: List.replicate 9 (.manager .proceed)

/-- A packet goes out before and after a round, each under its own pseudonym. -/
theorem signed_under_own_address_sample : ∃ s, Run (step sampleEnvironment) (fun s e => ¬ Mispairs s e)
    (sampleStation sampleEnvironment (samplePool .years)) s ∧
    s.router.requests.map (fun d => d.pdu.secured.map (·.signer)) =
      [some (Vector.replicate 8 2), some (Vector.replicate 8 1)] ∧ ∀ d ∈ s.router.requests, Paired d := by
  obtain ⟨s, hs, hp⟩ := exists_run_of_exec (f := step sampleEnvironment) (C := fun s e => ¬ Mispairs s e)
    (s := sampleStation sampleEnvironment (samplePool .years))
    (p := fun s => decide (s.router.requests.map (fun d => d.pdu.secured.map (·.signer)) =
      [some (Vector.replicate 8 2), some (Vector.replicate 8 1)]))
    (l := [.updatePosition Router.sampleFix, .request {}] ++ sampleRound ++ [.request {}])
    (by decide +kernel)
  exact ⟨s, hs, of_decide_eq_true hp,
    signed_under_own_address (samplePool_wf .years) .refl rfl rfl rfl (.inr (by decide)) hs⟩

/-- The first ticket comes after the stack was made. Packets are then signed
with it and carry the address of the configuration. -/
theorem signed_under_foreign_address : ∃ s, Run (step sampleEnvironment) Anything
    (sampleStation sampleEnvironment {}) s ∧
    ∃ d ∈ s.router.requests, d.origin = .request 0 ∧ ∃ m ∈ d.pdu.secured,
      d.pdu.extended.sourcePosition.gnAddr.mid ≠ midOf m.signer := by
  obtain ⟨s, hs, hp⟩ := exists_run_of_exec (f := step sampleEnvironment) (C := Anything)
    (s := sampleStation sampleEnvironment {})
    (p := fun s => decide (∃ d ∈ s.router.requests, d.origin = .request 0 ∧ ∃ m ∈ d.pdu.secured,
      d.pdu.extended.sourcePosition.gnAddr.mid ≠ midOf m.signer))
    (l := [.manager (.add (sampleCertificate 1 .years) sampleKey true), .updatePosition Router.sampleFix, .request {}])
    (by decide +kernel)
  exact ⟨s, hs, of_decide_eq_true hp⟩

end VanetzaIdf.Stack
