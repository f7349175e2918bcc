/-
# What PREPARE does to buffered packets

On PREPARE the stack flushes the forwarding buffers, when the security entity
signs nothing until the round has ended. `prepare_drops`: own packets that greedy
forwarding stores again are kept (`Router.Retains`) as long as the router is not
given anything else to do (`Undisturbed`); the others are never sent, and no own
packet goes down before the round has ended.
-/
import VanetzaIdf.Geonet.Muted
import VanetzaIdf.Stack.Steps

namespace VanetzaIdf.Stack

open Lib Geonet Router Option
open IdentityManager

variable {env : Environment} {s s' : State} {round : ℕ}

/-- The round whose PREPARE is about to be delivered to the stack. -/
def State.preparing (s : State) : Option ℕ :=
  match s.manager.control, s.subscription with
  | .loop n, some h =>
    if n.command = .prepare ∧ n.handles.head? = some h ∧ s.manager.inRound n.roundId =
      true then some n.roundId else none
  | _, _ => none

/-! ### The books of a station -/

/-- The routers hold the same packets and have sent the same. -/
structure SameBooks (r r' : Router Security.Entity) : Prop where
  buffer : r'.bcForwardBuffer = r.bcForwardBuffer
  requests : r'.requests = r.requests
  nextNumber : r'.nextNumber = r.nextNumber
  security : r'.mib.itsGnSecurity = r.mib.itsGnSecurity

variable {r r' : Router Security.Entity} {e : Event} {n : ℕ} {m : IdentityManager.State}

theorem SameBooks.rfl : SameBooks r r := ⟨Eq.refl _, Eq.refl _, Eq.refl _, Eq.refl _⟩

theorem SameBooks.load (s : State) : SameBooks s.router s.load := ⟨Eq.refl _, Eq.refl _, Eq.refl _, Eq.refl _⟩

theorem SameBooks.held (h : SameBooks r r') (n : ℕ) : held [] r' n = held [] r n := by
  unfold Router.held waitingNumbers
  rw [h.buffer]

theorem Trans.works (h : Trans env s e s') : ∃ r₀ r₁, SameBooks s.router r₀ ∧
    Sees s.manager.pool s.manager.round.isSome r₀ ∧ Acts env [] r₀ [] r₁ ∧ SameBooks r₁ s'.router := by
  cases h with
  | router e rt r _ hu hnow hq ha =>
    exact ⟨{ s.load with runtime := rt }, r, ⟨rfl, rfl, rfl, rfl⟩, sees_load s, ha, .rfl⟩
  | prepare n h m₁ m₂ m₃ r hsub hcmd hc hr h₂ h₃ =>
    exact ⟨s.load, r, .load s, sees_load s, hr ▸ flush_acts s.load, .rfl⟩
  | _ => exact ⟨s.load, s.load, .load s, sees_load s, .refl, ⟨rfl, rfl, rfl, rfl⟩⟩

/-- The books of a station with security on are in order. -/
structure Accounted (s : State) : Prop where
  sound : Sound s
  security : s.router.mib.itsGnSecurity = true
  ledger : Ledger [] s.router
  buffer : s.router.bcForwardBuffer.Wf

theorem ledger_congr (h : SameBooks r r') (hl : Ledger [] r) : Ledger [] r' where
  once n := by rw [h.held]; exact hl.once n
  given n := by rw [h.held, h.nextNumber]; exact hl.given n
  unsent n := by rw [h.held, h.requests]; exact hl.unsent n
  sent := by rw [h.requests, h.nextNumber]; exact hl.sent

theorem gone_congr (h : SameBooks r r') (hg : Gone n [] r) : Gone n [] r' where
  nowhere := by rw [h.held]; exact hg.nowhere
  given := by rw [h.nextNumber]; exact hg.given
  unsent := by rw [h.requests]; exact hg.unsent

theorem accounted_step (ha : Accounted s) (h : step env s e = some s') : Accounted s' := by
  have ht := trans_of_step ha.sound h
  obtain ⟨r₀, r₁, h0, -, hacts, h1⟩ := ht.works
  refine ⟨sound_step ha.sound ht, ?_, ledger_congr h1 (ledger_acts (ledger_congr h0 ha.ledger) hacts), ?_⟩
  · rw [h1.security, hacts.keeps.mib, h0.security]
    exact ha.security
  · rw [h1.buffer]
    exact wf_acts (h0.buffer ▸ ha.buffer) hacts

theorem gone_step (hs : Sound s) (hg : Gone n [] s.router) (h : step env s e = some s') : Gone n [] s'.router := by
  obtain ⟨r₀, r₁, h0, -, hacts, h1⟩ := (trans_of_step hs h).works
  exact gone_congr h1 (gone_acts (gone_congr h0 hg) hacts)

theorem silent_step (ha : Accounted s) (hr : s.manager.round.isSome = true) (h : step env s e = some s') :
    ∀ d ∈ s'.router.requests, d.origin ≠ .other → d ∈ s.router.requests := by
  obtain ⟨r₀, r₁, h0, hsees, hacts, h1⟩ := (trans_of_step ha.sound h).works
  have hm : Muted r₀ := ⟨h0.security.trans ha.security, fun e he => (hsees e he).2.trans hr⟩
  rw [h1.requests, ← h0.requests]
  exact muted_acts hm hacts

/-! ### The delivery of PREPARE -/

theorem preparing_some (hd : s.preparing = some round) : ∃ n h rest, s.manager.control = .loop n ∧
    s.subscription = some h ∧ n.command = .prepare ∧ n.handles = h :: rest ∧ n.roundId = round ∧
      s.manager.inRound round = true := by
  unfold State.preparing at hd
  split at hd
  · rename_i n h hl hsub
    split_ifs at hd with hg
    obtain ⟨hcmd, hhead, hin⟩ := hg
    obtain rfl := some.inj hd
    obtain ⟨rest, hh⟩ := List.head?_eq_some_iff.mp hhead
    exact ⟨n, h, rest, hl, hsub, hcmd, hh, rfl, hin⟩
  · cases hd

theorem prepare_flushes (hs : Sound s) (hd : s.preparing = some round) (h : step env s (.manager .proceed) = some s') :
    s'.router = s.load.flushForwardingBuffers env := by
  obtain ⟨n, k, rest, hl, hsub, hcmd, hh, rfl, hin⟩ := preparing_some hd
  have hm : k ∈ s.manager.handles := (hs.idle k hsub).1
  have hstep : IdentityManager.step s.manager .proceed = some
      { s.manager with
        control := .user
        frames := .hook { n with handles := rest } k :: s.manager.frames
        log := .delivered n.command n.id ⟨n.subject, k⟩ :: s.manager.log } := by
    simp [IdentityManager.step, hl, IdentityManager.State.proceed, IdentityManager.State.loop, hh, hin, hm]
  have hcall := calls_of_deliver hl hh (fun _ => hin) hstep rfl
  obtain ⟨m₂, m₃, -, -, rfl⟩ := managerStep_prepare hsub hcall hcmd h
  rfl

/-! ### While nothing else happens -/

/-- The router is not asked to send, to receive or to repeat, and no PREPARE
is delivered to the stack. -/
def Undisturbed (s : State) : Event → Prop
  | .manager _ => s.preparing = none
  | .request _ | .requestGn _ | .indicate _ => False
  | .fire => ∀ c rt k, s.manager.runtime.pop = some (c, rt) → c.callback ≠ .repetition k
  | .updatePosition _ | .setAddress _ => True

theorem beacon_buffer (r : Router Security.Entity) :
    (r.onBeaconTimerExpired env).bcForwardBuffer = r.bcForwardBuffer := by
  obtain ⟨-, -, hbuf, -⟩ := (r.secureAndPassDown_spec (beaconControlInfo r.mib) broadcastMacAddress
    r.createBeaconPdu [] .beacon).frame
  by_cases hen : r.mib.vanetzaDisableBeaconing = true
  · unfold onBeaconTimerExpired
    rw [if_pos hen]
  · rw [onBeaconTimerExpired_eq env (by simpa using hen)]
    unfold resetIfSent
    split_ifs
    · rfl
    · exact hbuf
    · exact hbuf

theorem preparing_of_calls (hs : Sound s) {n : Notification} {h : SubscriptionHandle}
    (hsub : s.subscription = some h) (hcmd : n.command = .prepare) (hc : Calls s.manager n h m) :
    s.preparing ≠ none := by
  obtain ⟨rest, hh, -⟩ := hc.frames
  have hact : n ∈ s.manager.active := by
    rw [IdentityManager.State.active_loop hc.loop]
    exact List.mem_cons_self
  have hx : n.expectResponse = true := ((hs.inv.notifications n hact).expects (by simp [hcmd])).1
  have hin := hc.inRound hx
  simp [State.preparing, hc.loop, hsub, hcmd, hh, hin]

theorem buffer_step (hs : Sound s) (hu : Undisturbed s e) (h : step env s e = some s') :
    s'.router.bcForwardBuffer = s.router.bcForwardBuffer := by
  unfold step at h
  split at h
  · rename_i e
    split_ifs at h with hp
    cases trans_managerStep hs hp h with
    | prepare n k m₁ m₂ m₃ r hsub hcmd hc hr h₂ h₃ => exact absurd hu (preparing_of_calls hs hsub hcmd hc)
    | router _ rt r hne _ _ _ _ => exact absurd rfl (hne e)
    | _ => rfl
  · split_ifs at h
    cases e with
    | manager e => cases h
    | request | requestGn | indicate => exact hu.elim
    | updatePosition fix =>
      obtain rfl := some.inj h
      unfold State.updatePosition
      split_ifs <;> rfl
    | setAddress addr =>
      obtain rfl := some.inj h
      unfold State.setAddress
      split_ifs <;> rfl
    | fire =>
      simp only [user, State.fireRouter] at h
      split at h
      · cases h
      · rename_i c rt hpop
        split at h
        · obtain rfl := some.inj h
          exact beacon_buffer _
        · rename_i k hcb
          exact absurd hcb (hu c rt k hpop)
        · cases h
        · cases h

/-! ### Runs -/

theorem accounted_init {C : IdentityManager.State → IdentityManager.Event → Prop} {pool : CertificatePool}
    {now : TimePoint} (cfg : StackConfig) {mib : Mib} (e : Security.Entity) (hp : pool.Wf)
    (hm : Run IdentityManager.step C (IdentityManager.init pool now) m) (hu : m.control = .user)
    (hsec : mib.itsGnSecurity = true) : Accounted (init env cfg mib m e) := by
  obtain ⟨hmib, hreq, hbuf⟩ := Router.init_frame env mib m.runtime (some e)
  have hbooks : SameBooks (Router.init env mib m.runtime (some e)) (init env cfg mib m e).router := by
    unfold init
    dsimp only
    split_ifs <;> exact ⟨rfl, rfl, rfl, rfl⟩
  refine ⟨sound_init cfg mib e hp hm hu, ?_, ledger_congr hbooks (ledger_nil ?_ hreq), ?_⟩
  · rw [hbooks.security, hmib, hsec]
  · rw [hbuf]
  · rw [hbooks.buffer, hbuf]
    exact ⟨rfl, Nat.zero_le _⟩

/-- **What PREPARE does to the buffer** of a station with security on. An own packet is kept
exactly if greedy forwarding stores it again; none goes down before the round has ended, and one
that is not kept is lost. -/
theorem prepare_drops {C : IdentityManager.State → IdentityManager.Event → Prop} {pool : CertificatePool}
    {now : TimePoint} {m : IdentityManager.State} {cfg : StackConfig} {mib : Mib} {e : Security.Entity} (hp : pool.Wf)
    (hm : Run IdentityManager.step C (IdentityManager.init pool now) m) (hu : m.control = .user)
    (hsec : mib.itsGnSecurity = true) (h : Run (step env) Anything (init env cfg mib m e) s)
    (hd : s.preparing = some round) (hs : step env s (.manager .proceed) = some s') :
    (∀ x ∈ s.router.bcForwardBuffer.nodes, x.2.action.own = true → x.1.isExpired s.manager.runtime.now = false →
      (x.2.number ∈ s'.router.waitingNumbers ↔ Retains env s.load x.2 = true)) ∧
    (∀ t, Run (step env) (fun u _ => u.manager.inRound round = true) s' t →
      ∀ d ∈ t.router.requests, d.origin ≠ .other → d ∈ s.router.requests) ∧
    (∀ n ∈ s.router.waitingNumbers, n ∉ s'.router.waitingNumbers → ∀ t, Run (step env) Anything s' t →
      n ∉ t.router.waitingNumbers ∧ ∀ d ∈ t.router.requests, d.origin ≠ .request n) ∧
    ∀ t, Run (step env) Undisturbed s' t → t.router.bcForwardBuffer = s'.router.bcForwardBuffer := by
  have ha : Accounted s := h.invariant (accounted_init cfg e hp hm hu hsec) fun _ ha _ hs => accounted_step ha hs
  have ha' := accounted_step ha hs
  have hflush := prepare_flushes ha.sound hd hs
  have hin : ∀ {u : State}, u.manager.inRound round = true → u.manager.round.isSome = true := by
    intro u hu
    obtain ⟨ρ, hρ, -⟩ := inRound_iff.mp hu
    simp [hρ]
  obtain ⟨-, -, -, -, -, -, -, -, hround⟩ := preparing_some hd
  have hsilent := silent_step ha (hin hround) hs
  have hsound : ∀ {D : State → Event → Prop} {u : State}, Run (step env) D s' u → Sound u := fun hu =>
    hu.invariant ha'.sound fun _ hsu _ hst => sound_step hsu (trans_of_step hsu hst)
  refine ⟨fun x hx ho hexp => ?_, fun t ht => ?_, fun n hn hno t ht => ?_, fun t ht => ?_⟩
  · have hm : Muted s.load := ⟨ha.security, fun e he => (sees_load s e he).2.trans (hin hround)⟩
    have hl : Ledger [] s.load := ledger_congr (.load s) ha.ledger
    rw [hflush]
    exact mem_flush_iff env hm ha.buffer hl hx ho hexp
  · refine ht.invariant_under (J := fun u => ∀ d ∈ u.router.requests, d.origin ≠ .other → d ∈ s.router.requests)
      (fun hu => hu.invariant ha' fun _ hau _ hst => accounted_step hau hst) hsilent ?_
    intro u v e hau hdu hr hst d hd hne
    exact hdu d (silent_step hau (hin hr) hst d hd hne) hne
  · have hheld : 0 < held [] s.router n := Nat.pos_of_ne_zero fun h0 => held_nil.mp h0 hn
    have hnext : s.router.nextNumber ≤ s'.router.nextNumber := by
      have hacts : Acts env [] s.load [] (s.load.flushForwardingBuffers env) := flush_acts s.load
      have hle := nextNumber_acts hacts
      rwa [hflush]
    have hgone : Gone n [] s'.router :=
      ⟨held_nil.mpr hno, (ha.ledger.given n hheld).trans_le hnext, fun d hd ho =>
        ha.ledger.unsent n hheld d (hsilent d hd (by simp [ho])) ho⟩
    have hgone' : Gone n [] t.router := ht.invariant_under hsound hgone fun _ hsu hgu _ hst => gone_step hsu hgu hst
    exact ⟨held_nil.mp hgone'.nowhere, hgone'.unsent⟩
  · refine ht.invariant_under hsound ?_ fun _ hsu hbu hq hst => (buffer_step hsu hq hst).trans hbu
    rfl

/-! ### Two stations -/

/-- Every station is outside every area. -/
def sampleOutside : Environment := { sampleEnvironment with insideOrAtBorder := fun _ _ => false }

/-- A request whose packet waits for a neighbour. -/
def sampleShb : BtpRequest := { trafficClass := { storeCarryForward := true } }

def sampleGbc : BtpRequest :=
  { sampleShb with transport := .gbc, destination := .area ⟨.circle 100, ⟨0, 0⟩, 0⟩ }

/-- An SHB packet and a GBC packet wait when PREPARE comes: the first one is
lost, the other one stays. -/
theorem prepare_drops_sample : ∃ s s', Run (step sampleOutside) Anything
    (sampleStation sampleOutside (samplePool .years)) s ∧ s.preparing = some 1 ∧
    step sampleOutside s (.manager .proceed) = some s' ∧ s.router.waitingNumbers = [0, 1] ∧
    0 ∉ s'.router.waitingNumbers ∧ 1 ∈ s'.router.waitingNumbers := by
  obtain ⟨s, hs, hp⟩ := exists_run_of_exec (f := step sampleOutside) (C := Anything)
    (s := sampleStation sampleOutside (samplePool .years))
    (p := fun s => decide (s.preparing = some 1 ∧ (step sampleOutside s (.manager .proceed)).isSome = true ∧
      s.router.waitingNumbers = [0, 1] ∧ s.router.bcForwardBuffer.nodes.map (fun x => (x.2.number, x.2.action.own,
        x.1.isExpired s.manager.runtime.now, Retains sampleOutside s.load x.2)) =
          [(0, true, false, false), (1, true, false, true)]))
    (l := [.updatePosition sampleFix, .request sampleShb, .request sampleGbc, .manager .trigger, .manager .proceed])
    (by decide +kernel)
  obtain ⟨hprep, hsome, hwait, hnodes⟩ := of_decide_eq_true hp
  obtain ⟨s', hs'⟩ := isSome_iff_exists.mp hsome
  obtain ⟨hkept, -, -, -⟩ := prepare_drops (samplePool_wf .years) (C := Anything) .refl rfl rfl hs hprep hs'
  obtain ⟨x, l, hx, hx0, hl⟩ := List.map_eq_cons_iff.mp hnodes
  obtain ⟨y, l', rfl, hy1, -⟩ := List.map_eq_cons_iff.mp hl
  simp only [Prod.mk.injEq] at hx0 hy1
  refine ⟨s, s', hs, hprep, hs', hwait, ?_, ?_⟩
  · have h := hkept x (by simp [hx]) hx0.2.1 hx0.2.2.1
    rw [hx0.1, hx0.2.2.2] at h
    simpa using h
  · have h := hkept y (by simp [hx]) hy1.2.1 hy1.2.2.1
    rw [hy1.1, hy1.2.2.2] at h
    simpa using h

/-- An SHB packet waits when PREPARE comes. The round commits, and the packet
is neither sent nor in the buffer. -/
theorem buffered_packet_lost : ∃ s s' t, Run (step sampleEnvironment) Anything
    (sampleStation sampleEnvironment (samplePool .years)) s ∧ s.preparing = some 1 ∧
    (∃ x ∈ s.router.bcForwardBuffer.nodes, x.2.action.own = true ∧ x.2.number = 0 ∧
      x.1.isExpired s.manager.runtime.now = false) ∧
    step sampleEnvironment s (.manager .proceed) = some s' ∧ Run (step sampleEnvironment) Anything s' t ∧
    t.manager.round = none ∧ t.manager.stats.committed = 1 ∧ 0 ∉ t.router.waitingNumbers ∧
    ∀ d ∈ t.router.requests, d.origin ≠ .request 0 := by
  obtain ⟨s, hs, hp⟩ := exists_run_of_exec (f := step sampleEnvironment) (C := Anything)
    (s := sampleStation sampleEnvironment (samplePool .years))
    (p := fun s => decide (s.preparing = some 1 ∧ ∃ x ∈ s.router.bcForwardBuffer.nodes, x.2.action.own = true ∧
        x.2.number = 0 ∧ x.1.isExpired s.manager.runtime.now = false) &&
      (step sampleEnvironment s (.manager .proceed)).any fun (u : State) =>
        (exec (step sampleEnvironment) Anything u (List.replicate 7 (.manager .proceed))).any fun (t : State) =>
          decide (t.manager.round = none ∧ t.manager.stats.committed = 1 ∧ 0 ∉ t.router.waitingNumbers ∧
            ∀ d ∈ t.router.requests, d.origin ≠ .request 0))
    (l := [.updatePosition sampleFix, .request sampleShb, .manager .trigger, .manager .proceed])
    (by decide +kernel)
  obtain ⟨hbefore, hafter⟩ := Bool.and_eq_true_iff.mp hp
  obtain ⟨hprep, hx⟩ := of_decide_eq_true hbefore
  obtain ⟨s', hs', hrest⟩ := (any_eq_true _ _).mp hafter
  obtain ⟨t, ht, hend⟩ := exists_run_of_exec hrest
  exact ⟨s, s', t, hs, hprep, hx, hs', ht, of_decide_eq_true hend⟩

end VanetzaIdf.Stack
