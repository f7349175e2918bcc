/-
# A subscriber that takes what COMMIT names

`Follows` says where such a subscriber stands: the COMMIT phase has still to call
its hook or it goes by the identifier of the round, and outside that phase by the
ticket in use. Every step keeps that (`follows_step`, `follows_commit`), provided
the first ticket is there from the start (`FillsPool`): the manager announces
changes, not first tickets.
-/
import VanetzaIdf.Identity.Announce

namespace VanetzaIdf.IdentityManager

open Lib State List

/-! ### What a step does to hooks, subscriptions and the pool -/

theorem hook_of_step {s s' : State} {e : Event} (h : step s e = some s') :
    (∃ n k rest, e = .proceed ∧ s.control = .loop n ∧ n.handles = k :: rest ∧
      (n.expectResponse = true → s.inRound n.roundId = true) ∧ k ∈ s.handles ∧ s' = { s with
        control := .user
        frames := .hook { n with handles := rest } k :: s.frames
        log := .delivered n.command n.id ⟨n.subject, k⟩ :: s.log }) ∨
      (∀ n k, .hook n k ∈ s'.frames → .hook n k ∈ s.frames) ∧ ∀ c id r, s'.log ≠ .delivered c id r :: s.log := by
  have hsame : ∀ c id r, s.log ≠ .delivered c id r :: s.log := fun c id r he => by simp at he
  cases trans_of_step h with
  | deliver n k rest hl hh hb hm => exact .inl ⟨n, k, rest, rfl, hl, hh, hb, hm, rfl⟩
  | retHook _ _ _ _ hf | retCommitted _ _ hf =>
    exact .inr ⟨fun m j hj => by rw [hf]; exact mem_cons_of_mem _ hj, hsame⟩
  | finish ρ fs c hf hr hfs =>
    refine .inr ⟨fun m j hj => ?_, fun c id r he => by simp at he⟩
    rcases hfs with ⟨rfl, -⟩ | ⟨rfl, -⟩
    · simpa using hj
    · exact hj
  | unsubscribe | unsubscribeLast =>
    exact .inr ⟨fun _ _ hj => hj, fun c id r he => by simp [dropSubscription] at he⟩
  | respondIgnored | respondFalse | respond | respondLast =>
    exact .inr ⟨fun _ _ hj => hj, fun c id r he => by simp at he⟩
  | commit | abort | start => exact .inr ⟨fun _ _ hj => hj, fun c id r he => by simp [State.notify] at he⟩
  | _ => exact .inr ⟨fun _ _ hj => hj, hsame⟩

theorem not_delivered {s s' : State} {e : Event} {h : SubscriptionHandle} (hs : step s e = some s')
    (hno : ∀ n, .hook n h ∉ s'.frames) (c : IdChangeCommand) (id : Identifier) (r : ℕ) :
    s'.log ≠ .delivered c id ⟨r, h⟩ :: s.log := by
  rcases hook_of_step hs with ⟨n, k, rest, -, -, -, -, -, rfl⟩ | ⟨-, hlog⟩
  · intro he
    obtain ⟨-, -, -, rfl⟩ : n.command = c ∧ n.id = id ∧ n.subject = r ∧ k = h := by simpa using he
    exact hno _ mem_cons_self
  · exact hlog c id ⟨r, h⟩

variable {k : SubscriptionHandle} {c : IdChangeCommand} {r : Responder} {n : Notification} {fs : List Frame}

theorem mem_handles_step {s s' : State} {e : Event} (h : step s e = some s')
    (hk : k ∈ s.handles) (he : e ≠ .unsubscribe k) : k ∈ s'.handles := by
  cases trans_of_step h with
  | subscribe data hu =>
    rw [handles_subscribe]
    exact mem_append_left _ hk
  | unsubscribe | unsubscribeLast =>
    exact mem_handles_dropSubscription.mpr ⟨hk, fun hj => he (hj ▸ rfl)⟩
  | _ => exact hk

/-- The ticket in use is changed by COMMIT only, and by the first ticket of an
empty pool. -/
theorem identifier_step {s s' : State} {e : Event} (hi : Inv s) (hg : ¬ FillsPool s e) (h : step s e = some s')
    (hs : ∀ r id, s'.stage ≠ some (r, .commit, id)) (hn : s'.pool.tickets ≠ []) :
    s.pool.tickets ≠ [] ∧ s'.pool.identifier = s.pool.identifier := by
  cases trans_of_step h with
  | add c k probe hu =>
    have hne : s.pool.tickets ≠ [] := hg
    exact ⟨hne, by simp only [CertificatePool.identifier, CertificatePool.current_add hi.wf hne c k probe]⟩
  | prune now hu =>
    refine ⟨fun he => hn ?_, by simp only [CertificatePool.identifier, CertificatePool.current_prune hi.wf now]⟩
    exact sublist_nil.mp (he ▸ s.pool.prune_sublist now)
  | commit ρ ha hr hp =>
    refine absurd ?_ (hs ρ.id ρ.newIdentifier)
    rw [stage_notify]
    rfl
  | _ => exact ⟨hn, rfl⟩

theorem hook_below {C : State → Event → Prop} {pool : CertificatePool} {now : TimePoint} {s : State} (hp : pool.Wf)
    (h : Run step C (init pool now) s) : ∀ n k, .hook n k ∈ s.frames → k < s.nextSubscription := by
  refine h.invariant_under (J := fun u => ∀ n k, .hook n k ∈ u.frames → k < u.nextSubscription) (inv_reach hp)
    (fun n k hk => by simp [init] at hk) ?_
  intro u v e hi hb _ hs n k hk
  refine lt_of_lt_of_le ?_ (move_of_step hi hs).mono.2.1
  rcases hook_of_step hs with ⟨n', k', rest, -, -, -, -, hm, rfl⟩ | ⟨hfr, -⟩
  · rcases mem_cons.mp hk with hk | hk
    · obtain ⟨-, rfl⟩ : n = { n' with handles := rest } ∧ k = k' := by simpa using hk
      exact hi.below k hm
    · exact hb n k hk
  · exact hb n k (hfr n k hk)

/-! ### A hook that answers -/

theorem respond_in_hook {s s' : State} (hi : Inv s) (hf : s.frames = .hook n k :: fs)
    (h : step s (.respond c r true) = some s') : s'.control = .user ∧ s'.frames = s.frames := by
  cases trans_of_step h with
  | respondIgnored _ _ _ hu | respond _ _ _ _ _ hu => exact ⟨hu, rfl⟩
  | respondLast c r b ρ stats hu hh hr hid hm hb hc hlast hd =>
    have hnil := hi.active_nil hd
    rw [active_user hu, hf] at hnil
    simp [Frame.notification] at hnil

theorem respond_taken {s s' : State} (hr : s.inRound r.round = true) (h : step s (.respond c r true) = some s') :
    s'.round = (s.eraseOutstanding r.handle).round := by
  obtain ⟨ρ, hρ, hid⟩ := inRound_iff.mp hr
  cases trans_of_step h with
  | respondIgnored _ _ _ _ _ hno => simp [eraseOutstanding, hρ, Finset.erase_eq_of_notMem (hno ρ hρ hid)]
  | respond | respondLast => rfl

theorem respond_isSome {s : State} (hu : s.control = .user)
    (hh : s.handedOut c r = true) : ∃ s', step s (.respond c r true) = some s' := by
  simp [step, hu, State.user, hh]

theorem ret_hook {s : State} (hu : s.control = .user)
    (hf : s.frames = .hook n k :: fs) : step s .ret = some { s with frames := fs, control := .loop n } := by
  simp [step, hu, State.user, State.ret, hf]

/-! ### Following -/

/-- The subscriber goes by the ticket in use, or will be told of it. -/
structure Follows (s : State) (h : SubscriptionHandle) (P : Identifier → Prop) : Prop where
  subscribed : h ∈ s.handles
  committed : ∀ r id, s.stage = some (r, .commit, id) →
    (∃ n ∈ s.active, n.command = .commit ∧ h ∈ n.handles) ∨ P id
  settled : (∀ r id, s.stage ≠ some (r, .commit, id)) → s.pool.tickets ≠ [] → P s.pool.identifier

variable {s s' : State} {e : Event} {h : SubscriptionHandle} {P : Identifier → Prop}

theorem inRound_of_commit (hi : Inv s) (hn : n ∈ s.active) (hc : n.command = .commit) :
    s.inRound n.roundId = true := by
  have hok := hi.notifications n hn
  obtain ⟨ρ, hr, hid, -⟩ := round_of_stage (hok.commit hc)
  exact inRound_iff.mpr ⟨ρ, hr, hid.trans (hok.expects (by simp [hc])).2.symm⟩

theorem follows_step (hi : Inv s) (ha : Announced s) (hf : Follows s h P) (hg : ¬ FillsPool s e)
    (hu : e ≠ .unsubscribe h) (hs : step s e = some s')
    (hno : ∀ id r, s'.log ≠ .delivered .commit id ⟨r, h⟩ :: s.log) : Follows s' h P := by
  have hm := move_of_step hi hs
  refine ⟨mem_handles_step hs hf.subscribed hu, fun r id hst => ?_, fun hst hn => ?_⟩
  · rcases hm.stage_cases with he | ⟨he, -⟩ | ⟨r', id', -, -, n, hn, hc, hh⟩ | ⟨-, -, id', he⟩
    · rcases hf.committed r id (he ▸ hst) with ⟨n, hn, hc, hk⟩ | hP
      · rcases hm.visit hn hk with ⟨m, hm', hcm, -, -, hk'⟩ | hlog | hgone | ⟨-, hin⟩
        · exact .inl ⟨m, hm', hcm.trans hc, hk'⟩
        · exact absurd (hc ▸ hlog) (hno n.id n.subject)
        · exact absurd hf.subscribed hgone
        · simp [inRound_of_commit hi hn hc] at hin
      · exact .inr hP
    · simp [he] at hst
    · exact .inl ⟨n, hn, hc, hh ▸ hf.subscribed⟩
    · simp [he] at hst
  · obtain ⟨hne, hid⟩ := identifier_step hi hg hs hst hn
    rw [hid]
    by_cases hcm : ∃ r id, s.stage = some (r, .commit, id)
    · -- the round ends here: every hook was called, and the ticket of the round is in use
      obtain ⟨r, id, hc⟩ := hcm
      have hnil : s.active = [] := by
        rcases hm.stage_cases with he | ⟨-, hact⟩ | ⟨r', id', -, hc', -⟩ | ⟨hnone, -, -⟩
        · exact absurd (he.trans hc) (hst r id)
        · exact hact r id hc
        · exact absurd hc' (hst r' id')
        · simp [hnone] at hc
      rw [ha.inUse r id hc]
      exact (hf.committed r id hc).resolve_left fun ⟨n, hn, _⟩ => by simp [hnil] at hn
    · exact hf.settled (fun r id hc => hcm ⟨r, id, hc⟩) hne

theorem follows_user_step (hi : Inv s) (ha : Announced s) (hf : Follows s h P) (hu : s.control = .user)
    (hg : ¬ FillsPool s e) (hp : ¬ PrunesTarget s e) (hne : e ≠ .unsubscribe h) (hs : step s e = some s') :
    Announced s' ∧ Follows s' h P := by
  refine ⟨announced_step hi ha hp hs, follows_step hi ha hf hg hne hs fun id r hlog => ?_⟩
  rcases hook_of_step hs with ⟨n, k, rest, -, hl, -⟩ | ⟨-, hno⟩
  · simp [hu] at hl
  · exact hno _ _ _ hlog

theorem follows_answer {s₂ s₃ : State} (hi : Inv s) (ha : Announced s) (hf : Follows s h P) (hu : s.control = .user)
    (hfr : s.frames = .hook n k :: fs) (h₂ : step s (.respond c r true) = some s₂) (h₃ : step s₂ .ret = some s₃) :
    Announced s₃ ∧ Follows s₃ h P := by
  obtain ⟨ha₂, hf₂⟩ := follows_user_step hi ha hf hu id id (by simp) h₂
  exact follows_user_step (inv_step hi h₂) ha₂ hf₂ (respond_in_hook hi hfr h₂).1 id id (by simp) h₃

theorem follows_commit {r : ℕ} {id : Identifier} (hst : s.stage = some (r, .commit, id)) (hh : h ∈ s.handles)
    (hP : P id) : Follows s h P := by
  refine ⟨hh, fun r' id' hs => .inr ?_, fun hs => absurd hst (hs r id)⟩
  obtain ⟨-, rfl⟩ : r = r' ∧ id = id' := by simpa [hst] using hs
  exact hP

end VanetzaIdf.IdentityManager
