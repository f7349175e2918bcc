/-
# Locks

The manager looks at its locks when it starts a round, and not when the answers
to PREPARE are complete. So a lock taken while a round is in PREPARE does not hold
the identifier (`lock_broken`); it does in every run in which that PREPARE is not
completed (`lock_holds_identifier`).
-/
import VanetzaIdf.Identity.TwoPhase

namespace VanetzaIdf.IdentityManager

open Lib State List

/-- The answers to PREPARE of round `r` are complete, and its ticket is
about to be selected. -/
def CompletesPrepare (r : ℕ) (s : State) : Prop :=
  s.control = .advance ∧ ∃ ρ ∈ s.round, ρ.phase = .prepare ∧ ρ.id = r

instance (r : ℕ) (s : State) : Decidable (CompletesPrepare r s) := inferInstanceAs (Decidable (_ ∧ _))

/-- Lock `h` until `deadline` is held, no round was started since round `r`,
and the identifier is `id`. -/
structure Held (h : LockHandle) (deadline : TimePoint) (r : ℕ) (id : Identifier) (s : State) : Prop where
  lock : (h, deadline) ∈ s.locks
  round : s.roundCounter = r
  identifier : s.currentIdentifier = id

theorem locked_of_mem {s : State} {l : LockHandle × TimePoint} (h : l ∈ s.locks) : s.locked = true := by
  simp [locked, ne_nil_of_mem h]

theorem mem_unexpired {now deadline : TimePoint} {h : LockHandle} {locks : List (LockHandle × TimePoint)}
    (hm : (h, deadline) ∈ locks) (ht : now < deadline) : (h, deadline) ∈ unexpired now locks := by
  simp [unexpired, hm, ht]

variable {s s' : State}

theorem now_mono {e : Event} (h : step s e = some s') : s.runtime.now ≤ s'.runtime.now := by
  cases trans_of_step h with
  | lock _ _ _ _ hrt | lockZero _ _ hrt | unlock _ _ _ _ hrt => exact hrt.now.ge
  | tick tp hu ht => exact ht
  | fireStale _ _ _ hp | fireRound _ _ _ _ _ hp => exact (ManualRuntime.pop_some hp).2.2.ge
  | fireLock c rt rt' hu hp hcb hrt => exact (hrt.now.trans (ManualRuntime.pop_some hp).2.2).ge
  | finish | advance => simp [cancelRoundTimer]
  | commit | abort => simp [cancelRoundTimer, State.notify]
  | endNotifyArm n ρ hl he hx hd hr hid ho => simp [armRoundTimer]
  | _ => exact le_rfl

theorem held_step {e : Event} {h : LockHandle} {deadline : TimePoint} {r : ℕ} {id : Identifier}
    (hi : Inv s) (hh : Held h deadline r id s) (hu : e ≠ .unlock h) (hc : ¬ CompletesPrepare r s)
    (hf : ¬ FillsPool s e) (ht : s.runtime.now < deadline) (hs : step s e = some s') :
    Held h deadline r id s' := by
  have keep : s'.locks = s.locks → s'.roundCounter = s.roundCounter → s'.pool.current = s.pool.current →
      Held h deadline r id s' := fun hl hr hp =>
    ⟨hl ▸ hh.lock, hr.trans hh.round, by
      rw [← hh.identifier, currentIdentifier, currentIdentifier, CertificatePool.identifier, hp]
      rfl⟩
  cases trans_of_step hs with
  | lock d rt _ hd hrt => exact ⟨mem_append_left _ hh.lock, hh.round, hh.identifier⟩
  | lockZero rt _ hrt => exact ⟨mem_unexpired (mem_append_left _ hh.lock) ht, hh.round, hh.identifier⟩
  | unlock k rt _ hm hrt =>
    have hk : h ≠ k := fun he => hu (he ▸ rfl)
    exact ⟨by simp [hh.lock, hk], hh.round, hh.identifier⟩
  | fireLock c rt rt' _ hp hcb hrt => exact ⟨mem_unexpired hh.lock ht, hh.round, hh.identifier⟩
  | add c k probe _ => exact keep rfl rfl (CertificatePool.current_add hi.wf hf c k probe)
  | prune now _ => exact keep rfl rfl (CertificatePool.current_prune hi.wf now)
  | commit ρ ha hr hph => exact absurd ⟨ha, ρ, hr, hph, (hi.round_id hr).1.trans hh.round⟩ hc
  | start next _ _ hl _ _ =>
    rw [locked_of_mem hh.lock] at hl
    cases hl
  | _ => exact keep rfl rfl rfl

theorem held_lock {d : UInt8} (hd : d ≠ 0) (h : step s (.lock d) = some s') :
    Held (s.lock d).1 (s.runtime.now + seconds d.toNat) s.roundCounter s'.currentIdentifier s' := by
  cases trans_of_step h with
  | lock _ rt hu _ hrt => exact ⟨mem_append_right _ (mem_singleton.mpr rfl), rfl, rfl⟩
  | lockZero rt hu hrt => exact absurd rfl hd

/-- **A lock holds the identifier** until it is released or has run out, if the PREPARE that was
under way is not completed and no ticket is put into an empty pool. -/
theorem lock_holds_identifier {pool : CertificatePool} {now : TimePoint} {s s₁ t : State} {d : UInt8} (hp : pool.Wf)
    (h : Run step Anything (init pool now) s) (hd : d ≠ 0) (hl : step s (.lock d) = some s₁)
    (hrun : Run step (fun u e => e ≠ .unlock (s.lock d).1 ∧ ¬ CompletesPrepare s.roundCounter u ∧ ¬ FillsPool u e)
      s₁ t) (ht : t.runtime.now < s.runtime.now + seconds d.toNat) :
    t.currentIdentifier = s₁.currentIdentifier := by
  set deadline := s.runtime.now + seconds d.toNat with hdl
  have hi₁ : Inv s₁ := inv_step (inv_reach hp h) hl
  refine (hrun.invariant_under (fun hu => hu.invariant hi₁ fun _ hi _ hs => inv_step hi hs)
    (J := fun u => u.runtime.now < deadline → Held (s.lock d).1 deadline s.roundCounter s₁.currentIdentifier u)
    (fun _ => held_lock hd hl) ?_ ht).identifier
  intro u v e hi hu ⟨hne, hc, hf⟩ hs hv
  have hnow := lt_of_le_of_lt (now_mono hs) hv
  exact held_step hi (hu hnow) hne hc hf hnow hs

/-- A lock taken before the trigger: the change waits. -/
theorem lock_holds_identifier_sample : ∃ s s₁ t : State, Run step Anything (init (samplePool .years) 0) s ∧
    step s (.lock 10) = some s₁ ∧ t.pendingTrigger = true ∧ t.currentIdentifier = s₁.currentIdentifier := by
  obtain ⟨s, hs, hp⟩ := exists_run_of_exec (f := step) (C := Anything) (s := init (samplePool .years) 0)
    (p := fun s => (step s (.lock 10)).any fun (s₁ : State) =>
      (exec step (fun u e => e ≠ .unlock (s.lock 10).1 ∧ ¬ CompletesPrepare s.roundCounter u ∧ ¬ FillsPool u e) s₁
        [.trigger, .proceed, .tick 9999999]).any fun (t : State) =>
        decide (t.pendingTrigger = true ∧ t.runtime.now < s.runtime.now + seconds ((10 : UInt8).toNat)))
    (l := [.subscribe []]) (by decide +kernel)
  obtain ⟨s₁, hl, hp⟩ := (Option.any_eq_true _ _).mp hp
  obtain ⟨t, hrun, ht⟩ := exists_run_of_exec hp
  obtain ⟨hpd, hnow⟩ := of_decide_eq_true ht
  exact ⟨s, s₁, t, hs, hl, hpd, lock_holds_identifier (samplePool_wf .years) hs (by decide) hl hrun hnow⟩

/-- A lock of ten seconds taken while a round waits for its one subscriber:
the subscriber agrees and the identifier changes at once. -/
theorem lock_broken : ∃ s s₁ t, Run step Anything (init (samplePool .years) 0) s ∧ step s (.lock 10) = some s₁ ∧
    Run step (fun _ e => e ≠ .unlock (s.lock 10).1) s₁ t ∧
    t.runtime.now < s.runtime.now + seconds ((10 : UInt8).toNat) ∧
    t.currentIdentifier ≠ s₁.currentIdentifier := by
  obtain ⟨s, hs, hp⟩ := exists_run_of_exec (f := step) (C := Anything) (s := init (samplePool .years) 0)
    (p := fun s => (step s (.lock 10)).any fun (s₁ : State) =>
      (exec step (fun _ e => e ≠ .unlock (s.lock 10).1) s₁ [.respond .prepare ⟨1, 1⟩ true, .proceed]).any
        fun (t : State) =>
        decide (t.runtime.now < s.runtime.now + seconds ((10 : UInt8).toNat) ∧
          t.currentIdentifier ≠ s₁.currentIdentifier))
    (l := [.subscribe [], .trigger, .proceed, .proceed, .ret, .proceed]) (by decide +kernel)
  obtain ⟨s₁, hl, hp⟩ := (Option.any_eq_true _ _).mp hp
  obtain ⟨t, hrun, ht⟩ := exists_run_of_exec hp
  exact ⟨s, s₁, t, hs, hl, hrun, of_decide_eq_true ht⟩

end VanetzaIdf.IdentityManager
