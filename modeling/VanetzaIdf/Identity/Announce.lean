/-
# The identifier that was announced

A ticket that ends while PREPARE waits may be pruned, and as the manager does not
look at what `select` returns, the round then commits an identifier the station
does not use (`announced_not_in_use`). Where no target of a round in PREPARE is
pruned (`PrunesTarget`), the identifier announced last is the one in use
(`announced_in_use`).
-/
import VanetzaIdf.Identity.TwoPhase

namespace VanetzaIdf.IdentityManager

open Lib State

/-- A prune at a time when the validity of the ticket a round in PREPARE is
to change to has ended. -/
def PrunesTarget (s : State) : Event → Prop
  | .prune now => ∃ ρ ∈ s.round, ρ.phase = .prepare ∧
      ∃ t ∈ s.pool.tickets, t.digest = ρ.newIdentifier ∧ t.certificate.validity.endValidity < convertTime32 now
  | _ => False

instance (s : State) : ∀ e, Decidable (PrunesTarget s e)
  | .prune now => inferInstanceAs (Decidable (∃ ρ ∈ s.round, ρ.phase = .prepare ∧
      ∃ t ∈ s.pool.tickets, t.digest = ρ.newIdentifier ∧ t.certificate.validity.endValidity < convertTime32 now))
  | .subscribe _ | .unsubscribe _ | .trigger | .lock _ | .unlock _ | .respond _ _ _ | .setResponseTimeout _
  | .onCommitted _ | .ret | .tick _ | .fire | .add _ _ _ | .proceed => inferInstanceAs (Decidable False)

/-- COMMIT with `id` was delivered to a hook, and no ticket was selected since. -/
def AnnouncedLast (log : List Entry) (id : Identifier) : Prop :=
  ∃ l₁ l₂ r, log = l₁ ++ .delivered .commit id r :: l₂ ∧ ∀ x ∈ l₁, ∀ r' id', x ≠ .selected r' id'

/-- A round has ended, and the ticket in use is the one it announced. -/
def Entry.endsInUse : Entry → Bool
  | .finished _ id current => current.map (·.digest) = some id
  | .aborted _ id _ current => current.map (·.digest) = some id
  | _ => false

/-- The entry neither announces nor selects nor ends a round. -/
def Entry.silent : Entry → Bool
  | .delivered .commit _ _ => false
  | .selected _ _ => false
  | .finished _ _ _ => false
  | .aborted _ _ _ _ => false
  | _ => true

variable {log : List Entry}

theorem AnnouncedLast.of_cons {x : Entry} {id : Identifier} (h : AnnouncedLast (x :: log) id) :
    (∃ r, x = .delivered .commit id r) ∨ AnnouncedLast log id ∧ ∀ r' id', x ≠ .selected r' id' := by
  obtain ⟨l₁, l₂, r, he, hl⟩ := h
  rcases List.cons_eq_append_iff.mp he with ⟨-, hx⟩ | ⟨l, rfl, hlog⟩
  · exact .inl ⟨r, (List.cons.inj hx).1.symm⟩
  · exact .inr ⟨⟨l, l₂, r, hlog, fun y hy => hl y (List.mem_cons_of_mem _ hy)⟩, hl x List.mem_cons_self⟩

theorem AnnouncedLast.of_ne {x : Entry} {id : Identifier} (h : AnnouncedLast (x :: log) id)
    (hx : ∀ r, x ≠ .delivered .commit id r) : AnnouncedLast log id := by
  rcases h.of_cons with ⟨r, he⟩ | ⟨h, -⟩
  · exact absurd he (hx r)
  · exact h

theorem countP_silent {x : Entry} (hx : x.silent = true) :
    (x :: log).countP Entry.endsInUse = log.countP Entry.endsInUse := by
  refine List.countP_cons_of_neg ?_
  cases x with
  | finished | aborted => simp [Entry.silent] at hx
  | _ => simp [Entry.endsInUse]

/-- What was announced agrees with the pool: the target of PREPARE is another ticket of it, the
one of COMMIT is in use. -/
structure Announced (s : State) : Prop where
  tickets : s.roundCounter ≠ 0 → s.pool.tickets ≠ []
  target : ∀ r id, s.stage = some (r, .prepare, id) →
    (∃ t ∈ s.pool.tickets, t.digest = id) ∧ s.pool.identifier ≠ id
  inUse : ∀ r id, s.stage = some (r, .commit, id) → s.pool.identifier = id
  last : ∀ id, AnnouncedLast s.log id → s.pool.identifier = id ∧ s.roundCounter ≠ 0
  counted : s.stats.committed = UInt32.ofNat (s.log.countP Entry.endsInUse)

theorem announced_init (pool : CertificatePool) (now : TimePoint) : Announced (init pool now) where
  tickets h := absurd rfl h
  target r id h := by simp [init, stage] at h
  inUse r id h := by simp [init, stage] at h
  last id h := by
    obtain ⟨l₁, l₂, r, he, -⟩ := h
    simp [init] at he
  counted := rfl

namespace Announced

variable {s s' : State}

theorem keep (ha : Announced s) (hp : s'.pool = s.pool) (hs : s'.stage = s.stage)
    (hk : s'.roundCounter = s.roundCounter) (hc : s'.stats.committed = s.stats.committed)
    (hl : s'.log = s.log ∨ ∃ x : Entry, x.silent = true ∧ s'.log = x :: s.log) : Announced s' where
  tickets := by rw [hk, hp]; exact ha.tickets
  target := by rw [hs, hp]; exact ha.target
  inUse := by rw [hs, hp]; exact ha.inUse
  last id h := by
    rw [hp, hk]
    rcases hl with hl | ⟨x, hx, hl⟩
    · exact ha.last id (hl ▸ h)
    · rw [hl] at h
      refine ha.last id (h.of_ne fun r he => ?_)
      simp [he, Entry.silent] at hx
  counted := by
    rw [hc, ha.counted]
    rcases hl with hl | ⟨x, hx, hl⟩
    · rw [hl]
    · rw [hl, countP_silent hx]

theorem pool (ha : Announced s) {p : CertificatePool} (hn : s.pool.tickets ≠ [] → p.tickets ≠ [])
    (hc : s.pool.tickets ≠ [] → p.identifier = s.pool.identifier)
    (ht : ∀ r id, s.stage = some (r, .prepare, id) → ∀ t ∈ s.pool.tickets, t.digest = id → t ∈ p.tickets)
    (hcount : s.stage ≠ none → s.pool.tickets ≠ []) : Announced { s with pool := p } where
  tickets h := hn (ha.tickets h)
  target r id h := by
    obtain ⟨⟨t, hm, hd⟩, hne⟩ := ha.target r id h
    refine ⟨⟨t, ht r id h t hm hd, hd⟩, ?_⟩
    have : s.stage = some (r, .prepare, id) := h
    exact hc (hcount (by simp [this])) ▸ hne
  inUse r id h := by
    have : s.stage = some (r, .commit, id) := h
    exact (hc (hcount (by simp [this]))).trans (ha.inUse r id h)
  last id h := by
    obtain ⟨h1, h2⟩ := ha.last id h
    exact ⟨(hc (ha.tickets h2)).trans h1, h2⟩
  counted := ha.counted

theorem counted_cons (ha : Announced s) {x : Entry} (hx : ¬ x.endsInUse = true) :
    s.stats.committed = UInt32.ofNat ((x :: s.log).countP Entry.endsInUse) := by
  rw [List.countP_cons_of_neg hx]
  exact ha.counted

end Announced

theorem current_digest {p : CertificatePool} (hw : p.Wf) (hn : p.tickets ≠ []) :
    p.current.map (·.digest) = some p.identifier := by
  obtain ⟨t, ht⟩ := Option.ne_none_iff_exists'.mp (CertificatePool.current_ne_none hw hn)
  simp [CertificatePool.identifier, ht]

theorem announced_step {s s' : State} {e : Event} (hi : Inv s) (ha : Announced s) (hg : ¬ PrunesTarget s e)
    (h : step s e = some s') : Announced s' := by
  have herase : ∀ k, (s.eraseOutstanding k).stage = s.stage := stage_eraseOutstanding s
  cases trans_of_step h with
  | unsubscribe k | unsubscribeLast k => exact ha.keep rfl (herase k) rfl rfl (.inr ⟨.unsubscribed k, rfl, rfl⟩)
  | respondIgnored c r b hu hh hw => exact ha.keep rfl rfl rfl rfl (.inr ⟨.answered c r b, rfl, rfl⟩)
  | respondFalse c r ρ hu hh hr hid hm hp => exact ha.keep rfl (herase _) rfl rfl (.inr ⟨.answered c r false, rfl, rfl⟩)
  | respond c r b _ _ _ _ _ _ _ _ hc | respondLast c r b _ _ _ _ _ _ _ _ hc =>
    exact ha.keep rfl (herase _) rfl hc (.inr ⟨.answered c r b, rfl, rfl⟩)
  | fireRound c rt ρ stats hu hp hcb hr hs => exact ha.keep rfl rfl rfl hs (.inl rfl)
  | add c k probe hu =>
    refine ha.pool (fun hn => ?_) (fun hn => ?_) (fun r id _ t ht _ => CertificatePool.mem_add ht c k probe) hi.tickets
    · obtain ⟨t, ht⟩ := List.exists_mem_of_ne_nil _ hn
      exact List.ne_nil_of_mem (CertificatePool.mem_add ht c k probe)
    · simp only [CertificatePool.identifier, CertificatePool.current_add hi.wf hn c k probe]
  | prune now hu =>
    refine ha.pool (CertificatePool.prune_ne_nil hi.wf now) (fun _ => ?_) (fun r id hs t ht hd => ?_) hi.tickets
    · simp only [CertificatePool.identifier, CertificatePool.current_prune hi.wf now]
    · obtain ⟨ρ, hρ, -, hp, hid⟩ := round_of_stage hs
      refine CertificatePool.mem_prune ht (Nat.not_lt.mp fun hlt => hg ⟨ρ, hρ, hp, t, ht, hd.trans hid.symm, hlt⟩)
  | deliver n k rest hl hh hb hm =>
    have hok := hi.notifications n (by simp [active_loop hl])
    rcases hok.kind with ⟨-, -, hc | hc⟩ | ⟨-, -, hc⟩
    · exact ha.keep rfl rfl rfl rfl (.inr ⟨_, by simp [hc, Entry.silent], rfl⟩)
    · -- COMMIT is delivered in the COMMIT phase
      have hst := hok.commit hc
      refine ⟨ha.tickets, ha.target, ha.inUse, fun id hlast => ?_, ?_⟩
      · rcases hlast.of_cons with ⟨r, he⟩ | ⟨hlast, -⟩
        · simp only [Entry.delivered.injEq] at he
          rw [← he.2.1]
          refine ⟨ha.inUse _ _ hst, ?_⟩
          have hstarted := hok.started
          show s.roundCounter ≠ 0
          omega
        · exact ha.last id hlast
      · exact ha.counted_cons (by simp [Entry.endsInUse])
    · exact ha.keep rfl rfl rfl rfl (.inr ⟨_, by simp [hc, Entry.silent], rfl⟩)
  | skipErase n k rest hl hh hin hm => exact ha.keep rfl (herase k) rfl rfl (.inl rfl)
  | commit ρ hadv hr hph =>
    have hst := stage_phase hr hph
    have hsel := CertificatePool.identifier_select (ha.target _ _ hst).1
    refine ⟨fun hk => ?_, fun r id hs => ?_, fun r id hs => ?_, fun id hlast => ?_, ?_⟩
    · show (s.pool.select ρ.newIdentifier).2.tickets ≠ []
      rw [CertificatePool.select_tickets]
      exact ha.tickets hk
    · simp [stage, State.notify] at hs
    · rw [stage_notify] at hs
      obtain ⟨-, rfl⟩ : ρ.id = r ∧ ρ.newIdentifier = id := by simpa [stage] using hs
      exact hsel
    · rcases hlast.of_cons with ⟨r, he⟩ | ⟨-, hne⟩
      · simp at he
      · exact absurd rfl (hne ρ.id ρ.newIdentifier)
    · exact ha.counted_cons (by simp [Entry.endsInUse])
  | finish ρ fs c hf hr hfs =>
    have hst := stage_phase hr (hi.finish hf hr).2
    refine ⟨ha.tickets, fun r id hs => by simp [stage] at hs, fun r id hs => by simp [stage] at hs,
      fun id hlast => ?_, ?_⟩
    · exact ha.last id (hlast.of_ne (by simp))
    · have hcur := current_digest hi.wf (hi.tickets (by simp [hst]))
      rw [ha.inUse _ _ hst] at hcur
      show s.stats.committed + 1 = UInt32.ofNat (List.countP _ (_ :: s.log))
      rw [List.countP_cons_of_pos (by simp [Entry.endsInUse, hcur]), ha.counted, UInt32.ofNat_add]
      rfl
  | abort ρ hab hr =>
    have hst := stage_phase hr (hi.abort hab hr)
    refine ⟨ha.tickets, fun r id hs => by simp [stage, State.notify] at hs,
      fun r id hs => by simp [stage, State.notify] at hs, fun id hlast => ?_, ?_⟩
    · exact ha.last id (hlast.of_ne (by simp))
    · -- the ticket in use is not the one that was announced
      have hcur := current_digest hi.wf (hi.tickets (by simp [hst]))
      have hne := (ha.target _ _ hst).2
      exact ha.counted_cons (by simp [Entry.endsInUse, hcur, hne])
  | start next ht hp hl hr hn =>
    have hne := CertificatePool.nextValid_ne hi.wf hn
    have hmem := (CertificatePool.nextValid_spec hn).1
    refine ⟨fun _ => List.ne_nil_of_mem hmem, fun r id hs => ?_, fun r id hs => ?_, fun id hlast => ?_, ?_⟩
    · rw [stage_notify] at hs
      obtain ⟨-, rfl⟩ : s.roundCounter + 1 = r ∧ next.digest = id := by simpa [stage] using hs
      exact ⟨⟨next, hmem, rfl⟩, hne⟩
    · simp [stage, State.notify] at hs
    · exact ⟨(ha.last id (hlast.of_ne (by simp))).1, Nat.succ_ne_zero _⟩
    · exact ha.counted_cons (by simp [Entry.endsInUse])
  | _ => exact ha.keep rfl rfl rfl rfl (.inl rfl)

theorem announced_reach {pool : CertificatePool} {now : TimePoint} {s : State} (hp : pool.Wf)
    (h : Run step (fun s e => ¬ PrunesTarget s e) (init pool now) s) : Announced s :=
  h.invariant_under (inv_reach hp) (announced_init pool now) fun _ hi ha hg hs => announced_step hi ha hg hs

/-- **The announced identifier is in use** from the delivery of COMMIT until the next ticket is
selected, if the target of a round in PREPARE is not pruned; and `committed` counts, modulo `2 ^
32`, the rounds that ended so. -/
theorem announced_in_use {pool : CertificatePool} {now : TimePoint} {s : State} (hp : pool.Wf)
    (h : Run step (fun s e => ¬ PrunesTarget s e) (init pool now) s) :
    (∀ l₁ l₂ id r, s.log = l₁ ++ .delivered .commit id r :: l₂ → (∀ x ∈ l₁, ∀ r' id', x ≠ .selected r' id') →
      s.currentIdentifier = id) ∧ s.stats.committed = UInt32.ofNat (s.log.countP Entry.endsInUse) := by
  have ha := announced_reach hp h
  exact ⟨fun l₁ l₂ id r he hl => (ha.last id ⟨l₁, l₂, r, he, hl⟩).1, ha.counted⟩

/-- A round that commits, with a prune afterwards. -/
theorem announced_in_use_sample : ∃ s, Run step (fun s e => ¬ PrunesTarget s e) (init (samplePool .years) 0) s ∧
    s.stats.committed = 1 ∧ UInt32.ofNat (s.log.countP Entry.endsInUse) = 1 := by
  obtain ⟨s, hs, hp⟩ := exists_run_of_exec (f := step) (C := fun s e => ¬ PrunesTarget s e)
    (s := init (samplePool .years) 0) (p := fun s => decide (s.stats.committed = 1))
    (l := [.subscribe [], .trigger, .proceed, .proceed, .respond .prepare ⟨1, 1⟩ true, .ret, .proceed, .proceed,
      .proceed, .respond .commit ⟨1, 1⟩ true, .ret, .proceed, .proceed, .proceed, .proceed, .prune 2000000])
    (by decide +kernel)
  have hc := of_decide_eq_true hp
  exact ⟨s, hs, hc, (announced_in_use (samplePool_wf .years) hs).2.symm.trans hc⟩

/-- The second ticket ends and is pruned while PREPARE waits for its answer. COMMIT announces it
all the same, and the round counts as committed. -/
theorem announced_not_in_use :
    (∃ s id r l, Run step Anything (init (samplePool .seconds) 0) s ∧ s.log = .delivered .commit id r :: l ∧
      s.currentIdentifier ≠ id) ∧
    ∃ s, Run step Anything (init (samplePool .seconds) 0) s ∧ s.stats.committed = 1 ∧
      s.log.countP Entry.endsInUse = 0 := by
  obtain ⟨s, hs, hp⟩ := exists_run_of_exec (f := step) (C := Anything) (s := init (samplePool .seconds) 0)
    (p := fun s => decide (s.log.head? = some (.delivered .commit (Vector.replicate 8 2) ⟨1, 1⟩) ∧
        s.currentIdentifier ≠ Vector.replicate 8 2) &&
      (exec step Anything s [.respond .commit ⟨1, 1⟩ true, .ret, .proceed, .proceed, .proceed, .proceed]).any
        fun (t : State) => decide (t.stats.committed = 1 ∧ t.log.countP Entry.endsInUse = 0))
    (l := [.setResponseTimeout 10000000, .subscribe [], .trigger, .proceed, .proceed, .ret, .proceed,
      .tick 2000000, .prune 2000000, .respond .prepare ⟨1, 1⟩ true, .proceed, .proceed])
    (by decide +kernel)
  obtain ⟨h1, h2⟩ := Bool.and_eq_true_iff.mp hp
  obtain ⟨hlog, hne⟩ := of_decide_eq_true h1
  obtain ⟨t, ht, hc⟩ := exists_run_of_exec h2
  obtain ⟨l, hl⟩ := List.head?_eq_some_iff.mp hlog
  exact ⟨⟨s, _, _, l, hs, hl, hne⟩, t, hs.trans ht, of_decide_eq_true hc⟩

end VanetzaIdf.IdentityManager
