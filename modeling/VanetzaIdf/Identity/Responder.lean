/-
# Answers that come late

The manager knows an answer by its round and its handle, which PREPARE and COMMIT
share. A late answer to PREPARE is ignored exactly when the manager is not
waiting for the same subscriber's answer to COMMIT of the same round
(`stale_response_ignored_iff`, `stale_response_counted`).
-/
import VanetzaIdf.Identity.TwoPhase

namespace VanetzaIdf.IdentityManager

open Lib State

/-- Answers belong to rounds that have begun, and nobody who has answered
PREPARE is waited for. -/
structure AnsweredOnce (s : State) : Prop where
  begun : ∀ c r b, .answered c r b ∈ s.log → r.round ≤ s.roundCounter
  once : ∀ ρ, s.round = some ρ → ρ.phase = .prepare → ∀ c r b, .answered c r b ∈ s.log → r.round = ρ.id →
    r.handle ∉ ρ.outstanding

theorem answeredOnce_step {s s' : State} (hp : Prepared s) (ha : AnsweredOnce s) (hm : Move s s') :
    AnsweredOnce s' := by
  have hbegun : ∀ c r b, .answered c r b ∈ s'.log → r.round ≤ s.roundCounter := by
    intro c r b h
    rcases hm.new_entry h with h | ⟨hh, -⟩
    · exact ha.begun c r b h
    · obtain ⟨-, id, hd⟩ := handedOut_iff.mp hh
      exact (hp.delivered c id r hd).1
  refine ⟨fun c r b h => le_trans (hbegun c r b h) hm.mono.1, fun ρ' hr' hp' c r b h hid => ?_⟩
  rcases hm.new_entry h with h' | ⟨-, hw⟩
  · rcases hm.outstanding_prepare hr' hp' with ⟨ρ, hr, he, hph, hsub⟩ | he
    · exact fun hmem => ha.once ρ hr hph c r b h' (hid.trans he.symm) (hsub hmem)
    · have := hbegun c r b h
      omega
  · exact hw ρ' hr' hid.symm

theorem answeredOnce_reach {pool : CertificatePool} {now : TimePoint} {s : State} (hp : pool.Wf)
    (h : Run step Anything (init pool now) s) : AnsweredOnce s := by
  refine h.invariant_under (protocol_run (protocol_init hp now)) ?_ fun _ hu ha _ hs => ?_
  · exact ⟨fun c r b h => by simp [init] at h, fun ρ h => by simp [init] at h⟩
  · exact answeredOnce_step hu.prepared ha (move_of_step hu.inv hs)

/-- A response object that came with PREPARE has been answered already, or
PREPARE of its round is over. -/
def Stale (s : State) (r : Responder) : Prop :=
  s.handedOut .prepare r = true ∧
    ((∃ b, .answered .prepare r b ∈ s.log) ∨ ∀ id, s.stage ≠ some (r.round, .prepare, id))

/-- The manager waits for the answer of this subscriber to COMMIT of this round. -/
def AwaitsCommit (s : State) (r : Responder) : Prop :=
  ∃ ρ, s.round = some ρ ∧ ρ.id = r.round ∧ ρ.phase = .commit ∧ r.handle ∈ ρ.outstanding

theorem handleResponse_ne {s : State} {r : Responder} {ρ : Round} (b : Bool) (hr : s.round = some ρ)
    (hid : ρ.id = r.round) (hm : r.handle ∈ ρ.outstanding) : s.handleResponse r b ≠ s := by
  intro he
  have hround : (s.handleResponse r b).round = some { ρ with outstanding := ρ.outstanding.erase r.handle } := by
    rw [handleResponse_counted b hr hid hm]
    simp [eraseOutstanding, hr]
  rw [he, hr, Option.some.injEq] at hround
  have hout : ρ.outstanding = ρ.outstanding.erase r.handle := congrArg Round.outstanding hround
  rw [hout] at hm
  exact Finset.notMem_erase _ _ hm

/-- **Late answers.** In every state the manager can reach, an answer to
PREPARE that comes late changes nothing if and only if the manager is not
waiting for the same subscriber's answer to COMMIT. -/
theorem stale_response_ignored_iff {pool : CertificatePool} {now : TimePoint} {s : State} (hp : pool.Wf)
    (h : Run step Anything (init pool now) s) {r : Responder} (hs : Stale s r) (b : Bool) :
    s.handleResponse r b = s ↔ ¬ AwaitsCommit s r := by
  have ha := answeredOnce_reach hp h
  constructor
  · rintro he ⟨ρ, hr, hid, -, hm⟩
    exact handleResponse_ne b hr hid hm he
  · intro hn
    refine handleResponse_ignored b fun ρ hr hid hm => ?_
    cases hph : ρ.phase with
    | commit => exact hn ⟨ρ, hr, hid, hph, hm⟩
    | prepare =>
      rcases hs.2 with ⟨b', hb⟩ | hs
      · exact ha.once ρ hr hph _ r b' hb hid.symm hm
      · exact hs ρ.newIdentifier (by rw [stage_phase hr hph, hid])

/-- One of two subscribers has agreed; its second answer, a refusal, is ignored. -/
theorem stale_response_ignored_sample : ∃ s, Run step Anything (init (samplePool .years) 0) s ∧
    Stale s ⟨1, 1⟩ ∧ s.round.map (·.phase) = some .prepare ∧ s.handleResponse ⟨1, 1⟩ false = s := by
  obtain ⟨s, hs, hp⟩ := exists_run_of_exec (f := step) (C := Anything) (s := init (samplePool .years) 0)
    (p := fun s => decide (s.handedOut .prepare ⟨1, 1⟩ = true ∧ .answered .prepare ⟨1, 1⟩ true ∈ s.log ∧
      s.round.map (·.phase) = some .prepare))
    (l := [.subscribe [], .subscribe [], .trigger, .proceed, .proceed, .respond .prepare ⟨1, 1⟩ true, .ret,
      .proceed, .ret, .proceed])
    (by decide +kernel)
  obtain ⟨hh, ha, hr⟩ := of_decide_eq_true hp
  have hst : Stale s ⟨1, 1⟩ := ⟨hh, .inl ⟨true, ha⟩⟩
  refine ⟨s, hs, hst, hr, (stale_response_ignored_iff (samplePool_wf .years) hs hst false).mpr ?_⟩
  rintro ⟨ρ, hρ, -, hc, -⟩
  simp [hρ, hc] at hr

/-- PREPARE was answered and COMMIT is not yet. A second answer to PREPARE, a
refusal, is counted as a failed COMMIT and lets the round finish. -/
theorem stale_response_counted : ∃ s, Run step Anything (init (samplePool .years) 0) s ∧ s.control = .user ∧
    Stale s ⟨1, 1⟩ ∧ s.handleResponse ⟨1, 1⟩ false ≠ s ∧
    (s.handleResponse ⟨1, 1⟩ false).stats.commitFailures = s.stats.commitFailures + 1 ∧
    (s.handleResponse ⟨1, 1⟩ false).round.all (·.outstanding = ∅) = true ∧
    (s.handleResponse ⟨1, 1⟩ false).control = .advance := by
  obtain ⟨s, hs, hp⟩ := exists_run_of_exec (f := step) (C := Anything) (s := init (samplePool .years) 0)
    (p := fun s => decide (s.control = .user ∧ s.handedOut .prepare ⟨1, 1⟩ = true ∧
      .answered .prepare ⟨1, 1⟩ true ∈ s.log ∧ s.handleResponse ⟨1, 1⟩ false ≠ s ∧
      (s.handleResponse ⟨1, 1⟩ false).stats.commitFailures = s.stats.commitFailures + 1 ∧
      (s.handleResponse ⟨1, 1⟩ false).round.all (·.outstanding = ∅) = true ∧
      (s.handleResponse ⟨1, 1⟩ false).control = .advance))
    (l := [.subscribe [], .trigger, .proceed, .proceed, .respond .prepare ⟨1, 1⟩ true, .ret, .proceed, .proceed,
      .proceed, .ret, .proceed])
    (by decide +kernel)
  obtain ⟨hu, hh, ha, h⟩ := of_decide_eq_true hp
  exact ⟨s, hs, hu, ⟨hh, .inl ⟨true, ha⟩⟩, h⟩

end VanetzaIdf.IdentityManager
