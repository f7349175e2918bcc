/-
# Runs of a partial step function

`step : σ → ε → Option σ`, where `none` says that the event cannot happen.
`Run step C s t` is a run all of whose steps meet the condition `C` on the state
before and the event; `Anything` is met by every step. `Run.invariant` is the one
induction, and `exec` runs a list of events. `Each P` says that every entry of a
log, newest first, has the property `P` of it and the log before it.
-/
import Mathlib.Data.List.Basic

namespace VanetzaIdf.Lib

variable {σ ε : Type*}

/-- Any number of steps, each of which meets `C`. -/
inductive Run (step : σ → ε → Option σ) (C : σ → ε → Prop) (s : σ) : σ → Prop
  | refl : Run step C s s
  | tail {t u : σ} (e : ε) : Run step C s t → C t e → step t e = some u → Run step C s u

/-- The condition of an unrestricted run. -/
def Anything : σ → ε → Prop := fun _ _ => True

variable {step : σ → ε → Option σ} {C : σ → ε → Prop}

theorem Run.invariant {I : σ → Prop} {s t : σ} (h : Run step C s t) (h0 : I s)
    (hstep : ∀ {u v : σ} (e : ε), I u → C u e → step u e = some v → I v) : I t := by
  induction h with
  | refl => exact h0
  | tail e _ hc hs ih => exact hstep e ih hc hs

theorem Run.invariant_under {I J : σ → Prop} {s t : σ} (h : Run step C s t) (hI : ∀ {u}, Run step C s u → I u)
    (h0 : J s) (hstep : ∀ {u v : σ} (e : ε), I u → J u → C u e → step u e = some v → J v) : J t := by
  induction h with
  | refl => exact h0
  | tail e hrun hc hs ih => exact hstep e (hI hrun) ih hc hs

theorem Run.trans {s t u : σ} (h : Run step C s t) (h' : Run step C t u) : Run step C s u := by
  induction h' with
  | refl => exact h
  | tail e _ hc hs ih => exact ih.tail e hc hs

theorem Run.mono {C' : σ → ε → Prop} {s t : σ} (h : Run step C s t)
    (hC : ∀ u e, C u e → C' u e) : Run step C' s t := by
  induction h with
  | refl => exact .refl
  | tail e _ hc hs ih => exact ih.tail e (hC _ _ hc) hs

/-! ### Runs that are computed -/

/-- The state after the events `es`, if each can happen and meets `C`. -/
def exec (step : σ → ε → Option σ) (C : σ → ε → Prop) [∀ s e, Decidable (C s e)] : σ → List ε → Option σ
  | s, [] => some s
  | s, e :: es => if C s e then (step s e).bind fun t => exec step C t es else none

theorem run_of_exec [∀ s e, Decidable (C s e)] : ∀ {es : List ε} {s t : σ},
    exec step C s es = some t → Run step C s t
  | [], s, t, h => by
    simp only [exec, Option.some.injEq] at h
    exact h ▸ .refl
  | e :: es, s, t, h => by
    simp only [exec] at h
    split_ifs at h with hc
    obtain ⟨u, hu, hr⟩ := Option.bind_eq_some_iff.mp h
    exact (Run.tail e .refl hc hu).trans (run_of_exec hr)

instance : ∀ (s : σ) (e : ε), Decidable ((Anything : σ → ε → Prop) s e) :=
  fun _ _ => inferInstanceAs (Decidable True)

theorem exists_run_of_exec {f : σ → ε → Option σ} [∀ s e, Decidable (C s e)] {l : List ε} {s : σ} {p : σ → Bool}
    (h : (exec f C s l).any p = true) : ∃ t, Run f C s t ∧ p t = true := by
  cases he : exec f C s l with
  | none => simp [he] at h
  | some t => exact ⟨t, run_of_exec he, by simpa [he] using h⟩

/-! ### Logs -/

/-- Every element stands in `P` to those after it in the list, which came before it. -/
def Each {α : Type*} (P : α → List α → Prop) : List α → Prop
  | [] => True
  | e :: before => P e before ∧ Each P before

end VanetzaIdf.Lib
