/-
# Machines with outputs

`step : σ → ε → ω × σ` gives the output and the next state. `history` collects
what of the outputs is of interest (`along_history_invariant`).

`observed` runs events some of which are marked as slipped in, and gives the
outputs of the others: those of the run without them, if slipping in leads to a
state that cannot be told from the one before (`outputs_common`).
-/
import Mathlib.Data.List.Basic
import Mathlib.Data.List.Induction

namespace VanetzaIdf.Lib

open List

variable {σ ε ω κ : Type*} (step : σ → ε → ω × σ)

/-! ### Runs -/

def final : σ → List ε → σ
  | s, [] => s
  | s, e :: es => final (step s e).2 es

def outputs : σ → List ε → List ω
  | _, [] => []
  | s, e :: es => (step s e).1 :: outputs (step s e).2 es

/-- What `f` takes from the events and their outputs, in order. -/
def history (f : ε → ω → Option κ) : σ → List ε → List κ
  | _, [] => []
  | s, e :: es => (f e (step s e).1).toList ++ history f (step s e).2 es

theorem final_append (s : σ) (es es' : List ε) : final step s (es ++ es') = final step (final step s es) es' := by
  induction es generalizing s with
  | nil => rfl
  | cons e es ih => exact ih _

theorem final_snoc (s : σ) (es : List ε) (e : ε) : final step s (es ++ [e]) = (step (final step s es) e).2 :=
  final_append step s es [e]

theorem outputs_snoc (s : σ) (es : List ε) (e : ε) :
    outputs step s (es ++ [e]) = outputs step s es ++ [(step (final step s es) e).1] := by
  induction es generalizing s with
  | nil => rfl
  | cons e' es ih => exact congrArg _ (ih _)

theorem final_induction {I : List ε → σ → Prop} {s : σ} (h₀ : I [] s)
    (hstep : ∀ es e, I es (final step s es) → I (es ++ [e]) (step (final step s es) e).2) :
    ∀ es : List ε, I es (final step s es) := by
  intro es
  induction es using List.reverseRecOn with
  | nil => exact h₀
  | append_singleton es e ih =>
    rw [final_snoc]
    exact hstep es e ih

/-- Every event meets the condition in the state it comes in. -/
def Along (C : σ → ε → Prop) : σ → List ε → Prop
  | _, [] => True
  | s, e :: es => C s e ∧ Along C (step s e).2 es

instance (C : σ → ε → Prop) [∀ s e, Decidable (C s e)] : ∀ (s : σ) (es : List ε), Decidable (Along step C s es)
  | _, [] => inferInstanceAs (Decidable True)
  | s, e :: es =>
    have := instDecidableAlong C (step s e).2 es
    inferInstanceAs (Decidable (C s e ∧ Along step C (step s e).2 es))

variable {C D : σ → ε → Prop} {A : ε → Prop} {f : ε → ω → Option κ} {I : σ → List κ → Prop} {R : σ → σ → Prop}

theorem along_and : ∀ {es : List ε} {s : σ}, Along step C s es → Along step D s es →
    Along step (fun s e => C s e ∧ D s e) s es
  | [], _, _, _ => trivial
  | _ :: _, _, hC, hD => ⟨⟨hC.1, hD.1⟩, along_and hC.2 hD.2⟩

theorem along_mono (h : ∀ s e, C s e → D s e) : ∀ {es : List ε} {s : σ},
    Along step C s es → Along step D s es
  | [], _, _ => trivial
  | e :: _, s, hC => ⟨h s e hC.1, along_mono h hC.2⟩

theorem along_append : ∀ {es es' : List ε} {s : σ},
    Along step C s (es ++ es') ↔ Along step C s es ∧ Along step C (final step s es) es'
  | [], _, _ => by simp [Along, final]
  | e :: es, es', s => by
    have ih : Along step C (step s e).2 (es ++ es') ↔ _ := along_append
    simp only [cons_append, Along, final, ih, and_assoc]

theorem along_of_forall : ∀ {es : List ε} (s : σ), (∀ e ∈ es, A e) → Along step (fun _ e => A e) s es
  | [], _, _ => trivial
  | e :: _, _, h => ⟨h e mem_cons_self, along_of_forall _ fun e' he' => h e' (mem_cons_of_mem _ he')⟩

theorem along_invariant {I : σ → Prop} (hstep : ∀ s e, I s → C s e → I (step s e).2) :
    ∀ (es : List ε) (s : σ), I s → Along step C s es → I (final step s es)
  | [], _, h, _ => h
  | e :: es, s, h, hC => along_invariant hstep es _ (hstep s e h hC.1) hC.2

theorem along_history_invariant
    (hstep : ∀ s acc e, I s acc → C s e → I (step s e).2 (acc ++ (f e (step s e).1).toList)) :
    ∀ (es : List ε) (s : σ) (acc : List κ), I s acc → Along step C s es →
      I (final step s es) (acc ++ history step f s es)
  | [], s, acc, h, _ => by simpa [final, history] using h
  | e :: es, s, acc, h, hC => by
    have h' := hstep s acc e h hC.1
    have hrun := along_history_invariant hstep es _ _ h' hC.2
    rw [append_assoc] at hrun
    exact hrun

theorem history_invariant (hstep : ∀ s acc e, I s acc → A e → I (step s e).2 (acc ++ (f e (step s e).1).toList))
    (es : List ε) (s : σ) (acc : List κ) (h : I s acc) (hA : ∀ e ∈ es, A e) :
    I (final step s es) (acc ++ history step f s es) :=
  along_history_invariant step (C := fun _ e => A e) hstep es s acc h (along_of_forall step s hA)

/-! ### Events slipped in -/

def common (l : List (ε × Bool)) : List ε := (l.filter fun e => !e.2).map Prod.fst

/-- The outputs of the unmarked events of a run of all. -/
def observed : σ → List (ε × Bool) → List ω
  | _, [] => []
  | s, (e, true) :: l => observed (step s e).2 l
  | s, (e, false) :: l => (step s e).1 :: observed (step s e).2 l

/-- Each event meets the condition in the state it comes in. -/
def Meets (C : σ → ε → Bool → Prop) : σ → List (ε × Bool) → Prop
  | _, [] => True
  | s, (e, extra) :: l => C s e extra ∧ Meets C (step s e).2 l

theorem outputs_common {C : σ → ε → Bool → Prop}
    (hcommon : ∀ {s t e}, R s t → C t e false → (step s e).1 = (step t e).1 ∧ R (step s e).2 (step t e).2)
    (hextra : ∀ {s t e}, R s t → C t e true → R s (step t e).2) :
    ∀ {l : List (ε × Bool)} {s t : σ}, R s t → Meets step C t l → outputs step s (common l) = observed step t l
  | [], _, _, _, _ => rfl
  | (e, true) :: l, s, t, hR, hM => outputs_common hcommon hextra (l := l) (hextra hR hM.1) hM.2
  | (e, false) :: l, s, t, hR, hM => by
    obtain ⟨hout, hnext⟩ := hcommon hR hM.1
    have hrest := outputs_common hcommon hextra (l := l) hnext hM.2
    show (step s e).1 :: outputs step (step s e).2 (common l) = (step t e).1 :: observed step (step t e).2 l
    rw [hout, hrest]

theorem outputs_common_of_along {X : ε → Prop}
    (hcommon : ∀ {s t e}, R s t → C s e → (step s e).1 = (step t e).1 ∧ R (step s e).2 (step t e).2)
    (hextra : ∀ {s t e}, R s t → X e → R s (step t e).2) :
    ∀ {l : List (ε × Bool)} {s t : σ}, R s t → Along step C s (common l) → (∀ p ∈ l, p.2 = true → X p.1) →
      outputs step s (common l) = observed step t l
  | [], _, _, _, _, _ => rfl
  | (e, true) :: l, s, t, hR, hC, hX => by
    have hnext : R s (step t e).2 := hextra hR (hX (e, true) mem_cons_self rfl)
    exact outputs_common_of_along hcommon hextra (l := l) hnext hC fun p hp => hX p (mem_cons_of_mem _ hp)
  | (e, false) :: l, s, t, hR, hC, hX => by
    obtain ⟨hout, hnext⟩ := hcommon hR hC.1
    have hrest := outputs_common_of_along hcommon hextra (l := l) hnext hC.2 fun p hp => hX p (mem_cons_of_mem _ hp)
    show (step s e).1 :: outputs step (step s e).2 (common l) = (step t e).1 :: observed step (step t e).2 l
    rw [hout, hrest]

end VanetzaIdf.Lib
