/-
# Computations under watch

A computation that keeps a log of what it touches (`ε`) and may end abruptly
(`τ`). `Ensures P Q m`: everything `m` touches meets `P` and its outcome `Q`;
`Gives P m a`: it touches such things only and gives `a`.
-/
import Mathlib.Data.List.Basic

namespace VanetzaIdf.Lib

open List

structure Watched (ε τ α : Type) where
  log : List ε
  outcome : Except τ α

namespace Watched

variable {ε τ α β : Type}

instance : Monad (Watched ε τ) where
  pure a := ⟨[], .ok a⟩
  bind m f :=
    match m.outcome with
    | .ok a => ⟨m.log ++ (f a).log, (f a).outcome⟩
    | .error e => ⟨m.log, .error e⟩

def stop (e : τ) : Watched ε τ α := ⟨[], .error e⟩

def touch (e : ε) : Watched ε τ Unit := ⟨[e], .ok ()⟩

/-- The same computation with another log. -/
def relabel (f : ε → ε) (m : Watched ε τ α) : Watched ε τ α := ⟨m.log.map f, m.outcome⟩

/-- All accesses satisfy `P` and the outcome `Q`. -/
structure Ensures (P : ε → Prop) (Q : Except τ α → Prop) (m : Watched ε τ α) : Prop where
  touched : ∀ e ∈ m.log, P e
  outcome : Q m.outcome

variable {P P' : ε → Prop} {Q Q' : Except τ α → Prop} {R : Except τ β → Prop}
  {m : Watched ε τ α} {a : α} {f : α → Watched ε τ β}

theorem Ensures.mono (h : Ensures P Q m) (hP : ∀ e, P e → P' e) (hQ : ∀ r, Q r → Q' r) : Ensures P' Q' m where
  touched e he := hP e (h.touched e he)
  outcome := hQ _ h.outcome

theorem Ensures.pure (h : Q (.ok a)) : Ensures P Q (Pure.pure a : Watched ε τ α) where
  touched _ he := absurd he not_mem_nil
  outcome := h

theorem Ensures.stop {e : τ} (h : Q (.error e)) : Ensures P Q (stop e : Watched ε τ α) where
  touched _ he := absurd he not_mem_nil
  outcome := h

theorem Ensures.bind (hm : Ensures P Q m)
    (hok : ∀ a, Q (.ok a) → Ensures P R (f a)) (herror : ∀ e, Q (.error e) → R (.error e)) : Ensures P R (m >>= f) := by
  obtain ⟨log, outcome⟩ := m
  cases outcome with
  | error e => exact ⟨hm.touched, herror e hm.outcome⟩
  | ok a =>
    have hf := hok a hm.outcome
    exact ⟨forall_mem_append.mpr ⟨hm.touched, hf.touched⟩, hf.outcome⟩

theorem Ensures.ite {c : Prop} [Decidable c] {m' : Watched ε τ α} (hpos : c → Ensures P Q m)
    (hneg : ¬ c → Ensures P Q m') : Ensures P Q (if c then m else m') := by
  split_ifs with h
  · exact hpos h
  · exact hneg h

theorem Ensures.relabel {f : ε → ε} (h : Ensures P Q m) (hP : ∀ e, P e → P' (f e)) : Ensures P' Q (m.relabel f) where
  touched e he := by
    obtain ⟨e', he', rfl⟩ := mem_map.mp he
    exact hP e' (h.touched e' he')
  outcome := h.outcome

/-! ### Computations that do not end abruptly -/

/-- The computation returns `a`. -/
def Gives (P : ε → Prop) (m : Watched ε τ α) (a : α) : Prop := Ensures P (· = .ok a) m

theorem Gives.touch {e : ε} (h : P e) : Gives P (touch e : Watched ε τ Unit) () where
  touched _ he := mem_singleton.mp he ▸ h
  outcome := rfl

theorem Gives.bind (hm : Gives P m a) (hf : Ensures P R (f a)) : Ensures P R (m >>= f) := by
  refine Ensures.bind hm (fun a' h => ?_) fun e h => nomatch h
  obtain rfl : a' = a := Except.ok.inj h
  exact hf

end Watched
end VanetzaIdf.Lib
