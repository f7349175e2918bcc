/-
# Families of lists

A family of lists gathered in the order of their indices, and what changing
one of the lists does to the whole, up to order.
-/
import Mathlib.Data.List.Perm.Basic
import Mathlib.Data.List.Nodup
import Mathlib.Logic.Function.Basic

namespace VanetzaIdf.Lib

open List

variable {α ι : Type*} [DecidableEq ι]

theorem flatMap_update_perm {l : List ι} (hl : l.Nodup) {i : ι} (hi : i ∈ l) {f : ι → List α} {a q : List α}
    (h : (f i).Perm (a ++ q)) : (l.flatMap f).Perm (a ++ l.flatMap (Function.update f i q)) := by
  obtain ⟨pre, post, rfl⟩ := append_of_mem hi
  rw [nodup_middle, nodup_cons, mem_append, not_or] at hl
  have hsame : ∀ {l' : List ι}, i ∉ l' → l'.flatMap (Function.update f i q) = l'.flatMap f := by
    intro l' hn
    refine flatMap_congr fun j hj => ?_
    have hne : j ≠ i := fun hji => hn (hji ▸ hj)
    exact Function.update_of_ne hne _ _
  rw [flatMap_append, flatMap_append, flatMap_cons, flatMap_cons, hsame hl.1.1, hsame hl.1.2,
    Function.update_self]
  refine ((h.append_right _).append_left _).trans ?_
  rw [append_assoc]
  exact perm_append_comm_assoc _ _ _

end VanetzaIdf.Lib
