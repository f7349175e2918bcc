/-
# Paths up to a root

`Path root up a l`: going up from `a` along the relation `up` one comes to a
root, and `l` lists what one meets, `a` first and the root last. Nothing but
the last of them is a root, so there is at most one path if there is at most
one way up (`Path.unique`). `Path.isChain` and `Path.exists_root` read a path
as a list.
-/
import Mathlib.Data.List.Chain
import Mathlib.Logic.Relator

namespace VanetzaIdf.Lib

variable {α : Type*} {root : α → Prop} {up up' : α → α → Prop} {a : α} {l l' : List α}

/-- `l` is the way up from `a` to the first root. -/
inductive Path (root : α → Prop) (up : α → α → Prop) : α → List α → Prop
  | here {a : α} (h : root a) : Path root up a [a]
  | up {a b : α} {l : List α} (h : ¬ root a) (hu : up a b) (hl : Path root up b l) : Path root up a (a :: l)

namespace Path

theorem exists_cons (h : Path root up a l) : ∃ rest, l = a :: rest := by
  cases h with
  | here => exact ⟨[], rfl⟩
  | up _ _ hl => exact ⟨_, rfl⟩

theorem head? (h : Path root up a l) : l.head? = some a := by
  obtain ⟨rest, rfl⟩ := h.exists_cons
  rfl

theorem exists_root (h : Path root up a l) : ∃ r, l.getLast? = some r ∧ root r := by
  induction h with
  | here h => exact ⟨_, rfl, h⟩
  | up _ _ hl ih =>
    obtain ⟨r, hr, hroot⟩ := ih
    obtain ⟨rest, rfl⟩ := hl.exists_cons
    exact ⟨r, by simpa using hr, hroot⟩

theorem isChain (h : Path root up a l) : l.IsChain up := by
  induction h with
  | here => exact List.isChain_singleton _
  | up _ hu hl ih =>
    obtain ⟨rest, rfl⟩ := hl.exists_cons
    exact List.isChain_cons_cons.mpr ⟨hu, ih⟩

theorem mono (hup : ∀ a b, up a b → up' a b) (h : Path root up a l) : Path root up' a l := by
  induction h with
  | here h => exact .here h
  | up h hu _ ih => exact .up h (hup _ _ hu) ih

theorem unique (hup : Relator.RightUnique up) (h : Path root up a l) (h' : Path root up a l') : l = l' := by
  induction h generalizing l' with
  | here h =>
    cases h' with
    | here => rfl
    | up hn => exact absurd h hn
  | up h hu _ ih =>
    cases h' with
    | here h' => exact absurd h' h
    | up _ hu' hl' =>
      obtain rfl := hup hu hu'
      rw [ih hl']

end Path
end VanetzaIdf.Lib
