/-
# Languages of octets

`Spells l write wf` describes what a writer writes for well-formed values by a
language, which is a set of strings of octets: `l` has exactly the strings that
are written. Such descriptions compose as the formats do, by sequence, choice
and repetition.
-/
import Mathlib.Computability.Language
import VanetzaIdf.Lib.Decoder

namespace VanetzaIdf.Lib

open Computability List

/-- All strings of this length. -/
def bytes (n : ℕ) : Language UInt8 := {bs | bs.length = n}

def tag (b : UInt8) : Language UInt8 := {[b]}

/-- The strings of `l` are those that are written for well-formed values. -/
def Spells {α : Type} (l : Language UInt8) (write : α → List UInt8) (wf : α → Prop) : Prop :=
  ∀ bs, bs ∈ l ↔ ∃ a, wf a ∧ write a = bs

theorem Decoder.Fixed.spells {σ α : Type} [Inhabited σ] {n : ℕ} {p : Decoder σ α} {write : α → List UInt8}
    (h : Fixed n p write) : Spells (bytes n) write fun _ => True := by
  intro bs
  constructor
  · intro hlen
    obtain ⟨a, rest, ha, hrest⟩ := (h.sized bs default).1 (le_of_eq (Eq.symm hlen))
    obtain rfl : rest = [] := eq_nil_of_length_eq_zero (by have : bs.length = n := hlen; omega)
    exact ⟨a, trivial, by simpa using (h.yields ha).1.symm⟩
  · rintro ⟨a, -, rfl⟩
    exact h.length a

namespace Spells

variable {α β : Type} {l l' : Language UInt8} {write : α → List UInt8} {write' : β → List UInt8} {wf : α → Prop}
  {wf' : β → Prop}

theorem mul (h : Spells l write wf) (h' : Spells l' write' wf') :
    Spells (l * l') (fun x : α × β => write x.1 ++ write' x.2) fun x => wf x.1 ∧ wf' x.2 := by
  intro bs
  rw [Language.mem_mul]
  constructor
  · rintro ⟨as, has, cs, hcs, rfl⟩
    obtain ⟨a, ha, rfl⟩ := (h as).mp has
    obtain ⟨c, hc, rfl⟩ := (h' cs).mp hcs
    exact ⟨(a, c), ⟨ha, hc⟩, rfl⟩
  · rintro ⟨⟨a, c⟩, ⟨ha, hc⟩, rfl⟩
    exact ⟨_, (h _).mpr ⟨a, ha, rfl⟩, _, (h' _).mpr ⟨c, hc, rfl⟩, rfl⟩

theorem add (h : Spells l write wf) (h' : Spells l' write' wf') :
    Spells (l + l') (Sum.elim write write') (Sum.elim wf wf') := by
  intro bs
  rw [Language.mem_add, h bs, h' bs, Sum.exists]
  rfl

theorem tagged (h : Spells l write wf) (t : UInt8) : Spells (tag t * l) (fun a => [t] ++ write a) wf := by
  intro bs
  rw [Language.mem_mul]
  constructor
  · rintro ⟨_, rfl, as, has, rfl⟩
    obtain ⟨a, ha, rfl⟩ := (h as).mp has
    exact ⟨a, ha, rfl⟩
  · rintro ⟨a, ha, rfl⟩
    exact ⟨[t], rfl, _, (h _).mpr ⟨a, ha, rfl⟩, rfl⟩

theorem star (h : Spells l write wf) : Spells l∗ (List.flatMap write) fun list => ∀ a ∈ list, wf a := by
  intro bs
  rw [Language.mem_kstar]
  constructor
  · rintro ⟨L, rfl, hL⟩
    induction L with
    | nil => exact ⟨[], nofun, rfl⟩
    | cons as L ih =>
      obtain ⟨has, hrest⟩ := forall_mem_cons.mp hL
      obtain ⟨list, hlist, heq⟩ := ih hrest
      obtain ⟨a, ha, rfl⟩ := (h as).mp has
      exact ⟨a :: list, forall_mem_cons.mpr ⟨ha, hlist⟩, by rw [flatMap_cons, heq, flatten_cons]⟩
  · rintro ⟨list, hlist, rfl⟩
    refine ⟨list.map write, rfl, fun y hy => ?_⟩
    obtain ⟨a, ha, rfl⟩ := mem_map.mp hy
    exact (h _).mpr ⟨a, hlist a ha, rfl⟩

theorem map (h : Spells l write wf) (f : α → β) (hf : ∀ a, write' (f a) = write a ∧ (wf' (f a) ↔ wf a))
    (hsurj : ∀ b, wf' b → ∃ a, f a = b) : Spells l write' wf' := by
  intro bs
  rw [h bs]
  constructor
  · rintro ⟨a, ha, rfl⟩
    exact ⟨f a, (hf a).2.mpr ha, (hf a).1⟩
  · rintro ⟨b, hb, rfl⟩
    obtain ⟨a, rfl⟩ := hsurj b hb
    exact ⟨a, (hf a).2.mp hb, (hf a).1.symm⟩

end Spells

end VanetzaIdf.Lib
