/-
# A bounded queue, and a window of what was accepted last

`push W` keeps at most `W` entries. A queue to which only values that are not in
it are pushed is the end of the history of pushes (`last_append`), which is
`Spaced W`: between two pushes of one value there are `W` of other, pairwise
distinct values (`Spaced.between`).
-/
import Mathlib.Data.List.Nodup
import Mathlib.Data.List.DropRight
import Mathlib.Data.List.Forall2

namespace VanetzaIdf.Lib

open List

variable {α : Type*} {W : ℕ}

/-! ### The queue -/

/-- Drops the front until fewer than `W` are left. -/
def makeRoom (W : ℕ) : List α → List α
  | [] => []
  | a :: l => if W ≤ (a :: l).length then makeRoom W l else a :: l

/-- One more at the back of a queue of at most `W`. -/
def push (W : ℕ) (l : List α) (a : α) : List α := makeRoom W l ++ [a]

theorem makeRoom_suffix : ∀ l : List α, makeRoom W l <:+ l
  | [] => suffix_rfl
  | a :: l => by
    unfold makeRoom
    split_ifs
    · exact (makeRoom_suffix l).trans (suffix_cons a l)
    · exact suffix_rfl

theorem length_makeRoom (hW : 0 < W) : ∀ l : List α, (makeRoom W l).length = min l.length (W - 1)
  | [] => by simp [makeRoom]
  | a :: l => by
    unfold makeRoom
    split_ifs with h
    · rw [length_makeRoom hW l, length_cons] at *
      omega
    · omega

theorem forall₂_makeRoom {β : Type*} {R : α → β → Prop} {l : List α} {l' : List β} (h : List.Forall₂ R l l') :
    List.Forall₂ R (makeRoom W l) (makeRoom W l') := by
  induction h with
  | nil => exact .nil
  | @cons a b l l' hab hl ih =>
    have hlength : (a :: l).length = (b :: l').length := (List.Forall₂.cons hab hl).length_eq
    unfold makeRoom
    rw [hlength]
    split_ifs
    · exact ih
    · exact .cons hab hl

theorem length_push_le (hW : 0 < W) (l : List α) (a : α) : (push W l a).length ≤ W := by
  rw [push, length_append, length_makeRoom hW, length_singleton]
  omega

theorem mem_of_mem_push {l : List α} {a b : α} (h : b ∈ push W l a) : b ∈ l ∨ b = a := by
  rcases mem_append.mp h with h | h
  · exact .inl ((makeRoom_suffix l).subset h)
  · exact .inr (mem_singleton.mp h)

/-! ### The last of a history -/

def last (W : ℕ) (acc : List α) : List α := acc.drop (acc.length - W)

theorem last_suffix (acc : List α) : last W acc <:+ acc := drop_suffix _ _

theorem length_last (acc : List α) : (last W acc).length = min acc.length W := by
  rw [last, length_drop]
  omega

theorem last_eq_of_suffix {l acc : List α} (h : l <:+ acc) (hl : l.length = min acc.length W) : l = last W acc := by
  obtain ⟨pre, rfl⟩ := h
  rw [length_append] at hl
  rw [last, length_append, show pre.length + l.length - W = pre.length by omega, drop_left]

theorem last_append (hW : 0 < W) (acc : List α) (a : α) : push W (last W acc) a = last W (acc ++ [a]) := by
  apply last_eq_of_suffix
  · obtain ⟨pre, hpre⟩ := (makeRoom_suffix (W := W) (last W acc)).trans (last_suffix acc)
    exact ⟨pre, by rw [push, ← append_assoc, hpre]⟩
  · rw [push, length_append, length_makeRoom hW, length_last, length_append, length_singleton]
    omega

/-! ### Spaced histories -/

/-- Each entry is none of the `W` before it. -/
inductive Spaced (W : ℕ) : List α → Prop
  | nil : Spaced W []
  | snoc {acc : List α} {a : α} (h : Spaced W acc) (ha : a ∉ last W acc) : Spaced W (acc ++ [a])

variable {acc : List α}

theorem Spaced.of_snoc {a : α} (h : Spaced W (acc ++ [a])) : Spaced W acc ∧ a ∉ last W acc := by
  generalize hl : acc ++ [a] = l at h
  cases h with
  | nil => simp at hl
  | snoc h ha =>
    obtain ⟨rfl, hb⟩ := append_inj' hl rfl
    obtain rfl := singleton_inj.mp hb
    exact ⟨h, ha⟩

theorem Spaced.of_append : ∀ {l : List α}, Spaced W (acc ++ l) → Spaced W acc := by
  intro l
  induction l using List.reverseRecOn with
  | nil => simp
  | append_singleton l a ih =>
    intro h
    rw [← append_assoc] at h
    exact ih h.of_snoc.1

theorem Spaced.nodup_last (hW : 0 < W) (h : Spaced W acc) : (last W acc).Nodup := by
  induction h with
  | nil => simp [last]
  | @snoc acc a h ha ih =>
    rw [← last_append hW, push, nodup_append]
    refine ⟨ih.sublist (makeRoom_suffix _).sublist, nodup_singleton a, ?_⟩
    intro b hb c hc
    rw [mem_singleton] at hc
    subst hc
    rintro rfl
    exact ha ((makeRoom_suffix _).subset hb)

theorem Spaced.between (hW : 0 < W) {pre mid post : List α} {a : α} (h : Spaced W (pre ++ a :: mid ++ a :: post)) :
    ∃ others, others <:+ mid ∧ others.length = W ∧ others.Nodup ∧ a ∉ others := by
  have h' : Spaced W ((pre ++ a :: mid) ++ [a]) := by
    refine Spaced.of_append (l := post) ?_
    simpa using h
  obtain ⟨hs, ha⟩ := h'.of_snoc
  -- a shorter middle would leave the first entry among the last `W`
  have hlong : W ≤ mid.length := by
    by_contra hlt
    have hsuf : a :: mid <:+ last W (pre ++ a :: mid) := by
      refine suffix_of_suffix_length_le (suffix_append pre _) (last_suffix _) ?_
      rw [length_last, length_append, length_cons]
      omega
    exact ha (hsuf.subset mem_cons_self)
  have hlast : last W mid = last W (pre ++ a :: mid) := by
    apply last_eq_of_suffix
    · exact (last_suffix mid).trans ((suffix_cons a mid).trans (suffix_append pre _))
    · rw [length_last, length_append, length_cons]
      omega
  refine ⟨last W mid, last_suffix mid, by rw [length_last]; omega, ?_, ?_⟩
  · rw [hlast]
    exact hs.nodup_last hW
  · rw [hlast]
    exact ha

end VanetzaIdf.Lib
