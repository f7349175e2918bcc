/-
# The most recently used

A list of bounded length in which what is used goes to the end (`touch`) holds the
last distinct entries of the history of uses (`touch_mostRecent`). If a value is
used that it does not hold, as many distinct others have been used since
(`distinct_since`).
-/
import Mathlib.Data.List.Dedup
import Mathlib.Data.Finset.Card
import Mathlib.Data.Finset.Dedup
import VanetzaIdf.Lib.Window

namespace VanetzaIdf.Lib

open List

variable {α : Type*} [DecidableEq α] {W : ℕ}

def touch (W : ℕ) (l : List α) (a : α) : List α := if a ∈ l then l.erase a ++ [a] else push W l a

/-- The last `W` distinct entries of a history, each where it was used last. -/
def mostRecent (W : ℕ) (history : List α) : List α := last W history.dedup

theorem dedup_concat (history : List α) (a : α) : (history ++ [a]).dedup = history.dedup.erase a ++ [a] := by
  induction history with
  | nil => rfl
  | cons b history ih =>
    rw [cons_append]
    by_cases hb : b ∈ history
    · rw [dedup_cons_of_mem (mem_append_left _ hb), dedup_cons_of_mem hb, ih]
    · rw [dedup_cons_of_notMem hb]
      by_cases hab : b = a
      · subst hab
        have hnot : b ∉ history.dedup := mt mem_dedup.mp hb
        rw [dedup_cons_of_mem (by simp), ih, erase_cons_head, erase_of_not_mem hnot]
      · rw [dedup_cons_of_notMem (by simp [hb, hab]), ih, erase_cons_tail (by simpa using hab), cons_append]

section Last

variable {d : List α} {a : α}

theorem last_erase_of_mem (hnodup : d.Nodup) (ha : a ∈ last W d) :
    (last W d).erase a ++ [a] = last W (d.erase a ++ [a]) := by
  obtain ⟨front, hfront⟩ := last_suffix (W := W) d
  have hlast := length_last (W := W) d
  -- the values before the window are others
  have hother : a ∉ front := by
    rw [← hfront] at hnodup
    exact fun hmem => disjoint_of_nodup_append hnodup hmem ha
  apply last_eq_of_suffix
  · refine ⟨front, ?_⟩
    rw [← append_assoc, ← erase_append_right _ hother, hfront]
  · have hmem : a ∈ d := (last_suffix d).subset ha
    have hpos := length_pos_of_mem ha
    rw [length_append, length_append, length_erase_of_mem ha, length_erase_of_mem hmem, length_singleton]
    omega

theorem makeRoom_last_suffix (ha : a ∉ last W d) : makeRoom W (last W d) <:+ d.erase a := by
  obtain ⟨front, hfront⟩ := last_suffix (W := W) d
  refine (makeRoom_suffix _).trans ⟨front.erase a, ?_⟩
  nth_rewrite 2 [← hfront]
  by_cases hmem : a ∈ front
  · rw [erase_append_left _ hmem]
  · rw [erase_append_right _ hmem, erase_of_not_mem hmem, erase_of_not_mem ha]

theorem push_last_of_not_mem (hW : 0 < W) (ha : a ∉ last W d) : push W (last W d) a = last W (d.erase a ++ [a]) := by
  have hlast := length_last (W := W) d
  apply last_eq_of_suffix
  · obtain ⟨dropped, hdropped⟩ := makeRoom_last_suffix ha
    exact ⟨dropped, by rw [push, ← append_assoc, hdropped]⟩
  · rw [push, length_append, length_makeRoom hW, length_append, length_singleton]
    by_cases hmem : a ∈ d
    · have hlt : (last W d).length < d.length := by
        refine lt_of_le_of_ne (last_suffix d).length_le fun heq => ha ?_
        rwa [(last_suffix d).eq_of_length heq]
      rw [length_erase_of_mem hmem]
      omega
    · rw [erase_of_not_mem hmem]
      omega

end Last

theorem touch_mostRecent (hW : 0 < W) (history : List α) (a : α) :
    touch W (mostRecent W history) a = mostRecent W (history ++ [a]) := by
  rw [mostRecent, mostRecent, dedup_concat, touch]
  split_ifs with ha
  · rw [last_erase_of_mem history.nodup_dedup ha]
  · rw [push_last_of_not_mem hW ha]

/-- **Distinct others.** Since its last use, `W` distinct others have been used
of a value that is not among the most recent. -/
theorem distinct_since {before since : List α} {a : α} (h : a ∉ mostRecent W (before ++ a :: since)) :
    W ≤ (since.filter (· ≠ a)).toFinset.card := by
  obtain ⟨front, others, hsplit⟩ := append_of_mem (mem_dedup.mpr (mem_cons_self (a := a) (l := since)))
  have hsuffix : a :: others <:+ (before ++ a :: since).dedup := by
    have hpart : a :: others <:+ (a :: since).dedup := ⟨front, hsplit.symm⟩
    rw [dedup_append]
    exact hpart.trans (suffix_union_right _ _)
  -- fewer would leave the value among the last
  have hmany : W ≤ others.length := by
    by_contra hlt
    apply h
    have hlong : (a :: others).length ≤ (last W (before ++ a :: since).dedup).length := by
      rw [length_last, length_cons]
      have hle := hsuffix.length_le
      rw [length_cons] at hle
      omega
    exact (suffix_of_suffix_length_le hsuffix (last_suffix _) hlong).subset mem_cons_self
  have hnodup : (front ++ a :: others).Nodup := hsplit ▸ nodup_dedup _
  have hothers := nodup_cons.mp hnodup.of_append_right
  have hsubset : others.toFinset ⊆ (since.filter (· ≠ a)).toFinset := by
    intro b hb
    have hmem : b ∈ others := mem_toFinset.mp hb
    have hne : b ≠ a := fun heq => hothers.1 (heq ▸ hmem)
    have hin : b ∈ a :: since := by
      rw [← mem_dedup, hsplit]
      exact mem_append_right _ (mem_cons_of_mem _ hmem)
    have hsince : b ∈ since := (mem_cons.mp hin).resolve_left hne
    exact mem_toFinset.mpr (mem_filter.mpr ⟨hsince, decide_eq_true hne⟩)
  calc W ≤ others.length := hmany
    _ = others.toFinset.card := (toFinset_card_of_nodup hothers.2).symm
    _ ≤ _ := Finset.card_le_card hsubset

end VanetzaIdf.Lib
