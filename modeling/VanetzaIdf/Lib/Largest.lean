/-
# The two largest

Two slots that keep the largest and the second largest of the values seen so
far, each as often as it was seen. Whatever the order of the values, they end
up as the first two of the values in descending order (`foldl_keepTwo`).
-/
import Mathlib.Data.List.Induction
import Mathlib.Data.Multiset.Sort
import Mathlib.Order.BoundedOrder.Basic

namespace VanetzaIdf.Lib

open List

variable {α : Type*} [LinearOrder α]

/-- One more value for the two slots. -/
def keepTwo (m : α × α) (a : α) : α × α := if m.1 ≤ a then (a, m.1) else if m.2 < a then (m.1, a) else m

theorem sort_cons_eq_orderedInsert (a : α) (s : Multiset α) :
    (a ::ₘ s).sort (· ≥ ·) = (s.sort (· ≥ ·)).orderedInsert (· ≥ ·) a := by
  refine List.Perm.eq_of_pairwise' ((a ::ₘ s).pairwise_sort _) ((s.pairwise_sort _).orderedInsert a _) ?_
  rw [← Multiset.coe_eq_coe, Multiset.sort_eq]
  have hperm := Multiset.coe_eq_coe.mpr (perm_orderedInsert (· ≥ ·) a (s.sort (· ≥ ·)))
  rw [hperm, ← Multiset.cons_coe, Multiset.sort_eq]

variable [OrderBot α]

/-- The largest value, counting from zero and with multiplicity; the least there is if there are fewer. -/
def nthLargest (n : ℕ) (s : Multiset α) : α := (s.sort (· ≥ ·)).getD n ⊥

theorem keepTwo_orderedInsert (d : List α) (a : α) :
    keepTwo (d.getD 0 ⊥, d.getD 1 ⊥) a =
      ((d.orderedInsert (· ≥ ·) a).getD 0 ⊥, (d.orderedInsert (· ≥ ·) a).getD 1 ⊥) := by
  cases d with
  | nil => simp [keepTwo]
  | cons b d =>
    by_cases hb : b ≤ a
    · rw [orderedInsert_cons_of_le (r := (· ≥ ·)) d hb]
      simp [keepTwo, hb]
    · rw [orderedInsert_of_not_le (r := (· ≥ ·)) d hb]
      cases d with
      | nil =>
        by_cases ha : ⊥ < a
        · simp [keepTwo, hb, ha]
        · have hbot : a = ⊥ := not_bot_lt_iff.mp ha
          have hne : b ≠ ⊥ := fun h => hb (h.le.trans bot_le)
          simp [keepTwo, hbot, hne]
      | cons c d =>
        rcases lt_trichotomy c a with hlt | heq | hgt
        · rw [orderedInsert_cons_of_le (r := (· ≥ ·)) d hlt.le]
          simp [keepTwo, hb, hlt]
        · rw [orderedInsert_cons_of_le (r := (· ≥ ·)) d heq.le]
          simp [keepTwo, hb, heq]
        · rw [orderedInsert_of_not_le (r := (· ≥ ·)) d (not_le.mpr hgt)]
          simp [keepTwo, hb, hgt.le]

/-- **The two slots hold the two largest**, in whatever order the values come. -/
theorem foldl_keepTwo (l : List α) : l.foldl keepTwo (⊥, ⊥) =
    (nthLargest 0 (l : Multiset α), nthLargest 1 (l : Multiset α)) := by
  induction l using List.reverseRecOn with
  | nil => simp [nthLargest]
  | append_singleton l a ih =>
    have hcons : ((l ++ [a] : List α) : Multiset α) = a ::ₘ (l : Multiset α) := by
      rw [Multiset.cons_coe]
      exact Multiset.coe_eq_coe.mpr (perm_append_singleton a l)
    rw [foldl_append, foldl_cons, foldl_nil, ih, hcons]
    unfold nthLargest
    rw [sort_cons_eq_orderedInsert]
    exact keepTwo_orderedInsert _ a

end VanetzaIdf.Lib
