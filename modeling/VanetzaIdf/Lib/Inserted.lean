/-
# A count with inserted units

Two counts of the same time, one of which leaves out single units. The table
lists the numbers of the shorter count that come right after a unit left out;
`k` units were inserted before. `shorten` undoes `lengthen`, and `lengthen` undoes
`shorten` but for the inserted units, which share the number of the next
(`lengthen_shorten`).
-/
import Mathlib.Data.List.Basic
import Mathlib.Data.Int.Order.Basic
import Mathlib.Order.Monotone.Basic

namespace VanetzaIdf.Lib

open List

variable {k : ℕ} {table : List ℤ}

def inserted (table : List ℤ) (n : ℤ) : ℕ := table.countP (· ≤ n)

/-- How many inserted units are over at `t` in the longer count. -/
def ended (k : ℕ) (table : List ℤ) (t : ℤ) : ℕ := (table.zipIdx k).countP fun p => p.1 + p.2 + 1 ≤ t

/-- From the shorter count to the longer one. -/
def lengthen (k : ℕ) (table : List ℤ) (n : ℤ) : ℤ := n + k + inserted table n

/-- From the longer count to the shorter one. -/
def shorten (k : ℕ) (table : List ℤ) (t : ℤ) : ℤ := t - k - ended k table t

/-- `t` counts an inserted unit. -/
def IsInserted (k : ℕ) (table : List ℤ) (t : ℤ) : Prop := ∃ p ∈ table.zipIdx k, p.1 + p.2 = t

instance (k : ℕ) (table : List ℤ) (t : ℤ) : Decidable (IsInserted k table t) :=
  inferInstanceAs (Decidable (∃ p ∈ table.zipIdx k, p.1 + p.2 = t))

theorem inserted_cons (a : ℤ) (table : List ℤ) (n : ℤ) :
    inserted (a :: table) n = inserted table n + if a ≤ n then 1 else 0 := by
  simp [inserted, countP_cons]

theorem ended_cons (k : ℕ) (a : ℤ) (table : List ℤ) (t : ℤ) :
    ended k (a :: table) t = ended (k + 1) table t + if a + k + 1 ≤ t then 1 else 0 := by
  simp [ended, zipIdx_cons, countP_cons]

theorem inserted_eq_zero {n : ℤ} (h : ∀ a ∈ table, n < a) : inserted table n = 0 := by
  refine countP_eq_zero.mpr fun a ha => ?_
  have hlt := h a ha
  simpa using hlt

theorem ended_eq_zero {t : ℤ} (h : ∀ a ∈ table, t < a + k + 1) : ended k table t = 0 := by
  refine countP_eq_zero.mpr fun p hp => ?_
  obtain ⟨hk, -, hmem⟩ := mem_zipIdx hp
  have hlt := h p.1 (hmem ▸ getElem_mem _)
  have hk' : (k : ℤ) ≤ p.2 := by exact_mod_cast hk
  simp only [decide_eq_true_eq]
  omega

theorem isInserted_cons {a t : ℤ} : IsInserted k (a :: table) t ↔ a + k = t ∨ IsInserted (k + 1) table t := by
  simp [IsInserted, zipIdx_cons]

theorem lengthen_lt_lengthen (k : ℕ) (table : List ℤ) {n m : ℤ} (hlt : n < m) :
    lengthen k table n < lengthen k table m := by
  have hle : inserted table n ≤ inserted table m := by
    refine countP_mono_left fun a _ ha => ?_
    have hle : a ≤ n := by simpa using ha
    simpa using hle.trans hlt.le
  unfold lengthen
  omega

theorem ended_lengthen (hsorted : table.Pairwise (· < ·)) (n : ℤ) :
    ended k table (lengthen k table n) = inserted table n := by
  induction table generalizing k with
  | nil => rfl
  | cons a table ih =>
    obtain ⟨ha, hrest⟩ := pairwise_cons.mp hsorted
    by_cases hle : a ≤ n
    · have hone : lengthen k (a :: table) n = lengthen (k + 1) table n := by
        simp only [lengthen, inserted_cons, if_pos hle]
        push_cast
        omega
      have hover : a + k + 1 ≤ lengthen (k + 1) table n := by
        unfold lengthen
        push_cast
        omega
      rw [hone, ended_cons, ih hrest, if_pos hover, inserted_cons, if_pos hle]
    · -- the table is in order, so nothing of it comes before `n`
      have hlater : ∀ b ∈ a :: table, n < b := by
        exact forall_mem_cons.mpr ⟨not_le.mp hle, fun b hb => (not_le.mp hle).trans (ha b hb)⟩
      have hzero := inserted_eq_zero hlater
      rw [hzero]
      refine ended_eq_zero fun b hb => ?_
      have hlt := hlater b hb
      unfold lengthen
      rw [hzero]
      push_cast
      omega

theorem shorten_lengthen (hsorted : table.Pairwise (· < ·)) (n : ℤ) : shorten k table (lengthen k table n) = n := by
  unfold shorten
  rw [ended_lengthen hsorted]
  unfold lengthen
  omega

theorem le_shorten {a : ℤ} (hsorted : (a :: table).Pairwise (· < ·)) {t : ℤ} (h : a + k + 1 ≤ t) :
    a ≤ shorten (k + 1) table t := by
  induction table generalizing a k with
  | nil =>
    unfold shorten ended
    simp
    omega
  | cons b table ih =>
    obtain ⟨ha, hrest⟩ := pairwise_cons.mp hsorted
    have hab : a < b := ha b mem_cons_self
    unfold shorten
    by_cases hb : b + (k + 1 : ℕ) + 1 ≤ t
    · have hnext := ih hrest hb
      unfold shorten at hnext
      rw [ended_cons, if_pos hb]
      push_cast at hnext ⊢
      omega
    · have hlater : ∀ c ∈ b :: table, t < c + (k + 1 : ℕ) + 1 := by
        intro c hc
        rcases mem_cons.mp hc with rfl | hc
        · exact not_le.mp hb
        · have hbc := (pairwise_cons.mp hrest).1 c hc
          omega
      rw [ended_eq_zero hlater]
      push_cast
      omega

theorem lengthen_shorten (hsorted : table.Pairwise (· < ·)) (t : ℤ) :
    lengthen k table (shorten k table t) = t + if IsInserted k table t then 1 else 0 := by
  induction table generalizing k with
  | nil => simp [lengthen, shorten, inserted, ended, IsInserted]
  | cons a table ih =>
    obtain ⟨ha, hrest⟩ := pairwise_cons.mp hsorted
    by_cases hover : a + k + 1 ≤ t
    · have hshort : shorten k (a :: table) t = shorten (k + 1) table t := by
        unfold shorten
        rw [ended_cons, if_pos hover]
        push_cast
        omega
      have hle : a ≤ shorten (k + 1) table t := le_shorten hsorted hover
      have hlong : lengthen k (a :: table) (shorten (k + 1) table t) =
        lengthen (k + 1) table (shorten (k + 1) table t) := by
        unfold lengthen
        rw [inserted_cons, if_pos hle]
        push_cast
        omega
      have hother : IsInserted k (a :: table) t ↔ IsInserted (k + 1) table t := by
        rw [isInserted_cons]
        exact or_iff_right (by omega)
      rw [hshort, hlong, ih hrest]
      simp only [hother]
    · -- no unit of the table is over yet; the first may be under way
      have hlater : ∀ b ∈ a :: table, t < b + k + 1 := by
        intro b hb
        rcases mem_cons.mp hb with rfl | hb
        · exact not_le.mp hover
        · have hab := ha b hb
          omega
      have hshort : shorten k (a :: table) t = t - k := by
        unfold shorten
        rw [ended_eq_zero hlater]
        simp
      have hnone : inserted table (t - k) = 0 := by
        refine inserted_eq_zero fun b hb => ?_
        have hab := ha b hb
        omega
      have hnot : ¬ IsInserted (k + 1) table t := by
        rintro ⟨p, hp, heq⟩
        obtain ⟨hk, -, hmem⟩ := mem_zipIdx hp
        have hab := ha p.1 (hmem ▸ getElem_mem _)
        have hk' : ((k + 1 : ℕ) : ℤ) ≤ p.2 := by exact_mod_cast hk
        push_cast at hk'
        omega
      rw [hshort, lengthen, inserted_cons, hnone]
      by_cases hfirst : a + k = t
      · rw [if_pos (by omega), if_pos (isInserted_cons.mpr (.inl hfirst))]
        push_cast
        omega
      · have hno : ¬ IsInserted k (a :: table) t := fun h => (isInserted_cons.mp h).elim hfirst hnot
        rw [if_neg (by omega), if_neg hno]
        push_cast
        omega

end VanetzaIdf.Lib
