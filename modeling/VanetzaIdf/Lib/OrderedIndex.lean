/-
# Ordered indices

A list kept in the order of a key that may occur several times: a new element goes
after those with the same key (`insertUpper`), and one that changes stays where it
is if the order allows (`replaceFirst`). Both keep the order (`InOrder`).
-/
import Mathlib.Data.List.Sort
import Mathlib.Data.List.TakeWhile

namespace VanetzaIdf.Lib

open List

variable {α κ : Type*} [LinearOrder κ] (key : α → κ)

/-- The keys do not fall. -/
def InOrder (l : List α) : Prop := l.Pairwise fun a b => key a ≤ key b

def insertUpper (a : α) (l : List α) : List α := l.orderedInsert (fun a b => key a < key b) a

theorem insertUpper_perm (a : α) (l : List α) : (insertUpper key a l).Perm (a :: l) := perm_orderedInsert _ a l

variable {a b : α} {l : List α}

theorem mem_insertUpper : b ∈ insertUpper key a l ↔ b = a ∨ b ∈ l := mem_orderedInsert _

variable {key}

theorem InOrder.insertUpper (h : InOrder key l) (a : α) : InOrder key (insertUpper key a l) := by
  induction l with
  | nil => exact pairwise_singleton _ a
  | cons b l ih =>
    obtain ⟨hb, hl⟩ := pairwise_cons.mp h
    by_cases hab : key a < key b
    · have heq : Lib.insertUpper key a (b :: l) = a :: b :: l := if_pos hab
      rw [heq]
      exact pairwise_cons.mpr ⟨forall_mem_cons.mpr ⟨hab.le, fun c hc => hab.le.trans (hb c hc)⟩, h⟩
    · have heq : Lib.insertUpper key a (b :: l) = b :: Lib.insertUpper key a l := if_neg hab
      rw [heq]
      refine pairwise_cons.mpr ⟨fun c hc => ?_, ih hl⟩
      rcases (mem_insertUpper key).mp hc with rfl | hc
      · exact not_lt.mp hab
      · exact hb c hc

theorem InOrder.head_le (h : InOrder key l) (ha : l.head? = some a) (hb : b ∈ l) : key a ≤ key b := by
  cases l with
  | nil => simp at hb
  | cons c l =>
    obtain rfl : c = a := by simpa using ha
    rcases mem_cons.mp hb with rfl | hb
    · exact le_rfl
    · exact (pairwise_cons.mp h).1 b hb

/-! ### Exchanging an element -/

variable (key)

/-- The order allows the key between these neighbours. -/
def Fits (before after : List α) (k : κ) : Prop :=
  (∀ a ∈ before.getLast?, key a ≤ k) ∧ ∀ a ∈ after.head?, k ≤ key a

instance (before after : List α) (k : κ) : Decidable (Fits key before after k) := by
  unfold Fits
  infer_instance

def replaceFirst (p : α → Bool) (f : α → α) (l : List α) : List α :=
  match l.dropWhile fun a => !p a with
  | [] => l
  | a :: after =>
    let before := l.takeWhile fun a => !p a
    if Fits key before after (key (f a)) then before ++ f a :: after else insertUpper key (f a) (before ++ after)

theorem replaceFirst_cases (p : α → Bool) (f : α → α) (l : List α) :
    (replaceFirst key p f l = l ∧ ∀ a ∈ l, p a = false) ∨
      ∃ before a after, l = before ++ a :: after ∧ p a = true ∧ (∀ b ∈ before, p b = false) ∧
        replaceFirst key p f l =
          if Fits key before after (key (f a)) then before ++ f a :: after
          else insertUpper key (f a) (before ++ after) := by
  have hsplit := takeWhile_append_dropWhile (p := fun a => !p a) (l := l)
  have hbefore : ∀ b ∈ l.takeWhile fun a => !p a, p b = false := fun b hb => by
    simpa using mem_takeWhile_imp hb
  unfold replaceFirst
  cases hd : l.dropWhile fun a => !p a with
  | nil =>
    rw [hd, append_nil] at hsplit
    rw [hsplit] at hbefore
    exact .inl ⟨rfl, hbefore⟩
  | cons a after =>
    have ha : p a = true := by
      have hne : l.dropWhile (fun a => !p a) ≠ [] := by simp [hd]
      have hnot := head_dropWhile_not (fun a => !p a) hne
      simpa [hd] using hnot
    exact .inr ⟨l.takeWhile fun a => !p a, a, after, by rw [← hd, hsplit], ha, hbefore, rfl⟩

theorem exchange_perm (before after : List α) (a : α) :
    (if Fits key before after (key a) then before ++ a :: after else insertUpper key a (before ++ after)).Perm
      (a :: (before ++ after)) := by
  split_ifs
  · exact perm_middle
  · exact insertUpper_perm key a _

variable {key}

theorem InOrder.le_getLast (h : InOrder key l) (ha : l.getLast? = some a) (hb : b ∈ l) : key b ≤ key a := by
  obtain ⟨init, rfl⟩ := List.getLast?_eq_some_iff.mp ha
  rcases mem_append.mp hb with hb | hb
  · exact (pairwise_append.mp h).2.2 b hb a mem_cons_self
  · rw [mem_singleton.mp hb]

theorem InOrder.exchange {before after : List α} (h : InOrder key (before ++ a :: after))
    (hfit : Fits key before after (key b)) : InOrder key (before ++ b :: after) := by
  obtain ⟨hbefore, hrest, hcross⟩ := pairwise_append.mp h
  obtain ⟨-, hafter⟩ := pairwise_cons.mp hrest
  have hlow : ∀ c ∈ before, key c ≤ key b := by
    intro c hc
    have hlast := List.getLast?_eq_some_getLast (ne_nil_of_mem hc)
    exact (InOrder.le_getLast hbefore hlast hc).trans (hfit.1 _ hlast)
  have hhigh : ∀ c ∈ after, key b ≤ key c := by
    intro c hc
    have hhead := List.head?_eq_some_head (ne_nil_of_mem hc)
    exact (hfit.2 _ hhead).trans (InOrder.head_le hafter hhead hc)
  refine pairwise_append.mpr ⟨hbefore, pairwise_cons.mpr ⟨hhigh, hafter⟩, fun c hc d hd => ?_⟩
  rcases mem_cons.mp hd with rfl | hd
  · exact hlow c hc
  · exact hcross c hc d (mem_cons_of_mem _ hd)

theorem InOrder.replaceFirst (h : InOrder key l) (p : α → Bool) (f : α → α) :
    InOrder key (replaceFirst key p f l) := by
  rcases replaceFirst_cases key p f l with ⟨heq, -⟩ | ⟨before, a, after, rfl, -, -, heq⟩
  · rw [heq]
    exact h
  · rw [heq]
    split_ifs with hfit
    · exact h.exchange hfit
    · refine InOrder.insertUpper ?_ _
      exact h.sublist ((sublist_cons_self a after).append_left before)

end VanetzaIdf.Lib
