/-
# Scanners

A scanner waits for more, skips what is in front, or takes a frame off, and looks
again (`scan`). If more input never changes a verdict other than to wait
(`Steady`), it makes no difference how the input is cut (`scan_append`,
`feed_eq`), and each piece got the verdict of all that follows it (`scan_judged`).
-/
import Mathlib.Data.List.Basic

namespace VanetzaIdf.Lib

open List

variable {α φ : Type}

/-- What to do with the front of a buffer. A frame takes the first one and
`more` after it. -/
inductive Verdict (φ : Type)
  | wait | skip | frame (f : φ) (more : ℕ)
deriving DecidableEq

/-- What a scanner took off the front. -/
inductive Piece (α φ : Type)
  | skipped (a : α)
  | framed (f : φ) (octets : List α)

namespace Piece

def octets : Piece α φ → List α
  | skipped a => [a]
  | framed _ octets => octets

def verdict : Piece α φ → Verdict φ
  | skipped _ => .skip
  | framed f octets => .frame f (octets.length - 1)

def frame? : Piece α φ → Option φ
  | skipped _ => none
  | framed f _ => some f

end Piece

def frames (ps : List (Piece α φ)) : List φ := ps.filterMap Piece.frame?

section Scan

variable (inspect : List α → Verdict φ)

/-- The pieces taken off the front, and what is left. -/
def scan : List α → List (Piece α φ) × List α
  | [] => ([], [])
  | a :: l =>
    match inspect (a :: l) with
    | .wait => ([], a :: l)
    | .skip => (.skipped a :: (scan l).1, (scan l).2)
    | .frame f more => (.framed f (a :: l.take more) :: (scan (l.drop more)).1, (scan (l.drop more)).2)
termination_by l => l.length
decreasing_by
  all_goals simp only [length_drop, length_cons]
  all_goals omega

/-- One after the other is put into the buffer, which is scanned each time. -/
def feed : List α → List α → List (Piece α φ) × List α
  | buffer, [] => ([], buffer)
  | buffer, a :: l =>
    let r := scan inspect (buffer ++ [a])
    let r' := feed r.2 l
    (r.1 ++ r'.1, r'.2)

/-- More input changes no verdict, and frames are there when they are taken. -/
structure Steady : Prop where
  append : ∀ l m, inspect l ≠ .wait → inspect (l ++ m) = inspect l
  present : ∀ l f more, inspect l = .frame f more → more < l.length

variable {inspect}

variable {l : List α}

theorem scan_wait {a : α} (h : inspect (a :: l) = .wait) : scan inspect (a :: l) = ([], a :: l) := by
  rw [scan, h]

theorem scan_skip {a : α} (h : inspect (a :: l) = .skip) :
    scan inspect (a :: l) = (.skipped a :: (scan inspect l).1, (scan inspect l).2) := by
  rw [scan, h]

theorem scan_frame {a : α} {f : φ} {more : ℕ} (h : inspect (a :: l) = .frame f more) :
    scan inspect (a :: l) =
      (.framed f (a :: l.take more) :: (scan inspect (l.drop more)).1, (scan inspect (l.drop more)).2) := by
  rw [scan, h]

variable (inspect) in
theorem scan_induction {motive : List α → Prop} (nil : motive [])
    (wait : ∀ a l, inspect (a :: l) = .wait → motive (a :: l))
    (skip : ∀ a l, inspect (a :: l) = .skip → motive l → motive (a :: l))
    (frame : ∀ a l f more, inspect (a :: l) = .frame f more → motive (l.drop more) → motive (a :: l)) (l : List α) :
    motive l := by
  induction hn : l.length using Nat.strongRecOn generalizing l with
  | _ n ih =>
    cases l with
    | nil => exact nil
    | cons a l =>
      rw [length_cons] at hn
      cases h : inspect (a :: l) with
      | wait => exact wait a l h
      | skip => exact skip a l h (ih _ (by omega) l rfl)
      | frame f more => exact frame a l f more h (ih _ (by rw [length_drop]; omega) _ rfl)

theorem scan_octets (l : List α) : (scan inspect l).1.flatMap Piece.octets ++ (scan inspect l).2 = l := by
  induction l using scan_induction inspect with
  | nil =>
    rw [scan]
    rfl
  | wait a l h =>
    rw [scan_wait h]
    rfl
  | skip a l h ih =>
    rw [scan_skip h]
    exact congrArg (a :: ·) ih
  | frame a l f more h ih =>
    rw [scan_frame h]
    rw [flatMap_cons, Piece.octets, append_assoc, ih, cons_append, take_append_drop]

variable (inspect) in
theorem scan_left (l : List α) : (scan inspect l).2 = [] ∨ inspect (scan inspect l).2 = .wait := by
  induction l using scan_induction inspect with
  | nil =>
    rw [scan]
    exact .inl rfl
  | wait a l h =>
    rw [scan_wait h]
    exact .inr h
  | skip a l h ih =>
    rw [scan_skip h]
    exact ih
  | frame a l f more h ih =>
    rw [scan_frame h]
    exact ih

theorem scan_judged (h : Steady inspect) {before after : List (Piece α φ)} {p : Piece α φ}
    (hp : (scan inspect l).1 = before ++ p :: after) :
    inspect (p.octets ++ (after.flatMap Piece.octets ++ (scan inspect l).2)) = p.verdict := by
  induction l using scan_induction inspect generalizing before with
  | nil =>
    rw [scan] at hp
    simp at hp
  | wait a l hi =>
    rw [scan_wait hi] at hp
    simp at hp
  | skip a l hi ih =>
    rw [scan_skip hi] at hp ⊢
    obtain ⟨rfl, hcons⟩ | ⟨rest, rfl, hcons⟩ := cons_eq_append_iff.mp hp
    · obtain ⟨rfl, rfl⟩ := List.cons.inj hcons
      rw [scan_octets]
      exact hi
    · exact ih hcons
  | frame a l f more hi ih =>
    rw [scan_frame hi] at hp ⊢
    obtain ⟨rfl, hcons⟩ | ⟨rest, rfl, hcons⟩ := cons_eq_append_iff.mp hp
    · obtain ⟨rfl, rfl⟩ := List.cons.inj hcons
      have hlt := h.present _ f more hi
      rw [length_cons] at hlt
      rw [scan_octets, Piece.verdict, Piece.octets, cons_append, take_append_drop, hi, length_cons,
        length_take_of_le (by omega), Nat.add_sub_cancel]
    · exact ih hcons

theorem scan_append (h : Steady inspect) (l m : List α) :
    scan inspect (l ++ m) =
      ((scan inspect l).1 ++ (scan inspect ((scan inspect l).2 ++ m)).1,
        (scan inspect ((scan inspect l).2 ++ m)).2) := by
  induction l using scan_induction inspect with
  | nil =>
    rw [scan]
    rfl
  | wait a l hi =>
    rw [scan_wait hi]
    rfl
  | skip a l hi ih =>
    have hm : inspect (a :: (l ++ m)) = .skip := by
      rw [← hi]
      exact h.append (a :: l) m (by rw [hi]; nofun)
    rw [cons_append, scan_skip hm, scan_skip hi, ih]
    rfl
  | frame a l f more hi ih =>
    have hm : inspect (a :: (l ++ m)) = .frame f more := by
      rw [← hi]
      exact h.append (a :: l) m (by rw [hi]; nofun)
    have hlt := h.present _ f more hi
    rw [length_cons] at hlt
    rw [cons_append, scan_frame hm, scan_frame hi, take_append_of_le_length (by omega),
      drop_append_of_le_length (by omega), ih]
    rfl

theorem scan_scan (l : List α) : scan inspect (scan inspect l).2 = ([], (scan inspect l).2) := by
  cases hl : (scan inspect l).2 with
  | nil =>
    rw [scan]
  | cons a m =>
    have hwait := (scan_left inspect l).resolve_left (by rw [hl]; simp)
    rw [hl] at hwait
    exact scan_wait hwait

theorem feed_eq (h : Steady inspect) {buffer : List α} (hbuffer : scan inspect buffer = ([], buffer)) (l : List α) :
    feed inspect buffer l = scan inspect (buffer ++ l) := by
  induction l generalizing buffer with
  | nil =>
    rw [append_nil, hbuffer]
    rfl
  | cons a l ih =>
    rw [feed, ih (scan_scan _), show buffer ++ a :: l = buffer ++ [a] ++ l by simp, scan_append h (buffer ++ [a]) l]

theorem scan_frames {fs : List φ} {bss : List (List α)}
    (h : List.Forall₂ (fun f bs => bs ≠ [] ∧ ∀ m, inspect (bs ++ m) = .frame f (bs.length - 1)) fs bss) :
    frames (scan inspect bss.flatten).1 = fs ∧ (scan inspect bss.flatten).2 = [] := by
  induction h with
  | nil =>
    rw [flatten_nil, scan]
    exact ⟨rfl, rfl⟩
  | @cons f bs fs bss hbs _ ih =>
    obtain ⟨hne, hi⟩ := hbs
    obtain ⟨a, l, rfl⟩ := exists_cons_of_ne_nil hne
    have hframe := hi bss.flatten
    rw [cons_append, length_cons, Nat.add_sub_cancel] at hframe
    rw [flatten_cons, cons_append, scan_frame hframe, take_left, drop_left]
    exact ⟨congrArg (f :: ·) ih.1, ih.2⟩

end Scan

end VanetzaIdf.Lib
