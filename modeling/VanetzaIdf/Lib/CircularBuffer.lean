/-
# A circular buffer

`pushBack` overwrites the oldest entry of a full buffer, `resize` fills up with
copies of an item or removes entries at the back. Only filling up can change the
capacity, so a buffer that is cut short keeps its room.
-/
import VanetzaIdf.Lib.Window

namespace VanetzaIdf.Lib

open List

structure CircularBuffer (α : Type*) where
  capacity : ℕ
  contents : List α
  size_le : contents.length ≤ capacity
deriving DecidableEq, Repr

namespace CircularBuffer

variable {α : Type*} (b : CircularBuffer α)

def empty (capacity : ℕ) : CircularBuffer α := ⟨capacity, [], Nat.zero_le _⟩

def size : ℕ := b.contents.length

def full : Bool := b.size == b.capacity

def clear : CircularBuffer α := empty b.capacity

/-- One more at the back, in place of the oldest if the buffer is full. -/
def pushBack (a : α) : CircularBuffer α :=
  if h : 0 < b.capacity then ⟨b.capacity, push b.capacity b.contents a, length_push_le h _ _⟩ else b

/-- Copies of `item` at the back up to `n` entries, or the first `n` entries. -/
def resize (n : ℕ) (item : α) : CircularBuffer α :=
  if b.size < n then
    ⟨max b.capacity n, b.contents ++ List.replicate (n - b.size) item, by
      have := b.size_le
      simp only [size, length_append, length_replicate]
      omega⟩
  else ⟨b.capacity, b.contents.take n, (length_take_le' n b.contents).trans b.size_le⟩

@[simp] theorem clear_contents : b.clear.contents = [] := rfl

theorem size_lt_of_not_full (h : b.full = false) : b.size < b.capacity := by
  have hle := b.size_le
  have hne : b.size ≠ b.capacity := by simpa [full] using h
  exact lt_of_le_of_ne hle hne

@[simp] theorem pushBack_capacity (a : α) : (b.pushBack a).capacity = b.capacity := by
  unfold pushBack
  split_ifs <;> rfl

theorem pushBack_contents (h : 0 < b.capacity) (a : α) :
    (b.pushBack a).contents = makeRoom b.capacity b.contents ++ [a] := by
  rw [pushBack, dif_pos h]
  rfl

theorem pushBack_suffix (h : 0 < b.capacity) (a : α) : (b.pushBack a).contents <:+ b.contents ++ [a] := by
  rw [b.pushBack_contents h]
  obtain ⟨dropped, hdropped⟩ := makeRoom_suffix (W := b.capacity) b.contents
  exact ⟨dropped, by rw [← append_assoc, hdropped]⟩

theorem pushBack_of_not_full (h : b.full = false) (a : α) : (b.pushBack a).contents = b.contents ++ [a] := by
  have hlt := b.size_lt_of_not_full h
  have hpos : 0 < b.capacity := lt_of_le_of_lt (Nat.zero_le _) hlt
  have hlen : (b.pushBack a).contents.length = (b.contents ++ [a]).length := by
    rw [b.pushBack_contents hpos, length_append, length_makeRoom hpos, length_append, length_singleton]
    rw [size] at hlt
    omega
  exact (b.pushBack_suffix hpos a).eq_of_length hlen

theorem resize_of_le {n : ℕ} (h : n ≤ b.size) (item : α) : (b.resize n item).contents = b.contents.take n := by
  rw [resize, if_neg (not_lt.mpr h)]

theorem le_resize_capacity (n : ℕ) (item : α) : b.capacity ≤ (b.resize n item).capacity := by
  unfold resize
  split_ifs
  · exact le_max_left _ _
  · exact le_rfl

theorem resize_capacity {n : ℕ} (h : b.capacity ≤ n) (item : α) : (b.resize n item).capacity = n := by
  have hle := b.size_le
  unfold resize
  split_ifs with hn
  · exact max_eq_right h
  · rw [size] at hn
    show b.capacity = n
    omega

end CircularBuffer

end VanetzaIdf.Lib
