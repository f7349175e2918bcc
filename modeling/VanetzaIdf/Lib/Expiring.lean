/-
# Items that expire

Items in a list, and a heap that says when each expires: an item has a handle of
its node, and the node the time and a reference to the item. Of the heap it is
only asked that its top is a node of the least time (`Top`).

Items and nodes are in bijection (`Linked`), and stand for a list of entries with
their times (`entries`): dropping from the top leaves those that have not expired
(`entries_dropExpired`).
-/
import Mathlib.Data.List.MinMax
import Mathlib.Data.List.Nodup

namespace VanetzaIdf.Lib

open List

/-- An item; `ref` is what its node knows it by. -/
structure Item (ι α : Type*) where
  ref : ι
  value : α
  handle : ℕ

structure Node (ι τ : Type*) where
  handle : ℕ
  time : τ
  ref : ι

/-- An item with the time it expires. -/
@[ext] structure Entry (ι α τ : Type*) where
  ref : ι
  value : α
  time : τ
deriving DecidableEq

structure Expiring (ι α τ : Type*) where
  items : List (Item ι α) := []
  heap : List (Node ι τ) := []
  next : ℕ := 0

section Keys

variable {α κ : Type*} [DecidableEq κ] {key : α → κ} {l : List α} {x : α}

theorem find?_of_nodup_map (h : (l.map key).Nodup) (hx : x ∈ l) : l.find? (fun y => key y = key x) = some x := by
  cases hf : l.find? fun y => key y = key x with
  | none =>
    have hne : key x ≠ key x := by simpa using List.find?_eq_none.mp hf x hx
    exact absurd rfl hne
  | some y =>
    have hy : key y = key x := by simpa using List.find?_some hf
    rw [inj_on_of_nodup_map h (mem_of_find?_eq_some hf) hx hy]

end Keys

structure Top (ι τ : Type*) [LinearOrder τ] where
  top : List (Node ι τ) → Option (Node ι τ)
  eq_nil : ∀ {l}, top l = none → l = []
  mem : ∀ {l n}, top l = some n → n ∈ l
  least : ∀ {l n}, top l = some n → ∀ m ∈ l, n.time ≤ m.time

/-- The first one of least time. -/
def Top.first (ι τ : Type*) [LinearOrder τ] : Top ι τ where
  top l := l.argmin (·.time)
  eq_nil h := argmin_eq_none.mp h
  mem h := argmin_mem h
  least h _ hm := le_of_mem_argmin hm h

namespace Expiring

variable {ι α τ : Type*} (s : Expiring ι α τ)

/-- A new item with its node. -/
def push (ref : ι) (value : α) (time : τ) : Expiring ι α τ where
  items := s.items ++ [⟨ref, value, s.next⟩]
  heap := s.heap ++ [⟨s.next, time, ref⟩]
  next := s.next + 1

/-- The time of the node with this handle is changed. -/
def setTime (time : τ) (handle : ℕ) : Expiring ι α τ :=
  { s with heap := s.heap.map fun n => if n.handle = handle then { n with time } else n }

/-- The time of several nodes is changed. -/
def setTimes (time : τ) (handles : List ℕ) : Expiring ι α τ := handles.foldl (·.setTime time ·) s

def timeOf [Inhabited τ] (handle : ℕ) : τ :=
  ((s.heap.find? (·.handle = handle)).map (·.time)).getD default

def entries [Inhabited τ] : List (Entry ι α τ) :=
  s.items.map fun x => ⟨x.ref, x.value, s.timeOf x.handle⟩

def mapValues [Inhabited τ] (f : Entry ι α τ → α) : Expiring ι α τ :=
  { s with items := s.items.map fun x => { x with value := f ⟨x.ref, x.value, s.timeOf x.handle⟩ } }

variable [DecidableEq ι]

def remove (n : Node ι τ) : Expiring ι α τ :=
  { s with
    items := s.items.filter fun x => x.ref ≠ n.ref
    heap := s.heap.filter fun m => m.handle ≠ n.handle }

def dropLoop [LinearOrder τ] (t : Top ι τ) (now : τ) : ℕ → Expiring ι α τ → Expiring ι α τ
  | 0, s => s
  | fuel + 1, s =>
    match t.top s.heap with
    | none => s
    | some n => if n.time < now then dropLoop t now fuel (s.remove n) else s

def dropExpired [LinearOrder τ] (t : Top ι τ) (now : τ) (s : Expiring ι α τ) : Expiring ι α τ :=
  dropLoop t now s.heap.length s

/-! ### Items and nodes -/

omit [DecidableEq ι]

/-- Items and nodes are in bijection. -/
structure Linked (s : Expiring ι α τ) : Prop where
  refs : (s.items.map (·.ref)).Nodup
  handles : (s.items.map (·.handle)).Nodup
  nodes : (s.heap.map fun n => (n.handle, n.ref)).Perm (s.items.map fun x => (x.handle, x.ref))
  below : ∀ x ∈ s.items, x.handle < s.next

theorem Linked.empty : Linked ({} : Expiring ι α τ) :=
  ⟨nodup_nil, nodup_nil, List.Perm.refl _, nofun⟩

section Linked

variable {s : Expiring ι α τ} (h : s.Linked)

include h

theorem Linked.heap_handles : (s.heap.map (·.handle)).Perm (s.items.map (·.handle)) := by
  have hperm := h.nodes.map Prod.fst
  rwa [map_map, map_map] at hperm

variable {x y : Item ι α} {n : Node ι τ}

theorem Linked.node_of_item (hx : x ∈ s.items) : ∃ n ∈ s.heap, n.handle = x.handle ∧ n.ref = x.ref := by
  have hmem : (x.handle, x.ref) ∈ s.heap.map fun n => (n.handle, n.ref) :=
    h.nodes.mem_iff.mpr (mem_map_of_mem (f := fun x => (x.handle, x.ref)) hx)
  obtain ⟨n, hn, heq⟩ := mem_map.mp hmem
  obtain ⟨hhandle, href⟩ := Prod.mk.inj heq
  exact ⟨n, hn, hhandle, href⟩

theorem Linked.item_of_node (hn : n ∈ s.heap) : ∃ x ∈ s.items, x.handle = n.handle ∧ x.ref = n.ref := by
  have hmem : (n.handle, n.ref) ∈ s.items.map fun x => (x.handle, x.ref) :=
    h.nodes.mem_iff.mp (mem_map_of_mem (f := fun n => (n.handle, n.ref)) hn)
  obtain ⟨x, hx, heq⟩ := mem_map.mp hmem
  obtain ⟨hhandle, href⟩ := Prod.mk.inj heq
  exact ⟨x, hx, hhandle, href⟩

theorem Linked.eq_of_handle (hx : x ∈ s.items) (hy : y ∈ s.items) (heq : x.handle = y.handle) : x = y :=
  inj_on_of_nodup_map h.handles hx hy heq

theorem Linked.eq_of_ref (hx : x ∈ s.items) (hy : y ∈ s.items) (heq : x.ref = y.ref) : x = y :=
  inj_on_of_nodup_map h.refs hx hy heq

theorem Linked.ref_iff_handle (hn : n ∈ s.heap) (hx : x ∈ s.items) : x.ref = n.ref ↔ x.handle = n.handle := by
  obtain ⟨y, hy, hhandle, href⟩ := h.item_of_node hn
  constructor
  · intro heq
    rw [h.eq_of_ref hx hy (heq.trans href.symm), hhandle]
  · intro heq
    rw [h.eq_of_handle hx hy (heq.trans hhandle.symm), href]

theorem Linked.push {ref : ι} (href : ∀ x ∈ s.items, x.ref ≠ ref) (value : α) (time : τ) :
    (s.push ref value time).Linked where
  refs := by
    simpa [Expiring.push, nodup_append] using ⟨h.refs, href⟩
  handles := by
    simpa [Expiring.push, nodup_append] using ⟨h.handles, fun x hx => Nat.ne_of_lt (h.below x hx)⟩
  nodes := by
    simpa [Expiring.push] using h.nodes.append_right [(s.next, ref)]
  below x hx := by
    rcases mem_append.mp hx with hx | hx
    · exact Nat.lt_succ_of_lt (h.below x hx)
    · rw [mem_singleton.mp hx]
      exact Nat.lt_succ_self _

theorem Linked.setTime (time : τ) (handle : ℕ) : (s.setTime time handle).Linked where
  refs := h.refs
  handles := h.handles
  nodes := by
    have hsame : (s.setTime time handle).heap.map (fun n => (n.handle, n.ref)) = s.heap.map fun n =>
      (n.handle, n.ref) := by
      show (s.heap.map _).map _ = _
      rw [map_map]
      apply map_congr_left
      intro n _
      by_cases hn : n.handle = handle <;> simp [hn]
    rw [hsame]
    exact h.nodes
  below := h.below

theorem Linked.mapValues [Inhabited τ] (f : Entry ι α τ → α) : (s.mapValues f).Linked where
  refs := by simpa [Expiring.mapValues, Function.comp_def] using h.refs
  handles := by simpa [Expiring.mapValues, Function.comp_def] using h.handles
  nodes := by simpa [Expiring.mapValues, Function.comp_def] using h.nodes
  below y hy := by
    obtain ⟨x, hx, rfl⟩ := mem_map.mp hy
    exact h.below x hx

variable [DecidableEq ι]

theorem Linked.remove (hn : n ∈ s.heap) : (s.remove n).Linked where
  refs := h.refs.sublist (filter_sublist.map _)
  handles := h.handles.sublist (filter_sublist.map _)
  nodes := by
    have hheap : (s.remove n).heap.map (fun m => (m.handle, m.ref)) =
        (s.heap.map fun m => (m.handle, m.ref)).filter fun p => p.1 ≠ n.handle := by
      rw [filter_map]
      rfl
    have hitems : (s.remove n).items.map (fun x => (x.handle, x.ref)) =
        (s.items.map fun x => (x.handle, x.ref)).filter fun p => p.1 ≠ n.handle := by
      rw [filter_map]
      show (s.items.filter _).map _ = _
      rw [filter_congr]
      intro x hx
      simp [h.ref_iff_handle hn hx]
    rw [hheap, hitems]
    exact h.nodes.filter _
  below x hx := h.below x (mem_of_mem_filter hx)

end Linked

theorem Linked.setTimes {s : Expiring ι α τ} (h : s.Linked) (time : τ) (handles : List ℕ) :
    (s.setTimes time handles).Linked := by
  induction handles generalizing s with
  | nil => exact h
  | cons handle handles ih => exact ih (h.setTime time handle)

theorem next_setTimes (time : τ) (handles : List ℕ) : (s.setTimes time handles).next = s.next := by
  induction handles generalizing s with
  | nil => rfl
  | cons handle handles ih => exact ih (s.setTime time handle)

/-! ### Times -/

section Times

variable [Inhabited τ] {s : Expiring ι α τ}

theorem Linked.timeOf_eq (h : s.Linked) {n : Node ι τ} (hn : n ∈ s.heap) : s.timeOf n.handle = n.time := by
  have hunique : (s.heap.map (·.handle)).Nodup := h.heap_handles.nodup_iff.mpr h.handles
  have hfind : s.heap.find? (·.handle = n.handle) = some n := find?_of_nodup_map hunique hn
  unfold timeOf
  rw [hfind]
  rfl

theorem timeOf_congr {t : Expiring ι α τ} {handle : ℕ}
    (h : s.heap.filter (·.handle = handle) = t.heap.filter (·.handle = handle)) :
    s.timeOf handle = t.timeOf handle := by
  unfold timeOf
  rw [← List.head?_filter, ← List.head?_filter, h]

theorem entries_mapValues (f : Entry ι α τ → α) :
    (s.mapValues f).entries = s.entries.map fun e => { e with value := f e } := by
  show (s.items.map _).map _ = (s.items.map _).map _
  rw [map_map, map_map]
  rfl

variable {x : Item ι α}

theorem Linked.timeOf_push (h : s.Linked) (ref : ι) (value : α) (time : τ) (hx : x ∈ s.items) :
    (s.push ref value time).timeOf x.handle = s.timeOf x.handle := by
  have hne : s.next ≠ x.handle := Nat.ne_of_gt (h.below x hx)
  apply timeOf_congr
  simp [Expiring.push, hne]

theorem Linked.timeOf_next (h : s.Linked) (ref : ι) (value : α) (time : τ) :
    (s.push ref value time).timeOf s.next = time := by
  have hnone : s.heap.find? (·.handle = s.next) = none := by
    rw [List.find?_eq_none]
    intro n hn
    obtain ⟨x, hx, hhandle, _⟩ := h.item_of_node hn
    have hlt := h.below x hx
    simp only [decide_eq_true_eq]
    omega
  simp [timeOf, Expiring.push, List.find?_append, hnone]

theorem Linked.entries_push (h : s.Linked) (ref : ι) (value : α) (time : τ) :
    (s.push ref value time).entries = s.entries ++ [⟨ref, value, time⟩] := by
  have hold : s.items.map (fun x => (⟨x.ref, x.value, (s.push ref value time).timeOf x.handle⟩ : Entry ι α τ)) =
    s.entries :=
    map_congr_left fun x hx => by rw [h.timeOf_push ref value time hx]
  show (s.items ++ [_]).map _ = _
  rw [map_append, hold, map_singleton, h.timeOf_next]

/-! ### A time changed -/

theorem timeOf_setTime_of_ne (time : τ) {handle handle' : ℕ} (hne : handle' ≠ handle) :
    (s.setTime time handle).timeOf handle' = s.timeOf handle' := by
  unfold timeOf setTime
  rw [List.find?_map]
  have hsame : ((fun n : Node ι τ => decide (n.handle = handle')) ∘
      fun n => if n.handle = handle then { n with time } else n) =
      fun n => decide (n.handle = handle') := by
    funext n
    by_cases hn : n.handle = handle <;> simp [hn]
  rw [hsame]
  cases hf : s.heap.find? (fun n => decide (n.handle = handle')) with
  | none => rfl
  | some n =>
    have hn : n.handle = handle' := by simpa using List.find?_some hf
    simp [hn, hne]

theorem Linked.timeOf_setTime (h : s.Linked) (time : τ) (hx : x ∈ s.items) :
    (s.setTime time x.handle).timeOf x.handle = time := by
  obtain ⟨n, hn, hhandle, _⟩ := h.node_of_item hx
  have hmem : { n with time } ∈ (s.setTime time x.handle).heap :=
    mem_map.mpr ⟨n, hn, by rw [if_pos hhandle]⟩
  have htime := (h.setTime time x.handle).timeOf_eq hmem
  rwa [hhandle] at htime

variable [DecidableEq ι]

theorem Linked.entries_setTime (h : s.Linked) (time : τ) (hx : x ∈ s.items) :
    (s.setTime time x.handle).entries = s.entries.map fun e => if e.ref = x.ref then { e with time } else e := by
  unfold entries
  rw [map_map]
  apply map_congr_left
  intro y hy
  by_cases hxy : y.ref = x.ref
  · have heq : y = x := h.eq_of_ref hy hx hxy
    subst heq
    simp [h.timeOf_setTime time hx]
  · have hne : y.handle ≠ x.handle := fun hh => hxy (by rw [h.eq_of_handle hy hx hh])
    simp [hxy, timeOf_setTime_of_ne time hne]

theorem Linked.entries_setTimes_map (h : s.Linked) (time : τ) {xs : List (Item ι α)} (hxs : ∀ x ∈ xs, x ∈ s.items) :
    (s.setTimes time (xs.map (·.handle))).entries =
      s.entries.map fun e => if e.ref ∈ xs.map (·.ref) then { e with time } else e := by
  induction xs generalizing s with
  | nil => simp [Expiring.setTimes]
  | cons x xs ih =>
    have hx : x ∈ s.items := hxs x mem_cons_self
    have hrest := ih (h.setTime time x.handle) fun y hy => hxs y (mem_cons_of_mem _ hy)
    refine hrest.trans ?_
    rw [h.entries_setTime time hx, map_map]
    apply map_congr_left
    intro e _
    by_cases he : e.ref = x.ref <;> simp [he]

theorem Linked.entries_setTimes (h : s.Linked) (time : τ) (p : α → Bool) :
    (s.setTimes time ((s.items.filter fun x => p x.value).map (·.handle))).entries =
      s.entries.map fun e => if p e.value then { e with time } else e := by
  rw [h.entries_setTimes_map time fun x hx => mem_of_mem_filter hx]
  apply map_congr_left
  intro e he
  obtain ⟨x, hx, rfl⟩ := mem_map.mp he
  have hiff : x.ref ∈ (s.items.filter fun x => p x.value).map (·.ref) ↔ p x.value = true := by
    rw [mem_map]
    constructor
    · rintro ⟨y, hy, href⟩
      obtain ⟨hy, hp⟩ := mem_filter.mp hy
      rwa [h.eq_of_ref hy hx href] at hp
    · intro hp
      exact ⟨x, mem_filter.mpr ⟨hx, hp⟩, rfl⟩
  simp only [hiff]

/-! ### Items dropped -/

section Drop

variable {n : Node ι τ}

theorem Linked.entries_remove (h : s.Linked) (hn : n ∈ s.heap) :
    (s.remove n).entries = s.entries.filter fun e => e.ref ≠ n.ref := by
  unfold entries
  rw [filter_map]
  show (s.items.filter _).map _ = (s.items.filter _).map _
  apply map_congr_left
  intro x hx
  obtain ⟨hx, hne⟩ := mem_filter.mp hx
  have hhandle : x.handle ≠ n.handle := by
    intro heq
    exact (of_decide_eq_true hne) ((h.ref_iff_handle hn hx).mpr heq)
  have htime : (s.remove n).timeOf x.handle = s.timeOf x.handle := by
    apply timeOf_congr
    show (s.heap.filter _).filter _ = _
    rw [filter_filter]
    apply filter_congr
    intro m _
    by_cases hm : m.handle = x.handle
    · simp [hm, hhandle]
    · simp [hm]
  rw [htime]

variable [LinearOrder τ] (t : Top ι τ) (now : τ)

theorem Linked.filter_remove (h : s.Linked) (hn : n ∈ s.heap) (hlt : n.time < now) :
    (s.remove n).entries.filter (fun e => ¬ e.time < now) = s.entries.filter fun e => ¬ e.time < now := by
  rw [h.entries_remove hn, filter_filter]
  apply filter_congr
  intro e he
  obtain ⟨x, hx, rfl⟩ := mem_map.mp he
  by_cases href : x.ref = n.ref
  · have htime : s.timeOf x.handle = n.time := by
      rw [(h.ref_iff_handle hn hx).mp href, h.timeOf_eq hn]
    simp [href, htime, hlt]
  · simp [href]

omit [DecidableEq ι] in
theorem Linked.filter_of_top (h : s.Linked) (hmin : ∀ m ∈ s.heap, ¬ m.time < now) :
    s.entries.filter (fun e => ¬ e.time < now) = s.entries := by
  apply filter_eq_self.mpr
  intro e he
  obtain ⟨x, hx, rfl⟩ := mem_map.mp he
  obtain ⟨m, hm, hhandle, _⟩ := h.node_of_item hx
  rw [← hhandle, h.timeOf_eq hm]
  exact decide_eq_true (hmin m hm)

theorem Linked.dropLoop_spec : ∀ (fuel : ℕ) {s : Expiring ι α τ}, s.Linked → s.heap.length ≤ fuel →
    (dropLoop t now fuel s).Linked ∧
      (dropLoop t now fuel s).entries = s.entries.filter fun e => ¬ e.time < now
  | 0, s, h, hfuel => by
    have hnil : s.heap = [] := length_eq_zero_iff.mp (Nat.le_zero.mp hfuel)
    have hkeep := h.filter_of_top now (by rw [hnil]; exact nofun)
    exact ⟨h, hkeep.symm⟩
  | fuel + 1, s, h, hfuel => by
    rw [dropLoop]
    cases htop : t.top s.heap with
    | none =>
      have hkeep := h.filter_of_top now (by rw [t.eq_nil htop]; exact nofun)
      exact ⟨h, hkeep.symm⟩
    | some n =>
      have hn : n ∈ s.heap := t.mem htop
      by_cases hlt : n.time < now
      · have hshort : (s.remove n).heap.length ≤ fuel := by
          have hless : (s.remove n).heap.length < s.heap.length :=
            length_filter_lt_length_iff_exists.mpr ⟨n, hn, by simp⟩
          omega
        have hrest := Linked.dropLoop_spec fuel (h.remove hn) hshort
        rw [h.filter_remove now hn hlt] at hrest
        simpa only [hlt, if_true] using hrest
      · have hkeep := h.filter_of_top now fun m hm => not_lt.mpr ((not_lt.mp hlt).trans (t.least htop m hm))
        simpa only [hlt, if_false] using ⟨h, hkeep.symm⟩

theorem Linked.entries_dropExpired (h : s.Linked) :
    (s.dropExpired t now).entries = s.entries.filter fun e => ¬ e.time < now :=
  (Linked.dropLoop_spec t now _ h le_rfl).2

theorem Linked.dropExpired (h : s.Linked) : (s.dropExpired t now).Linked :=
  (Linked.dropLoop_spec t now _ h le_rfl).1

omit [Inhabited τ] in
theorem next_dropLoop : ∀ (fuel : ℕ) (s : Expiring ι α τ), (dropLoop t now fuel s).next = s.next
  | 0, _ => rfl
  | fuel + 1, s => by
    rw [dropLoop]
    cases t.top s.heap with
    | none => rfl
    | some n =>
      by_cases hlt : n.time < now
      · have hrest : (dropLoop t now fuel (s.remove n)).next = s.next := next_dropLoop fuel (s.remove n)
        simpa only [hlt, if_true] using hrest
      · simp only [hlt, if_false]

end Drop

end Times

end Expiring
end VanetzaIdf.Lib
