/-
# PacketBuffer

The store-carry-forward buffer of `geonet/packet_buffer.cpp`: packets with the
time they expire, and a count of their octets. A new packet takes the place of
the oldest ones (`drop`), and a flush hands out what has not expired, with the
time it waited taken off (`take`); whoever flushes runs the packets afterwards.
-/
import VanetzaIdf.Runtime
import Mathlib.Algebra.BigOperators.Group.List.Basic
import Mathlib.Algebra.Order.Ring.Nat

namespace VanetzaIdf.Geonet

/-- `packet_buffer::Expiry`. -/
structure Expiry where
  bufferedSince : TimePoint
  expiresAt : TimePoint
deriving DecidableEq, Repr

def Expiry.isExpired (e : Expiry) (now : TimePoint) : Bool := decide (e.expiresAt < now)

class BufferData (α : Type) where
  length : α → ℕ
  /-- The lifetime that remains after the given time, and the packet with it. -/
  reduceLifetime : α → Duration → Duration × α

open BufferData

/-- Time takes nothing off a packet but its lifetime, which does not end
before time passes. -/
class LawfulBufferData (α : Type) [BufferData α] : Prop where
  length_reduceLifetime : ∀ (x : α) (d : Duration), length (reduceLifetime x d).2 = length x
  reduceLifetime_nonneg : ∀ x : α, 0 ≤ (reduceLifetime x 0).1

structure PacketBuffer (α : Type) where
  capacity : ℕ
  nodes : List (Expiry × α) := []
  stored : ℕ := 0
deriving DecidableEq, Repr

namespace PacketBuffer

variable {α : Type} [BufferData α]

def octets (nodes : List (Expiry × α)) : ℕ := (nodes.map fun n => length n.2).sum

def dropExpired (b : PacketBuffer α) (now : TimePoint) : PacketBuffer α :=
  { b with
    nodes := b.nodes.filter fun n => !n.1.isExpired now
    stored := b.stored - octets (b.nodes.filter fun n => n.1.isExpired now) }

/-- The loop of `drop`: the head goes while there is less room than `bytes`. -/
def dropHeads (capacity bytes : ℕ) : List (Expiry × α) → ℕ → List (Expiry × α) × ℕ
  | [], stored => ([], stored)
  | n :: ns, stored =>
    if capacity - stored < bytes then dropHeads capacity bytes ns (stored - length n.2) else (n :: ns, stored)

/-- `drop`, and whether there is room for `bytes` then. -/
def drop (b : PacketBuffer α) (bytes : ℕ) : Bool × PacketBuffer α :=
  let r := dropHeads b.capacity bytes b.nodes b.stored
  (decide (bytes ≤ b.capacity - r.2), { b with nodes := r.1, stored := r.2 })

def push (b : PacketBuffer α) (data : α) (now : TimePoint) : Bool × PacketBuffer α :=
  let r := (b.dropExpired now).drop (length data)
  if r.1 then
    let l := reduceLifetime data 0
    (true, { r.2 with nodes := r.2.nodes ++ [(⟨now, now + l.1⟩, l.2)], stored := r.2.stored + length data })
  else (false, r.2)

/-- The part of `flush` before the packets are run: the buffer is empty and
these are the packets to run. -/
def take (b : PacketBuffer α) (now : TimePoint) : List α × PacketBuffer α :=
  ((b.nodes.filter fun n => !n.1.isExpired now).map fun n => (reduceLifetime n.2 (now - n.1.bufferedSince)).2,
    { b with nodes := [], stored := 0 })

def packets (b : PacketBuffer α) : List α := b.nodes.map Prod.snd

theorem dropHeads_suffix (capacity bytes : ℕ) (ns : List (Expiry × α)) (stored : ℕ) :
    (dropHeads capacity bytes ns stored).1 <:+ ns := by
  fun_induction dropHeads with
  | case1 | case3 => exact List.suffix_refl _
  | case2 n ns stored hlt ih => exact ih.trans (List.suffix_cons n ns)

theorem push_nodes (b : PacketBuffer α) (data : α) (now : TimePoint) :
    ∃ kept, kept.Sublist b.nodes ∧
      (b.push data now).2.nodes =
        kept ++ (if (b.push data now).1 then
          [(⟨now, now + (reduceLifetime data 0).1⟩, (reduceLifetime data 0).2)] else []) := by
  have hsub : ((b.dropExpired now).drop (length data)).2.nodes.Sublist b.nodes :=
    (dropHeads_suffix _ _ _ _).sublist.trans List.filter_sublist
  refine ⟨_, hsub, ?_⟩
  by_cases h : ((b.dropExpired now).drop (length data)).1 = true <;> simp [push, h]

theorem push_packets (b : PacketBuffer α) (data : α) (now : TimePoint) :
    ∃ kept, kept.Sublist b.packets ∧
      (b.push data now).2.packets =
        kept ++ (if (b.push data now).1 then [(reduceLifetime data 0).2] else []) := by
  obtain ⟨kept, hsub, he⟩ := b.push_nodes data now
  refine ⟨kept.map Prod.snd, hsub.map _, ?_⟩
  unfold packets
  rw [he, List.map_append]
  split_ifs <;> rfl

@[simp] theorem take_packets (b : PacketBuffer α) (now : TimePoint) : (b.take now).2.packets = [] := rfl

/-! ### Room -/

theorem octets_append (l l' : List (Expiry × α)) : octets (l ++ l') = octets l + octets l' := by
  simp [octets]

theorem octets_cons (x : Expiry × α) (l : List (Expiry × α)) : octets (x :: l) = length x.2 + octets l := by
  simp [octets]

theorem octets_filter (f : Expiry × α → Bool) (l : List (Expiry × α)) :
    octets (l.filter f) + octets (l.filter fun x => !f x) = octets l := by
  rw [← octets_append]
  exact ((List.filter_append_perm f l).map _).sum_nat

/-- The count is right and within the capacity. -/
structure Wf (b : PacketBuffer α) : Prop where
  stored : b.stored = octets b.nodes
  fits : octets b.nodes ≤ b.capacity

theorem Wf.take (b : PacketBuffer α) (now : TimePoint) : (b.take now).2.Wf := ⟨rfl, Nat.zero_le _⟩

variable {b : PacketBuffer α} {data : α} {now : TimePoint}

theorem Wf.dropExpired (h : b.Wf) (now : TimePoint) : (b.dropExpired now).Wf := by
  have hsum := octets_filter (fun x => x.1.isExpired now) b.nodes
  have hst := h.stored
  have hf := h.fits
  refine ⟨?_, ?_⟩
  · show b.stored - octets (b.nodes.filter fun x => x.1.isExpired now) =
      octets (b.nodes.filter fun x => !x.1.isExpired now)
    omega
  · show octets (b.nodes.filter fun x => !x.1.isExpired now) ≤ b.capacity
    omega

theorem dropHeads_octets (capacity bytes : ℕ) {ns : List (Expiry × α)} {stored : ℕ} (h : stored = octets ns) :
    (dropHeads capacity bytes ns stored).2 = octets (dropHeads capacity bytes ns stored).1 ∧
      octets (dropHeads capacity bytes ns stored).1 ≤ octets ns := by
  fun_induction dropHeads with
  | case1 | case3 => exact ⟨h, Nat.le_refl _⟩
  | case2 n ns stored hlt ih =>
    rw [octets_cons] at h ⊢
    obtain ⟨h1, h2⟩ := ih (by omega)
    exact ⟨h1, by omega⟩

theorem Wf.drop (h : b.Wf) (bytes : ℕ) : (b.drop bytes).2.Wf := by
  obtain ⟨h1, h2⟩ := dropHeads_octets b.capacity bytes h.stored
  exact ⟨h1, Nat.le_trans h2 h.fits⟩

theorem dropHeads_room {capacity bytes : ℕ} (hb : bytes ≤ capacity) {ns : List (Expiry × α)} {stored : ℕ}
    (h : stored = octets ns) : bytes ≤ capacity - (dropHeads capacity bytes ns stored).2 := by
  fun_induction dropHeads with
  | case1 =>
    rw [h]
    exact hb
  | case2 n ns stored hlt ih =>
    rw [octets_cons] at h
    exact ih (by omega)
  | case3 n ns stored hlt => exact Nat.not_lt.mp hlt

theorem Wf.push_fits (h : b.Wf) (hl : length data ≤ b.capacity) : (b.push data now).1 = true := by
  have hroom : ((b.dropExpired now).drop (length data)).1 = true :=
    decide_eq_true (dropHeads_room hl (h.dropExpired now).stored)
  unfold PacketBuffer.push
  dsimp only
  rw [if_pos hroom]

theorem push_of_fits (h : b.Wf)
    (hn : ∀ x ∈ b.nodes, x.1.isExpired now = false) (hf : octets b.nodes + length data ≤ b.capacity) :
    b.push data now = (true, { b with
      nodes := b.nodes ++ [(⟨now, now + (reduceLifetime data 0).1⟩, (reduceLifetime data 0).2)]
      stored := b.stored + length data }) := by
  have hkeep : b.nodes.filter (fun x => !x.1.isExpired now) = b.nodes :=
    List.filter_eq_self.mpr fun x hx => by simp [hn x hx]
  have hnone : b.nodes.filter (fun x => x.1.isExpired now) = [] :=
    List.filter_eq_nil_iff.mpr fun x hx => by simp [hn x hx]
  have hexp : b.dropExpired now = b := by
    unfold PacketBuffer.dropExpired
    rw [hkeep, hnone]
    rfl
  have hst := h.stored
  have hheads : dropHeads b.capacity (length data) b.nodes b.stored = (b.nodes, b.stored) := by
    cases hb : b.nodes with
    | nil => rfl
    | cons x l =>
      unfold dropHeads
      rw [if_neg]
      rw [hb] at hf hst
      omega
  unfold PacketBuffer.push PacketBuffer.drop
  rw [hexp, hheads]
  dsimp only
  rw [if_pos (decide_eq_true (by omega))]

variable [LawfulBufferData α]

open LawfulBufferData

theorem Wf.take_length (h : b.Wf) (now : TimePoint) : ((b.take now).1.map length).sum ≤ b.capacity := by
  have hsum := octets_filter (fun x => !x.1.isExpired now) b.nodes
  have heq : ((b.take now).1.map length).sum = octets (b.nodes.filter fun x => !x.1.isExpired now) := by
    simp only [PacketBuffer.take, octets, List.map_map, Function.comp_def, length_reduceLifetime]
  have hf := h.fits
  omega

theorem Wf.push (h : b.Wf) (data : α) (now : TimePoint) : (b.push data now).2.Wf := by
  have hd := (h.dropExpired now).drop (length data)
  unfold PacketBuffer.push
  dsimp only
  split_ifs with hr
  · have hroom : length data ≤ b.capacity - ((b.dropExpired now).drop (length data)).2.stored := of_decide_eq_true hr
    have hcap : ((b.dropExpired now).drop (length data)).2.capacity = b.capacity := rfl
    have hst := hd.stored
    have hf := hd.fits
    refine ⟨?_, ?_⟩
    · show _ + length data = octets (_ ++ [_])
      rw [octets_append, octets_cons, length_reduceLifetime, hst]
      rfl
    · show octets (_ ++ [_]) ≤ b.capacity
      rw [octets_append, octets_cons, length_reduceLifetime]
      show octets _ + (length data + 0) ≤ b.capacity
      omega
  · exact hd

end PacketBuffer
end VanetzaIdf.Geonet
