/-
# CbfPacketBuffer

The buffer of contention based forwarding, `geonet/cbf_packet_buffer.cpp`:
packets, an index of timers ordered by expiry, counters of duplicates, and one
callback in the runtime.

A timer knows its packet by the identifier. Its node has an address, because
`add` compares the first timer before and after by address, and head drop may
have freed a node that is handed out again (`Allocator`). The packets that
expire are an output. Every operation keeps `Wf`.
-/
import VanetzaIdf.Geonet.Router
import VanetzaIdf.Lib.OrderedIndex
import Mathlib.Algebra.Order.BigOperators.Group.List

namespace VanetzaIdf.Geonet

open BufferData Lib

/-! ### Packets -/

structure CbfPacketIdentifier where
  source : Address
  sequenceNumber : UInt16
deriving DecidableEq, Repr

/-- What the buffer asks of a packet. -/
class CbfData (α : Type) extends BufferData α where
  identifier : α → CbfPacketIdentifier

class LawfulCbfData (α : Type) [CbfData α] : Prop extends LawfulBufferData α where
  identifier_reduceLifetime : ∀ (x : α) (d : Duration), CbfData.identifier (reduceLifetime x d).2 = CbfData.identifier x

open CbfData

structure CbfPacket where
  packet : PendingPacket
  sender : MacAddress
deriving DecidableEq, Repr

namespace CbfPacket

def sequenceNumber (p : CbfPacket) : UInt16 :=
  match p.packet.pdu.extended with
  | .gbc n _ _ | .tsb n _ => n
  | _ => 0

def identifier (p : CbfPacket) : CbfPacketIdentifier :=
  ⟨p.packet.pdu.extended.sourcePosition.gnAddr, p.sequenceNumber⟩

def reduceLifetime (p : CbfPacket) (d : Duration) : Duration × CbfPacket :=
  let r := p.packet.reduceLifetime d
  (r.1, { p with packet := r.2 })

instance : CbfData CbfPacket where
  length p := p.packet.length
  reduceLifetime := reduceLifetime
  identifier := identifier

instance : LawfulCbfData CbfPacket where
  length_reduceLifetime p d := LawfulBufferData.length_reduceLifetime p.packet d
  reduceLifetime_nonneg p := LawfulBufferData.reduceLifetime_nonneg p.packet
  identifier_reduceLifetime p d := by
    obtain ⟨l, hl⟩ := p.packet.reduceLifetime_cases d
    have heq : (BufferData.reduceLifetime p d).2 = { p with packet := p.packet.withLifetime l } :=
      congrArg (fun q => { p with packet := q }) hl
    rw [heq]
    rfl

end CbfPacket

/-! ### Counters -/

/-- `CbfCounter`; the time is for counters that fade. -/
class CbfCounter (κ : Type) where
  add : TimePoint → κ → CbfPacketIdentifier → κ
  remove : TimePoint → κ → CbfPacketIdentifier → κ
  increment : TimePoint → κ → CbfPacketIdentifier → κ
  counter : TimePoint → κ → CbfPacketIdentifier → ℕ

/-- `CbfCounterContending`: zero is a counter that is not there. The counters of
`std::size_t` are these numbers as long as none of them gets to `2 ^ 32`. -/
structure CbfCounterContending where
  counters : CbfPacketIdentifier → ℕ := fun _ => 0

instance : CbfCounter CbfCounterContending where
  add _ c id := ⟨Function.update c.counters id 1⟩
  remove _ c id := ⟨Function.update c.counters id 0⟩
  increment _ c id := ⟨Function.update c.counters id (c.counters id + 1)⟩
  counter _ c id := c.counters id

/-! ### The buffer -/

namespace CbfPacketBuffer

/-- `CbfPacketBuffer::Timer`. -/
structure Timer where
  expiry : TimePoint
  start : TimePoint
deriving DecidableEq, Repr

def Timer.after (now : TimePoint) (timeout : Duration) : Timer := ⟨now + timeout, now⟩

/-- An element of `m_timers`, at the address `node`. -/
structure TimerEntry where
  timer : Timer
  id : CbfPacketIdentifier
  node : ℕ
deriving DecidableEq, Repr

/-- The order of `m_timers.left`. -/
def TimerEntry.expiry (e : TimerEntry) : TimePoint := e.timer.expiry

/-- Hands out the address of a node that is not in use. -/
abbrev Allocator := { choose : List ℕ → ℕ // ∀ used, choose used ∉ used }

end CbfPacketBuffer

open CbfPacketBuffer

structure CbfPacketBuffer (α κ : Type) where
  packets : List α := []
  timers : List TimerEntry := []
  counter : κ
  capacity : ℕ
  stored : ℕ := 0
  runtime : SharedRuntime

namespace CbfPacketBuffer

variable {α κ : Type}

def now (b : CbfPacketBuffer α κ) : TimePoint := b.runtime.now

def scheduleTimer (b : CbfPacketBuffer α κ) : CbfPacketBuffer α κ :=
  match b.timers with
  | [] => b
  | e :: _ => { b with runtime := (b.runtime.cancel (some .self)).schedule e.expiry .self (some .self) }

/-- Nothing but what is scheduled is different. -/
def Rescheduled (b b' : CbfPacketBuffer α κ) : Prop := ∃ runtime, runtime.now = b.runtime.now ∧ b' = { b with runtime }

variable (b : CbfPacketBuffer α κ) (id : CbfPacketIdentifier)

theorem Rescheduled.refl : b.Rescheduled b := ⟨b.runtime, rfl, rfl⟩

theorem scheduleTimer_rescheduled : b.Rescheduled b.scheduleTimer := by
  unfold scheduleTimer
  split
  · exact .refl b
  · exact ⟨_, by simp, rfl⟩

/-- `remove_timer`; if the timer was the first, the next one is scheduled. -/
def removeTimer (b : CbfPacketBuffer α κ) (id : CbfPacketIdentifier) : CbfPacketBuffer α κ :=
  let rest := b.timers.eraseP (·.id = id)
  if b.timers.head?.any (·.id = id) ∧ rest ≠ [] then scheduleTimer { b with timers := rest }
  else { b with timers := rest }

theorem removeTimer_rescheduled : Rescheduled { b with timers := b.timers.eraseP (·.id = id) } (b.removeTimer id) := by
  unfold removeTimer
  dsimp only
  split_ifs
  · exact scheduleTimer_rescheduled _
  · exact .refl _

namespace Rescheduled

variable {b b' : CbfPacketBuffer α κ}

theorem timers (h : b.Rescheduled b') : b'.timers = b.timers := by
  obtain ⟨_, -, rfl⟩ := h
  rfl

theorem packets (h : b.Rescheduled b') : b'.packets = b.packets := by
  obtain ⟨_, -, rfl⟩ := h
  rfl

theorem frame (h : b.Rescheduled b') : b'.capacity = b.capacity ∧ b'.now = b.now := by
  obtain ⟨_, hnow, rfl⟩ := h
  exact ⟨rfl, hnow⟩

end Rescheduled

variable [CbfData α]

def lookup (b : CbfPacketBuffer α κ) (id : CbfPacketIdentifier) : Option (TimerEntry × α) := do
  let entry ← b.timers.find? (·.id = id)
  let packet ← b.packets.find? (identifier · = id)
  return (entry, packet)

theorem lookup_some {b : CbfPacketBuffer α κ} {id : CbfPacketIdentifier} {entry : TimerEntry} {packet : α}
    (h : b.lookup id = some (entry, packet)) :
    entry ∈ b.timers ∧ entry.id = id ∧ packet ∈ b.packets ∧ identifier packet = id := by
  obtain ⟨x, hx, h⟩ := Option.bind_eq_some_iff.mp h
  obtain ⟨y, hy, h⟩ := Option.bind_eq_some_iff.mp h
  obtain ⟨rfl, rfl⟩ := Prod.mk.inj (Option.some.inj h)
  exact ⟨List.mem_of_find?_eq_some hx, by simpa using List.find?_some hx, List.mem_of_find?_eq_some hy,
    by simpa using List.find?_some hy⟩

/-- The packet after the time since its timer started; the first component is
the lifetime that remains. -/
def reduce (b : CbfPacketBuffer α κ) (timer : Timer) (packet : α) : Duration × α :=
  reduceLifetime packet (b.now - timer.start)

theorem identifier_reduce [LawfulCbfData α] (timer : Timer) (packet : α) :
    identifier (b.reduce timer packet).2 = identifier packet :=
  LawfulCbfData.identifier_reduceLifetime packet _

variable [CbfCounter κ]

/-- The packet leaves the list, the count and the counter. -/
def discard (b : CbfPacketBuffer α κ) (packet : α) : CbfPacketBuffer α κ :=
  { b with
    packets := b.packets.eraseP (identifier · = identifier packet)
    counter := CbfCounter.remove b.now b.counter (identifier packet)
    stored := b.stored - length packet }

def remove (b : CbfPacketBuffer α κ) (id : CbfPacketIdentifier) : Bool × CbfPacketBuffer α κ :=
  match b.lookup id with
  | some (_, packet) => (true, (b.discard packet).removeTimer id)
  | none => (false, b)

/-- The head drop of `add`, over the packets. -/
def headDrop (b : CbfPacketBuffer α κ) : List α → CbfPacketBuffer α κ
  | [] => { b with packets := [] }
  | p :: ps =>
    if b.capacity < b.stored then
      headDrop { b with
        timers := b.timers.eraseP (·.id = identifier p)
        counter := CbfCounter.remove b.now b.counter (identifier p)
        stored := b.stored - length p } ps
    else { b with packets := p :: ps }

def makeRoom (b : CbfPacketBuffer α κ) (packet : α) : CbfPacketBuffer α κ :=
  headDrop { b with stored := b.stored + length packet } b.packets

/-- The timer that `add` inserts. -/
def newTimer (b : CbfPacketBuffer α κ) (packet : α) (timeout : Duration) (allocator : Allocator) : TimerEntry :=
  ⟨.after b.now timeout, identifier packet, allocator.val (b.timers.map (·.node))⟩

/-- The insertion of `add`; there is one timer for each identifier. -/
def insert (b : CbfPacketBuffer α κ) (packet : α) (timeout : Duration) (allocator : Allocator) : CbfPacketBuffer α κ :=
  if b.timers.any (·.id = identifier packet) then { b with stored := b.stored - length packet }
  else { b with
    packets := b.packets ++ [packet]
    timers := insertUpper TimerEntry.expiry (b.newTimer packet timeout allocator) b.timers
    counter := CbfCounter.add b.now b.counter (identifier packet) }

/-- `m_timers.left.begin()`; `none` is the end. -/
def firstTimer (b : CbfPacketBuffer α κ) : Option ℕ := b.timers.head?.map (·.node)

def add (b : CbfPacketBuffer α κ) (packet : α) (timeout : Duration) (allocator : Allocator) : CbfPacketBuffer α κ :=
  if timeout ≤ 0 then b
  else
    let b' := (b.makeRoom packet).insert packet timeout allocator
    if b'.firstTimer ≠ b.firstTimer then b'.scheduleTimer else b'

def update (b : CbfPacketBuffer α κ) (id : CbfPacketIdentifier) (timeout : Duration) : CbfPacketBuffer α κ :=
  match b.lookup id with
  | some (entry, packet) =>
    { b with
      packets := b.packets.map fun p => if identifier p = id then (b.reduce entry.timer packet).2 else p
      timers := replaceFirst TimerEntry.expiry (·.id = id) (fun e => { e with timer := .after b.now timeout }) b.timers
      counter := CbfCounter.increment b.now b.counter id }
  | none => b

def fetch (b : CbfPacketBuffer α κ) (id : CbfPacketIdentifier) : Option α × CbfPacketBuffer α κ :=
  match b.lookup id with
  | some (entry, packet) =>
    let r := b.reduce entry.timer packet
    (if 0 < r.1 then some r.2 else none, (b.discard r.2).removeTimer id)
  | none => (none, b)

/-- The loop of `flush` over the timers. -/
def flushTimers (b : CbfPacketBuffer α κ) : List TimerEntry → List α × CbfPacketBuffer α κ
  | [] => ([], { b with timers := [] })
  | e :: es =>
    if b.now < e.expiry then ([], { b with timers := e :: es })
    else
      match b.packets.find? (identifier · = e.id) with
      | some packet =>
        let r := b.reduce e.timer packet
        let rest := flushTimers (b.discard r.2) es
        (if 0 < r.1 then r.2 :: rest.1 else rest.1, rest.2)
      -- every timer has its packet
      | none => flushTimers b es

def flush (b : CbfPacketBuffer α κ) : List α × CbfPacketBuffer α κ :=
  let r := b.flushTimers b.timers
  (r.1, if r.2.timers = [] then r.2 else r.2.scheduleTimer)

def count (b : CbfPacketBuffer α κ) (id : CbfPacketIdentifier) : ℕ := CbfCounter.counter b.now b.counter id

/-! ### A timer for each packet -/

/-- Timers in order of expiry, one for each packet. -/
structure Matched (timers : List TimerEntry) (packets : List α) : Prop where
  inOrder : InOrder TimerEntry.expiry timers
  unique : (timers.map (·.id)).Nodup
  ids : (timers.map (·.id)).Perm (packets.map identifier)

section Matched

variable {timers : List TimerEntry} {packets : List α} {e : TimerEntry} {es : List TimerEntry} {p : α} {ps : List α}

theorem map_eraseP_eq {β γ : Type} [DecidableEq γ] (f : β → γ) (c : γ) (l : List β) :
    (l.eraseP fun x => f x = c).map f = (l.map f).erase c := by
  rw [List.erase_eq_eraseP', List.eraseP_map]
  rfl

theorem Matched.erase (h : Matched timers packets) (id : CbfPacketIdentifier) :
    Matched (timers.eraseP (·.id = id)) (packets.eraseP (identifier · = id)) := by
  refine ⟨h.inOrder.sublist List.eraseP_sublist, ?_, ?_⟩
  · rw [map_eraseP_eq]
    exact h.unique.erase id
  · rw [map_eraseP_eq, map_eraseP_eq]
    exact h.ids.erase id

theorem Matched.dropPacket (h : Matched timers (p :: ps)) : Matched (timers.eraseP (·.id = identifier p)) ps := by
  have h' := h.erase (identifier p)
  rwa [List.eraseP_cons_of_pos (by simp)] at h'

theorem Matched.dropTimer (h : Matched (e :: es) packets) : Matched es (packets.eraseP (identifier · = e.id)) := by
  have h' := h.erase e.id
  rwa [List.eraseP_cons_of_pos (by simp)] at h'

theorem Matched.insert (h : Matched timers packets) (hid : e.id = identifier p) (hnew : ∀ x ∈ timers, x.id ≠ e.id) :
    Matched (insertUpper TimerEntry.expiry e timers) (packets ++ [p]) := by
  have hperm := (insertUpper_perm TimerEntry.expiry e timers).map (·.id)
  rw [List.map_cons] at hperm
  refine ⟨h.inOrder.insertUpper e, ?_, ?_⟩
  · refine hperm.nodup_iff.mpr (List.nodup_cons.mpr ⟨fun hmem => ?_, h.unique⟩)
    obtain ⟨x, hx, hxe⟩ := List.mem_map.mp hmem
    exact hnew x hx hxe
  · refine hperm.trans ?_
    rw [List.map_append, List.map_singleton, hid]
    exact (h.ids.cons _).trans (List.perm_append_singleton _ _).symm

theorem Matched.replace (h : Matched timers packets) (id : CbfPacketIdentifier) (timer : Timer) {f : α → α}
    (hf : ∀ p ∈ packets, identifier (f p) = identifier p) :
    Matched (replaceFirst TimerEntry.expiry (·.id = id) (fun e => { e with timer }) timers) (packets.map f) := by
  have hids : ((replaceFirst TimerEntry.expiry (·.id = id) (fun e => { e with timer }) timers).map (·.id)).Perm
      (timers.map (·.id)) := by
    rcases replaceFirst_cases TimerEntry.expiry (·.id = id) (fun e => { e with timer }) timers with
      ⟨heq, -⟩ | ⟨before, a, after, rfl, -, -, heq⟩
    · rw [heq]
    · rw [heq]
      refine ((exchange_perm TimerEntry.expiry before after _).map (·.id)).trans ?_
      rw [List.map_cons, List.map_append, List.map_append, List.map_cons]
      exact List.perm_middle.symm
  have hpackets : (packets.map f).map identifier = packets.map identifier := by
    rw [List.map_map]
    exact List.map_congr_left hf
  refine ⟨h.inOrder.replaceFirst _ _, hids.nodup_iff.mpr h.unique, ?_⟩
  rw [hpackets]
  exact hids.trans h.ids

end Matched

/-- The two containers go together. -/
def Wf (b : CbfPacketBuffer α κ) : Prop := Matched b.timers b.packets

section Operations

variable {b : CbfPacketBuffer α κ} {id : CbfPacketIdentifier}

omit [CbfCounter κ] in
variable {b' : CbfPacketBuffer α κ}

theorem Wf.rescheduled (h : b.Wf) (hb : b.Rescheduled b') : b'.Wf := by
  obtain ⟨_, -, rfl⟩ := hb
  exact h

theorem Wf.discard (h : b.Wf) {packet : α} (hid : identifier packet = id) : ((b.discard packet).removeTimer id).Wf :=
  Wf.rescheduled (hid ▸ Matched.erase h (identifier packet)) (removeTimer_rescheduled _ id)

/-- What `remove` and `fetch` leave: the buffer as it was, or without a packet
of this identifier and its timer. -/
def Leaves (b : CbfPacketBuffer α κ) (id : CbfPacketIdentifier) (b' : CbfPacketBuffer α κ) : Prop :=
  b' = b ∨ ∃ packet, identifier packet = id ∧ b' = (b.discard packet).removeTimer id

theorem remove_leaves (b : CbfPacketBuffer α κ) (id : CbfPacketIdentifier) : b.Leaves id (b.remove id).2 := by
  unfold remove
  split
  · rename_i entry packet hl
    exact .inr ⟨packet, (lookup_some hl).2.2.2, rfl⟩
  · exact .inl rfl

theorem Leaves.wf (h : b.Leaves id b') (hwf : b.Wf) : b'.Wf := by
  rcases h with rfl | ⟨packet, hid, rfl⟩
  · exact hwf
  · exact hwf.discard hid

theorem Leaves.timers (h : b.Leaves id b') : b'.timers ⊆ b.timers := by
  rcases h with rfl | ⟨packet, -, rfl⟩
  · exact List.Subset.refl _
  · rw [(removeTimer_rescheduled _ id).timers]
    exact List.eraseP_sublist.subset

theorem Leaves.packets (h : b.Leaves id b') : b'.packets.Sublist b.packets := by
  rcases h with rfl | ⟨packet, -, rfl⟩
  · exact List.Sublist.refl _
  · rw [(removeTimer_rescheduled _ id).packets]
    exact List.eraseP_sublist

theorem headDrop_matched {ps : List α} (h : Matched b.timers ps) :
    (b.headDrop ps).Wf ∧ (b.headDrop ps).timers.Sublist b.timers := by
  fun_induction headDrop with
  | case1 | case3 => exact ⟨h, List.Sublist.refl _⟩
  | case2 b p ps hfull ih =>
    obtain ⟨hwf, hsub⟩ := ih h.dropPacket
    exact ⟨hwf, hsub.trans List.eraseP_sublist⟩

theorem makeRoom_matched (h : b.Wf) (packet : α) :
    (b.makeRoom packet).Wf ∧ (b.makeRoom packet).timers.Sublist b.timers :=
  headDrop_matched (b := { b with stored := b.stored + length packet }) h

theorem headDrop_frame (b : CbfPacketBuffer α κ) (ps : List α) : (b.headDrop ps).packets <:+ ps ∧
    (b.headDrop ps).capacity = b.capacity ∧ (b.headDrop ps).runtime = b.runtime := by
  fun_induction headDrop with
  | case1 | case3 => exact ⟨List.suffix_refl _, rfl, rfl⟩
  | case2 b p ps hfull ih => exact ⟨ih.1.trans (List.suffix_cons p ps), ih.2⟩

theorem makeRoom_frame (b : CbfPacketBuffer α κ) (packet : α) : (b.makeRoom packet).packets <:+ b.packets ∧
    (b.makeRoom packet).capacity = b.capacity ∧ (b.makeRoom packet).runtime = b.runtime :=
  headDrop_frame { b with stored := b.stored + length packet } b.packets

theorem insert_cases (b : CbfPacketBuffer α κ) (packet : α) (timeout : Duration) (allocator : Allocator) :
    (b.timers.any (·.id = identifier packet) = true ∧
      (b.insert packet timeout allocator).timers = b.timers ∧ (b.insert packet timeout allocator).packets = b.packets) ∨
    (b.timers.any (·.id = identifier packet) = false ∧ (∀ x ∈ b.timers, x.id ≠ identifier packet) ∧
      (b.insert packet timeout allocator).timers =
        insertUpper TimerEntry.expiry (b.newTimer packet timeout allocator) b.timers ∧
      (b.insert packet timeout allocator).packets = b.packets ++ [packet]) := by
  unfold CbfPacketBuffer.insert
  split_ifs with hany
  · exact .inl ⟨hany, rfl, rfl⟩
  · refine .inr ⟨eq_false_of_ne_true hany, fun x hx hid => hany ?_, rfl, rfl⟩
    exact List.any_eq_true.mpr ⟨x, hx, by simp [hid]⟩

theorem insert_frame (b : CbfPacketBuffer α κ) (packet : α) (timeout : Duration) (allocator : Allocator) :
    (b.insert packet timeout allocator).capacity = b.capacity ∧ (b.insert packet timeout allocator).runtime =
      b.runtime := by
  unfold CbfPacketBuffer.insert
  split_ifs <;> exact ⟨rfl, rfl⟩

theorem add_cases (b : CbfPacketBuffer α κ) (packet : α) (timeout : Duration) (allocator : Allocator) :
    (timeout ≤ 0 ∧ b.add packet timeout allocator = b) ∨
    (¬ timeout ≤ 0 ∧
      ((b.makeRoom packet).insert packet timeout allocator).Rescheduled (b.add packet timeout allocator)) := by
  unfold CbfPacketBuffer.add
  dsimp only
  split_ifs with ht
  · exact .inl ⟨ht, rfl⟩
  · exact .inr ⟨ht, scheduleTimer_rescheduled _⟩
  · exact .inr ⟨ht, .refl _⟩

theorem Wf.insert (h : b.Wf) (packet : α) (timeout : Duration) (allocator : Allocator) :
    (b.insert packet timeout allocator).Wf := by
  unfold Wf
  rcases b.insert_cases packet timeout allocator with ⟨-, ht, hp⟩ | ⟨-, hnew, ht, hp⟩
  · rw [ht, hp]
    exact h
  · rw [ht, hp]
    exact Matched.insert h rfl hnew

theorem Wf.add (h : b.Wf) (packet : α) (timeout : Duration) (allocator : Allocator) :
    (b.add packet timeout allocator).Wf := by
  rcases b.add_cases packet timeout allocator with ⟨-, heq⟩ | ⟨-, hadd⟩
  · rwa [heq]
  · exact ((makeRoom_matched h packet).1.insert packet timeout allocator).rescheduled hadd

theorem flush_rescheduled (b : CbfPacketBuffer α κ) : (b.flushTimers b.timers).2.Rescheduled b.flush.2 := by
  unfold flush
  dsimp only
  split_ifs
  · exact .refl _
  · exact scheduleTimer_rescheduled _

theorem update_timers (h : b.Wf) {timeout : Duration} {entry : TimerEntry} {packet : α}
    (hl : b.lookup id = some (entry, packet)) {x : TimerEntry} (hx : x ∈ (b.update id timeout).timers) :
    (x ∈ b.timers ∧ x.id ≠ id) ∨ (x.id = id ∧ x.timer = .after b.now timeout) := by
  simp only [CbfPacketBuffer.update, hl] at hx
  obtain ⟨hmem, hid, -, -⟩ := lookup_some hl
  rcases replaceFirst_cases TimerEntry.expiry (·.id = id) (fun e => { e with timer := .after b.now timeout })
    b.timers with ⟨-, hnone⟩ | ⟨before, a, after, heq, ha, -, hrep⟩
  · exact absurd hid (by simpa using hnone entry hmem)
  have haid : a.id = id := by simpa using ha
  -- the index has one timer of this identifier
  have hunique := h.unique
  rw [heq, List.map_append, List.map_cons, List.nodup_middle, ← List.map_append, List.nodup_cons, haid] at hunique
  rw [hrep] at hx
  rcases List.mem_cons.mp ((exchange_perm TimerEntry.expiry before after _).subset hx) with rfl | hx
  · exact .inr ⟨haid, rfl⟩
  · refine .inl ⟨?_, fun hxid => hunique.1 (List.mem_map.mpr ⟨x, hx, hxid⟩)⟩
    rw [heq]
    exact ((List.sublist_cons_self a after).append_left before).subset hx

variable [LawfulCbfData α]

theorem Wf.update (h : b.Wf) (id : CbfPacketIdentifier) (timeout : Duration) : (b.update id timeout).Wf := by
  unfold CbfPacketBuffer.update
  split
  · rename_i entry packet hl
    refine Matched.replace h id _ fun p _ => ?_
    split_ifs with hp
    · rw [identifier_reduce, (lookup_some hl).2.2.2, hp]
    · rfl
  · exact h

theorem fetch_leaves (b : CbfPacketBuffer α κ) (id : CbfPacketIdentifier) : b.Leaves id (b.fetch id).2 := by
  unfold fetch
  split
  · rename_i entry packet hl
    refine .inr ⟨(b.reduce entry.timer packet).2, ?_, rfl⟩
    rw [identifier_reduce]
    exact (lookup_some hl).2.2.2
  · exact .inl rfl

theorem flushTimers_matched {es : List TimerEntry} (h : Matched es b.packets) :
    (b.flushTimers es).2.Wf ∧ (b.flushTimers es).2.timers.Sublist es := by
  fun_induction flushTimers with
  | case1 | case2 => exact ⟨h, List.Sublist.refl _⟩
  | case3 b e es hdue packet hfind r rest ih =>
    have hid : identifier packet = e.id := by simpa using List.find?_some hfind
    have hdrop := h.dropTimer
    rw [← hid, ← identifier_reduce b e.timer packet] at hdrop
    obtain ⟨hwf, hsub⟩ := ih hdrop
    exact ⟨hwf, hsub.trans (List.sublist_cons_self _ _)⟩
  | case4 b e es hdue hnone ih =>
    have hmem : e.id ∈ b.packets.map identifier := h.ids.subset (by simp)
    obtain ⟨p, hp, hpe⟩ := List.mem_map.mp hmem
    exact absurd hpe (by simpa using List.find?_eq_none.mp hnone p hp)

theorem Wf.flush (h : b.Wf) : b.flush.2.Wf := (flushTimers_matched h).1.rescheduled b.flush_rescheduled

end Operations

/-! ### Runs -/

inductive Event (α : Type)
  | add (packet : α) (timeout : Duration) (allocator : Allocator)
  | remove (id : CbfPacketIdentifier)
  | update (id : CbfPacketIdentifier) (timeout : Duration)
  | fetch (id : CbfPacketIdentifier)
  /-- The runtime runs the next callback that is due. -/
  | fire
  | outside (what : Outside)

/-- What an operation did: the timer it started, and the packets it gave out. -/
structure Outcome (α : Type) where
  timer : Option (CbfPacketIdentifier × TimePoint) := none
  packets : List α := []

def step (b : CbfPacketBuffer α κ) : Event α → Outcome α × CbfPacketBuffer α κ
  | .add packet timeout allocator =>
    ({ timer :=
        if timeout ≤ 0 ∨ (b.makeRoom packet).timers.any (·.id = identifier packet) then none
        else some (identifier packet, b.now + timeout) },
      b.add packet timeout allocator)
  | .remove id => ({}, (b.remove id).2)
  | .update id timeout => ({ timer := (b.lookup id).map fun _ => (id, b.now + timeout) }, b.update id timeout)
  | .fetch id => ({ packets := (b.fetch id).1.toList }, (b.fetch id).2)
  | .fire =>
    match b.runtime.pop with
    | some (c, runtime) =>
      if c.callback = .self then
        let r := flush { b with runtime }
        ({ packets := r.1 }, r.2)
      else ({}, { b with runtime })
    | none => ({}, b)
  | .outside what => ({}, { b with runtime := b.runtime.outside what })

theorem fire_cases (b : CbfPacketBuffer α κ) : b.step .fire = ({}, b) ∨ ∃ c runtime, b.runtime.pop = some (c, runtime) ∧
    (c.callback = .self ∧ b.step .fire = ({ packets := (flush { b with runtime }).1 }, (flush { b with runtime }).2) ∨
      c.callback ≠ .self ∧ b.step .fire = ({}, { b with runtime })) := by
  unfold step
  dsimp only
  split
  · rename_i c runtime hpop
    split_ifs with hc
    · exact .inr ⟨c, runtime, hpop, .inl ⟨hc, rfl⟩⟩
    · exact .inr ⟨c, runtime, hpop, .inr ⟨hc, rfl⟩⟩
  · exact .inl rfl

theorem Wf.step [LawfulCbfData α] {b : CbfPacketBuffer α κ} (h : b.Wf) (e : Event α) : (b.step e).2.Wf := by
  cases e with
  | add packet timeout allocator => exact h.add packet timeout allocator
  | remove id => exact (b.remove_leaves id).wf h
  | update id timeout => exact h.update id timeout
  | fetch id => exact (b.fetch_leaves id).wf h
  | fire =>
    rcases b.fire_cases with heq | ⟨c, runtime, -, ⟨-, heq⟩ | ⟨-, heq⟩⟩ <;> rw [heq]
    · exact h
    · exact Wf.flush (b := { b with runtime }) h
    · exact h
  | outside what => exact h

theorem Leaves.frame {b b' : CbfPacketBuffer α κ} {id : CbfPacketIdentifier} (h : b.Leaves id b') :
    b'.capacity = b.capacity ∧ b'.now = b.now := by
  rcases h with rfl | ⟨packet, -, rfl⟩
  · exact ⟨rfl, rfl⟩
  · exact (removeTimer_rescheduled _ id).frame

theorem flushTimers_frame (b : CbfPacketBuffer α κ) (es : List TimerEntry) :
    (b.flushTimers es).2.capacity = b.capacity ∧ (b.flushTimers es).2.now = b.now := by
  fun_induction flushTimers with
  | case1 | case2 => exact ⟨rfl, rfl⟩
  | case3 b e es hdue packet hfind r rest ih | case4 b e es hdue hnone ih => exact ih

theorem step_frame [LawfulCbfData α] (b : CbfPacketBuffer α κ) (e : Event α) :
    (b.step e).2.capacity = b.capacity ∧ b.now ≤ (b.step e).2.now := by
  have same {b' : CbfPacketBuffer α κ} (h : b'.capacity = b.capacity ∧ b'.now = b.now) :
      b'.capacity = b.capacity ∧ b.now ≤ b'.now := ⟨h.1, h.2.ge⟩
  cases e with
  | add packet timeout allocator =>
    show (b.add packet timeout allocator).capacity = _ ∧ _ ≤ (b.add packet timeout allocator).now
    rcases b.add_cases packet timeout allocator with ⟨-, heq⟩ | ⟨-, hadd⟩
    · rw [heq]
      exact ⟨rfl, le_rfl⟩
    · obtain ⟨-, hcap, hrt⟩ := b.makeRoom_frame packet
      obtain ⟨hcap', hrt'⟩ := (b.makeRoom packet).insert_frame packet timeout allocator
      exact same ⟨hadd.frame.1.trans (hcap'.trans hcap),
        hadd.frame.2.trans (congrArg ManualRuntime.now (hrt'.trans hrt))⟩
  | remove id => exact same (b.remove_leaves id).frame
  | update id timeout =>
    show (b.update id timeout).capacity = _ ∧ _ ≤ (b.update id timeout).now
    unfold update
    split <;> exact ⟨rfl, le_rfl⟩
  | fetch id => exact same (b.fetch_leaves id).frame
  | fire =>
    rcases b.fire_cases with heq | ⟨c, runtime, hpop, ⟨-, heq⟩ | ⟨-, heq⟩⟩ <;> rw [heq]
    · exact ⟨rfl, le_rfl⟩
    · obtain ⟨hcap, hnow⟩ := (flush_rescheduled { b with runtime }).frame
      obtain ⟨hcap', hnow'⟩ := flushTimers_frame { b with runtime } b.timers
      exact same ⟨hcap.trans hcap', (hnow.trans hnow').trans (ManualRuntime.pop_some hpop).2.2⟩
    · exact same ⟨rfl, (ManualRuntime.pop_some hpop).2.2⟩
  | outside what =>
    refine ⟨rfl, ?_⟩
    cases what with
    | advance elapsed => exact Int.le_add_of_nonneg_right (Int.natCast_nonneg elapsed)
    | schedule deadline number scope => exact le_rfl
    | cancel number => exact le_of_eq (ManualRuntime.cancel_now _ _).symm

/-! ### A packet to run with -/

/-- Hands out an address above all that are in use. -/
def sampleAllocator : Allocator :=
  ⟨fun used => used.sum + 1, fun used hmem => by
    have hle : used.sum + 1 ≤ used.sum := List.le_sum_of_mem hmem
    omega⟩

/-- A GeoBroadcast packet of 56 octets. -/
def samplePacket (sequenceNumber : UInt16) (lifetime : Lifetime) : CbfPacket where
  packet := {
    pdu := {
      basic := { nextHeader := .common, lifetime, hopLimit := 10 }
      common := {
        nextHeader := .btpB, headerType := .geoBroadcastCircle, trafficClass := {}, isMobile := true, payload := 0
        maximumHopLimit := 10 }
      extended := .gbc sequenceNumber {} { shape := .circle 100, position := ⟨0, 0⟩, angle := 0 } }
    payload := []
    action := .forward
    number := 0 }
  sender := Vector.replicate 6 2

def sampleBuffer (α : Type) : CbfPacketBuffer α CbfCounterContending where
  counter := {}
  capacity := 1000
  runtime := { now := 0 }

end CbfPacketBuffer
end VanetzaIdf.Geonet
