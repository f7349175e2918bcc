/-
# The books of the contention buffer

The packets, the index of timers, the count of octets and the counters of
duplicates agree (`Books`), and no subtraction from the count wraps
(`stepChecked`).

A packet is followed by a tag that time does not change (`step_tags`). With the
number of its addition as tag (`Ledger`) it is given out at most once, and never
after it has left the buffer (`contended_packets_accounted`).
-/
import VanetzaIdf.Geonet.CarryForward
import VanetzaIdf.Lib.Machine

namespace VanetzaIdf.Geonet
namespace CbfPacketBuffer

open BufferData CbfData Lib Option

/-! ### Checked subtraction -/

section Checked

variable {α κ : Type} [CbfData α] [CbfCounter κ]

def octets (packets : List α) : ℕ := (packets.map length).sum

theorem octets_cons (p : α) (ps : List α) : octets (p :: ps) = length p + octets ps := by simp [octets]

theorem octets_append (ps qs : List α) : octets (ps ++ qs) = octets ps + octets qs := by simp [octets]

variable (b : CbfPacketBuffer α κ)

def discardChecked (packet : α) : Option (CbfPacketBuffer α κ) := do
  let stored ← PacketBuffer.release b.stored (length packet)
  return { b.discard packet with stored }

def removeChecked (id : CbfPacketIdentifier) : Option (Bool × CbfPacketBuffer α κ) :=
  match b.lookup id with
  | some (_, packet) => do
    let b' ← b.discardChecked packet
    return (true, b'.removeTimer id)
  | none => some (false, b)

def headDropChecked (b : CbfPacketBuffer α κ) : List α → Option (CbfPacketBuffer α κ)
  | [] => some { b with packets := [] }
  | p :: ps =>
    if b.capacity < b.stored then do
      let stored ← PacketBuffer.release b.stored (length p)
      headDropChecked { b with
        timers := b.timers.eraseP (·.id = identifier p)
        counter := CbfCounter.remove b.now b.counter (identifier p)
        stored } ps
    else some { b with packets := p :: ps }

def insertChecked (packet : α) (timeout : Duration) (allocator : Allocator) :
    Option (CbfPacketBuffer α κ) :=
  if b.timers.any (·.id = identifier packet) then do
    let stored ← PacketBuffer.release b.stored (length packet)
    return { b with stored }
  else some (b.insert packet timeout allocator)

def addChecked (packet : α) (timeout : Duration) (allocator : Allocator) :
    Option (CbfPacketBuffer α κ) :=
  if timeout ≤ 0 then some b
  else do
    let room ← headDropChecked { b with stored := b.stored + length packet } b.packets
    let b' ← room.insertChecked packet timeout allocator
    return if b'.firstTimer ≠ b.firstTimer then b'.scheduleTimer else b'

def fetchChecked (id : CbfPacketIdentifier) : Option (Option α × CbfPacketBuffer α κ) :=
  match b.lookup id with
  | some (entry, packet) => do
    let r := b.reduce entry.timer packet
    let b' ← b.discardChecked r.2
    return (if 0 < r.1 then some r.2 else none, b'.removeTimer id)
  | none => some (none, b)

def flushTimersChecked (b : CbfPacketBuffer α κ) : List TimerEntry → Option (List α × CbfPacketBuffer α κ)
  | [] => some ([], { b with timers := [] })
  | e :: es =>
    if b.now < e.expiry then some ([], { b with timers := e :: es })
    else
      match b.packets.find? (identifier · = e.id) with
      | some packet => do
        let r := b.reduce e.timer packet
        let b' ← b.discardChecked r.2
        let rest ← flushTimersChecked b' es
        return (if 0 < r.1 then r.2 :: rest.1 else rest.1, rest.2)
      | none => flushTimersChecked b es

def flushChecked : Option (List α × CbfPacketBuffer α κ) := do
  let r ← b.flushTimersChecked b.timers
  return (r.1, if r.2.timers = [] then r.2 else r.2.scheduleTimer)

/-- `step`, which stops where a subtraction wraps around. -/
def stepChecked : Event α → Option (Outcome α × CbfPacketBuffer α κ)
  | .add packet timeout allocator => do
    let b' ← b.addChecked packet timeout allocator
    return ((b.step (.add packet timeout allocator)).1, b')
  | .remove id => do
    let r ← b.removeChecked id
    return ({}, r.2)
  | .fetch id => do
    let r ← b.fetchChecked id
    return ({ packets := r.1.toList }, r.2)
  | .fire =>
    match b.runtime.pop with
    | some (c, runtime) =>
      if c.callback = .self then do
        let r ← flushChecked { b with runtime }
        return ({ packets := r.1 }, r.2)
      else some ({}, { b with runtime })
    | none => some ({}, b)
  | .update id timeout => some (b.step (.update id timeout))
  | .outside what => some (b.step (.outside what))

theorem discardChecked_eq {b : CbfPacketBuffer α κ} {packet : α} (h : length packet ≤ b.stored) :
    b.discardChecked packet = some (b.discard packet) := by
  unfold discardChecked
  rw [PacketBuffer.release_eq h]
  rfl

end Checked

/-! ### Packets by identifier -/

section Find

variable {α κ : Type} [CbfData α] {b : CbfPacketBuffer α κ} {id : CbfPacketIdentifier} {ps : List α} {p : α}

theorem lookup_find {entry : TimerEntry} (h : b.lookup id = some (entry, p)) :
    b.packets.find? (identifier · = id) = some p := by
  obtain ⟨x, hx, h⟩ := bind_eq_some_iff.mp h
  obtain ⟨y, hy, h⟩ := bind_eq_some_iff.mp h
  obtain ⟨rfl, rfl⟩ := Prod.mk.inj (some.inj h)
  exact hy

theorem perm_erase (h : ps.find? (identifier · = id) = some p) : ps.Perm (p :: ps.eraseP (identifier · = id)) := by
  induction ps with
  | nil => cases h
  | cons q ps ih =>
    by_cases hq : identifier q = id
    · rw [List.find?_cons_of_pos (by simp [hq])] at h
      obtain rfl := some.inj h
      rw [List.eraseP_cons_of_pos (by simp [hq])]
    · rw [List.find?_cons_of_neg (by simp [hq])] at h
      rw [List.eraseP_cons_of_neg (by simp [hq])]
      exact ((ih h).cons q).trans (List.Perm.swap _ _ _)

theorem octets_erase (h : ps.find? (identifier · = id) = some p) :
    octets (ps.eraseP (identifier · = id)) + length p = octets ps := by
  have hsum : octets ps = octets (p :: ps.eraseP (identifier · = id)) := ((perm_erase h).map length).sum_eq
  rw [hsum, octets_cons, Nat.add_comm]

variable {timers : List TimerEntry}

theorem Matched.packets_unique (h : Matched timers ps) : (ps.map identifier).Nodup :=
  h.ids.nodup_iff.mp h.unique

theorem Matched.any_iff (h : Matched timers ps) (id : CbfPacketIdentifier) :
    timers.any (·.id = id) = true ↔ id ∈ ps.map identifier := by
  rw [← h.ids.mem_iff, List.any_eq_true, List.mem_map]
  simp

theorem Matched.eq_of_identifier (h : Matched timers ps) {q : α} (hp : p ∈ ps) (hq : q ∈ ps)
    (heq : identifier p = identifier q) : p = q :=
  List.inj_on_of_nodup_map h.packets_unique hp hq heq

theorem Wf.lookup_none (h : b.Wf) (hl : b.lookup id = none) : id ∉ b.packets.map identifier := by
  intro hmem
  obtain ⟨x, hx, hxid⟩ := List.mem_map.mp (h.ids.mem_iff.mpr hmem)
  obtain ⟨q, hq, hqid⟩ := List.mem_map.mp hmem
  obtain ⟨entry, hentry⟩ := isSome_iff_exists.mp
    (List.find?_isSome.mpr ⟨x, hx, by simpa using hxid⟩ : (b.timers.find? (·.id = id)).isSome = true)
  obtain ⟨packet, hpacket⟩ := isSome_iff_exists.mp
    (List.find?_isSome.mpr ⟨q, hq, by simpa using hqid⟩ : (b.packets.find? (identifier · = id)).isSome = true)
  simp [lookup, hentry, hpacket] at hl

end Find

/-! ### Counters -/

/-- A relation of counters, the identifiers in the buffer and their updates, which the operations
of the counter keep. -/
structure Tally (κ : Type) [CbfCounter κ] where
  Counts : κ → List CbfPacketIdentifier → (CbfPacketIdentifier → ℕ) → Prop
  erase : ∀ {c ids u} (now : TimePoint) (id : CbfPacketIdentifier), Counts c ids u → ids.Nodup →
    Counts (CbfCounter.remove now c id) (ids.erase id) u
  snoc : ∀ {c ids u} (now : TimePoint) (id : CbfPacketIdentifier), Counts c ids u →
    Counts (CbfCounter.add now c id) (ids ++ [id]) (Function.update u id 0)
  increment : ∀ {c ids u} (now : TimePoint) (id : CbfPacketIdentifier), Counts c ids u → id ∈ ids →
    Counts (CbfCounter.increment now c id) ids (Function.update u id (u id + 1))
  elsewhere : ∀ {c ids u} (id : CbfPacketIdentifier) (k : ℕ), Counts c ids u → id ∉ ids →
    Counts c ids (Function.update u id k)

/-- Nothing is asked of the counters. -/
def Tally.anything (κ : Type) [CbfCounter κ] : Tally κ where
  Counts _ _ _ := True
  erase _ _ _ _ := trivial
  snoc _ _ _ := trivial
  increment _ _ _ _ := trivial
  elsewhere _ _ _ _ := trivial

/-- A counter is one more than the updates, and zero for what is not in the
buffer. -/
def Tally.contending : Tally CbfCounterContending where
  Counts c ids u := ∀ id, c.counters id = if id ∈ ids then 1 + u id else 0
  erase {c ids u} now id h hunique i := by
    show Function.update c.counters id 0 i = _
    by_cases hi : i = id
    · rw [hi, Function.update_self, if_neg hunique.not_mem_erase]
    · rw [Function.update_of_ne hi, h i]
      simp only [List.mem_erase_of_ne hi]
  snoc {c ids u} now id h i := by
    show Function.update c.counters id 1 i = _
    by_cases hi : i = id
    · subst hi
      simp
    · rw [Function.update_of_ne hi, Function.update_of_ne hi, h i]
      simp [hi]
  increment {c ids u} now id h hid i := by
    show Function.update c.counters id (c.counters id + 1) i = _
    by_cases hi : i = id
    · subst hi
      rw [Function.update_self, Function.update_self, h i, if_pos hid, if_pos hid, Nat.add_assoc]
    · rw [Function.update_of_ne hi, Function.update_of_ne hi, h i]
  elsewhere {c ids u} id k h hid i := by
    by_cases hi : i = id
    · subst hi
      rw [h i, if_neg hid, if_neg hid]
    · rw [Function.update_of_ne hi, h i]

/-! ### Tags -/

section Tags

variable {α κ : Type} [CbfData α] [CbfCounter κ]
  (b : CbfPacketBuffer α κ) (packet : α) (timeout : Duration) (allocator : Allocator)
  (id : CbfPacketIdentifier)

theorem add_packets :
    (b.add packet timeout allocator).packets =
      if timeout ≤ 0 then b.packets
      else (b.makeRoom packet).packets ++
        if (b.makeRoom packet).timers.any (·.id = identifier packet) then [] else [packet] := by
  rcases b.add_cases packet timeout allocator with ⟨ht, heq⟩ | ⟨ht, hadd⟩
  · rw [if_pos ht, heq]
  · rw [if_neg ht, hadd.packets]
    unfold insert
    split_ifs
    · exact (List.append_nil _).symm
    · rfl

theorem add_sublist : (b.add packet timeout allocator).packets.Sublist (b.packets ++ [packet]) := by
  rw [add_packets]
  split_ifs
  · exact List.sublist_append_left _ _
  · exact (b.makeRoom_frame packet).1.sublist.append (List.nil_sublist _)
  · exact (b.makeRoom_frame packet).1.sublist.append (List.Sublist.refl _)

theorem update_map {γ : Type} {f : α → γ} {b : CbfPacketBuffer α κ} {id : CbfPacketIdentifier} {timeout : Duration}
    (hwf : b.Wf) (hf : ∀ (x : α) (d : Duration), f (reduceLifetime x d).2 = f x) :
    (b.update id timeout).packets.map f = b.packets.map f := by
  unfold update
  split
  · rename_i entry packet hl
    obtain ⟨-, -, hmem, hid⟩ := lookup_some hl
    show (b.packets.map _).map f = _
    rw [List.map_map]
    refine List.map_congr_left fun p hp => ?_
    rw [Function.comp_apply]
    split_ifs with hpid
    · rw [← Matched.eq_of_identifier hwf hmem hp (hid.trans hpid.symm)]
      exact hf packet _
    · rfl
  · rfl

def Event.brings : Event α → List α
  | .add packet _ _ => [packet]
  | _ => []

variable [LawfulCbfData α] (tag : α → ℕ) (htag : ∀ (x : α) (d : Duration), tag (reduceLifetime x d).2 = tag x)

include htag

theorem discard_tags {b : CbfPacketBuffer α κ} {id : CbfPacketIdentifier} {packet : α} (timer : Timer)
    (h : b.packets.find? (identifier · = id) = some packet) :
    (tag (b.reduce timer packet).2 :: (b.discard (b.reduce timer packet).2).packets.map tag).Perm
      (b.packets.map tag) := by
  have hid : identifier packet = id := by simpa using List.find?_some h
  have hperm := (perm_erase h).map tag
  have htag' : tag (b.reduce timer packet).2 = tag packet := htag packet _
  unfold discard
  rw [htag', identifier_reduce, hid]
  exact hperm.symm

theorem flushTimers_tags (b : CbfPacketBuffer α κ) (es : List TimerEntry) :
    ((b.flushTimers es).1.map tag ++ (b.flushTimers es).2.packets.map tag).Subperm (b.packets.map tag) := by
  fun_induction flushTimers with
  | case1 | case2 => exact List.Subperm.refl _
  | case3 b e es hdue packet hfind r rest ih =>
    have hperm := discard_tags tag htag e.timer hfind
    dsimp only
    split_ifs
    · exact ((List.subperm_cons _).mpr ih).trans hperm.subperm
    · exact ih.trans ((List.sublist_cons_self _ _).subperm.trans hperm.subperm)
  | case4 b e es hdue hnone ih => exact ih

theorem fetch_tags :
    ((b.fetch id).1.toList.map tag ++ (b.fetch id).2.packets.map tag).Subperm (b.packets.map tag) := by
  unfold fetch
  split
  · rename_i entry packet hl
    have hperm := discard_tags tag htag entry.timer (lookup_find hl)
    rw [(removeTimer_rescheduled _ id).packets]
    dsimp only
    split_ifs
    · exact hperm.subperm
    · exact (List.sublist_cons_self _ _).subperm.trans hperm.subperm
  · exact List.Subperm.refl _

theorem flush_tags : (b.flush.1.map tag ++ b.flush.2.packets.map tag).Subperm (b.packets.map tag) := by
  rw [b.flush_rescheduled.packets]
  exact flushTimers_tags tag htag b b.timers

theorem step_tags {b : CbfPacketBuffer α κ} (hwf : b.Wf) (e : Event α) :
    ((b.step e).1.packets.map tag ++ (b.step e).2.packets.map tag).Subperm (b.packets.map tag ++ e.brings.map tag) := by
  cases e with
  | add packet timeout allocator =>
    have htags := ((b.add_sublist packet timeout allocator).map tag).subperm
    rwa [List.map_append] at htags
  | remove id => simpa [step, Event.brings] using ((b.remove_leaves id).packets.map tag).subperm
  | update id timeout =>
    show ([] ++ (b.update id timeout).packets.map tag).Subperm (b.packets.map tag ++ [])
    rw [List.nil_append, List.append_nil, update_map hwf htag]
  | fetch id =>
    show ((b.fetch id).1.toList.map tag ++ (b.fetch id).2.packets.map tag).Subperm (b.packets.map tag ++ [])
    rw [List.append_nil]
    exact fetch_tags b id tag htag
  | fire =>
    show List.Subperm _ (b.packets.map tag ++ [])
    rw [List.append_nil]
    rcases b.fire_cases with heq | ⟨c, runtime, -, ⟨-, heq⟩ | ⟨-, heq⟩⟩ <;> rw [heq]
    · exact List.Subperm.refl _
    · exact flush_tags { b with runtime } tag htag
    · exact List.Subperm.refl _
  | outside what =>
    show ([] ++ b.packets.map tag).Subperm (b.packets.map tag ++ [])
    rw [List.nil_append, List.append_nil]

end Tags

/-! ### The books -/

section Books

variable {α κ : Type} [CbfData α] [CbfCounter κ] {tally : Tally κ}

/-- Packets, count and counters agree; `u` are the updates since a packet was
added. -/
structure Books (tally : Tally κ) (u : CbfPacketIdentifier → ℕ) (b : CbfPacketBuffer α κ) : Prop where
  unique : (b.packets.map identifier).Nodup
  stored : b.stored = octets b.packets
  counts : tally.Counts b.counter (b.packets.map identifier) u

def updatesAfter (u : CbfPacketIdentifier → ℕ) (b : CbfPacketBuffer α κ) :
    Event α → CbfPacketIdentifier → ℕ
  | .add packet timeout allocator =>
    if (b.step (.add packet timeout allocator)).1.timer.isSome then Function.update u (identifier packet) 0 else u
  | .update id _ => Function.update u id (u id + 1)
  | _ => u

variable {b : CbfPacketBuffer α κ} {u : CbfPacketIdentifier → ℕ}

theorem Books.rescheduled {b' : CbfPacketBuffer α κ} (h : Books tally u b) (hb : b.Rescheduled b') :
    Books tally u b' := by
  obtain ⟨_, -, rfl⟩ := hb
  exact ⟨h.unique, h.stored, h.counts⟩

theorem Books.removeTimer (h : Books tally u b) (id : CbfPacketIdentifier) : Books tally u (b.removeTimer id) :=
  Books.rescheduled (b := { b with timers := b.timers.eraseP (·.id = id) }) ⟨h.unique, h.stored, h.counts⟩
    (b.removeTimer_rescheduled id)

theorem Books.discard (h : Books tally u b) {id : CbfPacketIdentifier} {packet packet' : α}
    (hfind : b.packets.find? (identifier · = id) = some packet) (hid : identifier packet' = id)
    (hlen : length packet' = length packet) :
    b.discardChecked packet' = some (b.discard packet') ∧ Books tally u (b.discard packet') := by
  have hsum := octets_erase hfind
  have hstored := h.stored
  subst hid
  refine ⟨discardChecked_eq (by omega), ?_, ?_, ?_⟩
  · exact h.unique.sublist (List.eraseP_sublist.map _)
  · show b.stored - length packet' = octets (b.packets.eraseP (identifier · = identifier packet'))
    omega
  · have hcounts := tally.erase b.now (identifier packet') h.counts h.unique
    rwa [← map_eraseP_eq] at hcounts

theorem headDrop_books {extra : ℕ} {ps : List α} {b : CbfPacketBuffer α κ} (hunique : (ps.map identifier).Nodup)
    (hstored : b.stored = octets ps + extra) (hcounts : tally.Counts b.counter (ps.map identifier) u) :
    b.headDropChecked ps = some (b.headDrop ps) ∧ (b.headDrop ps).stored = octets (b.headDrop ps).packets + extra ∧
      tally.Counts (b.headDrop ps).counter ((b.headDrop ps).packets.map identifier) u := by
  fun_induction headDrop with
  | case1 => exact ⟨rfl, hstored, hcounts⟩
  | case2 b p ps hfull ih =>
    rw [octets_cons] at hstored
    rw [headDropChecked, if_pos hfull, PacketBuffer.release_eq (by omega)]
    have hcounts' := tally.erase b.now (identifier p) hcounts hunique
    rw [List.map_cons, List.erase_cons_head] at hcounts'
    exact ih (List.nodup_cons.mp hunique).2 (by simp only; omega) hcounts'
  | case3 b p ps hroom => exact ⟨if_neg hroom, hstored, hcounts⟩

theorem insert_books {packet : α} (timeout : Duration) (allocator : Allocator) (hwf : b.Wf)
    (hstored : b.stored = octets b.packets + length packet)
    (hcounts : tally.Counts b.counter (b.packets.map identifier) u) :
    b.insertChecked packet timeout allocator = some (b.insert packet timeout allocator) ∧
      Books tally (if b.timers.any (·.id = identifier packet) then u else Function.update u (identifier packet) 0)
        (b.insert packet timeout allocator) := by
  have hunique := hwf.packets_unique
  unfold insertChecked insert
  split_ifs with hany
  · rw [PacketBuffer.release_eq (by omega)]
    exact ⟨rfl, hunique, by simp only; omega, hcounts⟩
  · have hnew : identifier packet ∉ b.packets.map identifier := fun hmem => hany ((hwf.any_iff _).mpr hmem)
    refine ⟨rfl, ?_, ?_, ?_⟩
    · rw [List.map_append, List.map_singleton]
      exact List.nodup_append.mpr ⟨hunique, List.nodup_singleton _, fun a ha c hc heq =>
        hnew (List.mem_singleton.mp hc ▸ heq ▸ ha)⟩
    · show b.stored = octets (b.packets ++ [packet])
      rw [octets_append, hstored]
      rfl
    · rw [List.map_append]
      exact tally.snoc b.now (identifier packet) hcounts

theorem Books.add (h : Books tally u b) (hwf : b.Wf) (packet : α) (timeout : Duration) (allocator : Allocator) :
    b.addChecked packet timeout allocator = some (b.add packet timeout allocator) ∧
      Books tally (updatesAfter u b (.add packet timeout allocator)) (b.add packet timeout allocator) := by
  have hstored : b.stored + length packet = octets b.packets + length packet := by rw [h.stored]
  obtain ⟨hroom, hst, hcounts⟩ := headDrop_books (b := { b with stored := b.stored + length packet }) h.unique
    hstored h.counts
  obtain ⟨hinsert, hbooks⟩ := insert_books (b := b.makeRoom packet) timeout allocator (makeRoom_matched hwf packet).1
    hst hcounts
  unfold addChecked
  rcases b.add_cases packet timeout allocator with ⟨ht, heq⟩ | ⟨ht, hadd⟩
  · rw [if_pos ht, heq]
    refine ⟨rfl, ?_⟩
    simpa [updatesAfter, step, ht] using h
  · have hafter : updatesAfter u b (.add packet timeout allocator) =
        if (b.makeRoom packet).timers.any (·.id = identifier packet) then u
        else Function.update u (identifier packet) 0 := by
      by_cases hany : (b.makeRoom packet).timers.any (·.id = identifier packet) = true
      · simp [updatesAfter, step, hany]
      · simp [updatesAfter, step, ht, hany]
    refine ⟨?_, hafter ▸ hbooks.rescheduled hadd⟩
    rw [if_neg ht, hroom]
    show ((b.makeRoom packet).insertChecked packet timeout allocator).bind _ = _
    rw [hinsert, CbfPacketBuffer.add, if_neg ht]
    rfl

theorem Books.remove (h : Books tally u b) (id : CbfPacketIdentifier) :
    b.removeChecked id = some (b.remove id) ∧ Books tally u (b.remove id).2 := by
  unfold removeChecked CbfPacketBuffer.remove
  cases hl : b.lookup id with
  | none => exact ⟨rfl, h⟩
  | some found =>
    obtain ⟨hchecked, hbooks⟩ := h.discard (lookup_find hl) (lookup_some hl).2.2.2 rfl
    dsimp only
    rw [hchecked]
    exact ⟨rfl, hbooks.removeTimer id⟩

variable [LawfulCbfData α]

omit [CbfCounter κ] in
theorem length_reduce (b : CbfPacketBuffer α κ) (timer : Timer) (packet : α) :
    length (b.reduce timer packet).2 = length packet :=
  LawfulBufferData.length_reduceLifetime packet _

theorem Books.update (h : Books tally u b) (hwf : b.Wf) (id : CbfPacketIdentifier) (timeout : Duration) :
    Books tally (Function.update u id (u id + 1)) (b.update id timeout) := by
  have hids : (b.update id timeout).packets.map identifier = _ := update_map hwf LawfulCbfData.identifier_reduceLifetime
  refine ⟨?_, ?_, ?_⟩
  · rw [hids]
    exact h.unique
  · have hstored : (b.update id timeout).stored = b.stored := by
      unfold CbfPacketBuffer.update
      split <;> rfl
    rw [hstored, octets, update_map hwf LawfulBufferData.length_reduceLifetime]
    exact h.stored
  · rw [hids, CbfPacketBuffer.update]
    split
    · rename_i entry packet hl
      obtain ⟨-, -, hmem, hid⟩ := lookup_some hl
      exact tally.increment b.now id h.counts (List.mem_map.mpr ⟨packet, hmem, hid⟩)
    · rename_i hl
      exact tally.elsewhere id _ h.counts (hwf.lookup_none hl)

theorem flushTimers_books (es : List TimerEntry) (h : Books tally u b) :
    b.flushTimersChecked es = some (b.flushTimers es) ∧ Books tally u (b.flushTimers es).2 := by
  fun_induction flushTimers with
  | case1 => exact ⟨rfl, h.unique, h.stored, h.counts⟩
  | case2 b e es hlater => exact ⟨if_pos hlater, h.unique, h.stored, h.counts⟩
  | case3 b e es hdue packet hfind r rest ih =>
    have hid : identifier packet = e.id := by simpa using List.find?_some hfind
    obtain ⟨hchecked, hbooks⟩ := h.discard hfind ((identifier_reduce b e.timer packet).trans hid)
      (length_reduce b e.timer packet)
    obtain ⟨hrest, hbooks'⟩ := ih hbooks
    rw [flushTimersChecked, if_neg hdue, hfind]
    dsimp only
    rw [hchecked]
    show (flushTimersChecked _ es).bind _ = _ ∧ _
    rw [hrest]
    exact ⟨rfl, hbooks'⟩
  | case4 b e es hdue hnone ih =>
    rw [flushTimersChecked, if_neg hdue, hnone]
    exact ih h

theorem Books.flush (h : Books tally u b) : b.flushChecked = some b.flush ∧ Books tally u b.flush.2 := by
  obtain ⟨hchecked, hbooks⟩ := flushTimers_books b.timers h
  refine ⟨?_, hbooks.rescheduled b.flush_rescheduled⟩
  unfold flushChecked
  rw [hchecked]
  rfl

theorem Books.fetch (h : Books tally u b) (id : CbfPacketIdentifier) :
    b.fetchChecked id = some (b.fetch id) ∧ Books tally u (b.fetch id).2 := by
  unfold fetchChecked CbfPacketBuffer.fetch
  cases hl : b.lookup id with
  | none => exact ⟨rfl, h⟩
  | some found =>
    obtain ⟨hchecked, hbooks⟩ := h.discard (lookup_find hl)
      ((identifier_reduce b found.1.timer found.2).trans (lookup_some hl).2.2.2) (length_reduce b found.1.timer found.2)
    dsimp only
    rw [hchecked]
    exact ⟨rfl, hbooks.removeTimer id⟩

theorem Books.step (h : Books tally u b) (hwf : b.Wf) (e : Event α) :
    b.stepChecked e = some (b.step e) ∧ Books tally (updatesAfter u b e) (b.step e).2 := by
  cases e with
  | add packet timeout allocator =>
    obtain ⟨hchecked, hbooks⟩ := h.add hwf packet timeout allocator
    refine ⟨?_, hbooks⟩
    show (b.addChecked packet timeout allocator).bind _ = _
    rw [hchecked]
    rfl
  | remove id =>
    obtain ⟨hchecked, hbooks⟩ := h.remove id
    refine ⟨?_, hbooks⟩
    show (b.removeChecked id).bind _ = _
    rw [hchecked]
    rfl
  | update id timeout => exact ⟨rfl, h.update hwf id timeout⟩
  | fetch id =>
    obtain ⟨hchecked, hbooks⟩ := h.fetch id
    refine ⟨?_, hbooks⟩
    show (b.fetchChecked id).bind _ = _
    rw [hchecked]
    rfl
  | fire =>
    simp only [stepChecked, CbfPacketBuffer.step]
    cases hpop : b.runtime.pop with
    | none => exact ⟨rfl, h⟩
    | some popped =>
      have h' : Books tally u { b with runtime := popped.2 } := ⟨h.unique, h.stored, h.counts⟩
      dsimp only
      split_ifs
      · obtain ⟨hchecked, hbooks⟩ := h'.flush
        rw [hchecked]
        exact ⟨rfl, hbooks⟩
      · exact ⟨rfl, h'⟩
  | outside what => exact ⟨rfl, h.unique, h.stored, h.counts⟩

end Books

/-! ### Numbered packets -/

section Number

variable {α : Type}

instance [CbfData α] : CbfData (Numbered α) where
  identifier p := identifier p.data

instance [CbfData α] [LawfulCbfData α] : LawfulCbfData (Numbered α) where
  identifier_reduceLifetime p d := LawfulCbfData.identifier_reduceLifetime p.data d

def Event.number (n : ℕ) : Event α → Event (Numbered α)
  | .add packet timeout allocator => .add ⟨n, packet⟩ timeout allocator
  | .remove id => .remove id
  | .update id timeout => .update id timeout
  | .fetch id => .fetch id
  | .fire => .fire
  | .outside what => .outside what

theorem brings_number (n : ℕ) (e : Event α) :
    (e.number n).brings.map Numbered.number = e.brings.map fun _ => n := by
  cases e <;> rfl

theorem brings_cases (e : Event α) : e.brings = [] ∨ ∃ packet, e.brings = [packet] := by
  cases e with
  | add packet timeout allocator => exact .inr ⟨packet, rfl⟩
  | _ => exact .inl rfl

end Number

end CbfPacketBuffer

open CbfPacketBuffer CbfData Lib

/-- The contention buffer in use. The numbers are those of the calls of `add`. -/
structure Ledger (α : Type) where
  buffer : CbfPacketBuffer (Numbered α) CbfCounterContending
  /-- The number of the next call of `add`. -/
  adds : ℕ := 0
  /-- How often a packet was updated since it was added. -/
  updates : CbfPacketIdentifier → ℕ := fun _ => 0
  /-- The numbers of the packets given out, in order. -/
  given : List ℕ := []

namespace Ledger

variable {α : Type} [CbfData α]

def empty (capacity : ℕ) (runtime : SharedRuntime) : Ledger α := { buffer := { counter := {}, capacity, runtime } }

def step (s : Ledger α) (e : Event α) : Outcome (Numbered α) × Ledger α :=
  let r := s.buffer.step (e.number s.adds)
  (r.1, {
    buffer := r.2
    adds := s.adds + e.brings.length
    updates := updatesAfter s.updates s.buffer (e.number s.adds)
    given := s.given ++ r.1.packets.map Numbered.number })

def numbers (s : Ledger α) : List ℕ := s.buffer.packets.map Numbered.number

/-- The books are right: no number was given out and is in the buffer, or was given out twice. -/
structure Kept (s : Ledger α) : Prop where
  wf : s.buffer.Wf
  books : Books .contending s.updates s.buffer
  once : (s.given ++ s.numbers).Nodup
  below : ∀ n ∈ s.given ++ s.numbers, n < s.adds

theorem Kept.empty (capacity : ℕ) (runtime : SharedRuntime) : Kept (empty capacity runtime : Ledger α) where
  wf := ⟨List.Pairwise.nil, List.nodup_nil, List.Perm.refl _⟩
  books := ⟨List.nodup_nil, rfl, fun _ => rfl⟩
  once := List.nodup_nil
  below := nofun

variable [LawfulCbfData α]

variable {s : Ledger α}

theorem step_numbers (hwf : s.buffer.Wf) (e : Event α) :
    ((s.step e).1.packets.map Numbered.number ++ (s.step e).2.numbers).Subperm
      (s.numbers ++ e.brings.map fun _ => s.adds) := by
  have htags := step_tags Numbered.number Numbered.number_reduceLifetime hwf (e.number s.adds)
  rwa [brings_number] at htags

theorem Kept.step (h : Kept s) (e : Event α) : Kept (s.step e).2 := by
  have hsub : ((s.step e).2.given ++ (s.step e).2.numbers).Subperm
      (s.given ++ (s.numbers ++ e.brings.map fun _ => s.adds)) := by
    have hstep := step_numbers h.wf e
    show (s.given ++ (s.step e).1.packets.map Numbered.number ++ (s.step e).2.numbers).Subperm _
    rw [List.append_assoc]
    exact (List.subperm_append_left s.given).mpr hstep
  rw [← List.append_assoc] at hsub
  refine ⟨h.wf.step _, (h.books.step h.wf _).2, ?_, ?_⟩
  · obtain ⟨l, hperm, hl⟩ := hsub
    refine hperm.nodup_iff.mp (List.Nodup.sublist hl ?_)
    rcases brings_cases e with hnone | ⟨packet, hone⟩
    · rw [hnone, List.map_nil, List.append_nil]
      exact h.once
    · rw [hone, List.map_singleton]
      refine List.nodup_append.mpr ⟨h.once, List.nodup_singleton _, fun n hn m hm heq => ?_⟩
      have hlt := h.below n hn
      rw [heq, List.mem_singleton.mp hm] at hlt
      exact absurd hlt (Nat.lt_irrefl _)
  · intro n hn
    show n < s.adds + e.brings.length
    rcases List.mem_append.mp (hsub.subset hn) with hold | hnew
    · exact Nat.lt_add_right _ (h.below n hold)
    · obtain ⟨packet, hpacket, rfl⟩ := List.mem_map.mp hnew
      exact Nat.lt_add_of_pos_right (List.length_pos_of_mem hpacket)

theorem Kept.continues (h : Kept s) (es : List (Event α)) :
    Kept (final Ledger.step s es) ∧ s.adds ≤ (final Ledger.step s es).adds ∧
      ∃ new, (final Ledger.step s es).given = s.given ++ new ∧
        ∀ n ∈ new ++ (final Ledger.step s es).numbers, n ∈ s.numbers ∨ s.adds ≤ n := by
  refine final_induction Ledger.step (I := fun _ t => Kept t ∧ s.adds ≤ t.adds ∧
    ∃ new, t.given = s.given ++ new ∧ ∀ n ∈ new ++ t.numbers, n ∈ s.numbers ∨ s.adds ≤ n)
    ⟨h, Nat.le_refl _, [], (List.append_nil _).symm, fun n hn => .inl hn⟩ ?_ es
  rintro es e ⟨hkept, hle, new, hgiven, hfrom⟩
  refine ⟨hkept.step e, hle.trans (Nat.le_add_right _ _),
    new ++ ((final Ledger.step s es).step e).1.packets.map Numbered.number, ?_, fun n hn => ?_⟩
  · show (final Ledger.step s es).given ++ _ = _
    rw [hgiven, List.append_assoc]
    rfl
  · rw [List.append_assoc] at hn
    rcases List.mem_append.mp hn with hnew | hn
    · exact hfrom n (List.mem_append_left _ hnew)
    · rcases List.mem_append.mp ((step_numbers hkept.wf e).subset hn) with hold | hnext
      · exact hfrom n (List.mem_append_right _ hold)
      · obtain ⟨packet, -, rfl⟩ := List.mem_map.mp hnext
        exact .inr hle

/-- **The books of the contention buffer are kept** at every point of every run: octets, timers
and counters fit the packets, no operation wraps around, and a packet is given out once at most.
-/
theorem contended_packets_accounted (capacity : ℕ) (runtime : SharedRuntime) (es : List (Event α)) :
    let s := final Ledger.step (empty capacity runtime) es
    s.buffer.stored = octets s.buffer.packets ∧
    (∀ e, s.buffer.stepChecked e = some (s.buffer.step e)) ∧
    ((s.buffer.timers.map (·.id)).Nodup ∧ (s.buffer.timers.map (·.id)).Perm (s.buffer.packets.map identifier)) ∧
    (∀ id, (1 ≤ s.buffer.count id ↔ id ∈ s.buffer.packets.map identifier) ∧
      (id ∈ s.buffer.packets.map identifier → s.buffer.count id = 1 + s.updates id)) ∧
    s.given.Nodup ∧
    ∀ es', ∃ new, (final Ledger.step s es').given = s.given ++ new ∧ ∀ n < s.adds, n ∉ s.numbers → n ∉ new := by
  intro s
  have h : Kept s := ((Kept.empty capacity runtime).continues es).1
  refine ⟨h.books.stored, fun e => (h.books.step h.wf e).1, ⟨h.wf.unique, h.wf.ids⟩, fun id => ?_,
    h.once.sublist (List.sublist_append_left _ _), fun es' => ?_⟩
  · have hcount : s.buffer.count id = if id ∈ s.buffer.packets.map identifier then 1 + s.updates id else 0 :=
      h.books.counts id
    rw [hcount]
    split_ifs with hid
    · exact ⟨⟨fun _ => hid, fun _ => Nat.le_add_right _ _⟩, fun _ => rfl⟩
    · exact ⟨⟨fun hle => absurd hle (by decide), fun hmem => absurd hmem hid⟩, fun hmem => absurd hmem hid⟩
  · obtain ⟨-, -, new, hgiven, hfrom⟩ := h.continues es'
    refine ⟨new, hgiven, fun n hn hgone hmem => ?_⟩
    rcases hfrom n (List.mem_append_left _ hmem) with hold | hle
    · exact hgone hold
    · exact absurd hn (Nat.not_lt.mpr hle)

theorem contended_packets_accounted_fetched :
    let packet := samplePacket 1 ⟨.oneSecond, 60⟩
    let s : Ledger CbfPacket := final step (empty 1000 { now := 0 })
      [.add packet 100000 sampleAllocator, .update packet.identifier 200000, .fetch packet.identifier]
    s.given = [0] ∧
    s.buffer.stored = octets s.buffer.packets ∧
    (∀ e, s.buffer.stepChecked e = some (s.buffer.step e)) ∧
    ((s.buffer.timers.map (·.id)).Nodup ∧ (s.buffer.timers.map (·.id)).Perm (s.buffer.packets.map identifier)) ∧
    (∀ id, (1 ≤ s.buffer.count id ↔ id ∈ s.buffer.packets.map identifier) ∧
      (id ∈ s.buffer.packets.map identifier → s.buffer.count id = 1 + s.updates id)) ∧
    s.given.Nodup ∧
    ∀ es', ∃ new, (final step s es').given = s.given ++ new ∧ ∀ n < s.adds, n ∉ s.numbers → n ∉ new :=
  ⟨by decide +kernel, contended_packets_accounted 1000 { now := 0 } _⟩

end Ledger
end VanetzaIdf.Geonet
