/-
# Runs of the store-carry-forward buffer

`flush` swaps the packets out and runs them, and greedy forwarding may push one
again meanwhile. So the visits of the loop are steps of their own, with any
pushes between them; it visits the nodes swapped out and no others
(`flush_eq_take`). Every push has a number, which no operation reads: packets
are flushed in the order of their numbers, none twice (`step_numbers`).

`pushChecked` is `push` with every subtraction checked. A packet longer than the
buffer is refused after all others were dropped (`refused_push_harmless_iff`).
-/
import VanetzaIdf.Geonet.CbfPacketBuffer
import VanetzaIdf.Lib.Run

namespace VanetzaIdf.Geonet

open BufferData Lib List

/-! ### Packets with a number -/

/-- A packet with the number it was given when it was stored. -/
structure Numbered (α : Type) where
  number : ℕ
  data : α
deriving DecidableEq, Repr

section Numbered

variable {α : Type} [BufferData α]

instance : BufferData (Numbered α) where
  length p := length p.data
  reduceLifetime p d := ((reduceLifetime p.data d).1, { p with data := (reduceLifetime p.data d).2 })

instance [LawfulBufferData α] : LawfulBufferData (Numbered α) where
  length_reduceLifetime p d := LawfulBufferData.length_reduceLifetime p.data d
  reduceLifetime_nonneg p := LawfulBufferData.reduceLifetime_nonneg p.data

@[simp] theorem Numbered.number_reduceLifetime (p : Numbered α) (d : Duration) :
    (reduceLifetime p d).2.number = p.number := rfl

end Numbered

namespace PacketBuffer

variable {α : Type} [BufferData α]

/-! ### Checked subtraction -/

/-- Subtraction of unsigned numbers; `none` where it wraps around. -/
def release (stored bytes : ℕ) : Option ℕ := if bytes ≤ stored then some (stored - bytes) else none

theorem release_eq {stored bytes : ℕ} (h : bytes ≤ stored) : release stored bytes = some (stored - bytes) := if_pos h

def dropExpiredChecked (now : TimePoint) : List (Expiry × α) → ℕ → Option (List (Expiry × α) × ℕ)
  | [], stored => some ([], stored)
  | n :: ns, stored =>
    if n.1.isExpired now then do
      let stored ← release stored (length n.2)
      dropExpiredChecked now ns stored
    else do
      let r ← dropExpiredChecked now ns stored
      return (n :: r.1, r.2)

/-- The loop of `drop`. -/
def dropHeadsChecked (capacity bytes : ℕ) : List (Expiry × α) → ℕ → Option (List (Expiry × α) × ℕ)
  | [], stored => some ([], stored)
  | n :: ns, stored => do
    let free ← release capacity stored
    if free < bytes then
      let stored ← release stored (length n.2)
      dropHeadsChecked capacity bytes ns stored
    else return (n :: ns, stored)

/-- `push`, which stops where a subtraction wraps around. -/
def pushChecked (b : PacketBuffer α) (data : α) (now : TimePoint) : Option (Bool × PacketBuffer α) := do
  let unexpired ← dropExpiredChecked now b.nodes b.stored
  let kept ← dropHeadsChecked b.capacity (length data) unexpired.1 unexpired.2
  let free ← release b.capacity kept.2
  if length data ≤ free then
    let l := reduceLifetime data 0
    return (true, { b with nodes := kept.1 ++ [(⟨now, now + l.1⟩, l.2)], stored := kept.2 + length data })
  else return (false, { b with nodes := kept.1, stored := kept.2 })

theorem dropExpiredChecked_eq (now : TimePoint) : ∀ (ns : List (Expiry × α)) (stored : ℕ), octets ns ≤ stored →
    dropExpiredChecked now ns stored =
      some (ns.filter (fun n => !n.1.isExpired now), stored - octets (ns.filter fun n => n.1.isExpired now))
  | [], _, _ => rfl
  | n :: ns, stored, h => by
    rw [octets_cons] at h
    unfold dropExpiredChecked
    by_cases he : n.1.isExpired now = true
    · rw [if_pos he, release_eq (by omega), filter_cons_of_neg (by simp [he]),
        filter_cons_of_pos (p := fun n : Expiry × α => n.1.isExpired now) he, octets_cons, ← Nat.sub_sub]
      exact dropExpiredChecked_eq now ns _ (by omega)
    · rw [if_neg he, dropExpiredChecked_eq now ns stored (by omega), filter_cons_of_pos (by simp [he]),
        filter_cons_of_neg (p := fun n : Expiry × α => n.1.isExpired now) he]
      rfl

theorem dropHeadsChecked_eq (capacity bytes : ℕ) : ∀ (ns : List (Expiry × α)) (stored : ℕ), stored = octets ns →
    stored ≤ capacity → dropHeadsChecked capacity bytes ns stored = some (dropHeads capacity bytes ns stored)
  | [], _, _, _ => rfl
  | n :: ns, stored, h, hcap => by
    rw [octets_cons] at h
    unfold dropHeadsChecked dropHeads
    rw [release_eq hcap]
    show (if capacity - stored < bytes then _ else _) = _
    split_ifs
    · rw [release_eq (by omega)]
      exact dropHeadsChecked_eq capacity bytes ns _ (by omega) (by omega)
    · rfl

theorem Wf.pushChecked_eq {b : PacketBuffer α} (h : b.Wf) (data : α) (now : TimePoint) :
    b.pushChecked data now = some (b.push data now) := by
  have hexpired := h.dropExpired now
  have hkept := hexpired.drop (length data)
  have hle : (dropHeads b.capacity (length data) (b.dropExpired now).nodes (b.dropExpired now).stored).2 ≤
    b.capacity := by
    have hstored := hkept.stored
    have hfits := hkept.fits
    exact hstored.le.trans hfits
  unfold pushChecked
  rw [dropExpiredChecked_eq now b.nodes b.stored h.stored.ge]
  show (dropHeadsChecked b.capacity (length data) (b.dropExpired now).nodes (b.dropExpired now).stored).bind _ = _
  rw [dropHeadsChecked_eq b.capacity _ _ _ hexpired.stored (hexpired.stored.le.trans hexpired.fits)]
  show (release b.capacity _).bind _ = _
  rw [release_eq hle]
  unfold PacketBuffer.push PacketBuffer.drop
  show (if length data ≤ _ then _ else _) = _
  by_cases hroom : length data ≤ b.capacity -
      (dropHeads b.capacity (length data) (b.dropExpired now).nodes (b.dropExpired now).stored).2
  · rw [if_pos hroom]
    exact congrArg some (if_pos (decide_eq_true hroom)).symm
  · rw [if_neg hroom]
    exact congrArg some (if_neg fun hd => hroom (of_decide_eq_true hd)).symm

/-! ### A refused push -/

theorem dropHeads_of_capacity_lt {capacity bytes : ℕ} (hlt : capacity < bytes) (ns : List (Expiry × α)) (stored : ℕ) :
    (dropHeads capacity bytes ns stored).1 = [] := by
  fun_induction dropHeads with
  | case1 => rfl
  | case2 n ns stored _ ih => exact ih
  | case3 n ns stored hroom => omega

theorem push_of_capacity_lt (b : PacketBuffer α) {data : α} (now : TimePoint) (hlt : b.capacity < length data) :
    (b.push data now).1 = false ∧ (b.push data now).2.nodes = [] := by
  have hroom : ¬ ((b.dropExpired now).drop (length data)).1 = true := by
    intro htrue
    have hle : length data ≤ b.capacity - _ := of_decide_eq_true htrue
    omega
  unfold push
  dsimp only
  rw [if_neg hroom]
  exact ⟨rfl, dropHeads_of_capacity_lt hlt _ _⟩

/-- The other packets outlive a refused push exactly if the packet could have
been stored, or there was no packet to lose. -/
theorem refused_push_harmless_iff (b : PacketBuffer α) (h : b.Wf) (data : α) (now : TimePoint) :
    ((b.push data now).1 = false → (b.push data now).2.nodes = b.nodes.filter fun n => !n.1.isExpired now) ↔
      (length data ≤ b.capacity ∨ ∀ n ∈ b.nodes, n.1.isExpired now = true) := by
  constructor
  · intro hharmless
    by_cases hle : length data ≤ b.capacity
    · exact .inl hle
    · obtain ⟨hrefused, hnil⟩ := b.push_of_capacity_lt now (not_le.mp hle)
      have hkept := hharmless hrefused
      rw [hnil] at hkept
      refine .inr fun n hn => ?_
      have hgone := filter_eq_nil_iff.mp hkept.symm n hn
      simpa using hgone
  · rintro (hle | hexpired) hrefused
    · rw [h.push_fits hle] at hrefused
      exact Bool.noConfusion hrefused
    · have hnil : b.nodes.filter (fun n => !n.1.isExpired now) = [] :=
        filter_eq_nil_iff.mpr fun n hn => by simp [hexpired n hn]
      by_cases hle : length data ≤ b.capacity
      · rw [h.push_fits hle] at hrefused
        exact Bool.noConfusion hrefused
      · rw [hnil]
        exact (b.push_of_capacity_lt now (not_le.mp hle)).2

/-- A buffer of 100 octets in which a packet of 56 octets waits for a second. -/
def sampleStored : PacketBuffer PendingPacket where
  capacity := 100
  nodes := [(⟨0, 1000000⟩, (CbfPacketBuffer.samplePacket 1 ⟨.oneSecond, 1⟩).packet)]
  stored := 56

def sampleLong (payload : ℕ) : PendingPacket :=
  { (CbfPacketBuffer.samplePacket 2 ⟨.oneSecond, 1⟩).packet with payload := List.replicate payload 0 }

/-- A packet that is too long comes when the one that waits has expired. -/
theorem refused_push_harmless_expired : (sampleStored.push (sampleLong 45) 1000001).1 = false ∧
    (sampleStored.push (sampleLong 45) 1000001).2.nodes = sampleStored.nodes.filter fun n =>
      !n.1.isExpired 1000001 := by
  have hrefused : (sampleStored.push (sampleLong 45) 1000001).1 = false := by decide +kernel
  exact ⟨hrefused, (refused_push_harmless_iff sampleStored ⟨by decide +kernel, by decide +kernel⟩ (sampleLong 45)
    1000001).mpr (.inr (by decide +kernel)) hrefused⟩

/-- **A refused push may drop every packet.** The new packet is longer than the
buffer, and the one that waits is lost for nothing. -/
theorem refused_push_drops_all :
    ¬ ∀ (b : PacketBuffer PendingPacket), b.Wf → ∀ (data : PendingPacket) (now : TimePoint),
      (b.push data now).1 = false → (b.push data now).2.nodes = b.nodes.filter fun n => !n.1.isExpired now := by
  intro h
  have hkept := h sampleStored ⟨by decide +kernel, by decide +kernel⟩ (sampleLong 45) 0 (by decide +kernel)
  exact absurd (congrArg List.length hkept) (by decide +kernel)

end PacketBuffer

/-! ### Runs -/

structure CarryForward (α : Type) where
  buffer : PacketBuffer (Numbered α)
  /-- The time of the flush that is under way, and the nodes it has still to visit. -/
  flushing : Option (TimePoint × List (Expiry × Numbered α)) := none
  /-- The number of the next push. -/
  pushes : ℕ := 0
  /-- The packets that were run, in order. -/
  flushed : List (Numbered α) := []

namespace CarryForward

open PacketBuffer

variable {α : Type} [BufferData α]

inductive Event (α : Type)
  /-- At any time, also from a packet that is run. -/
  | push (data : α) (now : TimePoint)
  /-- The nodes are swapped out. -/
  | flush (now : TimePoint)
  /-- The loop goes on to the next node, or it is over. -/
  | visit

def step (s : CarryForward α) : Event α → Option (CarryForward α)
  | .push data now => some { s with buffer := (s.buffer.push ⟨s.pushes, data⟩ now).2, pushes := s.pushes + 1 }
  | .flush now =>
    match s.flushing with
    | none => some { s with buffer := { s.buffer with nodes := [], stored := 0 }, flushing := some (now,
      s.buffer.nodes) }
    | some _ => none
  | .visit =>
    match s.flushing with
    | none => none
    | some (_, []) => some { s with flushing := none }
    | some (now, n :: ns) =>
      if n.1.isExpired now then some { s with flushing := some (now, ns) }
      else some { s with
        flushing := some (now, ns)
        flushed := s.flushed ++ [(reduceLifetime n.2 (now - n.1.bufferedSince)).2] }

def empty (capacity : ℕ) : CarryForward α := { buffer := { capacity } }

/-- The nodes that the flush under way has still to visit. -/
def pending (s : CarryForward α) : List (Expiry × Numbered α) := (s.flushing.map Prod.snd).getD []

/-- The numbers of the packets that were flushed, are visited next, and wait. -/
def numbers (s : CarryForward α) : List ℕ :=
  s.flushed.map Numbered.number ++ s.pending.map (·.2.number) ++ s.buffer.nodes.map (·.2.number)

variable {s t : CarryForward α} {e : Event α}

theorem step_visit {now : TimePoint} {n : Expiry × Numbered α} {ns : List (Expiry × Numbered α)}
    (h : s.flushing = some (now, n :: ns)) :
    s.step .visit = some { s with
      flushing := some (now, ns)
      flushed := s.flushed ++
        ((if n.1.isExpired now then [] else [n]).map fun n => (reduceLifetime n.2 (now - n.1.bufferedSince)).2) } := by
  simp only [step, h]
  split_ifs
  · rw [map_nil, append_nil]
  · rfl

/-- What an event does to the buffer and the flush that is under way. -/
inductive Trans (s : CarryForward α) : CarryForward α → Prop
  | push (data : α) (now : TimePoint) :
    Trans s { s with buffer := (s.buffer.push ⟨s.pushes, data⟩ now).2, pushes := s.pushes + 1 }
  | flush (now : TimePoint) (hidle : s.flushing = none) :
    Trans s { s with buffer := { s.buffer with nodes := [], stored := 0 }, flushing := some (now, s.buffer.nodes) }
  | finish (now : TimePoint) (hlast : s.flushing = some (now, [])) : Trans s { s with flushing := none }
  | visit (now : TimePoint) (n : Expiry × Numbered α) (ns : List (Expiry × Numbered α))
    (hnext : s.flushing = some (now, n :: ns)) :
    Trans s { s with
      flushing := some (now, ns)
      flushed := s.flushed ++
        ((if n.1.isExpired now then [] else [n]).map fun n => (reduceLifetime n.2 (now - n.1.bufferedSince)).2) }

theorem trans_of_step (h : s.step e = some t) : Trans s t := by
  cases e with
  | push data now =>
    obtain rfl := Option.some.inj h
    exact .push data now
  | flush now =>
    cases hf : s.flushing with
    | some running => simp [step, hf] at h
    | none =>
      simp only [step, hf, Option.some.injEq] at h
      obtain rfl := h
      exact .flush now hf
  | visit =>
    cases hf : s.flushing with
    | none => simp [step, hf] at h
    | some running =>
      obtain ⟨now, nodes⟩ := running
      cases nodes with
      | nil =>
        simp only [step, hf, Option.some.injEq] at h
        obtain rfl := h
        exact .finish now hf
      | cons n ns =>
        obtain rfl := Option.some.inj ((step_visit hf).symm.trans h)
        exact .visit now n ns hf

theorem push_numbers (s : CarryForward α) (data : α) (now : TimePoint) :
    (({ s with buffer := (s.buffer.push ⟨s.pushes, data⟩ now).2, pushes := s.pushes + 1 } :
    CarryForward α).numbers).Sublist
      (s.numbers ++ [s.pushes]) := by
  obtain ⟨kept, hsub, hnodes⟩ := s.buffer.push_nodes ⟨s.pushes, data⟩ now
  have hkept : (kept.map (·.2.number)).Sublist (s.buffer.nodes.map (·.2.number)) := hsub.map _
  show (s.flushed.map Numbered.number ++ s.pending.map (·.2.number) ++
    ((s.buffer.push ⟨s.pushes, data⟩ now).2.nodes.map (·.2.number))).Sublist _
  unfold numbers
  rw [hnodes, map_append, append_assoc _ _ [s.pushes]]
  refine List.Sublist.append_left (hkept.append ?_) _
  split_ifs
  · exact List.Sublist.refl _
  · exact nil_sublist _

theorem step_numbers (h : s.step e = some t) :
    t.numbers.Sublist s.numbers ∧ t.pushes = s.pushes ∨
      t.numbers.Sublist (s.numbers ++ [s.pushes]) ∧ t.pushes = s.pushes + 1 := by
  cases trans_of_step h with
  | push data now => exact .inr ⟨push_numbers s data now, rfl⟩
  | flush now hidle => exact .inl ⟨by simp [numbers, pending, hidle], rfl⟩
  | finish now hlast => exact .inl ⟨by simp [numbers, pending, hlast], rfl⟩
  | visit now n ns hnext =>
    refine .inl ⟨?_, rfl⟩
    by_cases hexp : n.1.isExpired now = true <;> simp [numbers, pending, hnext, hexp]

theorem step_capacity (h : s.step e = some t) : t.buffer.capacity = s.buffer.capacity := by
  cases trans_of_step h with
  | push data now =>
    simp only [PacketBuffer.push]
    split_ifs <;> rfl
  | flush | finish | visit => rfl

/-! ### The loop of a flush -/

def pushAll (s : CarryForward α) : List (α × TimePoint) → CarryForward α
  | [] => s
  | x :: xs =>
    pushAll { s with buffer := (s.buffer.push ⟨s.pushes, x.1⟩ x.2).2, pushes := s.pushes + 1 } xs

/-- The flush under way to its end, if `fuel` visits are enough; what is pushed
after a visit is up to `react`. -/
def flushLoop (react : CarryForward α → List (α × TimePoint)) : ℕ → CarryForward α → Option (CarryForward α)
  | 0, s => if s.flushing = none then some s else none
  | fuel + 1, s =>
    if s.flushing = none then some s
    else (s.step .visit).bind fun t => flushLoop react fuel (t.pushAll (react t))

/-- What `react` pushes in the course of a flush, in order. -/
def reactions (react : CarryForward α → List (α × TimePoint)) : ℕ → CarryForward α → List (α × TimePoint)
  | 0, _ => []
  | fuel + 1, s =>
    match s.step .visit with
    | none => []
    | some t => react t ++ reactions react fuel (t.pushAll (react t))

theorem pushAll_append : ∀ (xs ys : List (α × TimePoint)) (s : CarryForward α),
    s.pushAll (xs ++ ys) = (s.pushAll xs).pushAll ys
  | [], _, _ => rfl
  | _ :: xs, ys, _ => pushAll_append xs ys _

theorem pushAll_flushing : ∀ (xs : List (α × TimePoint)) (s : CarryForward α), (s.pushAll xs).flushing = s.flushing
  | [], _ => rfl
  | _ :: xs, _ => pushAll_flushing xs _

theorem pushAll_flushed : ∀ (xs : List (α × TimePoint)) (s : CarryForward α), (s.pushAll xs).flushed = s.flushed
  | [], _ => rfl
  | _ :: xs, _ => pushAll_flushed xs _

theorem pushAll_buffer : ∀ (xs : List (α × TimePoint)) {s t : CarryForward α}, s.buffer = t.buffer →
    s.pushes = t.pushes → (s.pushAll xs).buffer = (t.pushAll xs).buffer
  | [], _, _, hbuffer, _ => hbuffer
  | x :: xs, s, t, hbuffer, hpushes => by
    refine pushAll_buffer xs ?_ (congrArg (· + 1) hpushes)
    show (s.buffer.push _ _).2 = (t.buffer.push _ _).2
    rw [hbuffer, hpushes]

theorem pushAll_nodes : ∀ (xs : List (α × TimePoint)) (s : CarryForward α),
    ∀ n ∈ (s.pushAll xs).buffer.nodes, n ∈ s.buffer.nodes ∨ s.pushes ≤ n.2.number
  | [], _, _, hn => .inl hn
  | x :: xs, s, n, hn => by
    rcases pushAll_nodes xs _ n hn with hold | hnew
    · obtain ⟨kept, hsub, hnodes⟩ := s.buffer.push_nodes ⟨s.pushes, x.1⟩ x.2
      rw [hnodes, mem_append] at hold
      rcases hold with hkept | hlast
      · exact .inl (hsub.subset hkept)
      · split_ifs at hlast
        · rw [mem_singleton.mp hlast]
          exact .inr le_rfl
        · cases hlast
    · exact .inr ((Nat.le_succ _).trans hnew)

variable (react : CarryForward α → List (α × TimePoint))

theorem flushLoop_idle (fuel : ℕ)
    (h : s.flushing = none) : flushLoop react fuel s = some s := by
  cases fuel <;> exact if_pos h

theorem flushLoop_visit (fuel : ℕ)
    (h : s.step .visit = some t) : flushLoop react (fuel + 1) s = flushLoop react fuel (t.pushAll (react t)) := by
  have hrunning : s.flushing ≠ none := by
    intro hnone
    simp [step, hnone] at h
  rw [flushLoop, if_neg hrunning, h]
  rfl

theorem reactions_visit (fuel : ℕ)
    (h : s.step .visit = some t) :
    reactions react (fuel + 1) s = react t ++ reactions react fuel (t.pushAll (react t)) := by
  rw [reactions, h]

/-- The loop ran the nodes that are not expired, and what was pushed meanwhile is in the buffer as
if it had been pushed without the loop. -/
theorem flushLoop_eq (react : CarryForward α → List (α × TimePoint)) (now : TimePoint) :
    ∀ (nodes : List (Expiry × Numbered α)) (s : CarryForward α), s.flushing = some (now, nodes) →
      ∃ t, flushLoop react (nodes.length + 1) s = some t ∧ t.flushing = none ∧
        t.flushed = s.flushed ++ ((nodes.filter fun n => !n.1.isExpired now).map fun n =>
          (reduceLifetime n.2 (now - n.1.bufferedSince)).2) ∧
        t.buffer = (s.pushAll (reactions react (nodes.length + 1) s)).buffer
  | [], s, h => by
    have hvisit : s.step .visit = some { s with flushing := none } := by simp only [step, h]
    rw [flushLoop_visit react _ hvisit, flushLoop_idle react _ (pushAll_flushing _ _), reactions_visit react _ hvisit]
    refine ⟨_, rfl, pushAll_flushing _ _, ?_, ?_⟩
    · rw [pushAll_flushed, filter_nil, map_nil, append_nil]
    · rw [length_nil, reactions, append_nil]
      exact pushAll_buffer _ rfl rfl
  | n :: ns, s, h => by
    have hvisit := step_visit h
    set v : CarryForward α := { s with flushing := some (now, ns), flushed := _ } with hv
    rw [length_cons, flushLoop_visit react _ hvisit, reactions_visit react _ hvisit]
    obtain ⟨t, hloop, hidle, hflushed, hbuffer⟩ :=
      flushLoop_eq react now ns (v.pushAll (react v)) (pushAll_flushing (react v) v)
    refine ⟨t, hloop, hidle, ?_, ?_⟩
    · rw [hflushed, pushAll_flushed, hv, append_assoc, ← map_append]
      congr 2
      split_ifs with hexp
      · rw [filter_cons_of_neg (by simp [hexp]), nil_append]
      · rw [filter_cons_of_pos (by simp [hexp]), singleton_append]
    · rw [hbuffer, ← pushAll_append]
      exact pushAll_buffer _ rfl rfl

/-- **A flush is one `take`, whatever it pushes.** It runs the packets that `take` hands out, and
what they push is in the buffer as if it had been pushed after `take`. -/
theorem flush_eq_take {u : CarryForward α} {now : TimePoint} (h : s.step (.flush now) = some u)
    (react : CarryForward α → List (α × TimePoint)) :
    ∃ t, flushLoop react (s.buffer.nodes.length + 1) u = some t ∧ t.flushing = none ∧
      t.flushed = s.flushed ++ (s.buffer.take now).1 ∧
      t.buffer = (({ s with buffer := (s.buffer.take now).2 } : CarryForward α).pushAll
        (reactions react (s.buffer.nodes.length + 1) u)).buffer ∧
      ∀ n ∈ t.buffer.nodes, s.pushes ≤ n.2.number := by
  cases hidle : s.flushing with
  | some running => simp [step, hidle] at h
  | none =>
    simp only [step, hidle, Option.some.injEq] at h
    have hswapped : u.flushing = some (now, s.buffer.nodes) := by rw [← h]
    obtain ⟨t, hloop, hreturned, hflushed, hbuffer⟩ := flushLoop_eq react now s.buffer.nodes u hswapped
    subst h
    refine ⟨t, hloop, hreturned, hflushed, hbuffer.trans (pushAll_buffer _ rfl rfl), fun n hn => ?_⟩
    rw [hbuffer] at hn
    exact (pushAll_nodes _ _ n hn).resolve_left (not_mem_nil)

/-- A packet that is pushed back when it is run: it waits, with another number. -/
theorem flush_eq_take_back :
    let s := ((empty 100).pushAll [(sampleLong 0, 0)] : CarryForward PendingPacket)
    ∃ u t, s.step (.flush 500000) = some u ∧
      flushLoop (fun t => if t.flushing.isSome then t.flushed.map fun p => (p.data, 500000) else []) 2 u = some t ∧
      t.flushed.map (·.number) = [0] ∧ t.buffer.nodes.map (·.2.number) = [1] := by
  intro s
  obtain ⟨t, hloop, -, hflushed, hbuffer, -⟩ := flush_eq_take (s := s) rfl
    fun t => if t.flushing.isSome then t.flushed.map fun p => (p.data, 500000) else []
  refine ⟨_, t, rfl, hloop, ?_, ?_⟩
  · rw [hflushed]
    decide +kernel
  · rw [hbuffer]
    decide +kernel

/-! ### Accounting -/

/-- What holds at every point of a run, also between the visits of a flush. -/
structure Accounted (capacity : ℕ) (s : CarryForward α) : Prop where
  wf : s.buffer.Wf
  capacity_eq : s.buffer.capacity = capacity
  inOrder : s.numbers.Pairwise (· < ·)
  below : ∀ n ∈ s.numbers, n < s.pushes

theorem Accounted.empty (capacity : ℕ) : Accounted capacity (empty capacity : CarryForward α) where
  wf := ⟨rfl, Nat.zero_le _⟩
  capacity_eq := rfl
  inOrder := List.Pairwise.nil
  below := nofun

variable [LawfulBufferData α]

theorem step_wf (hwf : s.buffer.Wf) (h : s.step e = some t) : t.buffer.Wf := by
  cases trans_of_step h with
  | push data now => exact hwf.push _ now
  | flush now hidle => exact ⟨rfl, Nat.zero_le _⟩
  | finish | visit => exact hwf

theorem Accounted.step {capacity : ℕ} (hs : Accounted capacity s) (h : s.step e = some t) : Accounted capacity t := by
  have hcap := (step_capacity h).trans hs.capacity_eq
  rcases step_numbers h with ⟨hsub, hpushes⟩ | ⟨hsub, hpushes⟩
  · refine ⟨step_wf hs.wf h, hcap, hs.inOrder.sublist hsub, fun n hn => ?_⟩
    rw [hpushes]
    exact hs.below n (hsub.subset hn)
  · have hnew : (s.numbers ++ [s.pushes]).Pairwise (· < ·) :=
      pairwise_append.mpr ⟨hs.inOrder, pairwise_singleton _ _, fun n hn m hm => by
        rw [mem_singleton.mp hm]
        exact hs.below n hn⟩
    refine ⟨step_wf hs.wf h, hcap, hnew.sublist hsub, fun n hn => ?_⟩
    rw [hpushes]
    rcases mem_append.mp (hsub.subset hn) with hold | hn
    · exact Nat.lt_succ_of_lt (hs.below n hold)
    · rw [mem_singleton.mp hn]
      exact Nat.lt_succ_self _

/-- **Octets and packets of the store-carry-forward buffer are accounted for** at every point of
every run, also if packets are pushed from inside a flush, which returns nevertheless. -/
theorem carried_packets_accounted (capacity : ℕ) {s : CarryForward α} (h : Run step Anything (empty capacity) s) :
    (s.buffer.stored = octets s.buffer.nodes ∧ s.buffer.stored ≤ capacity) ∧
    (∀ data now, s.buffer.pushChecked data now = some (s.buffer.push data now)) ∧
    ((s.flushed.map Numbered.number).Pairwise (· < ·) ∧ ∀ p ∈ s.flushed, p.number < s.pushes) ∧
    ∀ now nodes, s.flushing = some (now, nodes) → ∀ react, ∃ t,
      flushLoop react (nodes.length + 1) s = some t ∧ t.flushing = none := by
  have hs : Accounted capacity s := h.invariant (.empty capacity) fun e hu _ hstep => hu.step hstep
  have hflushed : (s.flushed.map Numbered.number).Sublist s.numbers :=
    (sublist_append_left _ _).trans (sublist_append_left _ _)
  refine ⟨⟨hs.wf.stored, ?_⟩, fun data now => hs.wf.pushChecked_eq data now, ⟨hs.inOrder.sublist hflushed, ?_⟩,
    fun now nodes hf react => ?_⟩
  · rw [hs.wf.stored, ← hs.capacity_eq]
    exact hs.wf.fits
  · exact fun p hp => hs.below _ (hflushed.subset (mem_map_of_mem hp))
  · obtain ⟨t, hloop, hreturned, -⟩ := flushLoop_eq react now nodes s hf
    exact ⟨t, hloop, hreturned⟩

/-- A packet comes back while the loop that ran it is under way. -/
theorem carried_packets_accounted_refilled : ∃ s : CarryForward PendingPacket,
    (s.flushed.length = 1 ∧ s.flushing.isSome = true ∧ s.buffer.nodes.length = 1) ∧
    (s.buffer.stored = octets s.buffer.nodes ∧ s.buffer.stored ≤ 100) ∧
    (∀ data now, s.buffer.pushChecked data now = some (s.buffer.push data now)) ∧
    ((s.flushed.map Numbered.number).Pairwise (· < ·) ∧ ∀ p ∈ s.flushed, p.number < s.pushes) ∧
    ∀ now nodes, s.flushing = some (now, nodes) → ∀ react, ∃ t,
      flushLoop react (nodes.length + 1) s = some t ∧ t.flushing = none := by
  obtain ⟨s, hrun, hs⟩ := exists_run_of_exec (C := Anything) (f := step) (s := empty 100)
    (l := [.push (sampleLong 0) 0, .flush 1000, .visit, .push (sampleLong 0) 1000])
    (p := fun s => s.flushed.length = 1 ∧ s.flushing.isSome = true ∧ s.buffer.nodes.length = 1) (by decide +kernel)
  exact ⟨s, of_decide_eq_true hs, carried_packets_accounted 100 hrun⟩

end CarryForward
end VanetzaIdf.Geonet
