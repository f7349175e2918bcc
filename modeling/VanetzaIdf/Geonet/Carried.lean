/-
# Lifetimes of buffered packets

The two buffers of a router on one clock (`Carrier`). Every packet carries the
lifetime it had when it was first buffered, and that time (`Tracked`), which no
operation reads. Whenever a buffer takes time off, it encodes what remains to
the nearest unit, so a packet may get time back, again and again
(`lifetime_regained`). If no lifetime is raised and 25 ms are left in the end,
the packet is within its lifetime, up to half a unit (`lifetime_kept`).
-/
import VanetzaIdf.Geonet.CbfTimers

namespace VanetzaIdf.Geonet

open BufferData CbfData Lib List VanetzaIdf.Units

/-! ### Packets with a lifetime -/

/-- A packet whose header has a lifetime, which is all that time changes. -/
class LifetimeData (α : Type) [BufferData α] where
  lifetime : α → Lifetime
  remaining_reduceLifetime : ∀ (x : α) (d : Duration), (reduceLifetime x d).1 = ((lifetime x).reduce d).1
  lifetime_reduceLifetime : ∀ (x : α) (d : Duration), lifetime (reduceLifetime x d).2 = ((lifetime x).reduce d).2

open LifetimeData

theorem PendingPacket.reduceLifetime_eq (p : PendingPacket) (d : Duration) :
    p.reduceLifetime d =
      ((p.pdu.basic.lifetime.reduce d).1, p.withLifetime (p.pdu.basic.lifetime.reduce d).2) := by
  unfold PendingPacket.reduceLifetime Lifetime.reduce
  dsimp only
  split_ifs <;> rfl

instance : LifetimeData PendingPacket where
  lifetime p := p.pdu.basic.lifetime
  remaining_reduceLifetime p d := congrArg Prod.fst (p.reduceLifetime_eq d)
  lifetime_reduceLifetime p d := congrArg (fun r => r.2.pdu.basic.lifetime) (p.reduceLifetime_eq d)

instance : LifetimeData CbfPacket where
  lifetime p := p.packet.pdu.basic.lifetime
  remaining_reduceLifetime p d := congrArg Prod.fst (p.packet.reduceLifetime_eq d)
  lifetime_reduceLifetime p d := congrArg (fun r => r.2.pdu.basic.lifetime) (p.packet.reduceLifetime_eq d)

/-- A packet with the lifetime it came with, and when it came. -/
structure Tracked (α : Type) where
  data : α
  initial : Lifetime
  since : TimePoint
deriving DecidableEq, Repr

namespace Tracked

variable {α : Type}

def start [BufferData α] [LifetimeData α] (data : α) (now : TimePoint) : Tracked α := ⟨data, lifetime data, now⟩

instance [BufferData α] : BufferData (Tracked α) where
  length x := length x.data
  reduceLifetime x d := ((reduceLifetime x.data d).1, { x with data := (reduceLifetime x.data d).2 })

instance [CbfData α] : CbfData (Tracked α) where
  toBufferData := inferInstance
  identifier x := identifier x.data

instance [CbfData α] [LawfulCbfData α] : LawfulCbfData (Tracked α) where
  length_reduceLifetime x d := LawfulBufferData.length_reduceLifetime x.data d
  reduceLifetime_nonneg x := LawfulBufferData.reduceLifetime_nonneg x.data
  identifier_reduceLifetime x d := LawfulCbfData.identifier_reduceLifetime x.data d

instance [BufferData α] [LifetimeData α] : LifetimeData (Tracked α) where
  lifetime x := lifetime x.data
  remaining_reduceLifetime x d := remaining_reduceLifetime x.data d
  lifetime_reduceLifetime x d := lifetime_reduceLifetime x.data d

end Tracked

/-! ### Timers and their packets -/

namespace CbfPacketBuffer

variable {α κ : Type} [CbfData α] [CbfCounter κ] {b b' : CbfPacketBuffer α κ}

/-- A packet of the buffer and its timer. -/
structure Paired (b : CbfPacketBuffer α κ) (e : TimerEntry) (p : α) : Prop where
  timer : e ∈ b.timers
  packet : p ∈ b.packets
  id : identifier p = e.id

variable {e : TimerEntry} {p : α} {timeout : Duration} {id : CbfPacketIdentifier}

omit [CbfCounter κ] in
theorem Paired.of_subset (h : b'.Paired e p) (ht : b'.timers ⊆ b.timers)
    (hp : b'.packets ⊆ b.packets) : b.Paired e p := ⟨ht h.timer, hp h.packet, h.id⟩

theorem discard_packets (b : CbfPacketBuffer α κ) (p : α) : (b.discard p).packets ⊆ b.packets :=
  eraseP_sublist.subset

theorem add_paired (h : b.Wf) {packet : α} {allocator : Allocator}
    (hp : (b.add packet timeout allocator).Paired e p) :
    b.Paired e p ∨ p = packet ∧ e.timer = .after b.now timeout := by
  obtain ⟨hroom, hsub⟩ := makeRoom_matched h packet
  obtain ⟨hsuffix, -, hrt⟩ := b.makeRoom_frame packet
  rcases b.add_cases packet timeout allocator with ⟨-, heq⟩ | ⟨-, hadd⟩
  · rw [heq] at hp
    exact .inl hp
  obtain ⟨he, hpm, hid⟩ := hp
  rw [hadd.timers] at he
  rw [hadd.packets] at hpm
  rcases (b.makeRoom packet).insert_cases packet timeout allocator with ⟨-, hts, hps⟩ | ⟨-, hnew, hts, hps⟩
  · rw [hts] at he
    rw [hps] at hpm
    exact .inl ⟨hsub.subset he, hsuffix.subset hpm, hid⟩
  · rw [hts] at he
    rw [hps, mem_append, mem_singleton] at hpm
    -- an identifier is that of an old timer and packet, or of the new ones
    have hother : ∀ q ∈ (b.makeRoom packet).packets, identifier q ≠ identifier packet := by
      intro q hq heq
      obtain ⟨x, hx, hxid⟩ := mem_map.mp (hroom.ids.mem_iff.mpr (mem_map_of_mem hq))
      exact hnew x hx (hxid.trans heq)
    rcases (mem_insertUpper _).mp he with rfl | he
    · rcases hpm with hpm | rfl
      · exact absurd hid (hother p hpm)
      · exact .inr ⟨rfl, congrArg (fun rt : SharedRuntime => Timer.after rt.now timeout) hrt⟩
    · rcases hpm with hpm | rfl
      · exact .inl ⟨hsub.subset he, hsuffix.subset hpm, hid⟩
      · exact absurd hid.symm (hnew e he)

theorem Leaves.paired (h : b.Leaves id b') (hp : b'.Paired e p) :
    b.Paired e p := hp.of_subset h.timers h.packets.subset

theorem flushTimers_output (b : CbfPacketBuffer α κ) (es : List TimerEntry) :
    (b.flushTimers es).2.packets ⊆ b.packets ∧
      ∀ x ∈ (b.flushTimers es).1, ∃ e ∈ es, e.expiry ≤ b.now ∧ ∃ p ∈ b.packets, identifier p = e.id ∧
        0 < (b.reduce e.timer p).1 ∧ x = (b.reduce e.timer p).2 := by
  fun_induction flushTimers with
  | case1 | case2 => exact ⟨List.Subset.refl _, by simp⟩
  | case3 b e es hdue packet hfind r rest ih =>
    have hmem := mem_of_find?_eq_some hfind
    have hid : identifier packet = e.id := by simpa using List.find?_some hfind
    have hsub := b.discard_packets r.2
    have hlater : ∀ x ∈ rest.1, ∃ e' ∈ e :: es, e'.expiry ≤ b.now ∧ ∃ p ∈ b.packets,
        identifier p = e'.id ∧ 0 < (b.reduce e'.timer p).1 ∧ x = (b.reduce e'.timer p).2 := by
      intro x hx
      obtain ⟨e', he', hexpiry, p, hp, h⟩ := ih.2 x hx
      exact ⟨e', mem_cons_of_mem _ he', hexpiry, p, hsub hp, h⟩
    refine ⟨fun x hx => hsub (ih.1 hx), fun x hx => ?_⟩
    dsimp only at hx
    split_ifs at hx with hpos
    · rcases mem_cons.mp hx with rfl | hx
      · exact ⟨e, mem_cons_self, not_lt.mp hdue, packet, hmem, hid, hpos, rfl⟩
      · exact hlater x hx
    · exact hlater x hx
  | case4 b e es hdue hnone ih =>
    refine ⟨ih.1, fun x hx => ?_⟩
    obtain ⟨e', he', h⟩ := ih.2 x hx
    exact ⟨e', mem_cons_of_mem _ he', h⟩

/-- The timers an operation serves: the one of the packet that is fetched, and the expired ones
when the callback is run. -/
def Serves (b : CbfPacketBuffer α κ) (e : TimerEntry) {β : Type} : Event β → Prop
  | .fetch id => e.id = id
  | .fire => b.runtime.pop.any (·.1.callback = .self) = true ∧ e.expiry ≤ b.now
  | _ => False

theorem step_output (ev : Event α) {x : α} (hx : x ∈ (b.step ev).1.packets) :
    ∃ e p, b.Paired e p ∧ b.Serves e ev ∧ 0 < (b.reduce e.timer p).1 ∧ x = (b.reduce e.timer p).2 := by
  cases ev with
  | fetch id =>
    have hx' : (b.fetch id).1 = some x := by simpa [step] using hx
    unfold fetch at hx'
    split at hx'
    · rename_i entry packet hl
      obtain ⟨hmem, hid, hpm, hpid⟩ := lookup_some hl
      dsimp only at hx'
      split_ifs at hx' with hpos
      exact ⟨entry, packet, ⟨hmem, hpm, hpid.trans hid.symm⟩, hid, hpos, (Option.some.inj hx').symm⟩
    · cases hx'
  | fire =>
    rcases b.fire_cases with heq | ⟨c, runtime, hpop, ⟨hself, heq⟩ | ⟨-, heq⟩⟩ <;> rw [heq] at hx
    · cases hx
    · obtain ⟨e, he, hexpiry, p, hp, hid, hpos, hxe⟩ := (flushTimers_output { b with runtime } b.timers).2 x hx
      have hnow : runtime.now = b.now := (ManualRuntime.pop_some hpop).2.2
      have hreduce : ∀ timer (q : α), reduce { b with runtime } timer q = b.reduce timer q := fun timer q =>
        congrArg (fun t => reduceLifetime q (t - timer.start)) hnow
      rw [hreduce] at hpos hxe
      exact ⟨e, p, ⟨he, hp, hid⟩, ⟨by simp [hpop, hself], hexpiry.trans_eq hnow⟩, hpos, hxe⟩
    · cases hx
  | add | remove | update | outside => simp [step] at hx

variable [LawfulCbfData α]

theorem update_paired (h : b.Wf) (hp : (b.update id timeout).Paired e p) :
    b.Paired e p ∨ ∃ e' p', b.lookup id = some (e', p') ∧ p = (b.reduce e'.timer p').2 ∧
      e.timer = .after b.now timeout := by
  cases hl : b.lookup id with
  | none =>
    rw [update, hl] at hp
    exact .inl hp
  | some found =>
    obtain ⟨e', p'⟩ := found
    obtain ⟨he, hpm, hid⟩ := hp
    obtain ⟨-, -, -, hpid'⟩ := lookup_some hl
    have hpackets : (b.update id timeout).packets =
        b.packets.map fun p => if identifier p = id then (b.reduce e'.timer p').2 else p := by rw [update, hl]
    rw [hpackets] at hpm
    obtain ⟨q, hq, hqp⟩ := mem_map.mp hpm
    split_ifs at hqp with hqid
    · have hpid : identifier p = id := by rw [← hqp, identifier_reduce, hpid']
      rcases update_timers h hl he with ⟨-, hne⟩ | ⟨-, hnew⟩
      · exact absurd (hid.symm.trans hpid) hne
      · exact .inr ⟨e', p', rfl, hqp.symm, hnew⟩
    · subst hqp
      rcases update_timers h hl he with ⟨hold, -⟩ | ⟨heid, -⟩
      · exact .inl ⟨hold, hq, hid⟩
      · exact absurd (hid.trans heid) hqid

theorem flush_paired (h : b.Wf) (hp : b.flush.2.Paired e p) : b.Paired e p := by
  refine hp.of_subset ?_ ?_
  · rw [b.flush_rescheduled.timers]
    exact (flushTimers_matched h).2.subset
  · rw [b.flush_rescheduled.packets]
    exact (flushTimers_output b b.timers).1

theorem step_paired (h : b.Wf) (ev : Event α) (hp : (b.step ev).2.Paired e p) :
    b.Paired e p ∨ (∃ timeout allocator, ev = .add p timeout allocator ∧ e.timer = .after b.now timeout) ∨
      ∃ id timeout e' p', ev = .update id timeout ∧ b.lookup id = some (e', p') ∧ p = (b.reduce e'.timer p').2 ∧
        e.timer = .after b.now timeout := by
  cases ev with
  | add packet timeout allocator =>
    rcases add_paired h hp with hold | ⟨rfl, ht⟩
    · exact .inl hold
    · exact .inr (.inl ⟨timeout, allocator, rfl, ht⟩)
  | remove id => exact .inl ((b.remove_leaves id).paired hp)
  | update id timeout =>
    rcases update_paired h hp with hold | ⟨e', p', hl, hpe, ht⟩
    · exact .inl hold
    · exact .inr (.inr ⟨id, timeout, e', p', rfl, hl, hpe, ht⟩)
  | fetch id => exact .inl ((b.fetch_leaves id).paired hp)
  | fire =>
    rcases b.fire_cases with heq | ⟨c, runtime, -, ⟨-, heq⟩ | ⟨-, heq⟩⟩ <;> rw [heq] at hp
    · exact .inl hp
    · have hp' := flush_paired (b := { b with runtime }) h hp
      exact .inl ⟨hp'.timer, hp'.packet, hp'.id⟩
    · exact .inl ⟨hp.timer, hp.packet, hp.id⟩
  | outside what => exact .inl ⟨hp.timer, hp.packet, hp.id⟩

end CbfPacketBuffer

/-! ### What a packet is owed -/

section Owed

variable {α : Type} [BufferData α] [LifetimeData α] {x : Tracked α} {ref now : TimePoint}

/-- The header says no more than what was left of the initial lifetime when the packet was
buffered or its timer started. -/
structure Owed (x : Tracked α) (ref : TimePoint) : Prop where
  since : x.since ≤ ref
  left : (lifetime x).decode = 0 ∨ (lifetime x).decode ≤ x.initial.decode - ofClock (ref - x.since)

theorem Owed.start (data : α) (now : TimePoint) : Owed (Tracked.start data now) now := by
  refine ⟨le_rfl, .inr ?_⟩
  have hzero : ofClock (now - now) = 0 := by simp [ofClock]
  show (LifetimeData.lifetime data).decode ≤ (LifetimeData.lifetime data).decode - ofClock (now - now)
  rw [hzero, sub_zero]

theorem ofClock_nonneg {d : Duration} (h : 0 ≤ d) : 0 ≤ ofClock d := by
  unfold ofClock
  have hd : (0 : ℚ) ≤ (d : ℚ) := by exact_mod_cast h
  positivity

theorem ofClock_elapsed (since ref now : TimePoint) :
    ofClock (now - since) = ofClock (ref - since) + ofClock (now - ref) := by
  have h : now - since = (ref - since) - (ref - now) := by ring
  have h' : ref - now = -(now - ref) := by ring
  rw [h, Lifetime.ofClock_sub, h', ofClock, ofClock, ofClock]
  push_cast
  ring

theorem Owed.restart (h : Owed x ref) (href : ref ≤ now)
    (hraise : clockCast (lifetime x).decode ≤ now - ref ∨ (lifetime x).NotRaised (now - ref)) :
    Owed (reduceLifetime x (now - ref)).2 now := by
  refine ⟨h.since.trans href, ?_⟩
  rw [lifetime_reduceLifetime]
  show _ ∨ _ ≤ x.initial.decode - ofClock (now - x.since)
  have hq := ofClock_nonneg (sub_nonneg.mpr href)
  rcases hraise with hdead | hkept
  · -- the lifetime has run out
    left
    have hnonneg := clockCast_nonneg (lifetime x).decode_nonneg
    unfold Lifetime.reduce
    dsimp only
    split_ifs with h0 hlt
    · have hzero : clockCast (lifetime x).decode = 0 := le_antisymm (hdead.trans h0) hnonneg
      rw [← Lifetime.ofClock_clockCast_decode, hzero]
      norm_num [ofClock]
    · exact absurd hlt (not_lt.mpr hdead)
    · simp [Lifetime.zero, Lifetime.decode]
  · unfold Lifetime.NotRaised at hkept
    rcases h.left with hzero | hleft
    · left
      have hnew := ((lifetime x).reduce (now - ref)).2.decode_nonneg
      rw [hzero] at hkept
      linarith
    · right
      rw [ofClock_elapsed x.since ref now]
      linarith

structure Sighting where
  initial : Lifetime
  since : TimePoint
  written : Lifetime
  time : TimePoint
deriving DecidableEq, Repr

def Tracked.seen (now : TimePoint) (x : Tracked α) : Sighting := ⟨x.initial, x.since, lifetime x, now⟩

/-- The packet is given out within its lifetime, and its header says that it
has some left, and at most half a unit too much. -/
structure Sighting.Kept (g : Sighting) : Prop where
  within : ofClock (g.time - g.since) ≤ g.initial.decode
  positive : 0 < g.written.decode
  bound : g.written.decode ≤ g.initial.decode - ofClock (g.time - g.since) + g.written.base.unit / 2

theorem Owed.kept (h : Owed x ref) (href : ref ≤ now) (hlasts : (lifetime x).Lasts (now - ref)) :
    (Tracked.seen now (reduceLifetime x (now - ref)).2).Kept := by
  have hq := sub_nonneg.mpr href
  obtain ⟨hwithin, hpos, hbound⟩ := hlasts.reduce hq
  have hwritten : (Tracked.seen now (reduceLifetime x (now - ref)).2).written = ((lifetime x).reduce (now - ref)).2 :=
    lifetime_reduceLifetime x (now - ref)
  have hsum := ofClock_elapsed x.since ref now
  have hleft : (lifetime x).decode ≤ x.initial.decode - ofClock (ref - x.since) := by
    rcases h.left with hzero | hleft
    · -- a lifetime of zero does not last
      unfold Lifetime.Lasts at hlasts
      have hcast : clockCast (lifetime x).decode = 0 := by
        rw [hzero]
        norm_num [clockCast, truncate]
      rw [hcast, zero_sub] at hlasts
      exact absurd (hlasts.trans (neg_nonpos.mpr hq)) (by decide)
    · exact hleft
  refine ⟨?_, ?_, ?_⟩
  · show ofClock (now - x.since) ≤ x.initial.decode
    linarith
  · rw [hwritten]
    exact hpos
  · rw [hwritten]
    show _ ≤ x.initial.decode - ofClock (now - x.since) + _
    linarith

end Owed

/-! ### The buffers of a router -/

/-- The store-carry-forward buffer and the contention buffer, on one clock. -/
structure Carrier (κ : Type) where
  store : PacketBuffer (Tracked PendingPacket)
  contention : CbfPacketBuffer (Tracked CbfPacket) κ

namespace Carrier

/-- What happens to the buffers. A flush gives packets out, and greedy
forwarding may push some of them again. -/
inductive Event
  | push (packet : PendingPacket)
  | flush (again : ℕ → Bool)
  | contend (event : CbfPacketBuffer.Event CbfPacket)

def track (now : TimePoint) : CbfPacketBuffer.Event CbfPacket → CbfPacketBuffer.Event (Tracked CbfPacket)
  | .add packet timeout allocator => .add (.start packet now) timeout allocator
  | .remove id => .remove id
  | .update id timeout => .update id timeout
  | .fetch id => .fetch id
  | .fire => .fire
  | .outside what => .outside what

variable {κ : Type} [CbfCounter κ]

def now (s : Carrier κ) : TimePoint := s.contention.now

def picked {α : Type} (again : ℕ → Bool) (l : List α) : List α := (l.zipIdx.filter fun x => again x.2).map Prod.fst

def step (s : Carrier κ) : Event → List Sighting × Carrier κ
  | .push packet => ([], { s with store := (s.store.push (.start packet s.now) s.now).2 })
  | .flush again =>
    let taken := s.store.take s.now
    (taken.1.map (Tracked.seen s.now),
      { s with store := (picked again taken.1).foldl (fun b x => (b.push x s.now).2) taken.2 })
  | .contend event =>
    let r := s.contention.step (track s.now event)
    (r.1.packets.map (Tracked.seen s.now), { s with contention := r.2 })

def due (s : Carrier κ) : List (Expiry × Tracked PendingPacket) := s.store.nodes.filter fun n => !n.1.isExpired s.now

/-- A packet that is to be given out has 25 ms left, or none, and its lifetime is
not raised when it is put back or its timer is updated. -/
def Careful (s : Carrier κ) : Event → Prop
  | .push _ => True
  | .flush again => ∀ n ∈ s.due.zipIdx,
      (lifetime n.1.2).Lasts (s.now - n.1.1.bufferedSince) ∧
        (again n.2 = true → (lifetime n.1.2).NotRaised (s.now - n.1.1.bufferedSince))
  | .contend event =>
      (∀ e p, s.contention.Paired e p → s.contention.Serves e event →
        clockCast (lifetime p).decode ≤ s.now - e.timer.start ∨ (lifetime p).Lasts (s.now - e.timer.start)) ∧
      ∀ id timeout e p, event = .update id timeout → s.contention.lookup id = some (e, p) →
        clockCast (lifetime p).decode ≤ s.now - e.timer.start ∨ (lifetime p).NotRaised (s.now - e.timer.start)

/-- Every packet in the buffers is owed what its header says. -/
structure Sound (s : Carrier κ) : Prop where
  store : ∀ n ∈ s.store.nodes, n.1.bufferedSince ≤ s.now ∧ Owed n.2 n.1.bufferedSince
  wf : s.contention.Wf
  contention : ∀ e p, s.contention.Paired e p → e.timer.start ≤ s.now ∧ Owed p e.timer.start

/-! ### The store-carry-forward buffer -/

theorem owed_of_push {x : Tracked PendingPacket} {now : TimePoint} (h : Owed x now) :
    Owed (reduceLifetime x 0).2 now := by
  have hsame : (lifetime x).NotRaised 0 := by
    have hzero : ofClock 0 = 0 := by norm_num [ofClock]
    unfold Lifetime.NotRaised
    rw [hzero, sub_zero]
    exact le_rfl
  have hrestart := h.restart le_rfl (.inr (by rw [sub_self]; exact hsame))
  rwa [sub_self] at hrestart

variable {s : Carrier κ} {b : PacketBuffer (Tracked PendingPacket)} {t : TimePoint}

/-- What is stored was stored by `t`, with time left then. -/
def NodesOwed (b : PacketBuffer (Tracked PendingPacket)) (t : TimePoint) : Prop :=
  ∀ n ∈ b.nodes, n.1.bufferedSince ≤ t ∧ Owed n.2 n.1.bufferedSince

theorem NodesOwed.push (h : NodesOwed b t) {x : Tracked PendingPacket} (hx : Owed x t) :
    NodesOwed (b.push x t).2 t := by
  obtain ⟨kept, hsub, heq⟩ := b.push_nodes x t
  intro n hn
  rw [heq] at hn
  rcases mem_append.mp hn with hn | hn
  · exact h n (hsub.subset hn)
  · split_ifs at hn
    · rw [mem_singleton.mp hn]
      exact ⟨le_rfl, owed_of_push hx⟩
    · simp at hn

theorem NodesOwed.pushAll {xs : List (Tracked PendingPacket)} (hxs : ∀ x ∈ xs, Owed x t) (h : NodesOwed b t) :
    NodesOwed (xs.foldl (fun b x => (b.push x t).2) b) t := by
  induction xs generalizing b with
  | nil => exact h
  | cons x xs ih =>
    exact ih (fun y hy => hxs y (mem_cons_of_mem _ hy)) (h.push (hxs x mem_cons_self))

theorem mem_picked_map {α β : Type} {again : ℕ → Bool} {l : List α} {f : α → β} {y : β}
    (h : y ∈ picked again (l.map f)) : ∃ a i, (a, i) ∈ l.zipIdx ∧ again i = true ∧ y = f a := by
  obtain ⟨x, hx, rfl⟩ := mem_map.mp h
  obtain ⟨hmem, hagain⟩ := mem_filter.mp hx
  rw [zipIdx_map] at hmem
  obtain ⟨a, ha, rfl⟩ := mem_map.mp hmem
  exact ⟨a.1, a.2, ha, hagain, rfl⟩

/-! ### Runs -/

theorem Sound.flush (h : s.Sound) {again : ℕ → Bool} (hc : s.Careful (.flush again)) :
    (s.step (.flush again)).2.Sound := by
  refine ⟨?_, h.wf, h.contention⟩
  refine NodesOwed.pushAll (fun x hx => ?_) (by simp [NodesOwed, PacketBuffer.take])
  obtain ⟨n, i, hn, hagain, rfl⟩ := mem_picked_map hx
  have hmem : n ∈ s.store.nodes := (mem_filter.mp (fst_mem_of_mem_zipIdx hn)).1
  obtain ⟨hsince, howed⟩ := h.store n hmem
  exact howed.restart hsince (.inr ((hc (n, i) hn).2 hagain))

theorem Sound.contend (h : s.Sound) {event : CbfPacketBuffer.Event CbfPacket} (hc : s.Careful (.contend event)) :
    (s.step (.contend event)).2.Sound := by
  have hnow : s.now ≤ (s.step (.contend event)).2.now := (s.contention.step_frame (track s.now event)).2
  refine ⟨fun n hn => ?_, h.wf.step _, fun e p hp => ?_⟩
  · obtain ⟨hsince, howed⟩ := h.store n hn
    exact ⟨hsince.trans hnow, howed⟩
  · rcases CbfPacketBuffer.step_paired h.wf (track s.now event) hp with
      hold | ⟨timeout, allocator, hadd, ht⟩ | ⟨id, timeout, e', p', hupdate, hl, rfl, ht⟩
    · obtain ⟨hstart, howed⟩ := h.contention e p hold
      exact ⟨hstart.trans hnow, howed⟩
    · rw [ht]
      refine ⟨hnow, ?_⟩
      cases event with
      | add packet timeout' allocator' =>
        obtain ⟨rfl, -, -⟩ := CbfPacketBuffer.Event.add.inj hadd
        exact Owed.start packet s.now
      | _ => cases hadd
    · rw [ht]
      refine ⟨hnow, ?_⟩
      have hevent : event = .update id timeout := by
        cases event with
        | update id' timeout' =>
          obtain ⟨rfl, rfl⟩ := CbfPacketBuffer.Event.update.inj hupdate
          rfl
        | _ => cases hupdate
      obtain ⟨hmem, hid, hpm, hpid⟩ := CbfPacketBuffer.lookup_some hl
      obtain ⟨hstart, howed⟩ := h.contention e' p' ⟨hmem, hpm, hpid.trans hid.symm⟩
      exact howed.restart hstart (hc.2 id timeout e' p' hevent hl)

theorem Sound.step (h : s.Sound) {e : Event} (hc : s.Careful e) : (s.step e).2.Sound := by
  cases e with
  | push packet => exact ⟨NodesOwed.push h.store (Owed.start packet s.now), h.wf, h.contention⟩
  | flush again => exact h.flush hc
  | contend event => exact h.contend hc

theorem Sound.kept (h : s.Sound) {e : Event} (hc : s.Careful e) {g : Sighting} (hg : g ∈ (s.step e).1) : g.Kept := by
  cases e with
  | push packet => simp [Carrier.step] at hg
  | flush again =>
    obtain ⟨x, hx, rfl⟩ := mem_map.mp hg
    obtain ⟨n, hn, rfl⟩ := mem_map.mp hx
    obtain ⟨i, hi⟩ := mem_iff_getElem?.mp hn
    obtain ⟨hsince, howed⟩ := h.store n (mem_filter.mp hn).1
    exact howed.kept hsince (hc (n, i) (mem_zipIdx_iff_getElem?.mpr hi)).1
  | contend event =>
    obtain ⟨x, hx, rfl⟩ := mem_map.mp hg
    obtain ⟨e, p, hp, hserves, hpos, rfl⟩ := CbfPacketBuffer.step_output _ hx
    obtain ⟨hstart, howed⟩ := h.contention e p hp
    have hserves : s.contention.Serves e event := by
      cases event <;> exact hserves
    rcases hc.1 e p hp hserves with hdead | hlasts
    · rw [CbfPacketBuffer.reduce, remaining_reduceLifetime] at hpos
      exact absurd hpos (not_lt.mpr (Lifetime.reduce_nonpos hdead))
    · exact howed.kept hstart hlasts

/-- **Packets do not outlive their lifetime** in careful runs: no more of it has passed than there
was, and the header says a positive one of at most what is left plus half a unit. -/
theorem lifetime_kept (s₀ : Carrier κ)
    (hempty : s₀.store.nodes = [] ∧ s₀.contention.timers = [] ∧ s₀.contention.packets = [])
    (es : List Event) (e : Event)
    (hcareful : Along Carrier.step Careful s₀ (es ++ [e])) :
    ∀ g ∈ ((final Carrier.step s₀ es).step e).1, g.Kept := by
  obtain ⟨hes, he⟩ := (along_append _).mp hcareful
  have hwf : s₀.contention.Wf := (CbfPacketBuffer.recorded hempty.2 []).wf
  have h₀ : s₀.Sound := by
    refine ⟨fun n hn => ?_, hwf, fun x p hp => ?_⟩
    · simp [hempty.1] at hn
    · have := hp.timer
      simp [hempty.2.1] at this
  have hsound := along_invariant Carrier.step (I := Sound) (fun _ _ h hc => h.step hc) es s₀ h₀ hes
  exact fun g hg => hsound.kept he.1 hg

/-- Empty buffers at time zero. -/
def sample : Carrier CbfCounterContending where
  store := { capacity := 1000 }
  contention := CbfPacketBuffer.sampleBuffer (Tracked CbfPacket)

def wait (milliseconds : ℕ) : Event := .contend (.outside (.advance (milliseconds * 1000)))

theorem careful_wait (s : Carrier κ) (milliseconds : ℕ) : s.Careful (wait milliseconds) :=
  ⟨fun _ _ _ => False.elim, fun _ _ _ _ h => by simp at h⟩

/-- A packet of 60 s that is flushed and pushed again after one second, and
flushed after another. -/
theorem lifetime_kept_minute :
    let given := ((final Carrier.step sample [.push (CbfPacketBuffer.samplePacket 1 ⟨.oneSecond, 60⟩).packet, wait 1000,
      .flush fun _ => true, wait 1000]).step (.flush fun _ => false)).1
    given = [⟨⟨.oneSecond, 60⟩, 0, ⟨.oneSecond, 58⟩, 2000000⟩] ∧ ∀ g ∈ given, g.Kept := by
  refine ⟨by decide +kernel, ?_⟩
  refine lifetime_kept sample ⟨rfl, rfl, rfl⟩ _ _ ⟨trivial, careful_wait _ _, ?_, careful_wait _ _, ?_, trivial⟩
  · show ∀ n ∈ _, _
    decide +kernel
  · show ∀ n ∈ _, _
    decide +kernel

/-- **Rounding gives time back.** After 20 ms the 30 ms that remain are
rounded to 50 ms, so the packet is flushed after 60 ms with all of its
lifetime. -/
theorem lifetime_regained :
    ¬ ∀ (s₀ : Carrier CbfCounterContending),
      s₀.store.nodes = [] ∧ s₀.contention.timers = [] ∧ s₀.contention.packets = [] →
        ∀ (es : List Event) (e : Event), ∀ g ∈ ((final Carrier.step s₀ es).step e).1, g.Kept := by
  intro h
  have hkept := h sample ⟨rfl, rfl, rfl⟩
    [.push (CbfPacketBuffer.samplePacket 1 ⟨.fiftyMilliseconds, 1⟩).packet, wait 20, .flush fun _ => true, wait 20,
      .flush fun _ => true, wait 20]
    (.flush fun _ => true) ⟨⟨.fiftyMilliseconds, 1⟩, 0, ⟨.fiftyMilliseconds, 1⟩, 60000⟩ (by decide +kernel)
  exact absurd hkept.within (by decide +kernel)

end Carrier
end VanetzaIdf.Geonet
