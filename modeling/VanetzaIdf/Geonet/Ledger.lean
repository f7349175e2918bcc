/-
# Where a packet of this station is

A number is given out once, and stands for one packet at most, in the router's
hand or in the buffer, and not at the request interface as well (`Ledger`). A
packet that is in none of the three is gone for good (`Gone`). Both are read off
the acts of the router (`Act.books`).
-/
import VanetzaIdf.Geonet.Acts

namespace VanetzaIdf.Geonet.Router

open List

variable {S : Type} {env : Environment} {H H' : List ℕ}

def waitingNumbers (r : Router S) : List ℕ := numbersOf r.bcForwardBuffer.packets

/-- How often a number stands for a packet in hand or in the buffer. -/
def held (H : List ℕ) (r : Router S) (n : ℕ) : ℕ := H.count n + r.waitingNumbers.count n

theorem numbersOf_append (l l' : List PendingPacket) : numbersOf (l ++ l') = numbersOf l ++ numbersOf l' := by
  simp [numbersOf]

theorem numbersOf_sublist {l l' : List PendingPacket} (h : l.Sublist l') : (numbersOf l).Sublist (numbersOf l') :=
  (h.filter _).map _

theorem numbersOf_reduced (f : Expiry × PendingPacket → Duration) : ∀ l : List (Expiry × PendingPacket),
    numbersOf (l.map fun x => (BufferData.reduceLifetime x.2 (f x)).2) = numbersOf (l.map Prod.snd)
  | [] => rfl
  | x :: l => by
    obtain ⟨lt, hl⟩ := x.2.reduceLifetime_cases (f x)
    have ih := numbersOf_reduced f l
    rw [map_cons, map_cons, hl]
    cases ho : x.2.action.own with
    | true => rw [numbersOf_own (p := x.2.withLifetime lt) ho, numbersOf_own ho, ih]; rfl
    | false => rw [numbersOf_other (p := x.2.withLifetime lt) ho, numbersOf_other ho, ih]

variable (b : PacketBuffer PendingPacket) (now : TimePoint)

theorem numbersOf_take :
    numbersOf (b.take now).1 = numbersOf ((b.nodes.filter fun x => !x.1.isExpired now).map Prod.snd) :=
  numbersOf_reduced (fun x => now - x.1.bufferedSince) _

theorem numbersOf_take_sublist : (numbersOf (b.take now).1).Sublist (numbersOf b.packets) := by
  rw [numbersOf_take]
  exact numbersOf_sublist (filter_sublist.map _)

theorem count_store (r : Router S) (p : PendingPacket) (n : ℕ) :
    (r.store p).waitingNumbers.count n ≤ r.waitingNumbers.count n + (numbersOf [p]).count n := by
  obtain ⟨kept, hsub, he⟩ := r.bcForwardBuffer.push_packets p r.runtime.now
  have hkept := (numbersOf_sublist hsub).count_le n
  have hst : (r.store p).waitingNumbers = numbersOf (r.bcForwardBuffer.push p r.runtime.now).2.packets := rfl
  rw [hst, he, numbersOf_append, count_append]
  refine add_le_add hkept ?_
  split_ifs
  · exact (congrArg (List.count n) (numbersOf_reduced (fun _ => 0) [(⟨0, 0⟩, p)])).le
  · exact Nat.zero_le _

/-- Each number stands for one packet at most, was given out, and was not
sent. -/
structure Ledger (H : List ℕ) (r : Router S) : Prop where
  once : ∀ n, held H r n ≤ 1
  given : ∀ n, 0 < held H r n → n < r.nextNumber
  unsent : ∀ n, 0 < held H r n → ∀ d ∈ r.requests, d.origin ≠ .request n
  sent : ∀ d ∈ r.requests, ∀ n, d.origin = .request n → n < r.nextNumber

/-- Neither in hand, nor in the buffer, nor sent. -/
structure Gone (n : ℕ) (H : List ℕ) (r : Router S) : Prop where
  nowhere : held H r n = 0
  given : n < r.nextNumber
  unsent : ∀ d ∈ r.requests, d.origin ≠ .request n

variable {r r' : Router S} {n : ℕ}

theorem ledger_nil (hb : r.bcForwardBuffer.nodes = []) (hr : r.requests = []) : Ledger [] r := by
  have h0 : ∀ n, held [] r n = 0 := fun n => by simp [held, waitingNumbers, PacketBuffer.packets, hb, numbersOf]
  exact ⟨fun n => by simp [h0], fun n h => by simp [h0] at h, fun n h => by simp [h0] at h,
    fun d hd => by simp [hr] at hd⟩

theorem held_nil : held [] r n = 0 ↔ n ∉ r.waitingNumbers := by
  unfold held
  rw [count_nil, Nat.zero_add]
  exact count_eq_zero

variable [SecurityEntity S]

/-- **The books.** An act moves or drops numbers, gives out the next one, or
sends a packet: an own one from the hand, a beacon, or one of another
station. -/
theorem Act.books (h : Act env H r H' r') :
    ((∀ n, held H' r' n ≤ held H r n) ∧ r'.nextNumber = r.nextNumber ∧ r'.requests = r.requests) ∨
    ((∀ n, held H' r' n = held H r n + if r.nextNumber = n then 1 else 0) ∧ r'.nextNumber = r.nextNumber + 1 ∧
      r'.requests = r.requests) ∨
    ∃ d, (∀ n, held H r n = held H' r' n + if d.origin = .request n then 1 else 0) ∧
      r'.nextNumber = r.nextNumber ∧ r'.requests = d :: r.requests := by
  have hcons : ∀ (k : ℕ) (K : List ℕ) (n : ℕ), held (k :: K) r n = held K r n + if k = n then 1 else 0 := by
    intro k K n
    unfold held
    rw [count_cons]
    simp only [beq_iff_eq]
    omega
  have huses : ∀ {o : Origin}, Uses H H' o → ∀ n, held H r n = held H' r n + if o = .request n then 1 else 0 := by
    rintro o (⟨rfl, rfl⟩ | ⟨k, rfl, rfl⟩) n
    · simp
    · simp [hcons]
  cases h with
  | quiet _ _ _ _ hb hr hn =>
    refine .inl ⟨fun n => ?_, hn, hr⟩
    unfold held waitingNumbers
    rw [hb]
  | numbered => exact .inr (.inl ⟨hcons _ H, rfl, rfl⟩)
  | givenUp k => exact .inl ⟨fun n => by rw [hcons]; exact Nat.le_add_right _ _, rfl, rfl⟩
  | reset | repetition | readdressed | refused => exact .inl ⟨fun _ => le_rfl, rfl, rfl⟩
  | signed _ _ _ d _ _ _ _ _ _ _ hu | plain d _ _ hu => exact .inr (.inr ⟨d, huses hu, rfl, rfl⟩)
  | forwarded d ho => exact .inr (.inr ⟨d, fun n => by simp [ho]; rfl, rfl, rfl⟩)
  | stored p ho =>
    refine .inl ⟨fun n => ?_, rfl, rfl⟩
    have hk := r.count_store p n
    rw [numbersOf_own ho] at hk
    unfold held
    rw [count_cons] at hk ⊢
    simp only [numbersOf, filter_nil, map_nil, count_nil] at hk
    omega
  | storedOther p ho =>
    refine .inl ⟨fun n => ?_, rfl, rfl⟩
    have hk := r.count_store p n
    rw [numbersOf_other ho] at hk
    exact Nat.add_le_add_left hk _
  | taken =>
    refine .inl ⟨fun n => ?_, rfl, rfl⟩
    have hk := (numbersOf_take_sublist r.bcForwardBuffer r.runtime.now).count_le n
    unfold held waitingNumbers
    rw [count_append, PacketBuffer.take_packets]
    simp only [numbersOf, filter_nil, map_nil, count_nil] at hk ⊢
    omega

/-! ### The ledger -/

theorem ledger_act (hl : Ledger H r) (h : Act env H r H' r') : Ledger H' r' := by
  rcases h.books with ⟨hle, hn, hr⟩ | ⟨hheld, hn, hr⟩ | ⟨d, hheld, hn, hr⟩
  · refine ⟨fun n => (hle n).trans (hl.once n), fun n h0 => ?_, fun n h0 => ?_, ?_⟩
    · rw [hn]
      exact hl.given n (h0.trans_le (hle n))
    · rw [hr]
      exact hl.unsent n (h0.trans_le (hle n))
    · rw [hr, hn]
      exact hl.sent
  · -- the new number is above all the others
    have hnew : held H r r.nextNumber = 0 := by
      by_contra h0
      exact lt_irrefl _ (hl.given _ (Nat.pos_of_ne_zero h0))
    refine ⟨fun n => ?_, fun n h0 => ?_, fun n h0 d hd ho => ?_, fun d hd n ho => ?_⟩
    · rw [hheld]
      split_ifs with he
      · rw [← he, hnew]
      · exact hl.once n
    · rw [hn]
      rw [hheld] at h0
      split_ifs at h0 with he
      · omega
      · exact Nat.lt_succ_of_lt (hl.given n h0)
    · rw [hr] at hd
      rw [hheld] at h0
      split_ifs at h0 with he
      · have := hl.sent d hd n ho
        omega
      · exact hl.unsent n h0 d hd ho
    · rw [hr] at hd
      rw [hn]
      exact Nat.lt_succ_of_lt (hl.sent d hd n ho)
  · -- a packet that is sent leaves the hand
    have hle : ∀ n, held H' r' n ≤ held H r n := fun n => hheld n ▸ Nat.le_add_right _ _
    have hsent : ∀ n, d.origin = .request n → held H r n = held H' r' n + 1 := fun n ho => by rw [hheld, if_pos ho]
    refine ⟨fun n => (hle n).trans (hl.once n), fun n h0 => ?_, fun n h0 d' hd' ho => ?_, fun d' hd' n ho => ?_⟩
    · rw [hn]
      exact hl.given n (h0.trans_le (hle n))
    · rw [hr] at hd'
      rcases mem_cons.mp hd' with rfl | hd'
      · have := hsent n ho
        have := hl.once n
        omega
      · exact hl.unsent n (h0.trans_le (hle n)) d' hd' ho
    · rw [hn]
      rw [hr] at hd'
      rcases mem_cons.mp hd' with rfl | hd'
      · exact hl.given n (by rw [hsent n ho]; exact Nat.succ_pos _)
      · exact hl.sent d' hd' n ho

theorem gone_act (hg : Gone n H r) (h : Act env H r H' r') : Gone n H' r' := by
  have h0 := hg.nowhere
  rcases h.books with ⟨hle, hn, hr⟩ | ⟨hheld, hn, hr⟩ | ⟨d, hheld, hn, hr⟩
  · exact ⟨Nat.le_zero.mp (h0 ▸ hle n), by rw [hn]; exact hg.given, by rw [hr]; exact hg.unsent⟩
  · refine ⟨?_, by rw [hn]; exact Nat.lt_succ_of_lt hg.given, by rw [hr]; exact hg.unsent⟩
    rw [hheld, h0, if_neg hg.given.ne']
  · rw [hheld] at h0
    obtain ⟨hnone, hother⟩ := Nat.add_eq_zero_iff.mp h0
    refine ⟨hnone, by rw [hn]; exact hg.given, fun d' hd' ho => ?_⟩
    rw [hr] at hd'
    rcases mem_cons.mp hd' with rfl | hd'
    · simp [ho] at hother
    · exact hg.unsent d' hd' ho

theorem wf_act (hw : r.bcForwardBuffer.Wf) (h : Act env H r H' r') : r'.bcForwardBuffer.Wf := by
  cases h with
  | quiet _ _ _ _ hb _ _ => exact hb ▸ hw
  | stored p | storedOther p => exact hw.push p r.runtime.now
  | taken => exact .take r.bcForwardBuffer r.runtime.now
  | _ => exact hw

theorem wf_acts (hw : r.bcForwardBuffer.Wf) (h : Acts env H r H' r') : r'.bcForwardBuffer.Wf :=
  h.invariant (I := fun _ u => u.bcForwardBuffer.Wf) hw fun hu ha => wf_act hu ha

theorem nextNumber_acts (h : Acts env H r H' r') : r.nextNumber ≤ r'.nextNumber := by
  refine h.invariant (I := fun _ u => r.nextNumber ≤ u.nextNumber) le_rfl fun hu ha => hu.trans ?_
  rcases ha.books with ⟨-, hn, -⟩ | ⟨-, hn, -⟩ | ⟨d, -, hn, -⟩ <;> omega

theorem ledger_acts (hl : Ledger H r) (h : Acts env H r H' r') : Ledger H' r' :=
  h.invariant hl fun hu ha => ledger_act hu ha

theorem gone_acts (hg : Gone n H r) (h : Acts env H r H' r') : Gone n H' r' :=
  h.invariant hg fun hu ha => gone_act hu ha

end VanetzaIdf.Geonet.Router
