/-
# What becomes of a requested packet

Gatekeeping: a packet is to be handed over only if the rate control asks for no
delay. A trigger sends whatever is next without asking again, so that the gate
is kept in some runs (`gatekeeping_iff`) and not in others (`gate_passed`).

Accounts: every requested packet is handed over, reported to the drop hook or
queued, once (`packets_accounted`). Where a packet comes to a full queue, the
first one goes and the new one is reported (`wrong_packet_reported`).
-/
import VanetzaIdf.Dcc.FlowControl
import VanetzaIdf.Lib.Family
import VanetzaIdf.Lib.Machine

namespace VanetzaIdf.Dcc.FlowControl

open Lib Option

variable {τ : Type} {trc : TransmitRateControl τ} {fc : FlowControl τ}

/-! ### Effects of the operations -/

variable {fx : Effect} {limit : ℕ} {ac : AccessCategory} {p : Packet} {q : List PendingTransmission}
  {l l' : List Effect}

theorem dropExpired_effect (h : fx ∈ fc.dropExpired.1) : ∃ ac p, fx = .dropHook ac p := by
  obtain ⟨ac, -, hac⟩ := List.mem_flatMap.mp h
  obtain ⟨tx, -, rfl⟩ := List.mem_map.mp hac
  exact ⟨ac, tx.packet, rfl⟩

theorem popFull_effect (h : fx ∈ (popFull limit ac p q).1) : fx = .dropHook ac p := by
  induction q with
  | nil => simp [popFull] at h
  | cons tx q ih =>
    unfold popFull at h
    split_ifs at h
    · rcases List.mem_cons.mp h with rfl | h
      · rfl
      · exact ih h
    · simp at h

theorem dequeue_fst (trc : TransmitRateControl τ) (fc : FlowControl τ) :
    (fc.dequeue trc).1 = fc.nextTransmission trc := by
  unfold dequeue nextTransmission
  cases fc.nextQueue trc with
  | none | some => rfl

/-! ### The next packet -/

/-- The loop of `next_queue` ends with the smallest delay it came by or started with, and a queue
whose first packet has it, unless it is the one to start with. -/
theorem foldl_consider (trc : TransmitRateControl τ) (fc : FlowControl τ) : ∀ (l : List AccessCategory) (best),
    (l.foldl (fc.consider trc) best).2 ≤ best.2 ∧
    (∀ ac ∈ l, ∀ tx, (fc.queues ac).head? = some tx → (l.foldl (fc.consider trc) best).2 ≤
      fc.delay trc tx.transmission) ∧
    (l.foldl (fc.consider trc) best = best ∨ ∃ ac tx, (fc.queues ac).head? = some tx ∧
      fc.delay trc tx.transmission < best.2 ∧ l.foldl (fc.consider trc) best = (some ac, fc.delay trc tx.transmission))
  | [], best => ⟨le_rfl, nofun, .inl rfl⟩
  | ac :: l, best => by
    obtain ⟨hle, hall, hfound⟩ := foldl_consider trc fc l (fc.consider trc best ac)
    rw [List.foldl_cons]
    cases hq : fc.queues ac with
    | nil =>
      have hskip : fc.consider trc best ac = best := by rw [consider, hq]
      rw [hskip] at hle hall hfound ⊢
      refine ⟨hle, List.forall_mem_cons.mpr ⟨fun tx htx => ?_, hall⟩, hfound⟩
      rw [hq] at htx
      cases htx
    | cons first q =>
      have hhead : (fc.queues ac).head? = some first := by rw [hq, List.head?_cons]
      by_cases hlt : fc.delay trc first.transmission < best.2
      · have htake : fc.consider trc best ac = (some ac, fc.delay trc first.transmission) := by
          rw [consider, hq]
          exact if_pos hlt
        rw [htake] at hle hall hfound ⊢
        refine ⟨hle.trans hlt.le, List.forall_mem_cons.mpr ⟨fun tx htx => ?_, hall⟩, ?_⟩
        · obtain rfl := some.inj (hhead.symm.trans htx)
          exact hle
        · rcases hfound with heq | ⟨ac', tx, htx, hless, heq⟩
          · exact .inr ⟨ac, first, hhead, hlt, heq⟩
          · exact .inr ⟨ac', tx, htx, hless.trans hlt, heq⟩
      · have hkeep : fc.consider trc best ac = best := by
          rw [consider, hq]
          exact if_neg hlt
        rw [hkeep] at hle hall hfound ⊢
        refine ⟨hle, List.forall_mem_cons.mpr ⟨fun tx htx => ?_, hall⟩, hfound⟩
        obtain rfl := some.inj (hhead.symm.trans htx)
        exact hle.trans (not_lt.mp hlt)

/-- The next queue is one whose first packet has the smallest delay; there is
none exactly if every first packet asks for the longest duration. -/
theorem nextQueue_cases (trc : TransmitRateControl τ) (fc : FlowControl τ) :
    (fc.nextQueue trc = none ∧ ∀ ac tx, (fc.queues ac).head? = some tx → maxDuration ≤ fc.delay trc tx.transmission) ∨
    ∃ ac tx, fc.nextQueue trc = some ac ∧ (fc.queues ac).head? = some tx ∧ fc.delay trc tx.transmission < maxDuration ∧
      ∀ ac' tx', (fc.queues ac').head? = some tx' → fc.delay trc tx.transmission ≤ fc.delay trc tx'.transmission := by
  obtain ⟨-, hall, hfound⟩ := foldl_consider trc fc AccessCategory.order (none, maxDuration)
  rcases hfound with heq | ⟨ac, tx, htx, hlt, heq⟩
  · rw [heq] at hall
    exact .inl ⟨congrArg Prod.fst heq, fun ac => hall ac ac.mem_order⟩
  · rw [heq] at hall
    exact .inr ⟨ac, tx, congrArg Prod.fst heq, htx, hlt, fun ac' => hall ac' ac'.mem_order⟩

/-! ### Gatekeeping -/

variable (effects : List Effect)

/-- The packets handed to the access interface were to be sent without
delay. -/
def Gated : Prop := ∀ r p d, Effect.access r p d ∈ effects → d = 0

/-- The first packet of a queue that has not expired. -/
def first (fc : FlowControl τ) (ac : AccessCategory) : Option PendingTransmission :=
  (fc.queues ac).find? fun tx => !PendingTransmission.isExpired fc.now tx

/-- When a trigger of flow control is due, the smallest delay that the rate
control asks for the first packets of the queues is zero, unless it asks for
the longest duration for each of them. -/
def Ready (trc : TransmitRateControl τ) (fc : FlowControl τ) : Event τ → Prop
  | .fire => (∃ c runtime, fc.runtime.pop = some (c, runtime) ∧ c.callback = .self) →
      ∀ ac tx, fc.first ac = some tx → fc.delay trc tx.transmission < maxDuration →
        (∀ ac' tx', fc.first ac' = some tx' → fc.delay trc tx.transmission ≤ fc.delay trc tx'.transmission) →
        fc.delay trc tx.transmission = 0
  | _ => True

theorem gated_dropExpired (fc : FlowControl τ) : Gated fc.dropExpired.1 := by
  intro r p d h
  obtain ⟨ac, q, hq⟩ := dropExpired_effect h
  cases hq

theorem gated_append : Gated (l ++ l') ↔ Gated l ∧ Gated l' := by
  simp only [Gated, List.mem_append]
  constructor
  · exact fun h => ⟨fun r p d hm => h r p d (.inl hm), fun r p d hm => h r p d (.inr hm)⟩
  · rintro ⟨h, h'⟩ r p d (hm | hm)
    · exact h r p d hm
    · exact h' r p d hm

theorem gated_send (tx : Transmission) (r : DataRequest) (p : Packet) :
    Gated (fc.send trc tx r p).1 ↔ fc.delay trc tx = 0 := by
  constructor
  · exact fun h => h r.access p _ (by simp [send])
  · intro h r' p' d hm
    rw [send, List.mem_pair] at hm
    rcases hm with hm | hm
    · cases hm
    · obtain ⟨-, -, rfl⟩ := Effect.access.inj hm
      exact h

theorem gated_request (trc : TransmitRateControl τ) (fc : FlowControl τ) (r : DataRequest) (p : Packet) :
    Gated (fc.request trc r p).1 := by
  unfold request
  refine gated_append.mpr ⟨gated_dropExpired fc, ?_⟩
  split_ifs with h
  · have hdelay := (Bool.and_eq_true _ _ ▸ h).2
    exact (gated_send _ _ _).mpr (of_decide_eq_true hdelay)
  · intro r' p' d hm
    have hdrop := popFull_effect hm
    cases hdrop

theorem gated_trigger (trc : TransmitRateControl τ) (fc : FlowControl τ) :
    Gated (fc.trigger trc).1 ↔
      ∀ tx, fc.dropExpired.2.nextTransmission trc = some tx → fc.delay trc tx.transmission = 0 := by
  unfold trigger
  dsimp only
  rw [dequeue_fst]
  cases hnext : fc.dropExpired.2.nextTransmission trc with
  | none => exact ⟨fun _ _ htx => (by cases htx), fun _ => gated_dropExpired fc⟩
  | some tx =>
    have hdelay : (fc.dropExpired.2.dequeue trc).2.delay trc tx.transmission = fc.delay trc tx.transmission := by
      unfold dequeue
      split <;> rfl
    rw [gated_append, gated_send, hdelay]
    constructor
    · rintro ⟨-, h⟩ tx' htx'
      obtain rfl := some.inj htx'
      exact h
    · exact fun h => ⟨gated_dropExpired fc, h tx rfl⟩

theorem gated_trigger_iff (trc : TransmitRateControl τ) (fc : FlowControl τ) :
    Gated (fc.trigger trc).1 ↔ ∀ ac tx, fc.first ac = some tx → fc.delay trc tx.transmission < maxDuration →
      (∀ ac' tx', fc.first ac' = some tx' → fc.delay trc tx.transmission ≤ fc.delay trc tx'.transmission) →
      fc.delay trc tx.transmission = 0 := by
  have hfirst : ∀ ac, (fc.dropExpired.2.queues ac).head? = fc.first ac := fun ac => List.head?_filter ..
  rw [gated_trigger]
  rcases nextQueue_cases trc fc.dropExpired.2 with ⟨hnone, hall⟩ | ⟨ac, tx, hac, htx, hlt, hleast⟩
  · refine iff_of_true (fun tx htx => ?_) fun ac tx htx hlt _ => ?_
    · rw [nextTransmission, hnone] at htx
      cases htx
    · exact absurd hlt (not_lt.mpr (hall ac tx (by rw [hfirst, htx])))
  · have hnext : fc.dropExpired.2.nextTransmission trc = some tx := by
      rw [nextTransmission, hac, bind_some, htx]
    rw [hfirst] at htx
    simp only [hfirst] at hleast
    constructor
    · intro h ac' tx' htx' _ hleast'
      have hzero := h tx hnext
      exact le_antisymm ((hleast' ac tx htx).trans_eq hzero) (hzero.symm.trans_le (hleast ac' tx' htx'))
    · intro h tx' htx'
      obtain rfl := some.inj (hnext.symm.trans htx')
      exact h ac tx htx hlt hleast

theorem gated_step (trc : TransmitRateControl τ) (fc : FlowControl τ) (e : Event τ) :
    Gated (fc.step trc e).1 ↔ fc.Ready trc e := by
  have hnothing : Gated [] := fun _ _ _ h => absurd h List.not_mem_nil
  cases e with
  | request r p => exact iff_of_true (gated_request trc fc r p) trivial
  | fire =>
    unfold step Ready
    dsimp only
    cases hpop : fc.runtime.pop with
    | none => exact iff_of_true hnothing fun ⟨_, _, h, _⟩ => by cases h
    | some popped =>
      obtain ⟨c, runtime⟩ := popped
      have hnow : runtime.now = fc.runtime.now := (ManualRuntime.pop_some hpop).2.2
      dsimp only
      split_ifs with hc
      · rw [gated_trigger_iff]
        simp only [first, delay, now, hnow]
        exact ⟨fun h _ => h, fun h => h ⟨c, runtime, rfl, hc⟩⟩
      · refine iff_of_true hnothing fun ⟨c', runtime', heq, hc'⟩ => ?_
        obtain ⟨rfl, -⟩ := Prod.mk.inj (some.inj heq)
        exact absurd hc' hc
  | _ => exact iff_of_true hnothing trivial

/-- **The gate is kept** in a run exactly if at every trigger the smallest delay
among the packets that are first is zero. -/
theorem gatekeeping_iff (trc : TransmitRateControl τ) (fc : FlowControl τ) (es : List (Event τ)) :
    Gated (outputs (step trc) fc es).flatten ↔ Along (step trc) (Ready trc) fc es := by
  induction es generalizing fc with
  | nil => exact iff_of_true (fun _ _ _ h => absurd h List.not_mem_nil) trivial
  | cons e es ih =>
    rw [outputs, List.flatten_cons, gated_append, gated_step, ih]
    rfl

/-- A rate control that keeps an interval between transmissions: the state is
the time of the last one. -/
def sampleTrc (interval : Duration) : TransmitRateControl (Option TimePoint) where
  delay last now _ := last.elim 0 fun t => max 0 (t + interval - now)
  notify _ now _ := some now

def sampleFlowControl : FlowControl (Option TimePoint) where
  rate := none
  runtime := { now := 0 }

/-- A request that lasts ten seconds, with a packet of this identity. -/
def sampleRequest (profile : Geonet.DccProfile) (identity : ℕ) : Event (Option TimePoint) :=
  .request { dccProfile := profile, lifetime := seconds 10 } ⟨identity, []⟩

/-- A trigger for the second of two packets, 100 ms after the first. -/
theorem gatekeeping_iff_trigger :
    let es := [sampleRequest .dp3 1, sampleRequest .dp3 2, .outside (.advance 100000), .fire]
    (outputs (step (sampleTrc 100000)) sampleFlowControl es).flatten.length = 4 ∧
      Gated (outputs (step (sampleTrc 100000)) sampleFlowControl es).flatten := by
  refine ⟨by decide +kernel, (gatekeeping_iff _ _ _).mpr ⟨trivial, trivial, trivial,
    fun _ ac tx htx _ _ => ?_, trivial⟩⟩
  cases ac <;> cases htx
  decide +kernel

/-- **A trigger does not ask again.** A packet of higher priority goes out at once, and right
after it the trigger sends one that waits, though 100 ms are to be kept again. -/
theorem gate_passed :
    ¬ ∀ (τ : Type) (trc : TransmitRateControl τ) (rate : τ) (now : TimePoint) (es : List (Event τ)) (e : Event τ),
      Gated ((final (step trc) { rate, runtime := { now } } es).step trc e).1 := by
  intro h
  have hgated := h (Option TimePoint) (sampleTrc 100000) none 0
    [sampleRequest .dp3 1, sampleRequest .dp3 2, .outside (.advance 100000), sampleRequest .dp0 3] .fire
  have hdelay := hgated ⟨Vector.replicate 6 0, Vector.replicate 6 0, 0, .bk⟩ ⟨2, []⟩ 100000 (by decide +kernel)
  exact absurd hdelay (by decide)

/-! ### Accounts -/

def handed : List Packet :=
  effects.filterMap fun | .access _ p _ => some p | _ => none

def reported : List Packet :=
  effects.filterMap fun | .transmitHook _ p => some p | _ => none

def dropped : List Packet :=
  effects.filterMap fun | .dropHook _ p => some p | _ => none

def queued (fc : FlowControl τ) : List Packet := (AccessCategory.order.flatMap fc.queues).map (·.packet)

def requested (es : List (Event τ)) : List Packet :=
  es.filterMap fun | .request _ p => some p | _ => none

theorem handed_append (l l' : List Effect) : handed (l ++ l') = handed l ++ handed l' := List.filterMap_append

theorem reported_append (l l' : List Effect) : reported (l ++ l') = reported l ++ reported l' := List.filterMap_append

theorem dropped_append (l l' : List Effect) : dropped (l ++ l') = dropped l ++ dropped l' := List.filterMap_append

/-- What comes in or was queued is handed over, dropped or queued, and the transmit hook is told
of what is handed over. -/
structure Accounts (incoming : List Packet) (fc : FlowControl τ) (effects : List Effect)
    (fc' : FlowControl τ) : Prop where
  balance : (incoming ++ fc.queued).Perm (handed effects ++ dropped effects ++ fc'.queued)
  hooks : reported effects = handed effects

theorem Accounts.trans {incoming incoming' : List Packet} {fc₁ fc₂ fc₃ : FlowControl τ}
    (h : Accounts incoming fc₁ l fc₂) (h' : Accounts incoming' fc₂ l' fc₃) :
    Accounts (incoming ++ incoming') fc₁ (l ++ l') fc₃ := by
  refine ⟨List.perm_iff_count.mpr fun p => ?_, by rw [reported_append, handed_append, h.hooks, h'.hooks]⟩
  have h₁ := h.balance.count_eq p
  have h₂ := h'.balance.count_eq p
  simp only [handed_append, dropped_append, List.count_append] at h₁ h₂ ⊢
  omega

theorem accounts_of_queues {fc' : FlowControl τ} (h : fc'.queues = fc.queues) : Accounts [] fc [] fc' := by
  refine ⟨?_, rfl⟩
  unfold queued
  rw [h]
  exact List.Perm.refl _

theorem queued_update (fc : FlowControl τ) (ac : AccessCategory) {a q : List PendingTransmission}
    (h : (fc.queues ac).Perm (a ++ q)) :
    fc.queued.Perm (a.map (·.packet) ++ queued { fc with queues := Function.update fc.queues ac q }) := by
  unfold queued
  rw [← List.map_append]
  exact (flatMap_update_perm AccessCategory.nodup_order ac.mem_order h).map _

theorem accounts_dropExpired (fc : FlowControl τ) : Accounts [] fc fc.dropExpired.1 fc.dropExpired.2 := by
  have hsplit : ∀ (ac : AccessCategory) (p : Packet), ((fc.queues ac).map (·.packet)).count p =
      (((fc.queues ac).filter (PendingTransmission.isExpired fc.now)).map (·.packet)).count p +
        (((fc.queues ac).filter fun tx => !PendingTransmission.isExpired fc.now tx).map (·.packet)).count p := by
    intro ac p
    rw [← List.count_append, ← List.map_append]
    exact ((List.filter_append_perm _ _).map _).symm.count_eq p
  have hdropped : dropped fc.dropExpired.1 =
      (AccessCategory.order.flatMap fun ac => (fc.queues ac).filter (PendingTransmission.isExpired fc.now)).map
        (·.packet) := by
    simp [dropped, dropExpired, List.filterMap_flatMap, List.filterMap_map, List.map_flatMap]
  have hnone : handed fc.dropExpired.1 = [] ∧ reported fc.dropExpired.1 = [] := by
    simp [handed, reported, dropExpired, List.filterMap_flatMap, List.filterMap_map]
  refine ⟨List.perm_iff_count.mpr fun p => ?_, hnone.2.trans hnone.1.symm⟩
  rw [hdropped, hnone.1]
  simp only [queued, dropExpired, AccessCategory.order, List.flatMap_cons, List.flatMap_nil, List.append_nil,
    List.nil_append, List.map_append, List.count_append, hsplit]
  omega

theorem accounts_send (tx : Transmission) (r : DataRequest) (p : Packet) :
    Accounts [p] fc (fc.send trc tx r p).1 (fc.send trc tx r p).2 := ⟨List.Perm.refl _, rfl⟩

/-! ### Queues with room -/

/-- A length of zero stands for no limit. -/
def HasRoom (fc : FlowControl τ) (ac : AccessCategory) : Prop :=
  fc.queueLength = 0 ∨ (fc.queues ac).length < fc.queueLength

theorem popFull_of_room (h : limit = 0 ∨ q.length < limit) : popFull limit ac p q = ([], q) := by
  cases q with
  | nil => rfl
  | cons tx q =>
    unfold popFull
    rw [if_neg]
    omega

theorem accounts_enqueue {r : DataRequest} (h : fc.HasRoom (mapProfileOntoAc r.dccProfile)) :
    Accounts [p] fc (fc.enqueue trc r p).1 (fc.enqueue trc r p).2 := by
  have hpop : popFull fc.queueLength (mapProfileOntoAc r.dccProfile) p (fc.queues (mapProfileOntoAc r.dccProfile)) =
      ([], fc.queues (mapProfileOntoAc r.dccProfile)) := popFull_of_room h
  have hqueues : (fc.enqueue trc r p).2.queues = Function.update fc.queues (mapProfileOntoAc r.dccProfile)
      (fc.queues (mapProfileOntoAc r.dccProfile) ++ [⟨fc.now + r.lifetime, r, p⟩]) := by
    simp only [enqueue, hpop]
    split_ifs <;> rfl
  have heffects : (fc.enqueue trc r p).1 = [] := by
    simp only [enqueue, hpop]
  -- without the new packet the queue is what it was
  have hnew := queued_update (fc.enqueue trc r p).2 (mapProfileOntoAc r.dccProfile)
    (a := [⟨fc.now + r.lifetime, r, p⟩]) (q := fc.queues (mapProfileOntoAc r.dccProfile))
    (by rw [hqueues, Function.update_self]; exact List.perm_append_comm)
  have hold : queued { (fc.enqueue trc r p).2 with
      queues := Function.update (fc.enqueue trc r p).2.queues (mapProfileOntoAc r.dccProfile)
        (fc.queues (mapProfileOntoAc r.dccProfile)) } = fc.queued := by
    unfold queued
    dsimp only
    rw [hqueues, Function.update_idem, Function.update_eq_self]
  rw [hold] at hnew
  rw [heffects]
  exact ⟨hnew.symm, rfl⟩

theorem dequeue_queued (trc : TransmitRateControl τ) (fc : FlowControl τ) :
    fc.queued.Perm ((fc.dequeue trc).1.toList.map (·.packet) ++ (fc.dequeue trc).2.queued) := by
  unfold dequeue
  cases fc.nextQueue trc with
  | none => exact List.Perm.refl _
  | some ac =>
    have hsplit : (fc.queues ac).Perm ((fc.queues ac).head?.toList ++ (fc.queues ac).tail) := by
      cases fc.queues ac <;> exact List.Perm.refl _
    exact queued_update fc ac hsplit

theorem scheduleNext_queues (trc : TransmitRateControl τ) (fc : FlowControl τ) :
    (fc.scheduleNext trc).queues = fc.queues := by
  unfold scheduleNext
  split <;> rfl

theorem scheduleNext_queued (trc : TransmitRateControl τ) (fc : FlowControl τ) :
    (fc.scheduleNext trc).queued = fc.queued := by
  unfold queued
  rw [scheduleNext_queues]

theorem accounts_trigger (trc : TransmitRateControl τ) (fc : FlowControl τ) :
    Accounts [] fc (fc.trigger trc).1 (fc.trigger trc).2 := by
  have hdrop := accounts_dropExpired fc
  have hdequeue := dequeue_queued trc fc.dropExpired.2
  unfold trigger
  dsimp only
  cases htaken : (fc.dropExpired.2.dequeue trc).1 with
  | none =>
    rw [htaken] at hdequeue
    have hrest : Accounts [] fc.dropExpired.2 [] ((fc.dropExpired.2.dequeue trc).2.scheduleNext trc) := by
      refine ⟨hdequeue.trans ?_, rfl⟩
      rw [scheduleNext_queued]
      exact List.Perm.refl _
    have h := hdrop.trans hrest
    simp only [List.append_nil] at h
    exact h
  | some tx =>
    rw [htaken] at hdequeue
    refine hdrop.trans ⟨hdequeue.trans ?_, rfl⟩
    rw [scheduleNext_queued]
    exact List.Perm.refl _

/-- A packet that has to wait finds room in its queue. -/
def Roomy (trc : TransmitRateControl τ) (fc : FlowControl τ) : Event τ → Prop
  | .request r p => fc.dropExpired.2.transmitImmediately trc (r.transmission p) = false →
      fc.dropExpired.2.HasRoom (mapProfileOntoAc r.dccProfile)
  | _ => True

theorem step_accounts {e : Event τ} (h : fc.Roomy trc e) :
    Accounts (requested [e]) fc (fc.step trc e).1 (fc.step trc e).2 := by
  cases e with
  | request r p =>
    have hdrop := accounts_dropExpired fc
    show Accounts ([] ++ [p]) fc (fc.request trc r p).1 (fc.request trc r p).2
    unfold request
    dsimp only
    split_ifs with himm
    · exact hdrop.trans (accounts_send _ r p)
    · exact hdrop.trans (accounts_enqueue (h (eq_false_of_ne_true himm)))
  | reschedule =>
    refine accounts_of_queues ?_
    show (fc.reschedule trc).queues = fc.queues
    unfold reschedule
    split <;> rfl
  | queueLength | rate | outside => exact accounts_of_queues rfl
  | fire =>
    show Accounts [] fc _ _
    unfold step
    dsimp only
    split
    · rename_i c runtime hpop
      split_ifs
      · have hpopped : Accounts [] fc [] { fc with runtime } := accounts_of_queues rfl
        exact hpopped.trans (accounts_trigger trc { fc with runtime })
      · exact accounts_of_queues rfl
    · exact accounts_of_queues rfl

theorem run_accounts (trc : TransmitRateControl τ) (fc₀ : FlowControl τ) (es : List (Event τ))
    (hroom : Along (step trc) (Roomy trc) fc₀ es) :
    Accounts (requested es) fc₀ (outputs (step trc) fc₀ es).flatten (final (step trc) fc₀ es) := by
  induction es using List.reverseRecOn with
  | nil => exact accounts_of_queues rfl
  | append_singleton es e ih =>
    obtain ⟨hes, he⟩ := (along_append _).mp hroom
    have hrun := (ih hes).trans (step_accounts he.1)
    have hreq : requested (es ++ [e]) = requested es ++ requested [e] := List.filterMap_append
    rw [hreq, outputs_snoc, List.flatten_append, List.flatten_singleton, final_snoc]
    exact hrun

/-- **Every packet is accounted for**, if none comes to a full queue: it was handed to the access
interface, which the transmit hook is told of, or reported as dropped, or it is queued. -/
theorem packets_accounted (trc : TransmitRateControl τ) (fc₀ : FlowControl τ) (hempty : ∀ ac, fc₀.queues ac = [])
    (es : List (Event τ)) (hroom : Along (step trc) (Roomy trc) fc₀ es)
    (hdistinct : ((requested es).map (·.identity)).Nodup) :
    let effects := (outputs (step trc) fc₀ es).flatten
    let accounted := handed effects ++ dropped effects ++ (final (step trc) fc₀ es).queued
    (requested es).Perm accounted ∧ (accounted.map (·.identity)).Nodup ∧ reported effects = handed effects := by
  intro effects accounted
  have hrun : Accounts (requested es) fc₀ effects (final (step trc) fc₀ es) := run_accounts trc fc₀ es hroom
  have hzero : fc₀.queued = [] := by
    unfold queued
    rw [List.map_eq_nil_iff, List.flatMap_eq_nil_iff]
    exact fun ac _ => hempty ac
  have hperm : (requested es).Perm accounted := by
    have h := hrun.balance
    rwa [hzero, List.append_nil] at h
  exact ⟨hperm, (hperm.map _).nodup_iff.mp hdistinct, hrun.hooks⟩

/-- One packet sent and two that wait. -/
theorem packets_accounted_three :
    let es := [sampleRequest .dp3 1, sampleRequest .dp3 2, sampleRequest .dp3 3]
    let effects := (outputs (step (sampleTrc 100000)) sampleFlowControl es).flatten
    let accounted := handed effects ++ dropped effects ++ (final (step (sampleTrc 100000)) sampleFlowControl es).queued
    accounted.map (·.identity) = [1, 2, 3] ∧ (requested es).Perm accounted ∧ (accounted.map (·.identity)).Nodup ∧
      reported effects = handed effects := by
  refine ⟨by decide +kernel, packets_accounted (sampleTrc 100000) sampleFlowControl (fun _ => rfl) _ ?_
    (by decide +kernel)⟩
  exact ⟨fun _ => .inl rfl, fun _ => .inl rfl, fun _ => .inl rfl, trivial⟩

/-- **The wrong packet is reported.** With queues of one packet, the third
packet takes the place of the second, and the drop hook is told of the third. -/
theorem wrong_packet_reported :
    ¬ ∀ (τ : Type) (trc : TransmitRateControl τ) (fc₀ : FlowControl τ), (∀ ac, fc₀.queues ac = []) →
      ∀ es : List (Event τ), ((requested es).map (·.identity)).Nodup →
        (requested es).Perm (handed (outputs (step trc) fc₀ es).flatten ++
          dropped (outputs (step trc) fc₀ es).flatten ++
          (final (step trc) fc₀ es).queued) := by
  intro h
  have hperm := h (Option TimePoint) (sampleTrc 100000) sampleFlowControl (fun _ => rfl)
    [.queueLength 1, sampleRequest .dp3 1, sampleRequest .dp3 2, sampleRequest .dp3 3] (by decide +kernel)
  -- the second packet is nowhere, and the third is dropped and queued
  have hlost := hperm.count_eq ⟨2, []⟩
  exact absurd hlost (by decide +kernel)

end VanetzaIdf.Dcc.FlowControl
