/-
# Queues are served, in order

While a queue is not empty, a trigger waits in the runtime (`Served`), if the
rate control never asks for the longest duration, which `next_queue` takes for
none.

Packets leave a queue at its front or are dropped, and none overtakes the queue
of its category: those handed over, followed by those queued, are a sublist of
those requested (`Follows`).
-/
import VanetzaIdf.Dcc.Packets

namespace VanetzaIdf.Dcc

/-- What the access interface is asked for one packet. -/
abbrev Handover := AccessRequest × Packet

def PendingTransmission.handover (tx : PendingTransmission) : Handover := (tx.request.access, tx.packet)

namespace FlowControl

open Lib List ManualRuntime

variable {τ : Type} {trc : TransmitRateControl τ} {fc : FlowControl τ}

/-! ### The next queue -/

/-- The rate control never asks for `Clock::duration::max()`. -/
def Prompt (trc : TransmitRateControl τ) : Prop := ∀ state now tx, trc.delay state now tx < maxDuration

variable {ac : AccessCategory} {effects : List Effect} {tx : Transmission} {x : Handover}

theorem nextQueue_nonempty (h : fc.nextQueue trc = some ac) : fc.queues ac ≠ [] := by
  rcases nextQueue_cases trc fc with ⟨hnone, -⟩ | ⟨ac', tx, hac', htx, -⟩
  · rw [hnone] at h
    cases h
  · obtain rfl := Option.some.inj (hac'.symm.trans h)
    exact fun hempty => by simp [hempty] at htx

/-- Some packet waits. -/
def Busy (fc : FlowControl τ) : Prop := ∃ ac, fc.queues ac ≠ []

theorem Busy.nextTransmission (hprompt : Prompt trc) (h : fc.Busy) : ∃ tx, fc.nextTransmission trc = some tx := by
  obtain ⟨ac, hac⟩ := h
  rcases nextQueue_cases trc fc with ⟨-, hall⟩ | ⟨ac', tx, hac', htx, -⟩
  · obtain ⟨tx, q, hq⟩ := exists_cons_of_ne_nil hac
    exact absurd (hprompt _ _ _) (not_lt.mpr (hall ac tx (by rw [hq, List.head?_cons])))
  · exact ⟨tx, by rw [FlowControl.nextTransmission, hac', Option.bind_some, htx]⟩

theorem busy_of_not_empty (h : fc.empty = false) : fc.Busy := by
  unfold empty at h
  obtain ⟨ac, -, hac⟩ := all_eq_false.mp h
  exact ⟨ac, by simpa using hac⟩

/-! ### Triggers -/

/-- A trigger of this object waits in the runtime. -/
def Scheduled (fc : FlowControl τ) : Prop := ∃ deadline, ManualRuntime.own deadline ∈ fc.runtime.queue

/-- While a queue is not empty, a trigger waits. -/
def Served (fc : FlowControl τ) : Prop := fc.Busy → fc.Scheduled

theorem scheduled_scheduleTrigger (fc : FlowControl τ) (tx : PendingTransmission) :
    (fc.scheduleTrigger trc tx).Scheduled :=
  ⟨fc.runtime.now + fc.delay trc tx.transmission, mem_schedule.mpr (.inl rfl)⟩

theorem served_scheduleNext (hprompt : Prompt trc) (fc : FlowControl τ) : (fc.scheduleNext trc).Served := by
  intro hbusy
  have hbusy' : fc.Busy := by
    unfold Busy at hbusy
    rwa [scheduleNext_queues] at hbusy
  obtain ⟨tx, htx⟩ := hbusy'.nextTransmission hprompt
  have heq : fc.scheduleNext trc = fc.scheduleTrigger trc tx := by rw [scheduleNext, htx]
  rw [heq]
  exact scheduled_scheduleTrigger fc tx

theorem served_dropExpired (h : fc.Served) : fc.dropExpired.2.Served := by
  intro hbusy
  obtain ⟨ac, hac⟩ := hbusy
  have hne : fc.queues ac ≠ [] := by
    intro hnil
    apply hac
    show (fc.queues ac).filter _ = []
    rw [hnil]
    rfl
  exact h ⟨ac, hne⟩

theorem served_enqueue (h : fc.Served) (r : DataRequest) (p : Packet) : (fc.enqueue trc r p).2.Served := by
  intro _
  unfold enqueue
  dsimp only
  cases hempty : fc.empty with
  | true => exact scheduled_scheduleTrigger _ _
  | false => exact h (busy_of_not_empty hempty)

theorem served_request (h : fc.Served) (r : DataRequest) (p : Packet) : (fc.request trc r p).2.Served := by
  have hdropped := served_dropExpired h
  unfold request
  dsimp only
  split_ifs
  · exact hdropped
  · exact served_enqueue hdropped r p

theorem served_trigger (hprompt : Prompt trc) (fc : FlowControl τ) : (fc.trigger trc).2.Served := by
  unfold trigger
  dsimp only
  split <;> exact served_scheduleNext hprompt _

theorem served_reschedule (h : fc.Served) : (fc.reschedule trc).Served := by
  unfold reschedule
  split
  · exact fun _ => scheduled_scheduleTrigger _ _
  · exact h

theorem served_step (hprompt : Prompt trc) (h : fc.Served) (e : Event τ) : (fc.step trc e).2.Served := by
  cases e with
  | request r p => exact served_request h r p
  | reschedule => exact served_reschedule h
  | queueLength | rate => exact h
  | fire =>
    unfold step
    dsimp only
    split
    · rename_i c runtime hpop
      split_ifs with hself
      · exact served_trigger hprompt _
      · -- a callback of another is run: the own ones wait on
        intro hbusy
        obtain ⟨deadline, hown⟩ := h hbusy
        exact ⟨deadline, mem_pop hpop hself hown⟩
    · exact h
  | outside what =>
    intro hbusy
    obtain ⟨deadline, hown⟩ := h hbusy
    exact ⟨deadline, own_mem_outside hown what⟩

/-! ### Order -/

/-- What is handed to the access interface, in order. -/
def handovers (effects : List Effect) : List Handover :=
  effects.filterMap fun | .access r p _ => some (r, p) | _ => none

/-- What is requested to be handed over, in order. -/
def requests (es : List (Event τ)) : List Handover :=
  es.filterMap fun | .request r p => some (r.access, p) | _ => none

def ofCategory (ac : AccessCategory) (l : List Handover) : List Handover := l.filter (·.1.accessCategory = ac)

def queuedHandovers (fc : FlowControl τ) (ac : AccessCategory) : List Handover :=
  (fc.queues ac).map PendingTransmission.handover

/-- Each queue holds packets of its own category only. -/
def Sorted (fc : FlowControl τ) : Prop := ∀ ac, ∀ x ∈ fc.queuedHandovers ac, x.1.accessCategory = ac

/-- What is handed over comes from the front, and what comes in goes to the back. -/
def Follows (incoming : List Handover) (fc : FlowControl τ) (effects : List Effect) (fc' : FlowControl τ) : Prop :=
  ∀ ac, (ofCategory ac (handovers effects) ++ fc'.queuedHandovers ac).Sublist
    (fc.queuedHandovers ac ++ ofCategory ac incoming)

theorem ofCategory_append (ac : AccessCategory) (l l' : List Handover) :
    ofCategory ac (l ++ l') = ofCategory ac l ++ ofCategory ac l' := filter_append _ _

theorem handovers_append (l l' : List Effect) : handovers (l ++ l') = handovers l ++ handovers l' := filterMap_append

theorem Follows.trans {incoming incoming' : List Handover} {fc₁ fc₂ fc₃ : FlowControl τ} {l l' : List Effect}
    (h : Follows incoming fc₁ l fc₂) (h' : Follows incoming' fc₂ l' fc₃) :
    Follows (incoming ++ incoming') fc₁ (l ++ l') fc₃ := by
  intro ac
  rw [handovers_append, ofCategory_append, ofCategory_append, append_assoc, ← append_assoc (fc₁.queuedHandovers ac)]
  refine ((h' ac).append_left _).trans ?_
  rw [← append_assoc]
  exact (h ac).append_right _

theorem follows_of_sublist {fc' : FlowControl τ} (heffects : handovers effects = [])
    (h : ∀ ac, (fc'.queues ac).Sublist (fc.queues ac)) : Follows [] fc effects fc' := by
  intro ac
  have hold : fc.queuedHandovers ac ++ ofCategory ac [] = fc.queuedHandovers ac := append_nil _
  rw [heffects, hold]
  exact (h ac).map PendingTransmission.handover

theorem handovers_eq_nil (h : ∀ fx ∈ effects, ∃ ac p, fx = .dropHook ac p) : handovers effects = [] := by
  unfold handovers
  rw [filterMap_eq_nil_iff]
  intro fx hfx
  obtain ⟨ac, p, rfl⟩ := h fx hfx
  rfl

theorem follows_dropExpired (fc : FlowControl τ) : Follows [] fc fc.dropExpired.1 fc.dropExpired.2 :=
  follows_of_sublist (handovers_eq_nil fun _ h => dropExpired_effect h) fun _ => filter_sublist

theorem popFull_sublist (limit : ℕ) (ac : AccessCategory) (p : Packet) (q : List PendingTransmission) :
    (popFull limit ac p q).2.Sublist q := by
  induction q with
  | nil => exact List.Sublist.refl _
  | cons tx q ih =>
    unfold popFull
    split_ifs
    · exact ih.cons tx
    · exact List.Sublist.refl _

theorem follows_enqueue (r : DataRequest) (p : Packet) :
    Follows [(r.access, p)] fc (fc.enqueue trc r p).1 (fc.enqueue trc r p).2 := by
  have hqueues : (fc.enqueue trc r p).2.queues = Function.update fc.queues (mapProfileOntoAc r.dccProfile)
      ((popFull fc.queueLength (mapProfileOntoAc r.dccProfile) p (fc.queues (mapProfileOntoAc r.dccProfile))).2 ++
        [⟨fc.now + r.lifetime, r, p⟩]) := by
    unfold enqueue
    dsimp only
    split_ifs <;> rfl
  have heffects : handovers (fc.enqueue trc r p).1 = [] :=
    handovers_eq_nil fun _ h => ⟨_, _, popFull_effect h⟩
  intro ac
  rw [heffects]
  unfold queuedHandovers
  rw [hqueues]
  by_cases hac : ac = mapProfileOntoAc r.dccProfile
  · subst hac
    have hpop := popFull_sublist fc.queueLength (mapProfileOntoAc r.dccProfile)
      p (fc.queues (mapProfileOntoAc r.dccProfile))
    rw [Function.update_self, map_append]
    have hnew : ofCategory (mapProfileOntoAc r.dccProfile) [(r.access, p)] = [(r.access, p)] := by
      simp [ofCategory, DataRequest.access]
    rw [hnew]
    exact (hpop.map _).append_right _
  · rw [Function.update_of_ne hac]
    exact sublist_append_left _ _

theorem queue_eq_nil_of_transmitImmediately (h : fc.transmitImmediately trc tx = true) :
    fc.queues (mapProfileOntoAc tx.profile) = [] := by
  unfold transmitImmediately at h
  have hall := all_eq_true.mp (Bool.and_eq_true_iff.mp h).1 _ (mapProfileOntoAc tx.profile).mem_order
  simpa using hall

theorem ofCategory_self (h : x.1.accessCategory = ac) : ofCategory ac [x] = [x] := by
  simp [ofCategory, h]

theorem ofCategory_other (h : x.1.accessCategory ≠ ac) : ofCategory ac [x] = [] := by
  simp [ofCategory, h]

theorem follows_send_immediately {r : DataRequest} {p : Packet} (h : fc.queues (mapProfileOntoAc r.dccProfile) = []) :
    Follows [(r.access, p)] fc (fc.send trc tx r p).1 (fc.send trc tx r p).2 := by
  intro ac
  show (ofCategory ac [(r.access, p)] ++ fc.queuedHandovers ac).Sublist _
  by_cases hac : r.access.accessCategory = ac
  · have hnil : fc.queuedHandovers ac = [] := by
      unfold queuedHandovers
      rw [← hac, DataRequest.access, h]
      rfl
    rw [hnil, append_nil, nil_append]
  · rw [ofCategory_other hac, append_nil, nil_append]

theorem follows_dequeue {tx : PendingTransmission} (hsorted : fc.Sorted) (h : (fc.dequeue trc).1 = some tx)
    (t : Transmission) :
    Follows [] fc ((fc.dequeue trc).2.send trc t tx.request tx.packet).1 (fc.dequeue trc).2 := by
  intro ac
  show (ofCategory ac [tx.handover] ++ (fc.dequeue trc).2.queuedHandovers ac).Sublist _
  unfold dequeue at h ⊢
  cases hnext : fc.nextQueue trc with
  | none =>
    rw [hnext] at h
    cases h
  | some a =>
    rw [hnext] at h
    obtain ⟨tx', q, hq⟩ := exists_cons_of_ne_nil (nextQueue_nonempty hnext)
    have htx : tx' = tx := by
      dsimp only at h
      rw [hq] at h
      exact Option.some.inj h
    subst htx
    have hcategory : tx'.handover.1.accessCategory = a := by
      refine hsorted a _ ?_
      unfold queuedHandovers
      rw [hq]
      exact mem_cons_self
    have hold : ∀ b, fc.queuedHandovers b ++ ofCategory b [] = fc.queuedHandovers b := fun b => append_nil _
    rw [hold]
    unfold queuedHandovers
    dsimp only
    by_cases hac : ac = a
    · subst hac
      rw [ofCategory_self hcategory, Function.update_self, hq]
      exact List.Sublist.refl _
    · rw [ofCategory_other (hcategory ▸ Ne.symm hac), Function.update_of_ne hac, nil_append]

theorem dequeue_snd_of_none (h : (fc.dequeue trc).1 = none) : (fc.dequeue trc).2 = fc := by
  unfold dequeue at h ⊢
  cases hnext : fc.nextQueue trc with
  | none => rfl
  | some ac =>
    rw [hnext] at h
    exact absurd (List.head?_eq_none_iff.mp h) (nextQueue_nonempty hnext)

theorem sorted_dropExpired (h : fc.Sorted) : fc.dropExpired.2.Sorted := by
  intro ac x hx
  exact h ac x (((filter_sublist).map _).subset hx)

theorem follows_scheduleNext (trc : TransmitRateControl τ) (fc : FlowControl τ) :
    Follows [] fc [] (fc.scheduleNext trc) :=
  follows_of_sublist rfl fun ac => by rw [scheduleNext_queues]

theorem follows_trigger (trc : TransmitRateControl τ) (fc : FlowControl τ) (hsorted : fc.Sorted) :
    Follows [] fc (fc.trigger trc).1 (fc.trigger trc).2 := by
  have hdrop := follows_dropExpired fc
  have hsorted' := sorted_dropExpired hsorted
  unfold trigger
  dsimp only
  cases htaken : (fc.dropExpired.2.dequeue trc).1 with
  | none =>
    dsimp only
    rw [dequeue_snd_of_none htaken]
    have h := hdrop.trans (follows_scheduleNext trc fc.dropExpired.2)
    simp only [append_nil] at h
    exact h
  | some tx =>
    dsimp only
    have hsend := follows_dequeue hsorted' htaken tx.transmission
    have hnext := follows_scheduleNext trc
      ((fc.dropExpired.2.dequeue trc).2.send trc tx.transmission tx.request tx.packet).2
    have h := hdrop.trans (hsend.trans hnext)
    rw [append_nil] at h
    exact h

theorem follows_step (trc : TransmitRateControl τ) (hsorted : fc.Sorted) (e : Event τ) :
    Follows (requests [e]) fc (fc.step trc e).1 (fc.step trc e).2 := by
  cases e with
  | request r p =>
    have hdrop := follows_dropExpired fc
    show Follows ([] ++ [(r.access, p)]) fc (fc.request trc r p).1 (fc.request trc r p).2
    unfold request
    dsimp only
    split_ifs with himm
    · exact hdrop.trans (follows_send_immediately (queue_eq_nil_of_transmitImmediately himm))
    · exact hdrop.trans (follows_enqueue r p)
  | reschedule =>
    refine follows_of_sublist rfl fun ac => ?_
    have hqueues : (fc.reschedule trc).queues = fc.queues := by
      unfold reschedule
      split <;> rfl
    show ((fc.reschedule trc).queues ac).Sublist _
    rw [hqueues]
  | queueLength | rate | outside => exact follows_of_sublist rfl fun _ => List.Sublist.refl _
  | fire =>
    show Follows [] fc _ _
    unfold step
    dsimp only
    split
    · rename_i c runtime hpop
      split_ifs
      · exact follows_trigger trc { fc with runtime } hsorted
      · exact follows_of_sublist rfl fun _ => List.Sublist.refl _
    · exact follows_of_sublist rfl fun _ => List.Sublist.refl _

/-! ### Runs -/

theorem Follows.sorted {incoming : List Handover} {fc₀ : FlowControl τ}
    (hempty : ∀ ac, fc₀.queues ac = []) (h : Follows incoming fc₀ effects fc) : fc.Sorted := by
  intro ac x hx
  have hmem := (h ac).subset (mem_append_right _ hx)
  unfold queuedHandovers at hmem
  rw [hempty ac, map_nil, nil_append] at hmem
  simpa [ofCategory] using (mem_filter.mp hmem).2

theorem follows_run (trc : TransmitRateControl τ) (fc₀ : FlowControl τ) (hempty : ∀ ac, fc₀.queues ac = [])
    (es : List (Event τ)) :
    Follows (requests es) fc₀ (outputs (step trc) fc₀ es).flatten (final (step trc) fc₀ es) := by
  induction es using List.reverseRecOn with
  | nil => exact follows_of_sublist rfl fun _ => List.Sublist.refl _
  | append_singleton es e ih =>
    have hrun := ih.trans (follows_step trc (ih.sorted hempty) e)
    have hreq : requests (es ++ [e]) = requests es ++ requests [e] := filterMap_append
    rw [hreq, outputs_snoc, flatten_append, flatten_singleton, final_snoc]
    exact hrun

theorem served_run (hprompt : Prompt trc) (fc₀ : FlowControl τ) (hempty : ∀ ac, fc₀.queues ac = [])
    (es : List (Event τ)) :
    (final (step trc) fc₀ es).Served := by
  induction es using List.reverseRecOn with
  | nil => exact fun ⟨ac, hac⟩ => absurd (hempty ac) hac
  | append_singleton es e ih =>
    rw [final_snoc]
    exact served_step hprompt ih e

/-- **Queues are served and first in, first out.** -/
theorem queues_served_in_order (trc : TransmitRateControl τ) (hprompt : Prompt trc) (fc₀ : FlowControl τ)
    (hempty : ∀ ac, fc₀.queues ac = []) (es : List (Event τ)) :
    ((∃ ac, (final (step trc) fc₀ es).queues ac ≠ []) →
        ∃ deadline, ManualRuntime.own deadline ∈ (final (step trc) fc₀ es).runtime.queue) ∧
      ∀ ac, (ofCategory ac (handovers (outputs (step trc) fc₀ es).flatten) ++
        (final (step trc) fc₀ es).queuedHandovers ac).Sublist (ofCategory ac (requests es)) := by
  refine ⟨served_run hprompt fc₀ hempty es, fun ac => ?_⟩
  have h := follows_run trc fc₀ hempty es ac
  have hnil : fc₀.queuedHandovers ac = [] := by
    unfold queuedHandovers
    rw [hempty ac]
    rfl
  rwa [hnil, nil_append] at h

/-- A rate control that always asks for the same delay. -/
def steadyTrc (interval : Duration) : TransmitRateControl (Option TimePoint) where
  delay _ _ _ := interval
  notify state _ _ := state

/-- Of three packets one has been sent and two wait, and so does a trigger. -/
theorem queues_served_in_order_three :
    let es := [sampleRequest .dp3 1, sampleRequest .dp3 2, sampleRequest .dp3 3, .outside (.advance 100000), .fire]
    let fc := final (step (steadyTrc 100000)) sampleFlowControl es
    let sent := ofCategory .bk (handovers (outputs (step (steadyTrc 100000)) sampleFlowControl es).flatten)
    sent.map (·.2.identity) = [1] ∧ (fc.queuedHandovers .bk).map (·.2.identity) = [2, 3] ∧
      (∃ deadline, ManualRuntime.own deadline ∈ fc.runtime.queue) ∧
      (sent ++ fc.queuedHandovers .bk).Sublist (ofCategory .bk (requests es)) := by
  intro es fc sent
  have hprompt : Prompt (steadyTrc 100000) := fun _ _ _ => show (100000 : Duration) < maxDuration by decide
  have h := queues_served_in_order (steadyTrc 100000) hprompt sampleFlowControl (fun _ => rfl) es
  exact ⟨by decide +kernel, by decide +kernel, h.1 ⟨.bk, by decide +kernel⟩, h.2 .bk⟩

end FlowControl
end VanetzaIdf.Dcc
