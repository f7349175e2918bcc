/-
# What a step leaves in the history

`Move s s'` sorts the steps of the manager by what they do to its round, its
notifications and its history; `move_of_step` reads it off `Trans`.
-/
import VanetzaIdf.Identity.Invariant

namespace VanetzaIdf.IdentityManager

open State List

/-- `s'` comes after `s`, with this counter, round, notifications and history. -/
structure Changes (s s' : State) (counter : ℕ) (round : Option Round) (active : List Notification)
    (log : List Entry) : Prop where
  counter : s'.roundCounter = counter
  round : s'.round = round
  active : s'.active = active
  log : s'.log = log
  next : s.nextSubscription ≤ s'.nextSubscription
  handles : ∀ h ∈ s'.handles, h ∈ s.handles ∨ s.nextSubscription ≤ h
  -- the ticket in use stays while PREPARE waits for its answers
  current : s.stage ≠ none → ∀ r id, s'.stage = some (r, .prepare, id) → s'.pool.current = s.pool.current

/-- What an event does to the round, the notifications and the log. -/
inductive Move (s s' : State) : Prop
  | quiet : Changes s s' s.roundCounter s.round s.active s.log → Move s s'
  | ignored (c : IdChangeCommand) (r : Responder) (b : Bool) : s.handedOut c r = true →
      (∀ ρ, s.round = some ρ → ρ.id = r.round → r.handle ∉ ρ.outstanding) →
      Changes s s' s.roundCounter s.round s.active (.answered c r b :: s.log) → Move s s'
  | answered (c : IdChangeCommand) (r : Responder) (b : Bool) (ρ : Round) : s.handedOut c r = true →
      s.round = some ρ → ρ.id = r.round → (ρ.phase = .prepare → b = true ∨ s'.control = .abort) →
      Changes s s' s.roundCounter (s.eraseOutstanding r.handle).round s.active (.answered c r b :: s.log) → Move s s'
  | unsubscribed (h : SubscriptionHandle) : h ∉ s'.handles →
      Changes s s' s.roundCounter (s.eraseOutstanding h).round s.active (.unsubscribed h :: s.log) → Move s s'
  | left (n : Notification) (act : List Notification) : s.active = n :: act →
      (n.handles = [] ∨ n.expectResponse = true ∧ s.inRound n.roundId = false) →
      Changes s s' s.roundCounter s.round act s.log → Move s s'
  | delivered (n : Notification) (act : List Notification) (h : SubscriptionHandle) (rest : List SubscriptionHandle) :
      s.active = n :: act → n.handles = h :: rest → (n.expectResponse = true → s.inRound n.roundId = true) →
      h ∈ s.handles → Changes s s' s.roundCounter s.round ({ n with handles := rest } :: act)
        (.delivered n.command n.id ⟨n.subject, h⟩ :: s.log) → Move s s'
  | passed (n : Notification) (act : List Notification) (h : SubscriptionHandle) (rest : List SubscriptionHandle)
      (o : Option Round) : s.active = n :: act → n.handles = h :: rest → h ∉ s.handles → h ∉ s'.handles →
      (o = s.round ∨ o = (s.eraseOutstanding h).round) →
      Changes s s' s.roundCounter o ({ n with handles := rest } :: act) s.log → Move s s'
  | commit (ρ : Round) : s.round = some ρ → ρ.phase = .prepare → ρ.outstanding = ∅ → s.active = [] →
      Changes s s' s.roundCounter (some { ρ with phase := .commit, outstanding := s.handles.toFinset })
        [{ command := .commit, id := ρ.newIdentifier, expectResponse := true, roundId := ρ.id, subject := ρ.id
           handles := s.handles }] (.selected ρ.id ρ.newIdentifier :: s.log) → Move s s'
  | finish (ρ : Round) : s.round = some ρ → ρ.phase = .commit → s.active = [] →
      Changes s s' s.roundCounter none [] (.finished ρ.id ρ.newIdentifier s.pool.current :: s.log) → Move s s'
  | abort (ρ : Round) : s.round = some ρ → ρ.phase = .prepare →
      Changes s s' s.roundCounter none
        ({ command := .abort, id := ρ.newIdentifier, expectResponse := false, roundId := 0, subject := ρ.id
           handles := s.handles } :: s.active)
        (.aborted ρ.id ρ.newIdentifier s.handles s.pool.current :: s.log) → Move s s'
  | start (id : Identifier) : s.round = none → s'.pool.current = s.pool.current →
      Changes s s' (s.roundCounter + 1) (some ⟨s.roundCounter + 1, .prepare, id, s.handles.toFinset⟩)
        ({ command := .prepare, id := id, expectResponse := true, roundId := s.roundCounter + 1
           subject := s.roundCounter + 1, handles := s.handles } :: s.active)
        (.prepared (s.roundCounter + 1) s.handles s.pool.current :: s.log) → Move s s'

variable {s s' : State}

theorem Changes.of_eq {k : ℕ} {o : Option Round} {act : List Notification} {log : List Entry}
    (hk : s'.roundCounter = k) (ho : s'.round = o) (ha : s'.active = act) (hl : s'.log = log)
    (hn : s'.nextSubscription = s.nextSubscription) (hs : s'.subscriptions = s.subscriptions)
    (hp : s'.pool = s.pool) : Changes s s' k o act log where
  counter := hk
  round := ho
  active := ha
  log := hl
  next := hn.ge
  handles h hh := .inl (by simpa [State.handles, hs] using hh)
  current _ _ _ _ := by rw [hp]

theorem Move.of_eq (hl : ∀ n, s.control ≠ .loop n) (hl' : ∀ n, s'.control ≠ .loop n)
    (hk : s'.roundCounter = s.roundCounter) (ho : s'.round = s.round) (hf : s'.frames = s.frames)
    (hlog : s'.log = s.log) (hn : s'.nextSubscription = s.nextSubscription)
    (hs : s'.subscriptions = s.subscriptions) (hp : s'.pool = s.pool) : Move s s' := by
  refine .quiet (.of_eq hk ho ?_ hlog hn hs hp)
  rw [active_of_not_loop hl, active_of_not_loop hl', hf]

theorem move_of_step {e : Event} (hi : Inv s) (h : step s e = some s') : Move s s' := by
  have hu' : s.control = .user → ∀ n, s.control ≠ .loop n := fun hu n => by simp [hu]
  cases trans_of_step h with
  | subscribe data hu =>
    refine .quiet ⟨rfl, rfl, rfl, rfl, Nat.le_succ _, fun h hh => ?_, fun _ _ _ _ => rfl⟩
    rw [handles_subscribe] at hh
    exact (mem_append.mp hh).imp id fun h' => (mem_singleton.mp h').ge
  | unsubscribeUnknown _ hu | triggerRejected hu | lock _ _ hu | unlockUnknown _ hu | setResponseTimeout _ hu
  | onCommitted _ hu | tick _ hu | fireStale _ _ hu => exact .of_eq (hu' hu) (hu' hu) rfl rfl rfl rfl rfl rfl rfl
  | unsubscribe k hu hm _ =>
    exact .unsubscribed k (fun hc => (mem_handles_dropSubscription.mp hc).2 rfl)
      ⟨rfl, rfl, rfl, rfl, le_rfl, fun h hh => .inl (mem_handles_dropSubscription.mp hh).1, fun _ _ _ _ => rfl⟩
  | unsubscribeLast k ρ hu hm hr ho hlast hd =>
    refine .unsubscribed k (fun hc => (mem_handles_dropSubscription.mp hc).2 rfl)
      ⟨rfl, rfl, ?_, rfl, le_rfl, fun h hh => .inl (mem_handles_dropSubscription.mp hh).1, fun _ _ _ _ => rfl⟩
    rw [active_user hu]
    rfl
  | trigger _ hu | lockZero _ hu | unlock _ _ hu | fireLock _ _ _ hu =>
    exact .of_eq (hu' hu) (by simp) rfl rfl rfl rfl rfl rfl rfl
  | respondIgnored c r b hu hh hw =>
    exact .ignored c r b hh hw (.of_eq rfl rfl rfl rfl rfl rfl rfl)
  | respondFalse c r ρ hu hh hr hid hm hp =>
    refine .answered c r false ρ hh hr hid (fun _ => .inr rfl) (.of_eq rfl rfl ?_ rfl rfl rfl rfl)
    rw [active_user hu]
    rfl
  | respond c r b ρ stats hu hh hr hid hm hb hc hl =>
    exact .answered c r b ρ hh hr hid (fun hp => .inl (hb hp)) (.of_eq rfl rfl rfl rfl rfl rfl rfl)
  | respondLast c r b ρ stats hu hh hr hid hm hb hc hlast hd =>
    refine .answered c r b ρ hh hr hid (fun hp => .inl (hb hp)) (.of_eq rfl rfl ?_ rfl rfl rfl rfl)
    rw [active_user hu]
    rfl
  | retHook _ _ _ hu hf | retCommitted _ hu hf =>
    refine .quiet (.of_eq rfl rfl ?_ rfl rfl rfl rfl)
    rw [active_user hu, hf]
    rfl
  | fireRound c rt ρ stats hu hp hcb hr hs =>
    exact .of_eq (hu' hu) (fun n => by cases ρ.phase <;> simp) rfl rfl rfl rfl rfl rfl rfl
  | add c k probe hu =>
    exact .quiet ⟨rfl, rfl, rfl, rfl, le_rfl, fun h hh => .inl hh, fun hs _ _ _ =>
      CertificatePool.current_add hi.wf (hi.tickets hs) c k probe⟩
  | prune now hu =>
    exact .quiet ⟨rfl, rfl, rfl, rfl, le_rfl, fun h hh => .inl hh, fun _ _ _ _ =>
      CertificatePool.current_prune hi.wf now⟩
  | endNotify n hl he hg =>
    exact .left n _ (active_loop hl) he (.of_eq rfl rfl rfl rfl rfl rfl rfl)
  | endNotifyAdvance n _ hl he | endNotifyArm n _ hl he =>
    exact .left n _ (active_loop hl) (.inl he) (.of_eq rfl rfl rfl rfl rfl rfl rfl)
  | deliver n k rest hl hh hb hm =>
    exact .delivered n _ k rest (active_loop hl) hh hb hm (.of_eq rfl rfl rfl rfl rfl rfl rfl)
  | skip n k rest hl hh hx hin hm =>
    exact .passed n _ k rest s.round (active_loop hl) hh hm hm (.inl rfl) (.of_eq rfl rfl rfl rfl rfl rfl rfl)
  | skipErase n k rest hl hh hin hm =>
    exact .passed n _ k rest _ (active_loop hl) hh hm hm (.inr rfl) (.of_eq rfl rfl rfl rfl rfl rfl rfl)
  | commit ρ ha hr hp =>
    obtain ⟨hd, ho⟩ := hi.advance ha hr
    have hfr := hi.frames_nil (fun n => by simp [ha]) hd
    refine .commit ρ hr hp ho (hi.active_nil hd) ⟨rfl, ?_, ?_, rfl, le_rfl, fun h hh => .inl hh, fun _ r id hs => ?_⟩
    · simp [State.notify, ho, State.handles, State.cancelRoundTimer]
    · simp only [active, State.notify, State.cancelRoundTimer, hfr]
      rfl
    · simp [stage, State.notify] at hs
  | advance ρ ha hr hp => exact .of_eq (fun n => by simp [ha]) (by simp) rfl rfl rfl rfl rfl rfl rfl
  | finish ρ fs c hf hr hfs =>
    obtain ⟨hd, hp⟩ := hi.finish hf hr
    have hfr := hi.frames_nil (fun n => by simp [hf]) hd
    refine .finish ρ hr hp (hi.active_nil hd) (.of_eq rfl rfl ?_ rfl rfl rfl rfl)
    rcases hfs with ⟨rfl, rfl⟩ | ⟨rfl, rfl⟩
    · exact hfr
    · exact hfr
  | abort ρ ha hr =>
    refine .abort ρ hr (hi.abort ha hr) (.of_eq rfl rfl ?_ rfl rfl rfl rfl)
    rw [active_of_not_loop (s := s) fun n => by simp [ha]]
    rfl
  | startNot ht | startNone ht => exact .of_eq (fun n => by simp [ht]) (by simp) rfl rfl rfl rfl rfl rfl rfl
  | start next ht hp hl hr hn =>
    refine .start next.digest hr rfl (.of_eq rfl ?_ ?_ rfl rfl rfl rfl)
    · simp [State.notify, State.handles]
    · rw [active_of_not_loop (s := s) fun n => by simp [ht]]
      rfl

/-! ### What a step can add -/

theorem round_eraseOutstanding {s : State} {h : SubscriptionHandle} {ρ' : Round}
    (hr : (s.eraseOutstanding h).round = some ρ') :
    ∃ ρ, s.round = some ρ ∧ ρ' = { ρ with outstanding := ρ.outstanding.erase h } := by
  obtain ⟨ρ, hρ, rfl⟩ := Option.map_eq_some_iff.mp hr
  exact ⟨ρ, hρ, rfl⟩

namespace Move

variable {s s' : State}

theorem changes (hm : Move s s') : ∃ k o act l, Changes s s' k o act l ∧ s.log ⊆ l ∧ (k = s.roundCounter ∨
    k = s.roundCounter + 1 ∧ .prepared (s.roundCounter + 1) s.handles s.pool.current ∈ l) := by
  have grows : ∀ x, s.log ⊆ x :: s.log := fun x => subset_cons_self x s.log
  cases hm with
  | quiet hc | left _ _ _ _ hc | passed _ _ _ _ _ _ _ _ _ _ hc => exact ⟨_, _, _, _, hc, List.Subset.refl _, .inl rfl⟩
  | ignored _ _ _ _ _ hc | answered _ _ _ _ _ _ _ _ hc | unsubscribed _ _ hc | delivered _ _ _ _ _ _ _ _ hc
  | commit _ _ _ _ _ hc | finish _ _ _ _ hc | abort _ _ _ hc => exact ⟨_, _, _, _, hc, grows _, .inl rfl⟩
  | start id _ _ hc => exact ⟨_, _, _, _, hc, grows _, .inr ⟨rfl, mem_cons_self⟩⟩

theorem log_mono (hm : Move s s') {x : Entry} (hx : x ∈ s.log) : x ∈ s'.log := by
  obtain ⟨k, o, act, l, hc, hl, -⟩ := hm.changes
  exact hc.log ▸ hl hx

theorem counter_cases (hm : Move s s') : s'.roundCounter = s.roundCounter ∨
    s'.roundCounter = s.roundCounter + 1 ∧ .prepared (s.roundCounter + 1) s.handles s.pool.current ∈ s'.log := by
  obtain ⟨k, o, act, l, hc, -, hk⟩ := hm.changes
  rwa [hc.counter, hc.log]

theorem mono (hm : Move s s') : s.roundCounter ≤ s'.roundCounter ∧ s.nextSubscription ≤ s'.nextSubscription ∧
    ∀ h ∈ s'.handles, h ∈ s.handles ∨ s.nextSubscription ≤ h := by
  obtain ⟨k, o, act, l, hc, -, -⟩ := hm.changes
  refine ⟨?_, hc.next, hc.handles⟩
  rcases hm.counter_cases with h | ⟨h, -⟩ <;> omega

/-- What a step that writes an entry has done. -/
def Made (s s' : State) : Entry → Prop
  | .prepared r snap cur => r = s.roundCounter + 1 ∧ s'.roundCounter = r ∧ snap = s.handles ∧ cur = s.pool.current ∧
      ∃ id, s'.stage = some (r, .prepare, id)
  | .delivered c id r => ∃ n ∈ s.active, n.command = c ∧ n.id = id ∧ n.subject = r.round ∧ r.handle ∈ n.handles ∧
      r.handle ∈ s.handles ∧ (n.expectResponse = true → s.inRound n.roundId = true) ∧ s'.stage = s.stage
  | .answered c r _ => s.handedOut c r = true ∧
      ∀ ρ', s'.round = some ρ' → ρ'.id = r.round → r.handle ∉ ρ'.outstanding
  | .aborted r id snap _ => ∃ n ∈ s'.active, n.command = .abort ∧ n.subject = r ∧ n.id = id ∧ n.handles = snap
  | _ => True

theorem new_entry (hm : Move s s') {x : Entry} (hx : x ∈ s'.log) : x ∈ s.log ∨ Made s s' x := by
  have same : s'.log = s.log → x ∈ s.log ∨ Made s s' x := fun h => .inl (h ▸ hx)
  have added : ∀ {y}, s'.log = y :: s.log → Made s s' y → x ∈ s.log ∨ Made s s' x := by
    intro y h hy
    rw [h] at hx
    rcases mem_cons.mp hx with rfl | hx
    · exact .inr hy
    · exact .inl hx
  cases hm with
  | quiet hc | left _ _ _ _ hc | passed _ _ _ _ _ _ _ _ _ _ hc => exact same hc.log
  | ignored c r b hh hw hc => exact added hc.log ⟨hh, fun ρ' hr => hw ρ' (hc.round ▸ hr)⟩
  | answered c r b ρ hh hr _ _ hc =>
    refine added hc.log ⟨hh, fun ρ' hr' _ => ?_⟩
    rw [hc.round, eraseOutstanding, hr] at hr'
    obtain rfl := Option.some.inj hr'
    exact Finset.notMem_erase _ _
  | unsubscribed _ _ hc | commit _ _ _ _ _ hc | finish _ _ _ _ hc => exact added hc.log trivial
  | delivered n act k rest ha hh hb hk hc =>
    exact added hc.log ⟨n, by simp [ha], rfl, rfl, rfl, by simp [hh], hk, hb, stage_congr hc.round⟩
  | abort ρ _ _ hc => exact added hc.log ⟨_, hc.active ▸ mem_cons_self, rfl, rfl, rfl, rfl⟩
  | start id _ _ hc => exact added hc.log ⟨rfl, hc.counter, rfl, rfl, id, stage_some hc.round⟩

/-- A round starts in PREPARE with a new number, goes on to COMMIT, which is
told to every subscription, and ends, from COMMIT when nobody is told any
more. -/
theorem stage_cases (hm : Move s s') : s'.stage = s.stage ∨
    (s'.stage = none ∧ ∀ r id, s.stage = some (r, .commit, id) → s.active = []) ∨
    (∃ r id, s.stage = some (r, .prepare, id) ∧ s'.stage = some (r, .commit, id) ∧
      ∃ n ∈ s'.active, n.command = .commit ∧ n.handles = s.handles) ∨
    s.stage = none ∧ s'.roundCounter = s.roundCounter + 1 ∧
      ∃ id, s'.stage = some (s.roundCounter + 1, .prepare, id) := by
  cases hm with
  | quiet hc | ignored _ _ _ _ _ hc | left _ _ _ _ hc | delivered _ _ _ _ _ _ _ _ hc =>
    exact .inl (stage_congr hc.round)
  | answered _ _ _ _ _ _ _ _ hc | unsubscribed _ _ hc => exact .inl (stage_erased hc.round)
  | passed n act h' rest o _ _ _ _ ho hc =>
    rcases ho with rfl | rfl
    · exact .inl (stage_congr hc.round)
    · exact .inl (stage_erased hc.round)
  | commit ρ hr hp _ _ hc =>
    exact .inr (.inr (.inl ⟨ρ.id, ρ.newIdentifier, stage_phase hr hp, stage_some hc.round, _,
      hc.active ▸ mem_cons_self, rfl, rfl⟩))
  | finish ρ _ _ ha hc => exact .inr (.inl ⟨stage_none.mpr hc.round, fun _ _ _ => ha⟩)
  | abort ρ hr hp hc =>
    refine .inr (.inl ⟨stage_none.mpr hc.round, fun r id hs => ?_⟩)
    simp [stage_phase hr hp] at hs
  | start id hr _ hc =>
    exact .inr (.inr (.inr ⟨stage_none.mpr hr, hc.counter, id, stage_some hc.round⟩))

theorem stage_prepare (hm : Move s s') {r : ℕ} {id : Identifier} (h : s'.stage = some (r, .prepare, id)) :
    s.stage = some (r, .prepare, id) ∨ s.stage = none ∧ r = s.roundCounter + 1 ∧ s'.roundCounter = r := by
  rcases hm.stage_cases with he | ⟨he, -⟩ | ⟨r', id', -, he, -⟩ | ⟨hn, hk, id', he⟩
  · exact .inl (he ▸ h)
  · simp [he] at h
  · simp [he] at h
  · obtain ⟨rfl, -⟩ : s.roundCounter + 1 = r ∧ id' = id := by simpa [he] using h
    exact .inr ⟨hn, rfl, hk⟩

theorem active_cases (hm : Move s s') {n : Notification} (hn : n ∈ s'.active) :
    (∃ m ∈ s.active, n.command = m.command ∧ n.subject = m.subject ∧ n.id = m.id ∧ n.handles ⊆ m.handles) ∨
      n.handles = s.handles ∧ (n.command = .prepare → n.subject = s.roundCounter + 1) := by
  have old : n ∈ s.active →
      ∃ m ∈ s.active, n.command = m.command ∧ n.subject = m.subject ∧ n.id = m.id ∧ n.handles ⊆ m.handles :=
    fun h => ⟨n, h, rfl, rfl, rfl, List.Subset.refl _⟩
  have tail : ∀ m act k rest, s.active = m :: act → m.handles = k :: rest →
      n ∈ ({ m with handles := rest } : Notification) :: act →
      ∃ m ∈ s.active, n.command = m.command ∧ n.subject = m.subject ∧ n.id = m.id ∧ n.handles ⊆ m.handles := by
    intro m act k rest ha hh hn
    rcases mem_cons.mp hn with rfl | hn
    · exact ⟨m, by simp [ha], rfl, rfl, rfl, by simp [hh]⟩
    · exact old (by simp [ha, hn])
  cases hm with
  | quiet hc | ignored _ _ _ _ _ hc | answered _ _ _ _ _ _ _ _ hc | unsubscribed _ _ hc =>
    exact .inl (old (hc.active ▸ hn))
  | left m act ha _ hc => exact .inl (old (by rw [ha]; exact mem_cons_of_mem _ (hc.active ▸ hn)))
  | delivered m act k rest ha hh _ _ hc | passed m act k rest _ ha hh _ _ _ hc =>
    exact .inl (tail m act k rest ha hh (hc.active ▸ hn))
  | commit ρ _ _ _ _ hc =>
    rw [hc.active] at hn
    obtain rfl := mem_singleton.mp hn
    exact .inr ⟨rfl, by simp⟩
  | finish ρ _ _ _ hc => simp [hc.active] at hn
  | abort ρ _ _ hc =>
    rw [hc.active] at hn
    rcases mem_cons.mp hn with rfl | hn
    · exact .inr ⟨rfl, by simp⟩
    · exact .inl (old hn)
  | start id _ _ hc =>
    rw [hc.active] at hn
    rcases mem_cons.mp hn with rfl | hn
    · exact .inr ⟨rfl, fun _ => rfl⟩
    · exact .inl (old hn)

theorem outstanding_prepare (hm : Move s s') {ρ' : Round} (hr' : s'.round = some ρ') (hp' : ρ'.phase = .prepare) :
    (∃ ρ, s.round = some ρ ∧ ρ.id = ρ'.id ∧ ρ.phase = .prepare ∧ ρ'.outstanding ⊆ ρ.outstanding) ∨
      ρ'.id = s.roundCounter + 1 := by
  have same : s'.round = s.round →
      ∃ ρ, s.round = some ρ ∧ ρ.id = ρ'.id ∧ ρ.phase = .prepare ∧ ρ'.outstanding ⊆ ρ.outstanding :=
    fun h => ⟨ρ', h ▸ hr', rfl, hp', Finset.Subset.refl _⟩
  have erased : ∀ k, s'.round = (s.eraseOutstanding k).round →
      ∃ ρ, s.round = some ρ ∧ ρ.id = ρ'.id ∧ ρ.phase = .prepare ∧ ρ'.outstanding ⊆ ρ.outstanding := by
    intro k h
    obtain ⟨ρ, hr, rfl⟩ := round_eraseOutstanding (h ▸ hr')
    exact ⟨ρ, hr, rfl, hp', Finset.erase_subset _ _⟩
  cases hm with
  | quiet hc | ignored _ _ _ _ _ hc | left _ _ _ _ hc | delivered _ _ _ _ _ _ _ _ hc => exact .inl (same hc.round)
  | answered _ _ _ _ _ _ _ _ hc | unsubscribed _ _ hc => exact .inl (erased _ hc.round)
  | passed n act k rest o _ _ _ _ ho hc =>
    rcases ho with rfl | rfl
    · exact .inl (same hc.round)
    · exact .inl (erased _ hc.round)
  | commit ρ _ _ _ _ hc =>
    obtain rfl := Option.some.inj (hr'.symm.trans hc.round)
    cases hp'
  | finish _ _ _ _ hc | abort _ _ _ hc => simp [hc.round] at hr'
  | start id _ _ hc =>
    obtain rfl := Option.some.inj (hr'.symm.trans hc.round)
    exact .inr rfl

theorem visit (hm : Move s s') {n : Notification} (hn : n ∈ s.active) {h : SubscriptionHandle} (hh : h ∈ n.handles) :
    (∃ m ∈ s'.active, m.command = n.command ∧ m.subject = n.subject ∧ m.id = n.id ∧ h ∈ m.handles) ∨
      s'.log = .delivered n.command n.id ⟨n.subject, h⟩ :: s.log ∨ h ∉ s.handles ∨
      n.expectResponse = true ∧ s.inRound n.roundId = false := by
  have keep : n ∈ s'.active →
      ∃ m ∈ s'.active, m.command = n.command ∧ m.subject = n.subject ∧ m.id = n.id ∧ h ∈ m.handles :=
    fun h' => ⟨n, h', rfl, rfl, rfl, hh⟩
  have tail : ∀ m act k rest, s.active = m :: act → m.handles = k :: rest →
      s'.active = { m with handles := rest } :: act → (n = m ∧ h = k) ∨
      ∃ m ∈ s'.active, m.command = n.command ∧ m.subject = n.subject ∧ m.id = n.id ∧ h ∈ m.handles := by
    intro m act k rest ha hk ha'
    rw [ha] at hn
    rcases mem_cons.mp hn with rfl | hn
    · rw [hk] at hh
      rcases mem_cons.mp hh with rfl | hh
      · exact .inl ⟨rfl, rfl⟩
      · exact .inr ⟨{ n with handles := rest }, by simp [ha'], rfl, rfl, rfl, hh⟩
    · exact .inr (keep (by rw [ha']; exact mem_cons_of_mem _ hn))
  cases hm with
  | quiet hc | ignored _ _ _ _ _ hc | answered _ _ _ _ _ _ _ _ hc | unsubscribed _ _ hc =>
    exact .inl (keep (hc.active ▸ hn))
  | left m act ha he hc =>
    rw [ha] at hn
    rcases mem_cons.mp hn with rfl | hn
    · rcases he with he | he
      · simp [he] at hh
      · exact .inr (.inr (.inr he))
    · exact .inl (keep (hc.active ▸ hn))
  | delivered m act k rest ha hk _ _ hc =>
    rcases tail m act k rest ha hk hc.active with ⟨rfl, rfl⟩ | hlater
    · exact .inr (.inl hc.log)
    · exact .inl hlater
  | passed m act k rest o ha hk hks _ _ hc =>
    rcases tail m act k rest ha hk hc.active with ⟨-, rfl⟩ | hlater
    · exact .inr (.inr (.inl hks))
    · exact .inl hlater
  | commit _ _ _ _ ha | finish _ _ _ ha => simp [ha] at hn
  | abort _ _ _ hc | start _ _ _ hc => exact .inl (keep (by rw [hc.active]; exact mem_cons_of_mem _ hn))

end Move

end VanetzaIdf.IdentityManager
