/-
# Two-phase commit

Over every run of the manager:

* a ticket is selected only after everybody PREPARE was sent to has agreed or
  left (`Acknowledged`),
* a refusal or a timeout ends the round with the ticket it began with, and ABORT
  goes to every subscriber (`Aborted`),
* whoever received PREPARE and is still there learns the outcome exactly once:
  the outcomes received and owed, and the round's being undecided, add up to one
  (`Settled`).
-/
import VanetzaIdf.Identity.History

namespace VanetzaIdf.IdentityManager

open Lib State List

/-! ### PREPARE -/

/-- What the history says of PREPARE. -/
structure Prepared (s : State) : Prop where
  counted : ∀ r snap cur, .prepared r snap cur ∈ s.log → r ≤ s.roundCounter
  unique : ∀ r snap cur snap' cur', .prepared r snap cur ∈ s.log → .prepared r snap' cur' ∈ s.log →
    snap = snap' ∧ cur = cur'
  delivered : ∀ c id r, .delivered c id r ∈ s.log → r.round ≤ s.roundCounter ∧ r.handle < s.nextSubscription
  outcome : ∀ c id r, .delivered c id r ∈ s.log → c ≠ .prepare → ∀ id', s.stage ≠ some (r.round, .prepare, id')
  listed : ∀ n ∈ s.active, n.command = .prepare → ∀ snap cur, .prepared n.subject snap cur ∈ s.log →
    n.handles ⊆ snap
  visited : ∀ id r, .delivered .prepare id r ∈ s.log → ∀ snap cur, .prepared r.round snap cur ∈ s.log →
    r.handle ∈ snap

theorem prepared_init (pool : CertificatePool) (now : TimePoint) : Prepared (init pool now) where
  counted r snap cur h := by simp [init] at h
  unique r snap cur snap' cur' h := by simp [init] at h
  delivered c id r h := by simp [init] at h
  outcome c id r h := by simp [init] at h
  listed n h := by simp [init, active] at h
  visited id r h := by simp [init] at h

variable {s s' t s₁ : State} {n : Notification} {e : Event} {r : ℕ} {h : SubscriptionHandle} {x : Entry}
  {id : Identifier} {C : State → Event → Prop} {ρ : Round}

theorem Notification.Ok.stage_ne_prepare (hn : n.Ok s) (hc : n.command ≠ .prepare)
    (id : Identifier) : s.stage ≠ some (n.subject, .prepare, id) := by
  rcases hn.kind with ⟨-, -, h | h⟩ | ⟨-, -, h⟩
  · exact absurd h hc
  · simp [hn.commit h]
  · exact hn.abort h .prepare id

theorem prepared_step (hi : Inv s) (hp : Prepared s) (hm : Move s s') : Prepared s' := by
  obtain ⟨hk, hnext, -⟩ := hm.mono
  have hold : ∀ r snap cur, r ≤ s.roundCounter → .prepared r snap cur ∈ s'.log → .prepared r snap cur ∈ s.log := by
    intro r snap cur hr h
    rcases hm.new_entry h with h | ⟨rfl, -⟩
    · exact h
    · omega
  refine
    { counted := fun r snap cur h => ?_
      unique := fun r snap cur snap' cur' h h' => ?_
      delivered := fun c id r h => ?_
      outcome := fun c id r h hc id' hs => ?_
      listed := fun n hn hc snap cur h => ?_
      visited := fun id r h snap cur h' => ?_ }
  · rcases hm.new_entry h with h | ⟨-, hr, -⟩
    · exact le_trans (hp.counted r snap cur h) hk
    · exact hr.ge
  · by_cases hr : r ≤ s.roundCounter
    · exact hp.unique r snap cur snap' cur' (hold r snap cur hr h) (hold r snap' cur' hr h')
    · rcases hm.new_entry h with h | ⟨-, -, rfl, rfl, -⟩
      · exact absurd (hp.counted r snap cur h) hr
      rcases hm.new_entry h' with h' | ⟨-, -, rfl, rfl, -⟩
      · exact absurd (hp.counted r snap' cur' h') hr
      exact ⟨rfl, rfl⟩
  · rcases hm.new_entry h with h | ⟨n, hn, -, -, hr, -, hh, -⟩
    · obtain ⟨h1, h2⟩ := hp.delivered c id r h
      exact ⟨le_trans h1 hk, lt_of_lt_of_le h2 hnext⟩
    · exact ⟨hr ▸ le_trans (hi.notifications n hn).started.2 hk, lt_of_lt_of_le (hi.below _ hh) hnext⟩
  · rcases hm.new_entry h with h | ⟨n, hn, rfl, -, hr, -, -, -, hst⟩
    · rcases hm.stage_prepare hs with hs | ⟨-, hr, -⟩
      · exact hp.outcome c id r h hc id' hs
      · have := (hp.delivered c id r h).1
        omega
    · rw [hst, ← hr] at hs
      exact (hi.notifications n hn).stage_ne_prepare hc id' hs
  · rcases hm.active_cases hn with ⟨m, hm', hcm, hsm, -, hsub⟩ | ⟨hh, hs⟩
    · rw [hsm] at h
      have h := hold _ snap cur (hi.notifications m hm').started.2 h
      exact List.Subset.trans hsub (hp.listed m hm' (hcm ▸ hc) snap cur h)
    · rw [hs hc] at h
      rcases hm.new_entry h with h | ⟨-, -, rfl, -⟩
      · have := hp.counted _ snap cur h
        omega
      · rw [hh]
        exact List.Subset.refl _
  · rcases hm.new_entry h with h | ⟨n, hn, hc, -, hr, hh, -⟩
    · exact hp.visited id r h snap cur (hold _ snap cur (hp.delivered _ id r h).1 h')
    · rw [← hr] at h'
      exact hp.listed n hn hc snap cur (hold _ snap cur (hi.notifications n hn).started.2 h') hh

/-! ### Nobody is passed over -/

/-- The answer of `h` to PREPARE of round `r` is not needed any more. -/
def Cleared (log : List Entry) (r : ℕ) (h : SubscriptionHandle) : Prop :=
  .answered .prepare ⟨r, h⟩ true ∈ log ∨ .unsubscribed h ∈ log

/-- Everybody PREPARE was sent to is cleared or still awaited, unless the
round is about to be aborted; and the ticket in use is the one of then. -/
def Awaited (s : State) : Prop :=
  ∀ ρ, s.round = some ρ → ρ.phase = .prepare → ∃ snap, .prepared ρ.id snap s.pool.current ∈ s.log ∧
    (s.control = .abort ∨ ∀ h ∈ snap, h ∈ ρ.outstanding ∨ Cleared s.log ρ.id h)

theorem handedOut_iff {c : IdChangeCommand} {r : Responder} :
    s.handedOut c r = true ↔ (c = .prepare ∨ c = .commit) ∧ ∃ id, .delivered c id r ∈ s.log := by
  unfold handedOut
  simp only [Bool.and_eq_true, Bool.or_eq_true, decide_eq_true_eq, any_eq_true]
  refine and_congr_right fun _ => ⟨?_, ?_⟩
  · rintro ⟨x, hx, h⟩
    cases x with
    | delivered c' id r' =>
      obtain ⟨rfl, rfl⟩ : c' = c ∧ r' = r := by simpa using h
      exact ⟨id, hx⟩
    | _ => simp at h
  · rintro ⟨id, h⟩
    exact ⟨_, h, by simp⟩

theorem round_none_of_abort (ha : s.control = .abort) (h : step s e = some s') : s'.round = none := by
  cases trans_of_step h with
  | abort ρ _ _ => rfl
  | _ => simp_all

theorem Cleared.mono (hm : Move s s') (hc : Cleared s.log r h) : Cleared s'.log r h :=
  hc.imp hm.log_mono hm.log_mono

theorem awaited_step (hi : Inv s) (hp : Prepared s) (hw : Awaited s) (h : step s e = some s') : Awaited s' := by
  have hm := move_of_step hi h
  intro ρ' hr' hp'
  have hab : s.control ≠ .abort := fun ha => by simp [round_none_of_abort ha h] at hr'
  have hst' := stage_phase hr' hp'
  -- a round that was there: its PREPARE is in the history and the ticket is the same
  have old : ∀ ρ, s.round = some ρ → ρ'.id = ρ.id → ρ'.phase = ρ.phase →
      (s'.pool.current = s.pool.current) →
      (s'.control = .abort ∨ ∀ k, k ∈ ρ.outstanding → k ∈ ρ'.outstanding ∨ Cleared s'.log ρ.id k) →
      ∃ snap, .prepared ρ'.id snap s'.pool.current ∈ s'.log ∧
        (s'.control = .abort ∨ ∀ k ∈ snap, k ∈ ρ'.outstanding ∨ Cleared s'.log ρ'.id k) := by
    intro ρ hr hid hph hcur ho
    obtain ⟨snap, hsnap, hall⟩ := hw ρ hr (hph ▸ hp')
    refine ⟨snap, by rw [hid, hcur]; exact hm.log_mono hsnap, ?_⟩
    rcases ho with ho | ho
    · exact .inl ho
    · refine .inr fun k hk => ?_
      rw [hid]
      rcases hall.resolve_left hab k hk with hk | hk
      · exact ho k hk
      · exact .inr (hk.mono hm)
  have hsome : ∀ ρ, s.round = some ρ → s.stage ≠ none := fun ρ hr => by simp [stage_some hr]
  cases hm with
  | quiet hc | ignored _ _ _ _ _ hc | left _ _ _ _ hc | delivered _ _ _ _ _ _ _ _ hc =>
    have hr := hc.round ▸ hr'
    exact old ρ' hr rfl rfl (hc.current (hsome ρ' hr) _ _ hst') (.inr fun k hk => .inl hk)
  | answered c r b ρ hh hr hid hb hc =>
    obtain ⟨ρ₁, hr₁, rfl⟩ := round_eraseOutstanding (hc.round ▸ hr')
    obtain rfl := Option.some.inj (hr.symm.trans hr₁)
    refine old ρ hr rfl rfl (hc.current (hsome ρ hr) _ _ hst') ?_
    rcases hb hp' with rfl | hb
    · refine .inr fun k hk => ?_
      by_cases hkr : k = r.handle
      · -- the answer can only be one to PREPARE: nothing of COMMIT was handed out yet
        obtain ⟨hc', id, hd⟩ := handedOut_iff.mp hh
        have hcp : c = .prepare := hc'.resolve_right fun hcc => by
          refine hp.outcome c id r hd (by simp [hcc]) ρ.newIdentifier ?_
          rw [stage_phase hr hp', hid]
        refine .inr (.inl ?_)
        rw [hc.log, hcp, hkr, hid]
        exact mem_cons_self
      · exact .inl (Finset.mem_erase.mpr ⟨hkr, hk⟩)
    · exact .inl hb
  | unsubscribed j hj hc =>
    obtain ⟨ρ, hr, rfl⟩ := round_eraseOutstanding (hc.round ▸ hr')
    refine old ρ hr rfl rfl (hc.current (hsome ρ hr) _ _ hst') (.inr fun k hk => ?_)
    by_cases hkj : k = j
    · refine .inr (.inr ?_)
      rw [hc.log, hkj]
      exact mem_cons_self
    · exact .inl (Finset.mem_erase.mpr ⟨hkj, hk⟩)
  | passed n act j rest o ha hh hj hj' ho hc =>
    rcases ho with rfl | rfl
    · have hr := hc.round ▸ hr'
      exact old ρ' hr rfl rfl (hc.current (hsome ρ' hr) _ _ hst') (.inr fun k hk => .inl hk)
    · obtain ⟨ρ, hr, rfl⟩ := round_eraseOutstanding (hc.round ▸ hr')
      refine old ρ hr rfl rfl (hc.current (hsome ρ hr) _ _ hst') (.inr fun k hk => ?_)
      by_cases hkj : k = j
      · -- a handle of the snapshot that is not there has left
        have hkn := (hi.notifications n (by simp [ha])).known j (by simp [hh])
        refine .inr (.inr ?_)
        rw [hc.log, hkj]
        exact hkn.resolve_left hj
      · exact .inl (Finset.mem_erase.mpr ⟨hkj, hk⟩)
  | commit ρ _ _ _ _ hc =>
    obtain rfl := Option.some.inj (hr'.symm.trans hc.round)
    cases hp'
  | finish _ _ _ _ hc | abort _ _ _ hc => simp [hc.round] at hr'
  | start id hr hcur hc =>
    obtain rfl := Option.some.inj (hr'.symm.trans hc.round)
    refine ⟨s.handles, ?_, .inr fun k hk => .inl (mem_toFinset.mpr hk)⟩
    rw [hc.log, hcur]
    exact mem_cons_self

/-- A ticket is selected only after everybody PREPARE was sent to is cleared. -/
def Acknowledged (log : List Entry) : Prop :=
  ∀ l₁ l₂ r id, log = l₁ ++ .selected r id :: l₂ →
    ∃ snap cur, .prepared r snap cur ∈ l₂ ∧ ∀ h ∈ snap, Cleared l₂ r h

theorem Acknowledged.cons {log : List Entry} (h : Acknowledged log) (hx : ∀ r id, x ≠ .selected r id) :
    Acknowledged (x :: log) := by
  intro l₁ l₂ r id he
  rcases cons_eq_append_iff.mp he with ⟨-, he⟩ | ⟨l, -, he⟩
  · exact absurd (List.cons.inj he).1.symm (hx r id)
  · exact h l l₂ r id he

theorem acknowledged_step (hi : Inv s) (hw : Awaited s) (hk : Acknowledged s.log)
    (h : step s e = some s') : Acknowledged s'.log := by
  cases move_of_step hi h with
  | quiet hc | left _ _ _ _ hc | passed _ _ _ _ _ _ _ _ _ _ hc => rwa [hc.log]
  | ignored _ _ _ _ _ hc | answered _ _ _ _ _ _ _ _ hc | unsubscribed _ _ hc | delivered _ _ _ _ _ _ _ _ hc
  | finish _ _ _ _ hc | abort _ _ _ hc | start _ _ _ hc => rw [hc.log]; exact hk.cons (by simp)
  | commit ρ hr hp ho _ hc =>
    rw [hc.log]
    intro l₁ l₂ r id he
    rcases cons_eq_append_iff.mp he with ⟨-, he⟩ | ⟨l, -, he⟩
    · obtain ⟨hx, rfl⟩ := List.cons.inj he
      simp only [Entry.selected.injEq] at hx
      obtain ⟨rfl, -⟩ := hx
      obtain ⟨snap, hsnap, hall⟩ := hw ρ hr hp
      have hab : s.control ≠ .abort := fun ha => by
        have hr' := hc.round
        simp [round_none_of_abort ha h] at hr'
      refine ⟨snap, _, hsnap, fun k hk => (hall.resolve_left hab k hk).resolve_left ?_⟩
      simp [ho]
    · exact hk l l₂ r id he

/-! ### ABORT goes to everybody -/

/-- Whoever ABORT was sent to has received it, has left, or is still to be
visited. -/
def Aborted (s : State) : Prop :=
  ∀ r id snap cur, .aborted r id snap cur ∈ s.log → ∀ h ∈ snap,
    .delivered .abort id ⟨r, h⟩ ∈ s.log ∨ .unsubscribed h ∈ s.log ∨
      ∃ n ∈ s.active, n.command = .abort ∧ n.subject = r ∧ n.id = id ∧ h ∈ n.handles

theorem aborted_step (hi : Inv s) (ha : Aborted s) (hm : Move s s') : Aborted s' := by
  intro r id snap cur h k hk
  rcases hm.new_entry h with h | ⟨n, hn, hc, hr, hid, rfl⟩
  · rcases ha r id snap cur h k hk with h | h | ⟨n, hn, hc, rfl, rfl, hk⟩
    · exact .inl (hm.log_mono h)
    · exact .inr (.inl (hm.log_mono h))
    · have hok := hi.notifications n hn
      rcases hm.visit hn hk with ⟨m, hm', hcm, hr, hid, hk⟩ | h | h | ⟨hx, -⟩
      · exact .inr (.inr ⟨m, hm', hcm.trans hc, hr, hid, hk⟩)
      · exact .inl (by rw [h, hc]; exact mem_cons_self)
      · exact .inr (.inl (hm.log_mono ((hok.known k hk).resolve_left h)))
      · rcases hok.kind with ⟨-, -, h | h⟩ | ⟨h, -, -⟩
        · simp [hc] at h
        · simp [hc] at h
        · simp [hx] at h
  · exact .inr (.inr ⟨n, hn, hc, hr, hid, hk⟩)

/-! ### One outcome each -/

def Entry.settles (r : ℕ) (h : SubscriptionHandle) : Entry → Bool
  | .delivered c _ r' => (c = .commit || c = .abort) && r' = ⟨r, h⟩
  | _ => false

/-- How often a notification has still to tell `h` the outcome of round `r`. -/
def Notification.owes (n : Notification) (r : ℕ) (h : SubscriptionHandle) : ℕ :=
  if n.subject = r ∧ n.command ≠ .prepare then n.handles.count h else 0

/-- Round `r` is still in PREPARE. -/
def State.undecided (s : State) (r : ℕ) : ℕ :=
  match s.stage with
  | some (r', .prepare, _) => if r' = r then 1 else 0
  | _ => 0

def State.outcomes (s : State) (r : ℕ) (h : SubscriptionHandle) : ℕ :=
  s.log.countP (Entry.settles r h) + (s.active.map (·.owes r h)).sum + s.undecided r

theorem owes_prepare (hc : n.command = .prepare) (r : ℕ) (h : SubscriptionHandle) :
    n.owes r h = 0 := by simp [Notification.owes, hc]

theorem owes_nil (hh : n.handles = []) (r : ℕ) (h : SubscriptionHandle) : n.owes r h = 0 := by
  simp [Notification.owes, hh]

theorem sum_owes_eq_zero (hn : ∀ n ∈ s.active, n.command = .prepare ∨ n.subject ≠ r) :
    (s.active.map (·.owes r h)).sum = 0 := by
  refine sum_eq_zero (forall_mem_map.mpr fun n hm => ?_)
  rcases hn n hm with hc | hne
  · exact owes_prepare hc r h
  · simp [Notification.owes, hne]

theorem owes_all (hi : Inv s) (hc : n.command ≠ .prepare) (hn : n.handles = s.handles)
    (hh : h ∈ s.handles) (r : ℕ) : n.owes r h = if n.subject = r then 1 else 0 := by
  simp [Notification.owes, hc, hn, count_eq_one_of_mem hi.nodup hh]

theorem undecided_prepare (hs : s.stage = some (r, .prepare, id)) (k : ℕ) :
    s.undecided k = if r = k then 1 else 0 := by
  simp [State.undecided, hs]

theorem undecided_commit (hs : s.stage = some (r, .commit, id)) (k : ℕ) : s.undecided k = 0 := by
  simp [State.undecided, hs]

theorem undecided_none (hs : s.stage = none) (k : ℕ) : s.undecided k = 0 := by
  simp [State.undecided, hs]

theorem outcomes_congr (hx : x.settles r h = false)
    (hl : s'.log = s.log ∨ s'.log = x :: s.log) (ha : s'.active = s.active) (hs : s'.stage = s.stage) :
    s'.outcomes r h = s.outcomes r h := by
  have hc : s'.log.countP (Entry.settles r h) = s.log.countP (Entry.settles r h) := by
    rcases hl with hl | hl
    · rw [hl]
    · rw [hl, countP_cons_of_neg (by simp [hx])]
  simp only [State.outcomes, State.undecided, hc, ha, hs]

/-- **Outcomes are conserved.** Deciding a round turns its being undecided
into a notification that owes everybody one outcome, and a delivery turns an
outcome owed into one received. -/
theorem outcomes_step (hi : Inv s) (hm : Move s s')
    (hh : h ∈ s.handles) (hr : r ≤ s.roundCounter) : s'.outcomes r h = s.outcomes r h := by
  cases hm with
  | quiet hc => exact outcomes_congr (x := .unsubscribed h) rfl (.inl hc.log) hc.active (stage_congr hc.round)
  | ignored c r' b _ _ hc =>
    exact outcomes_congr (x := .answered c r' b) rfl (.inr hc.log) hc.active (stage_congr hc.round)
  | answered c r' b ρ _ _ _ _ hc =>
    exact outcomes_congr (x := .answered c r' b) rfl (.inr hc.log) hc.active (stage_erased hc.round)
  | unsubscribed k _ hc =>
    exact outcomes_congr (x := .unsubscribed k) rfl (.inr hc.log) hc.active (stage_erased hc.round)
  | left n act ha he hc =>
    have hs := stage_congr hc.round
    have hok := hi.notifications n (by simp [ha])
    have hn : n.owes r h = 0 := by
      rcases he with he | ⟨hexp, hin⟩
      · exact owes_nil he r h
      -- only PREPARE is cut short: COMMIT's round outlasts it
      · refine owes_prepare ?_ r h
        rcases hok.kind with ⟨-, hid, hk | hk⟩ | ⟨hx, -, -⟩
        · exact hk
        · obtain ⟨ρ, hρ, h1, -⟩ := round_of_stage (hok.commit hk)
          have : s.inRound n.roundId = true := inRound_iff.mpr ⟨ρ, hρ, h1.trans hid.symm⟩
          simp [hin] at this
        · simp [hx] at hexp
    simp only [State.outcomes, State.undecided, hc.log, hc.active, ha, hs, map_cons, sum_cons, hn, Nat.zero_add]
  | delivered n act k rest ha hk _ _ hc =>
    have hs := stage_congr hc.round
    have hok := hi.notifications n (by simp [ha])
    have hone : (if Entry.settles r h (.delivered n.command n.id ⟨n.subject, k⟩) then 1 else 0) +
        ({ n with handles := rest } : Notification).owes r h = n.owes r h := by
      rcases hok.kind with ⟨-, -, hcm | hcm⟩ | ⟨-, -, hcm⟩
      · simp [Notification.owes, Entry.settles, hcm]
      all_goals
        by_cases hsub : n.subject = r
        · by_cases hkh : k = h
          · simp [Notification.owes, Entry.settles, hcm, hk, hsub, hkh, Nat.add_comm]
          · simp [Notification.owes, Entry.settles, hcm, hk, hsub, hkh]
        · simp [Notification.owes, Entry.settles, hcm, hsub]
    simp only [State.outcomes, State.undecided, hc.log, hc.active, ha, hs, map_cons, sum_cons,
      countP_cons]
    omega
  | passed n act k rest o ha hk hks _ ho hc =>
    have hs : s'.stage = s.stage := by
      rcases ho with rfl | rfl
      · exact stage_congr hc.round
      · exact stage_erased hc.round
    have hkh : k ≠ h := fun he => hks (he ▸ hh)
    have hn : ({ n with handles := rest } : Notification).owes r h = n.owes r h := by
      simp [Notification.owes, hk, hkh]
    simp only [State.outcomes, State.undecided, hc.log, hc.active, ha, hs, map_cons, sum_cons, hn]
  | commit ρ hρ hp _ ha hc =>
    have hs := stage_phase hρ hp
    have hs' := stage_some hc.round
    simp only [State.outcomes, hc.log, hc.active, ha, undecided_prepare hs, undecided_commit hs', map_cons,
      map_nil, sum_cons, sum_nil, owes_all hi (n := ⟨.commit, _, _, _, _, s.handles⟩) (by simp) rfl hh,
      countP_cons]
    simp [Entry.settles]
  | finish ρ hρ hp ha hc =>
    have hs := stage_phase hρ hp
    have hs' : s'.stage = none := stage_none.mpr hc.round
    simp only [State.outcomes, hc.log, hc.active, ha, undecided_commit hs, undecided_none hs', countP_cons]
    simp [Entry.settles]
  | abort ρ hρ hp hc =>
    have hs := stage_phase hρ hp
    have hs' : s'.stage = none := stage_none.mpr hc.round
    simp only [State.outcomes, hc.log, hc.active, undecided_prepare hs, undecided_none hs', map_cons,
      sum_cons, owes_all hi (n := ⟨.abort, _, _, _, _, s.handles⟩) (by simp) rfl hh, countP_cons]
    simp only [Entry.settles, Bool.false_eq_true, if_false]
    omega
  | start id hn _ hc =>
    have hs : s.stage = none := stage_none.mpr hn
    have hs' := stage_some hc.round
    simp only [State.outcomes, hc.log, hc.active, undecided_none hs, undecided_prepare hs', map_cons,
      sum_cons, owes_prepare (n := ⟨.prepare, _, _, _, _, s.handles⟩) rfl, countP_cons]
    have hne : s.roundCounter + 1 ≠ r := by omega
    simp [Entry.settles, hne]

/-- Whoever received PREPARE and is still there gets one outcome. -/
def Settled (s : State) : Prop :=
  ∀ id r, .delivered .prepare id r ∈ s.log → r.handle ∈ s.handles → s.outcomes r.round r.handle = 1

theorem settled_step (hi : Inv s) (hi' : Inv s') (hp : Prepared s) (hp' : Prepared s') (hd : Settled s)
    (hm : Move s s') : Settled s' := by
  intro id r h hh
  rcases hm.new_entry h with h | ⟨n, hn, hc, -, hr, -, -, hb, hst⟩
  · obtain ⟨h1, h2⟩ := hp.delivered _ id r h
    have hs : r.handle ∈ s.handles := (hm.mono.2.2 _ hh).resolve_right (Nat.not_le.mpr h2)
    rw [outcomes_step hi hm hs h1]
    exact hd id r h hs
  · -- PREPARE has just come: nothing is decided yet
    have hok := hi.notifications n hn
    obtain ⟨hx, hid⟩ := hok.expects (by simp [hc])
    obtain ⟨ρ, hρ, he⟩ := inRound_iff.mp (hb hx)
    have hs : s.stage = some (n.subject, .prepare, ρ.newIdentifier) := by
      have hs := stage_some hρ
      rw [he, hid] at hs
      rw [hs, (hok.prepare hc _ _ hs).1]
    have hs' : s'.stage = some (r.round, .prepare, ρ.newIdentifier) := by rw [hst, hs, hr]
    have hlog : s'.log.countP (Entry.settles r.round r.handle) = 0 := by
      rw [countP_eq_zero]
      intro x hx hset
      cases x with
      | delivered c i r' =>
        obtain ⟨hc', rfl⟩ : (c = .commit ∨ c = .abort) ∧ r' = r := by simpa [Entry.settles] using hset
        refine hp'.outcome c i r' hx ?_ _ hs'
        rcases hc' with rfl | rfl <;> simp
      | _ => simp [Entry.settles] at hset
    have howed : (s'.active.map (·.owes r.round r.handle)).sum = 0 := by
      refine sum_owes_eq_zero fun m hm' => or_iff_not_imp_left.mpr fun hcm he => ?_
      exact (hi'.notifications m hm').stage_ne_prepare hcm _ (he ▸ hs')
    simp [State.outcomes, hlog, howed, undecided_prepare hs']

/-! ### Every run -/

/-- What the log and the state have to do with each other. -/
structure Protocol (s : State) : Prop where
  inv : Inv s
  prepared : Prepared s
  awaited : Awaited s
  acknowledged : Acknowledged s.log
  aborted : Aborted s
  settled : Settled s

theorem protocol_init {pool : CertificatePool} (hp : pool.Wf) (now : TimePoint) : Protocol (init pool now) where
  inv := inv_init hp now
  prepared := prepared_init pool now
  awaited ρ h := by simp [init] at h
  acknowledged l₁ l₂ r id h := by simp [init] at h
  aborted r id snap cur h := by simp [init] at h
  settled id r h := by simp [init] at h

theorem protocol_step (hp : Protocol s) (h : step s e = some s') : Protocol s' := by
  have hm := move_of_step hp.inv h
  have hi' := inv_step hp.inv h
  have hp' := prepared_step hp.inv hp.prepared hm
  exact
    { inv := hi'
      prepared := hp'
      awaited := awaited_step hp.inv hp.prepared hp.awaited h
      acknowledged := acknowledged_step hp.inv hp.awaited hp.acknowledged h
      aborted := aborted_step hp.inv hp.aborted hm
      settled := settled_step hp.inv hi' hp.prepared hp' hp.settled hm }

theorem protocol_run (hp : Protocol s) (h : Run step C s t) : Protocol t :=
  h.invariant hp fun _ hp _ hs => protocol_step hp hs

theorem log_mono_run (hp : Protocol s) (h : Run step C s t) (hx : x ∈ s.log) : x ∈ t.log :=
  h.invariant_under (protocol_run hp) hx fun _ hu hx _ hs => (move_of_step hu.inv hs).log_mono hx

/-! ### Refusals -/

/-- A subscriber that is still there and has not answered yet answers false
to PREPARE of the round, or the round timer fires. -/
def Refusal (s : State) (ρ : Round) : Event → Prop
  | .respond .prepare r false => r.round = ρ.id ∧ r.handle ∈ s.handles ∧ ∀ b, .answered .prepare r b ∉ s.log
  | .fire => ∃ c rt, s.runtime.pop = some (c, rt) ∧ c.callback = .roundTimeout
  | _ => False

theorem mem_outstanding (hp : Protocol s) (hr : s.round = some ρ) (hph : ρ.phase = .prepare)
    (hu : s.control = .user) {r : Responder} (hh : s.handedOut .prepare r = true) (hid : r.round = ρ.id)
    (hs : r.handle ∈ s.handles) (hno : ∀ b, .answered .prepare r b ∉ s.log) : r.handle ∈ ρ.outstanding := by
  obtain ⟨snap, hsnap, hall⟩ := hp.awaited ρ hr hph
  obtain ⟨-, id, hd⟩ := handedOut_iff.mp hh
  have hm := hp.prepared.visited id r hd snap _ (hid ▸ hsnap)
  rcases hall with hall | hall
  · simp [hu] at hall
  · rcases hall r.handle hm with h | h | h
    · exact h
    · exact absurd (show .answered .prepare r true ∈ s.log by rw [← hid] at h; exact h) (hno true)
    · exact absurd hs (hp.inv.gone _ h).1

theorem refusal_aborts (hp : Protocol s) (hr : s.round = some ρ)
    (hph : ρ.phase = .prepare) (hf : Refusal s ρ e) (h : step s e = some s₁) :
    s₁.control = .abort ∧ s₁.stage = s.stage ∧ s₁.pool = s.pool ∧ s₁.handles = s.handles := by
  cases trans_of_step h with
  | respondIgnored c r b hu hh hw =>
    cases c <;> cases b <;> simp only [Refusal] at hf
    exact absurd (mem_outstanding hp hr hph hu hh hf.1 hf.2.1 hf.2.2) (hw ρ hr hf.1.symm)
  | respondFalse c r ρ' hu hh hr' hid hm hph' => exact ⟨rfl, stage_eraseOutstanding s _, rfl, rfl⟩
  | respond c _ _ _ _ _ _ hr' _ _ hb | respondLast c _ _ _ _ _ _ hr' _ _ hb =>
    obtain rfl := Option.some.inj (hr.symm.trans hr')
    cases c <;> simp [Refusal, hb hph] at hf
  | fireStale c rt hu hpop hcb hr' => simp [hr] at hr'
  | fireRound c rt ρ' stats hu hpop hcb hr' hs =>
    obtain rfl := Option.some.inj (hr.symm.trans hr')
    exact ⟨by simp [hph], rfl, rfl, rfl⟩
  | fireLock c rt rt' hu hpop hcb hrt =>
    obtain ⟨c', rt'', hpop', hcb'⟩ := hf
    obtain ⟨rfl, -⟩ := Prod.mk.inj (Option.some.inj (hpop.symm.trans hpop'))
    simp [hcb] at hcb'
  | _ => simp [Refusal] at hf

theorem settled_of_ended (hp : Protocol s)
    (hd : .delivered .prepare id ⟨r, h⟩ ∈ s.log) (hh : h ∈ s.handles) (hr : ∀ ρ, s.round = some ρ → ρ.id ≠ r)
    (ha : ∀ n ∈ s.active, ¬ (n.command = .abort ∧ n.subject = r)) :
    s.log.countP (Entry.settles r h) = 1 := by
  have hone := hp.settled id ⟨r, h⟩ hd hh
  have hst : ∀ p id', s.stage ≠ some (r, p, id') := by
    intro p id' hs
    obtain ⟨ρ, hρ, he, -⟩ := round_of_stage hs
    exact hr ρ hρ he
  have howed : (s.active.map (·.owes r h)).sum = 0 := by
    refine sum_owes_eq_zero fun n hn => ?_
    rcases (hp.inv.notifications n hn).kind with ⟨-, -, hc | hc⟩ | ⟨-, -, hc⟩
    · exact .inl hc
    · exact .inr fun he => hst _ _ (he ▸ (hp.inv.notifications n hn).commit hc)
    · exact .inr fun he => ha n hn ⟨hc, he⟩
  have hund : s.undecided r = 0 := by
    unfold State.undecided
    split
    · rename_i r' id' hs
      rw [if_neg]
      rintro rfl
      exact hst _ _ hs
    · rfl
  simp only [State.outcomes, howed, hund] at hone
  exact hone

/-! ### The guarantee -/

/-- Two-phase commit, read off the log. -/
structure TwoPhaseSafe (s : State) : Prop where
  /-- A ticket is selected after everybody PREPARE was sent to agreed or left. -/
  agreed : ∀ l₁ l₂ r id, s.log = l₁ ++ .selected r id :: l₂ → ∃ snap cur, .prepared r snap cur ∈ l₂ ∧
    ∀ h ∈ snap, .answered .prepare ⟨r, h⟩ true ∈ l₂ ∨ .unsubscribed h ∈ l₂
  /-- PREPARE goes out once for each round. -/
  once : ∀ r snap cur snap' cur', .prepared r snap cur ∈ s.log → .prepared r snap' cur' ∈ s.log →
    snap = snap' ∧ cur = cur'
  /-- A refusal ends the round with the ticket in use that was in use when
  PREPARE was sent, and ABORT reaches everybody who does not leave first. -/
  refused : ∀ ρ e s₁, s.round = some ρ → ρ.phase = .prepare → Refusal s ρ e → step s e = some s₁ →
    ∃ s₂, step s₁ .proceed = some s₂ ∧ s₂.round = none ∧ s₂.pool = s.pool ∧
      (∃ snap, .prepared ρ.id snap s.pool.current ∈ s.log) ∧
      ∀ t, Run step Anything s₂ t → ∀ h ∈ s.handles, .delivered .abort ρ.newIdentifier ⟨ρ.id, h⟩ ∈ t.log ∨
        .unsubscribed h ∈ t.log ∨ ∃ n ∈ t.active, n.command = .abort ∧ n.subject = ρ.id ∧ h ∈ n.handles
  /-- When a round has ended and its ABORT, if any, is delivered, whoever
  received PREPARE and is still there has received one of COMMIT and ABORT. -/
  settled : ∀ r h id, .delivered .prepare id ⟨r, h⟩ ∈ s.log → h ∈ s.handles →
    (∀ ρ, s.round = some ρ → ρ.id ≠ r) → (∀ n ∈ s.active, ¬ (n.command = .abort ∧ n.subject = r)) →
    s.log.countP (Entry.settles r h) = 1

theorem refused_of_protocol (hp : Protocol s) (hr : s.round = some ρ)
    (hph : ρ.phase = .prepare) (hf : Refusal s ρ e) (h : step s e = some s₁) :
    ∃ s₂, step s₁ .proceed = some s₂ ∧ s₂.round = none ∧ s₂.pool = s.pool ∧
      (∃ snap, .prepared ρ.id snap s.pool.current ∈ s.log) ∧
      ∀ t, Run step Anything s₂ t → ∀ h ∈ s.handles, .delivered .abort ρ.newIdentifier ⟨ρ.id, h⟩ ∈ t.log ∨
        .unsubscribed h ∈ t.log ∨ ∃ n ∈ t.active, n.command = .abort ∧ n.subject = ρ.id ∧ h ∈ n.handles := by
  obtain ⟨hc, hs, hpool, hh⟩ := refusal_aborts hp hr hph hf h
  obtain ⟨ρ₁, hρ₁, hid, -, hnew⟩ := round_of_stage (hs.trans (stage_some hr))
  obtain ⟨snap, hsnap, -⟩ := hp.awaited ρ hr hph
  have hstep : step s₁ .proceed = s₁.abort := by
    unfold step
    rw [hc]
    simp only [State.proceed, hc]
  obtain ⟨s₂, hs₂⟩ : ∃ s₂, s₁.abort = some s₂ := ⟨_, by rw [State.abort, hρ₁]; rfl⟩
  have hp₂ : Protocol s₂ := protocol_step (protocol_step hp h) (hstep.trans hs₂)
  have he₂ : s₂.round = none ∧ s₂.pool = s₁.pool ∧
      .aborted ρ.id ρ.newIdentifier s.handles s₁.pool.current ∈ s₂.log := by
    rw [State.abort, hρ₁, Option.map_some, Option.some.injEq] at hs₂
    rw [← hs₂, ← hid, ← hnew, ← hh]
    exact ⟨rfl, rfl, mem_cons_self⟩
  refine ⟨s₂, hstep.trans hs₂, he₂.1, he₂.2.1.trans hpool, ⟨snap, hsnap⟩, fun t ht k hk => ?_⟩
  rcases (protocol_run hp₂ ht).aborted _ _ _ _ (log_mono_run hp₂ ht he₂.2.2) k hk with h | h | ⟨n, hn, h1, h2, -, h4⟩
  · exact .inl h
  · exact .inr (.inl h)
  · exact .inr (.inr ⟨n, hn, h1, h2, h4⟩)

/-- **Two-phase commit.** Every state the manager can reach is safe. -/
theorem two_phase_commit {pool : CertificatePool} {now : TimePoint} {s : State} (hp : pool.Wf)
    (h : Run step Anything (init pool now) s) : TwoPhaseSafe s := by
  have hs := protocol_run (protocol_init hp now) h
  exact
    { agreed := hs.acknowledged
      once := hs.prepared.unique
      refused := fun ρ e s₁ hr hph hf he => refused_of_protocol hs hr hph hf he
      settled := fun r h id hd hh hr ha => settled_of_ended hs hd hh hr ha }

/-- One subscriber agrees and the change goes through. -/
theorem two_phase_commit_sample : ∃ s, Run step Anything (init (samplePool .years) 0) s ∧
    s.stats.committed = 1 ∧ s.log.countP (Entry.settles 1 1) = 1 ∧ TwoPhaseSafe s := by
  obtain ⟨s, hs, hp⟩ := exists_run_of_exec (f := step) (C := Anything) (s := init (samplePool .years) 0)
    (p := fun s => s.stats.committed == 1 && s.log.countP (Entry.settles 1 1) == 1)
    (l := [.subscribe [], .trigger, .proceed, .proceed, .respond .prepare ⟨1, 1⟩ true, .ret, .proceed, .proceed,
      .proceed, .respond .commit ⟨1, 1⟩ true, .ret, .proceed, .proceed, .proceed, .proceed])
    (by decide +kernel)
  simp only [Bool.and_eq_true, beq_iff_eq] at hp
  exact ⟨s, hs, hp.1, hp.2, two_phase_commit (samplePool_wf .years) hs⟩

end VanetzaIdf.IdentityManager
