/-
# Callbacks that call the runtime

`Process` is a runtime in the middle of `trigger`, which takes the first due entry
off the queue each time, or of `reset`, which has taken the whole queue away.

`Logged` numbers the callbacks. What waits was scheduled, has not been called, and
is not due before anything that `trigger` called meanwhile (`Tidy`). A callback
that `reset` has taken away is called although its scope has been cancelled since;
where that does not happen (`Reaches`), no cancelled callback is called.
-/
import VanetzaIdf.Runtime
import VanetzaIdf.Lib.OrderedIndex
import VanetzaIdf.Lib.Run

namespace VanetzaIdf

open List Option Lib ManualRuntime

/-! ### A runtime within a loop -/

/-- Where a runtime is: outside, or within a callback called by one of its
loops. What `rest` holds is to be called by `reset` after that. -/
inductive Control (σ κ : Type)
  | idle | trigger | reset (rest : List (ScheduledCallback σ κ))

structure Process (σ κ : Type) where
  runtime : ManualRuntime σ κ
  control : Control σ κ := .idle

namespace Process

variable {σ κ : Type} (p : Process σ κ)

def schedule (tp : TimePoint) (cb : κ) (scope : Option σ) : Process σ κ :=
  { p with runtime := p.runtime.schedule tp cb scope }

def cancel [DecidableEq σ] (scope : Option σ) : Process σ κ := { p with runtime := p.runtime.cancel scope }

inductive Loop
  | trigger (tp : TimePoint)
  | reset (tp : TimePoint)
  | finish
deriving DecidableEq, Repr

/-- A loop begins, or a callback of it ends; callbacks do not begin a loop.
`trigger` sets the clock, and `reset` also swaps the queue out. -/
def enter : Loop → Option (Process σ κ)
  | .trigger tp =>
    match p.control with
    | .idle => some ⟨p.runtime.setNow tp, .trigger⟩
    | _ => none
  | .reset tp =>
    match p.control with
    | .idle => some ⟨⟨tp, []⟩, .reset p.runtime.queue⟩
    | _ => none
  | .finish =>
    match p.control with
    | .idle => none
    | _ => some p

/-- The loop goes on with the callback it calls next, or it ends. -/
def proceed : Option (ScheduledCallback σ κ) × Process σ κ :=
  match p.control with
  | .idle => (none, p)
  | .trigger =>
    match p.runtime.pop with
    | some (c, rt) => (some c, { p with runtime := rt })
    | none => (none, { p with control := .idle })
  | .reset [] => (none, { p with control := .idle })
  | .reset (c :: rest) => (some c, { p with control := .reset rest })

/-- What `reset` took away and has not called. -/
def detached : List (ScheduledCallback σ κ) :=
  match p.control with
  | .reset rest => rest
  | _ => []

def pending : List (ScheduledCallback σ κ) := p.runtime.queue ++ p.detached

end Process

theorem enqueue_eq_insertUpper {σ κ : Type} (c : ScheduledCallback σ κ) :
    ∀ q : List (ScheduledCallback σ κ), enqueue c q = insertUpper (·.deadline) c q
  | [] => rfl
  | d :: q => by
    unfold enqueue
    rw [enqueue_eq_insertUpper c q]
    rfl

theorem pop_none {σ κ : Type} {rt : ManualRuntime σ κ} (hsorted : InOrder (·.deadline) rt.queue)
    (h : rt.pop = none) : ∀ c ∈ rt.queue, rt.now < c.deadline := by
  intro c hc
  unfold pop at h
  split at h
  · rename_i hq
    rw [hq] at hc
    exact absurd hc not_mem_nil
  · rename_i d q hq
    split_ifs at h with hd
    have hle := hsorted.head_le (a := d) (by rw [hq]; rfl) hc
    exact lt_of_lt_of_le (not_le.mp hd) hle

namespace Process

variable {σ κ : Type} {p p' : Process σ κ} {c : ScheduledCallback σ κ}

theorem enter_some {l : Loop} (h : p.enter l = some p') :
    p'.control ≠ .idle ∧ p'.pending = p.pending ∧ p'.runtime.queue.Sublist p.runtime.queue := by
  cases l with
  | trigger tp =>
    simp only [enter] at h
    split at h
    · rename_i hidle
      obtain rfl := some.inj h
      exact ⟨nofun, by rw [pending, pending, detached, detached, hidle]; rfl, .refl _⟩
    · cases h
  | reset tp =>
    simp only [enter] at h
    split at h
    · rename_i hidle
      obtain rfl := some.inj h
      exact ⟨nofun, by rw [pending, pending, detached, detached, hidle, append_nil]; rfl, nil_sublist _⟩
    · cases h
  | finish =>
    simp only [enter] at h
    split at h
    · cases h
    · rename_i hbusy
      obtain rfl := some.inj h
      exact ⟨hbusy, rfl, .refl _⟩

/-- What a call of a loop takes: from the queue, something due that has the
earliest deadline; from what was taken away, the first. -/
def Takes (p : Process σ κ) (c : ScheduledCallback σ κ) (p' : Process σ κ) : Prop :=
  p.control = .trigger ∧ p'.control = .trigger ∧ p.runtime.queue = c :: p'.runtime.queue ∧ c.deadline ≤ p.runtime.now ∨
    p.control = .reset (c :: p'.detached) ∧ p'.control = .reset p'.detached ∧ p'.runtime.queue = p.runtime.queue

theorem proceed_some (h : p.proceed = (some c, p')) : p.Takes c p' ∧ p'.runtime.now = p.runtime.now := by
  unfold proceed at h
  split at h
  · cases h
  · rename_i hcontrol
    split at h
    · rename_i d rt hpop
      obtain ⟨rfl, rfl⟩ : d = c ∧ _ = p' := by simpa using h
      obtain ⟨hq, hdue, hnow⟩ := pop_some hpop
      exact ⟨.inl ⟨hcontrol, hcontrol, hq, hdue⟩, hnow⟩
    · cases h
  · cases h
  · rename_i d rest hcontrol
    obtain ⟨rfl, rfl⟩ : d = c ∧ _ = p' := by simpa using h
    exact ⟨.inr ⟨hcontrol, rfl, rfl⟩, rfl⟩

theorem proceed_none (h : p.proceed = (none, p')) :
    p'.runtime = p.runtime ∧ p'.pending = p.pending ∧ (p.control = .trigger → p.runtime.pop = none) := by
  unfold proceed at h
  split at h
  · rename_i hcontrol
    obtain rfl : p = p' := by simpa using h
    exact ⟨rfl, rfl, by rw [hcontrol]; nofun⟩
  · rename_i hcontrol
    split at h
    · cases h
    · rename_i hpop
      obtain rfl : _ = p' := by simpa using h
      exact ⟨rfl, by rw [pending, pending, detached, detached, hcontrol], fun _ => hpop⟩
  · rename_i hcontrol
    obtain rfl : _ = p' := by simpa using h
    exact ⟨rfl, by rw [pending, pending, detached, detached, hcontrol], by rw [hcontrol]; nofun⟩
  · cases h

theorem Takes.perm (h : p.Takes c p') : p.pending.Perm (c :: p'.pending) := by
  obtain ⟨hcontrol, hcontrol', hq, -⟩ | ⟨hcontrol, hcontrol', hq⟩ := h
  · rw [pending, pending, detached, detached, hcontrol, hcontrol', hq]
    exact .refl _
  · rw [pending, pending, hq, show p.detached = c :: p'.detached by rw [detached, hcontrol]]
    exact perm_middle

theorem Takes.sublist (h : p.Takes c p') : p'.runtime.queue.Sublist p.runtime.queue := by
  obtain ⟨-, -, hq, -⟩ | ⟨-, -, hq⟩ := h
  · rw [hq]
    exact sublist_cons_self _ _
  · rw [hq]

end Process

/-! ### The log -/

/-- Which loop. -/
inductive Mode
  | trigger | reset
deriving DecidableEq, Repr

def Control.mode {σ κ : Type} : Control σ κ → Mode
  | .reset _ => .reset
  | _ => .trigger

/-- What happened. A callback is known by its number. -/
inductive Entry (σ : Type)
  | scheduled (c : ScheduledCallback σ ℕ)
  | cancelled (scope : Option σ)
  | called (mode : Mode) (now : TimePoint) (c : ScheduledCallback σ ℕ)
  | returned (mode : Mode)
deriving DecidableEq, Repr

structure Logged (σ : Type) where
  process : Process σ ℕ
  next : ℕ := 0
  log : List (Entry σ) := []

/-- Calls from outside or from within a callback, and rounds of a loop. -/
inductive RuntimeEvent (σ : Type)
  | schedule (tp : TimePoint) (scope : Option σ)
  | cancel (scope : Option σ)
  | loop (l : Process.Loop)

namespace Logged

variable {σ : Type}

def start (now : TimePoint) : Logged σ := { process := { runtime := { now := now } } }

def proceed (m : Logged σ) : Logged σ :=
  let r := m.process.proceed
  let entry := match r.1 with
    | some c => .called m.process.control.mode m.process.runtime.now c
    | none => .returned m.process.control.mode
  { m with process := r.2, log := entry :: m.log }

def step [DecidableEq σ] (m : Logged σ) : RuntimeEvent σ → Option (Logged σ)
  | .schedule tp scope =>
    some ⟨m.process.schedule tp m.next scope, m.next + 1, .scheduled ⟨tp, m.next, scope⟩ :: m.log⟩
  | .cancel scope => some { m with process := m.process.cancel scope, log := .cancelled scope :: m.log }
  | .loop l => (m.process.enter l).map fun p => proceed { m with process := p }

end Logged

/-! ### What is claimed of a log -/

section Claims

variable {σ : Type}

/-- The callback was scheduled with a scope that has been cancelled since. -/
def Withdrawn (c : ScheduledCallback σ ℕ) : List (Entry σ) → Prop
  | [] => False
  | e :: before => (∃ s, e = .cancelled (some s) ∧ c.scope = some s ∧ .scheduled c ∈ before) ∨ Withdrawn c before

/-- Nothing with a later deadline was called by `trigger` while this one
waited. -/
def Behind (d : ScheduledCallback σ ℕ) : List (Entry σ) → Prop
  | [] => True
  | e :: before =>
    (∀ now c, e = .called .trigger now c → .scheduled d ∈ before → c.deadline ≤ d.deadline) ∧ Behind d before

/-- A call is of something scheduled and not called before; if `trigger` calls
it is due; and it does not come after a later one. -/
def InTurn (e : Entry σ) (before : List (Entry σ)) : Prop :=
  ∀ mode now c, e = .called mode now c →
    .scheduled c ∈ before ∧ (∀ mode' now' d, .called mode' now' d ∈ before → d.callback ≠ c.callback) ∧
    (mode = .trigger → c.deadline ≤ now) ∧ Behind c before

/-- A call is not of something withdrawn. -/
def Wanted (e : Entry σ) (before : List (Entry σ)) : Prop :=
  ∀ mode now c, e = .called mode now c → ¬Withdrawn c before

/-- What waits, as the log knows it. -/
structure Tidy (log : List (Entry σ)) (next : ℕ) (pending : List (ScheduledCallback σ ℕ)) : Prop where
  scheduled : ∀ c ∈ pending, .scheduled c ∈ log
  numbered : ∀ c, .scheduled c ∈ log → c.callback < next
  known : ∀ mode now d, .called mode now d ∈ log → d.callback < next
  distinct : (pending.map (·.callback)).Nodup
  uncalled : ∀ c ∈ pending, ∀ mode now d, .called mode now d ∈ log → d.callback ≠ c.callback
  behind : ∀ c ∈ pending, Behind c log

variable {log : List (Entry σ)} {next : ℕ} {pending rest : List (ScheduledCallback σ ℕ)} {c : ScheduledCallback σ ℕ}

theorem behind_of_unscheduled (h : .scheduled c ∉ log) : Behind c log := by
  induction log with
  | nil => trivial
  | cons e log ih =>
    obtain ⟨-, hlog⟩ := not_or.mp (mt mem_cons.mpr h)
    exact ⟨fun _ _ _ hmem => absurd hmem hlog, ih hlog⟩

theorem Withdrawn.scheduled (h : Withdrawn c log) : .scheduled c ∈ log := by
  induction log with
  | nil => exact absurd h not_false
  | cons e log ih =>
    obtain ⟨s, -, -, hmem⟩ | h := h
    · exact mem_cons_of_mem _ hmem
    · exact mem_cons_of_mem _ (ih h)

theorem Tidy.fresh (h : Tidy log next pending) (hc : c.callback = next) : .scheduled c ∉ log := by
  intro hmem
  have hlt := h.numbered c hmem
  omega

theorem Tidy.schedule (h : Tidy log next pending) (hc : c.callback = next) (hrest : rest.Perm (c :: pending)) :
    Tidy (.scheduled c :: log) (next + 1) rest where
  scheduled d hd := by
    obtain rfl | hd := mem_cons.mp (hrest.mem_iff.mp hd)
    · exact mem_cons_self
    · exact mem_cons_of_mem _ (h.scheduled d hd)
  numbered d hd := by
    obtain heq | hd := mem_cons.mp hd
    · obtain rfl := Entry.scheduled.inj heq
      omega
    · exact Nat.lt_succ_of_lt (h.numbered d hd)
  known mode now d hd := by
    obtain heq | hd := mem_cons.mp hd
    · cases heq
    · exact Nat.lt_succ_of_lt (h.known mode now d hd)
  distinct := by
    rw [(hrest.map _).nodup_iff, map_cons, nodup_cons]
    refine ⟨fun hmem => ?_, h.distinct⟩
    obtain ⟨d, hd, heq⟩ := mem_map.mp hmem
    have hlt := h.numbered d (h.scheduled d hd)
    omega
  uncalled d hd mode now d' hd' := by
    have hcalled : .called mode now d' ∈ log := (mem_cons.mp hd').resolve_left nofun
    obtain rfl | hd := mem_cons.mp (hrest.mem_iff.mp hd)
    · have hlt := h.known mode now d' hcalled
      omega
    · exact h.uncalled d hd mode now d' hcalled
  behind d hd := by
    refine ⟨nofun, ?_⟩
    obtain rfl | hd := mem_cons.mp (hrest.mem_iff.mp hd)
    · exact behind_of_unscheduled (h.fresh hc)
    · exact h.behind d hd

/-- An entry that neither schedules nor calls. -/
def Entry.IsNote : Entry σ → Prop
  | .cancelled _ | .returned _ => True
  | _ => False

variable {e : Entry σ}

theorem Entry.IsNote.ne_scheduled (h : e.IsNote) (c : ScheduledCallback σ ℕ) : e ≠ .scheduled c := by
  rintro rfl
  exact h

theorem Entry.IsNote.ne_called (h : e.IsNote) (mode : Mode) (now : TimePoint) (c : ScheduledCallback σ ℕ) :
    e ≠ .called mode now c := by
  rintro rfl
  exact h

theorem Tidy.note (h : Tidy log next pending) (he : e.IsNote) (hrest : rest.Sublist pending) :
    Tidy (e :: log) next rest where
  scheduled d hd := mem_cons_of_mem _ (h.scheduled d (hrest.subset hd))
  numbered d hd := h.numbered d ((mem_cons.mp hd).resolve_left (he.ne_scheduled d).symm)
  known mode now d hd := h.known mode now d ((mem_cons.mp hd).resolve_left (he.ne_called mode now d).symm)
  distinct := h.distinct.sublist (hrest.map _)
  uncalled d hd mode now d' hd' :=
    h.uncalled d (hrest.subset hd) mode now d' ((mem_cons.mp hd').resolve_left (he.ne_called mode now d').symm)
  behind d hd := ⟨fun now c heq => absurd heq (he.ne_called _ now c), h.behind d (hrest.subset hd)⟩

theorem Tidy.call (h : Tidy log next pending) {mode : Mode} {now : TimePoint} (hperm : pending.Perm (c :: rest))
    (hfirst : mode = .trigger → ∀ d ∈ rest, c.deadline ≤ d.deadline) : Tidy (.called mode now c :: log) next rest where
  scheduled d hd := mem_cons_of_mem _ (h.scheduled d (hperm.mem_iff.mpr (mem_cons_of_mem _ hd)))
  numbered d hd := by
    obtain heq | hd := mem_cons.mp hd
    · cases heq
    · exact h.numbered d hd
  known mode' now' d hd := by
    obtain heq | hd := mem_cons.mp hd
    · obtain ⟨-, -, rfl⟩ := Entry.called.inj heq
      exact h.numbered d (h.scheduled d (hperm.mem_iff.mpr mem_cons_self))
    · exact h.known mode' now' d hd
  distinct := by
    have hnodup := (hperm.map (·.callback)).nodup_iff.mp h.distinct
    exact (nodup_cons.mp hnodup).2
  uncalled d hd mode' now' d' hd' := by
    obtain heq | hd' := mem_cons.mp hd'
    · obtain ⟨-, -, rfl⟩ := Entry.called.inj heq
      have hnodup := (hperm.map (·.callback)).nodup_iff.mp h.distinct
      intro hsame
      apply (nodup_cons.mp hnodup).1
      show d'.callback ∈ _
      rw [hsame]
      exact mem_map_of_mem hd
    · exact h.uncalled d (hperm.mem_iff.mpr (mem_cons_of_mem _ hd)) mode' now' d' hd'
  behind d hd := by
    refine ⟨fun now' c' heq _ => ?_, h.behind d (hperm.mem_iff.mpr (mem_cons_of_mem _ hd))⟩
    obtain ⟨rfl, -, rfl⟩ := Entry.called.inj heq
    exact hfirst rfl d hd

theorem Tidy.inTurn (h : Tidy log next pending) {mode : Mode} {now : TimePoint} (hc : c ∈ pending)
    (hdue : mode = .trigger → c.deadline ≤ now) : InTurn (.called mode now c) log := by
  intro mode' now' c' heq
  obtain ⟨rfl, rfl, rfl⟩ := Entry.called.inj heq
  exact ⟨h.scheduled c hc, h.uncalled c hc, hdue, h.behind c hc⟩

end Claims

/-! ### Runs -/

namespace Logged

variable {σ : Type} {m : Logged σ}

/-- The queue is in order, and so were the calls. -/
structure Sound (m : Logged σ) : Prop where
  sorted : InOrder (·.deadline) m.process.runtime.queue
  tidy : Tidy m.log m.next m.process.pending
  turns : Each InTurn m.log

/-- What `trigger` leaves in the queue when it returns is not due. -/
def Served (m : Logged σ) : Prop :=
  m.log.head? = some (.returned .trigger) → ∀ c ∈ m.process.runtime.queue, m.process.runtime.now < c.deadline

theorem sound_start (now : TimePoint) : (start now : Logged σ).Sound where
  sorted := List.Pairwise.nil
  tidy := ⟨nofun, nofun, nofun, nodup_nil, nofun, nofun⟩
  turns := trivial

theorem first_of_takes (h : m.Sound) {p' : Process σ ℕ} {c : ScheduledCallback σ ℕ} (htakes : m.process.Takes c p')
    (hmode : m.process.control.mode = .trigger) :
    c.deadline ≤ m.process.runtime.now ∧ ∀ d ∈ p'.pending, c.deadline ≤ d.deadline := by
  obtain ⟨-, hcontrol', hq, hdue⟩ | ⟨hcontrol, -, -⟩ := htakes
  · refine ⟨hdue, fun d hd => ?_⟩
    rw [Process.pending, Process.detached, hcontrol', append_nil] at hd
    have hsorted := h.sorted
    rw [hq] at hsorted
    exact (pairwise_cons.mp hsorted).1 d hd
  · rw [hcontrol] at hmode
    cases hmode

theorem proceed_sound (h : m.Sound) : m.proceed.Sound ∧ (m.process.control ≠ .idle → m.proceed.Served) := by
  unfold proceed
  cases hp : m.process.proceed with
  | mk call p' =>
    cases call with
    | none =>
      obtain ⟨hrt, hpending, hpop⟩ := Process.proceed_none hp
      refine ⟨⟨hrt ▸ h.sorted, h.tidy.note trivial (hpending ▸ List.Sublist.refl _), nofun, h.turns⟩,
        fun hidle hreturned => ?_⟩
      dsimp only at hreturned ⊢
      rw [hrt]
      apply pop_none h.sorted
      cases hm : m.process.control with
      | idle => exact absurd hm hidle
      | trigger => exact hpop hm
      | reset rest =>
        rw [hm] at hreturned
        cases hreturned
    | some c =>
      obtain ⟨htakes, -⟩ := Process.proceed_some hp
      have hc : c ∈ m.process.pending := htakes.perm.mem_iff.mpr mem_cons_self
      have hfirst := first_of_takes h htakes
      exact ⟨⟨h.sorted.sublist htakes.sublist, h.tidy.call htakes.perm fun hmode => (hfirst hmode).2,
        h.tidy.inTurn hc fun hmode => (hfirst hmode).1, h.turns⟩, fun _ hreturned => nomatch hreturned⟩

theorem schedule_sound (h : m.Sound) (tp : TimePoint) (scope : Option σ) :
    Sound ⟨m.process.schedule tp m.next scope, m.next + 1, .scheduled ⟨tp, m.next, scope⟩ :: m.log⟩ where
  sorted := by
    show InOrder _ (ManualRuntime.enqueue _ _)
    rw [enqueue_eq_insertUpper]
    exact h.sorted.insertUpper _
  tidy := h.tidy.schedule rfl ((enqueue_perm _ _).append_right _)
  turns := ⟨nofun, h.turns⟩

variable [DecidableEq σ]

theorem cancel_sublist (rt : ManualRuntime σ ℕ) (scope : Option σ) : (rt.cancel scope).queue.Sublist rt.queue := by
  cases scope with
  | none => exact .refl _
  | some s => exact filter_sublist

theorem cancel_sound (h : m.Sound) (scope : Option σ) :
    Sound { m with process := m.process.cancel scope, log := .cancelled scope :: m.log } where
  sorted := h.sorted.sublist (cancel_sublist _ scope)
  tidy := h.tidy.note trivial ((cancel_sublist _ scope).append_right _)
  turns := ⟨nofun, h.turns⟩

theorem step_sound {m' : Logged σ} {e : RuntimeEvent σ} (h : m.Sound) (hstep : step m e = some m') :
    m'.Sound ∧ m'.Served := by
  cases e with
  | schedule tp scope =>
    obtain rfl := some.inj hstep
    exact ⟨schedule_sound h tp scope, nofun⟩
  | cancel scope =>
    obtain rfl := some.inj hstep
    exact ⟨cancel_sound h scope, nofun⟩
  | loop l =>
    obtain ⟨p, henter, rfl⟩ := map_eq_some_iff.mp hstep
    obtain ⟨hbusy, hpending, hqueue⟩ := Process.enter_some henter
    have hp : Sound { m with process := p } := ⟨h.sorted.sublist hqueue, hpending ▸ h.tidy, h.turns⟩
    obtain ⟨hsound, hserved⟩ := proceed_sound hp
    exact ⟨hsound, hserved hbusy⟩

/-! ### Cancelled callbacks -/

/-- A scope is not cancelled while a callback of it waits in what `reset` took
away, where `cancel` does not look. -/
def Reaches (m : Logged σ) : RuntimeEvent σ → Prop
  | .cancel (some s) => ∀ c ∈ m.process.detached, c.scope ≠ some s
  | _ => True

instance (m : Logged σ) : ∀ e : RuntimeEvent σ, Decidable (m.Reaches e)
  | .cancel (some s) => inferInstanceAs (Decidable (∀ c ∈ m.process.detached, c.scope ≠ some s))
  | .cancel none | .schedule _ _ | .loop _ => inferInstanceAs (Decidable True)

/-- What waits has not been withdrawn, nor had anything that was called. -/
structure Kept (m : Logged σ) : Prop where
  pending : ∀ c ∈ m.process.pending, ¬Withdrawn c m.log
  calls : Each Wanted m.log

omit [DecidableEq σ] in
theorem schedule_kept (h : m.Sound) (hk : m.Kept) (tp : TimePoint) (scope : Option σ) :
    Kept ⟨m.process.schedule tp m.next scope, m.next + 1, .scheduled ⟨tp, m.next, scope⟩ :: m.log⟩ where
  pending c hc := by
    rintro (⟨s, heq, -⟩ | hwithdrawn)
    · cases heq
    have hperm : (m.process.schedule tp m.next scope).pending.Perm (⟨tp, m.next, scope⟩ :: m.process.pending) :=
      (enqueue_perm _ _).append_right _
    obtain rfl | hc := mem_cons.mp (hperm.mem_iff.mp hc)
    · exact h.tidy.fresh rfl hwithdrawn.scheduled
    · exact hk.pending c hc hwithdrawn
  calls := ⟨nofun, hk.calls⟩

theorem cancel_kept (hk : m.Kept) {scope : Option σ} (hreaches : m.Reaches (.cancel scope)) :
    Kept { m with process := m.process.cancel scope, log := .cancelled scope :: m.log } where
  pending c hc := by
    have hpending : c ∈ m.process.pending := ((cancel_sublist _ scope).append_right _).subset hc
    rintro (⟨s, heq, hs, -⟩ | hwithdrawn)
    · obtain rfl := Entry.cancelled.inj heq
      obtain hqueue | hdetached := mem_append.mp hc
      · exact (mem_cancel.mp hqueue).2 hs
      · exact hreaches c hdetached hs
    · exact hk.pending c hpending hwithdrawn
  calls := ⟨nofun, hk.calls⟩

omit [DecidableEq σ] in
theorem proceed_kept (hk : m.Kept) : m.proceed.Kept := by
  unfold proceed
  cases hp : m.process.proceed with
  | mk call p' =>
    cases call with
    | none =>
      obtain ⟨-, hpending, -⟩ := Process.proceed_none hp
      refine ⟨fun c hc => ?_, nofun, hk.calls⟩
      rintro (⟨s, heq, -⟩ | hwithdrawn)
      · cases heq
      · exact hk.pending c (hpending ▸ hc) hwithdrawn
    | some c =>
      have hperm := (Process.proceed_some hp).1.perm
      refine ⟨fun d hd => ?_, fun mode now d heq => ?_, hk.calls⟩
      · rintro (⟨s, heq, -⟩ | hwithdrawn)
        · cases heq
        · exact hk.pending d (hperm.mem_iff.mpr (mem_cons_of_mem _ hd)) hwithdrawn
      · obtain ⟨-, -, rfl⟩ := Entry.called.inj heq
        exact hk.pending c (hperm.mem_iff.mpr mem_cons_self)

theorem step_kept {m' : Logged σ} {e : RuntimeEvent σ} (h : m.Sound) (hk : m.Kept) (hreaches : m.Reaches e)
    (hstep : step m e = some m') : m'.Kept := by
  cases e with
  | schedule tp scope =>
    obtain rfl := some.inj hstep
    exact schedule_kept h hk tp scope
  | cancel scope =>
    obtain rfl := some.inj hstep
    exact cancel_kept hk hreaches
  | loop l =>
    obtain ⟨p, henter, rfl⟩ := map_eq_some_iff.mp hstep
    have hpending := (Process.enter_some henter).2.1
    exact proceed_kept ⟨hpending ▸ hk.pending, hk.calls⟩

/-- **Callbacks in turn:** once at most, when they are due and in the order of their deadlines. If
no scope is cancelled that `reset` has still to call, nothing is called whose scope has been
cancelled. -/
theorem callbacks_in_turn (now : TimePoint) :
    (∀ m : Logged σ, Run step Anything (start now) m → Each InTurn m.log ∧ m.Served) ∧
    ∀ m : Logged σ, Run step Reaches (start now) m → Each Wanted m.log := by
  refine ⟨fun m hrun => ?_, fun m hrun => ?_⟩
  · have hinv : m.Sound ∧ m.Served := hrun.invariant (I := fun m => m.Sound ∧ m.Served) ⟨sound_start now, nofun⟩
      fun e h _ hstep => step_sound h.1 hstep
    exact ⟨hinv.1.turns, hinv.2⟩
  · have hinv : m.Sound ∧ m.Kept := hrun.invariant (I := fun m => m.Sound ∧ m.Kept) ⟨sound_start now, nofun, trivial⟩
      fun e h hreaches hstep => ⟨(step_sound h.1 hstep).1, step_kept h.1 h.2 hreaches hstep⟩
    exact hinv.2.calls

theorem callbacks_in_turn_cancelled : ∃ m : Logged ℕ, Run step Reaches (start 0) m ∧
    m.log.head? = some (.called .trigger 5 ⟨2, 1, none⟩) ∧ Each InTurn m.log ∧ Each Wanted m.log := by
  have hrun : exec step Reaches (start 0 : Logged ℕ)
      [.schedule 1 (some 7), .schedule 2 none, .cancel (some 7), .loop (.trigger 5)] = some _ := rfl
  have hreaches := run_of_exec hrun
  have hturns := (callbacks_in_turn 0).1 _ (hreaches.mono fun _ _ _ => trivial)
  exact ⟨_, hreaches, rfl, hturns.1, (callbacks_in_turn 0).2 _ hreaches⟩

/-- The first callback of a `reset` cancels the scope of the second, which is
called nevertheless. -/
theorem cancelled_callback_called : ∃ m : Logged ℕ, Run step Anything (start 0) m ∧ ¬Each Wanted m.log := by
  have hrun : exec step Anything (start 0 : Logged ℕ)
      [.schedule 1 none, .schedule 2 (some 7), .loop (.reset 0), .cancel (some 7), .loop .finish] = some _ := rfl
  refine ⟨_, run_of_exec hrun, fun h => ?_⟩
  exact h.1 .reset 0 ⟨2, 1, some 7⟩ rfl (.inl ⟨7, rfl, rfl, mem_cons_of_mem _ mem_cons_self⟩)

end Logged

end VanetzaIdf
