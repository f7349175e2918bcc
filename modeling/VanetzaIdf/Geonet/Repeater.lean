/-
# Repeated requests

`geonet/repeater.cpp` with a callback that executes the request and adds it
again while it carries a repetition, as `Router::request` does. Each turn takes
the interval and the delay of its timer off what is left of the maximum
(`Chain`). The clock may cut an interval short (`cast`).

Durations are rationals. The source subtracts doubles, whose rounding may add a
turn or take one away: the double next to 0.1 fits six times into the one next
to 0.7, and the source makes seven turns of it.
-/
import Mathlib.Algebra.Order.Floor.Semiring
import VanetzaIdf.Geonet.Router
import VanetzaIdf.Lib.Run

namespace VanetzaIdf.Geonet

open List Option Lib VanetzaIdf.Units

/-! ### One turn -/

/-- What `Repeater::trigger` leaves of a repetition whose timer is late by
this time. -/
def Repetition.afterTurn (p : Repetition) (delayed : Units.Duration) : Option Repetition :=
  let p' := p.decrementByOne
  let p' := { p' with maximum := p'.maximum - delayed }
  if p'.hasFurtherRepetition then some p' else none

theorem Router.triggerRepetition_eq {S : Type} [SecurityEntity S] (env : Environment) (r : Router S) (number : ℕ)
    (invocation : TimePoint) {req : DataRequest} {payload : ByteBuffer} (h : r.repetitions.lookup number =
      some (req, payload)) :
    r.triggerRepetition env number invocation =
      let r' := (r.request env { req with
        repetition := req.repetition.bind (·.afterTurn (ofClock (r.runtime.now - invocation))) } payload).2
      { r' with repetitions := r'.repetitions.filter (·.1 ≠ number) } := by
  have hleft : ((req.repetition.map fun p =>
      { p.decrementByOne with maximum := p.decrementByOne.maximum - ofClock (r.runtime.now - invocation) }).filter
        (·.hasFurtherRepetition)) = req.repetition.bind (·.afterTurn (ofClock (r.runtime.now - invocation))) := by
    rcases req.repetition with _ | p
    · rfl
    · rfl
  unfold triggerRepetition
  simp only [h]
  rw [hleft]

namespace Repetition

variable {p q : Repetition} {d : Units.Duration}

theorem hasFurtherRepetition_iff : p.hasFurtherRepetition = true ↔ 0 < p.interval ∧ p.interval ≤ p.maximum := by
  unfold hasFurtherRepetition
  rw [decide_eq_true_iff]
  constructor
  · rintro ⟨-, hi, hm⟩
    exact ⟨hi, hm⟩
  · rintro ⟨hi, hm⟩
    exact ⟨hi.trans_le hm, hi, hm⟩

theorem decrementByOne_interval (p : Repetition) : p.decrementByOne.interval = p.interval := by
  unfold decrementByOne
  split <;> rfl

theorem decrementByOne_maximum (hi : 0 < p.interval) (hm : p.interval ≤ p.maximum) :
    p.decrementByOne.maximum = p.maximum - p.interval := by
  unfold decrementByOne
  by_cases h : p.interval < p.maximum
  · rw [if_pos ⟨hi.trans h, hi, h⟩]
  · have heq : p.maximum = p.interval := le_antisymm (not_lt.mp h) hm
    rw [if_neg fun h' => h h'.2.2, heq, sub_self]

theorem afterTurn_eq (hi : 0 < p.interval) (hm : p.interval ≤ p.maximum) :
    p.afterTurn d = if p.interval ≤ p.maximum - p.interval - d then some ⟨p.interval, p.maximum - p.interval - d⟩
      else none := by
  have hleft : ({ p.decrementByOne with maximum := p.decrementByOne.maximum - d } : Repetition) =
      ⟨p.interval, p.maximum - p.interval - d⟩ := by
    simp only [decrementByOne_interval, decrementByOne_maximum hi hm]
  unfold afterTurn
  simp only [hleft, hasFurtherRepetition_iff, hi, true_and]

end Repetition

/-! ### The repeater and its runtime -/

namespace Repeater

/-- A `Repeater::Repetition` with the time its timer is scheduled for; `origin`
is the number of the request it goes back to. -/
structure Entry (α : Type) where
  origin : ℕ
  request : α
  repetition : Repetition
  deadline : Units.Duration
deriving DecidableEq, Repr

structure Original (α : Type) where
  request : α
  repetition : Repetition
  time : Units.Duration
deriving DecidableEq, Repr

structure Execution (α : Type) where
  origin : ℕ
  request : α
  time : Units.Duration
  delayed : Units.Duration
deriving DecidableEq, Repr

/-- `repetitions` is the repeater's list; what follows is a record of the run, with everything
ever scheduled in `added`. -/
structure State (α : Type) where
  now : Units.Duration := 0
  repetitions : List (Entry α) := []
  originals : List (Original α) := []
  executions : List (Execution α) := []
  added : List (Entry α) := []
deriving DecidableEq, Repr

/-- The runtime's clock moves, a request with a repetition is made, or the
runtime calls back for an entry of the list. -/
inductive Event (α : Type)
  | clock (now : Units.Duration)
  | request (request : α) (repetition : Repetition)
  | serve (index : ℕ)

variable {α : Type} (cast : Units.Duration → Units.Duration)

namespace State

/-- `Repeater::add`; `cast` is what the clock makes of an interval. -/
def add (s : State α) (origin : ℕ) (request : α) (repetition : Repetition) : State α :=
  if repetition.hasFurtherRepetition then
    let entry : Entry α := ⟨origin, request, repetition, s.now + cast repetition.interval⟩
    { s with repetitions := entry :: s.repetitions, added := entry :: s.added }
  else s

def execute (s : State α) (origin : ℕ) (request : α) : Option Repetition → State α
  | none => s
  | some repetition => s.add cast origin request repetition

/-- `Repeater::trigger` of the entry `e` at this place of the list. -/
def trigger (s : State α) (index : ℕ) (e : Entry α) : State α :=
  let delayed := s.now - e.deadline
  let s' : State α := { s with
    repetitions := s.repetitions.eraseIdx index
    executions := s.executions ++ [⟨e.origin, e.request, s.now, delayed⟩] }
  s'.execute cast e.origin e.request (e.repetition.afterTurn delayed)

/-- Timers are not served before their time, and in no particular order. -/
def step (s : State α) : Event α → Option (State α)
  | .clock now => some { s with now := now }
  | .request request repetition =>
    let s' : State α := { s with originals := s.originals ++ [⟨request, repetition, s.now⟩] }
    some (s'.execute cast s.originals.length request (some repetition))
  | .serve index =>
    match s.repetitions[index]? with
    | none => none
    | some e => if e.deadline ≤ s.now then some (s.trigger cast index e) else none

end State

/-! ### What a run does to one request

`View` is the part of the state that goes back to one request. A step leaves it
alone, makes the request, or serves one of its timers.
-/

structure View (α : Type) where
  original : Option (Original α)
  further : List (Execution α)
  waiting : List (Entry α)
  /-- What has ever been scheduled. -/
  scheduled : List (Entry α)

def State.view (s : State α) (o : ℕ) : View α where
  original := s.originals[o]?
  further := s.executions.filter (·.origin = o)
  waiting := s.repetitions.filter (·.origin = o)
  scheduled := s.added.filter (·.origin = o)

/-- The entry that an execution at this time adds. -/
def arranged (now : Units.Duration) (o : ℕ) (request : α) : Option Repetition → List (Entry α)
  | none => []
  | some p => if p.hasFurtherRepetition then [⟨o, request, p, now + cast p.interval⟩] else []

/-- What an event does to the view of one request. -/
inductive Change (o : ℕ) (v : View α) : View α → Prop
  | other : Change o v v
  | made (g : Original α) : v.original = none →
      Change o v ⟨some g, v.further, arranged cast g.time o g.request (some g.repetition) ++ v.waiting,
        arranged cast g.time o g.request (some g.repetition) ++ v.scheduled⟩
  | turn (e : Entry α) (l l' : List (Entry α)) (now : Units.Duration) : v.waiting = l ++ e :: l' → e.deadline ≤ now →
      Change o v ⟨v.original, v.further ++ [⟨o, e.request, now, now - e.deadline⟩],
        arranged cast now o e.request (e.repetition.afterTurn (now - e.deadline)) ++ (l ++ l'),
        arranged cast now o e.request (e.repetition.afterTurn (now - e.deadline)) ++ v.scheduled⟩

theorem execute_eq (s : State α) (o : ℕ) (request : α) (p : Option Repetition) :
    s.execute cast o request p = { s with
      repetitions := arranged cast s.now o request p ++ s.repetitions
      added := arranged cast s.now o request p ++ s.added } := by
  rcases p with _ | p
  · rfl
  · unfold State.execute State.add arranged
    by_cases h : p.hasFurtherRepetition = true
    · simp only [if_pos h, singleton_append]
    · simp only [if_neg h, nil_append]

variable {o index : ℕ} {e : Entry α} {g : Original α} {v w : View α}

theorem origin_of_arranged {now : Units.Duration} {request : α} {p : Option Repetition}
    (h : e ∈ arranged cast now o request p) : e.origin = o := by
  rcases p with _ | p
  · cases h
  · simp only [arranged] at h
    split_ifs at h
    · rw [mem_singleton] at h
      rw [h]
    · cases h

theorem filter_arranged (now : Units.Duration) (o o' : ℕ) (request : α) (p : Option Repetition) :
    (arranged cast now o' request p).filter (·.origin = o) = if o' = o then arranged cast now o' request p else [] := by
  split_ifs with h
  · rw [filter_eq_self]
    intro e he
    rw [origin_of_arranged cast he, decide_eq_true h]
  · rw [filter_eq_nil_iff]
    intro e he
    rw [origin_of_arranged cast he, decide_eq_true_iff]
    exact h

variable {cast} {s t : State α}

theorem eraseIdx_split {l : List (Entry α)} (h : l[index]? = some e) :
    ∃ before after, l = before ++ e :: after ∧ l.eraseIdx index = before ++ after := by
  obtain ⟨hlt, rfl⟩ := List.getElem?_eq_some_iff.mp h
  refine ⟨l.take index, l.drop (index + 1), ?_, eraseIdx_eq_take_drop_succ l index⟩
  rw [getElem_cons_drop, take_append_drop]

theorem request_change (s : State α) (request : α) (p : Repetition) (o : ℕ) :
    Change cast o (s.view o) (({ s with originals := s.originals ++ [⟨request, p, s.now⟩] } : State α).execute cast
      s.originals.length request (some p) |>.view o) := by
  rw [execute_eq]
  by_cases ho : s.originals.length = o
  · subst ho
    have hnone : (s.view s.originals.length).original = none := List.getElem?_eq_none le_rfl
    have hmade : Change cast s.originals.length _ _ := .made ⟨request, p, s.now⟩ hnone
    simpa [State.view, filter_arranged] using hmade
  · have hsame : (s.originals ++ [(⟨request, p, s.now⟩ : Original α)])[o]? = s.originals[o]? := by
      rcases lt_or_gt_of_ne ho with hlt | hgt
      · rw [List.getElem?_eq_none (by simpa using Nat.succ_le_of_lt hlt), List.getElem?_eq_none hlt.le]
      · exact List.getElem?_append_left hgt
    have hother : Change cast o (s.view o) _ := .other
    simpa [State.view, filter_arranged, ho, hsame] using hother

theorem trigger_change (h : s.repetitions[index]? = some e) (hdue : e.deadline ≤ s.now) (o : ℕ) :
    Change cast o (s.view o) ((s.trigger cast index e).view o) := by
  obtain ⟨l, l', hl, hrest⟩ := eraseIdx_split h
  unfold State.trigger
  simp only [execute_eq, hrest]
  by_cases ho : e.origin = o
  · subst ho
    have hturn : Change cast e.origin (s.view e.origin) _ :=
      .turn e (l.filter (·.origin = e.origin)) (l'.filter (·.origin = e.origin)) s.now (by simp [State.view, hl]) hdue
    simpa [State.view, filter_arranged] using hturn
  · have hother : Change cast o (s.view o) _ := .other
    simpa [State.view, filter_arranged, hl, ho] using hother

theorem serve_some (h : s.step cast (.serve index) = some t) :
    ∃ e, s.repetitions[index]? = some e ∧ e.deadline ≤ s.now ∧ t = s.trigger cast index e := by
  simp only [State.step] at h
  split at h
  · cases h
  · rename_i e he
    by_cases hdue : e.deadline ≤ s.now
    · rw [if_pos hdue] at h
      exact ⟨e, he, hdue, (some.inj h).symm⟩
    · rw [if_neg hdue] at h
      cases h

theorem step_change {a : Event α} (h : s.step cast a = some t) (o : ℕ) : Change cast o (s.view o) (t.view o) := by
  cases a with
  | clock now =>
    obtain rfl := some.inj h
    exact .other
  | request request p =>
    obtain rfl := some.inj h
    exact request_change s request p o
  | serve index =>
    obtain ⟨e, he, hdue, rfl⟩ := serve_some h
    exact trigger_change he hdue o

/-! ### What is left of a repetition -/

variable (cast) in
/-- What is left for the timer after `n` further executions. -/
structure Left (g : Original α) (n : ℕ) (e : Entry α) : Prop where
  request_eq : e.request = g.request
  interval_eq : e.repetition.interval = g.repetition.interval
  room : g.repetition.interval ≤ e.repetition.maximum
  maximum_le : e.repetition.maximum ≤ g.repetition.maximum - n * g.repetition.interval
  within : e.deadline - cast g.repetition.interval + e.repetition.maximum ≤ g.time + g.repetition.maximum

variable (cast) in
/-- Nothing is lost while no timer is late. -/
structure OnTime (g : Original α) (v : View α) : Prop where
  times : ∀ (k : ℕ) (x : Execution α), v.further[k]? = some x → x.time = g.time + (k + 1) * cast g.repetition.interval
  next : ∀ e ∈ v.waiting, e.deadline = g.time + (v.further.length + 1) * cast g.repetition.interval ∧
    e.repetition.maximum = g.repetition.maximum - v.further.length * g.repetition.interval
  done : v.waiting = [] → g.repetition.maximum < (v.further.length + 1) * g.repetition.interval

variable (cast) in
/-- At most one timer waits, and what was executed fits the maximum. -/
structure Chain (g : Original α) (v : View α) : Prop where
  request_eq : ∀ x ∈ v.further, x.request = g.request
  scheduled_le : ∀ e ∈ v.scheduled, e.deadline ≤ g.time + g.repetition.maximum
  count : v.further = [] ∨ v.further.length * g.repetition.interval ≤ g.repetition.maximum
  waiting : v.waiting = [] ∨ ∃ e, v.waiting = [e] ∧ Left cast g v.further.length e
  accounted : v.scheduled.length = v.further.length + v.waiting.length
  onTime : (∀ x ∈ v.further, x.delayed = 0) → OnTime cast g v

section Keeps

variable {g : Original α} {v : View α} {o : ℕ}

theorem Left.deadline_le {n : ℕ} {e : Entry α} (h : Left cast g n e)
    (hcast : cast g.repetition.interval ≤ g.repetition.interval) : e.deadline ≤ g.time + g.repetition.maximum := by
  have := h.room
  have := h.within
  linarith

theorem Left.turn {n : ℕ} {e : Entry α} (h : Left cast g n e)
    (hcast : cast g.repetition.interval ≤ g.repetition.interval)
    {now : Units.Duration} (hdue : e.deadline ≤ now)
    (hroom : g.repetition.interval ≤ e.repetition.maximum - g.repetition.interval - (now - e.deadline)) :
    Left cast g (n + 1) ⟨o, e.request, ⟨g.repetition.interval,
      e.repetition.maximum - g.repetition.interval - (now - e.deadline)⟩,
      now + cast g.repetition.interval⟩ where
  request_eq := h.request_eq
  interval_eq := rfl
  room := hroom
  maximum_le := by
    have hmax := h.maximum_le
    push_cast
    linarith
  within := by
    have hwithin := h.within
    show now + cast g.repetition.interval - cast g.repetition.interval +
      (e.repetition.maximum - g.repetition.interval - (now - e.deadline)) ≤ _
    linarith

theorem arranged_eq {p : Repetition} (hi : 0 < p.interval) (now : Units.Duration) (request : α) :
    arranged cast now o request (some p) =
      if p.interval ≤ p.maximum then [⟨o, request, p, now + cast p.interval⟩] else [] := by
  simp only [arranged, Repetition.hasFurtherRepetition_iff, hi, true_and]

theorem Chain.made (hi : 0 < g.repetition.interval) (hcast : cast g.repetition.interval ≤ g.repetition.interval) :
    Chain cast g ⟨some g, [], arranged cast g.time o g.request (some g.repetition),
      arranged cast g.time o g.request (some g.repetition)⟩ := by
  rw [arranged_eq hi]
  split_ifs with hm
  · have hleft : Left cast g 0 ⟨o, g.request, g.repetition, g.time + cast g.repetition.interval⟩ :=
      ⟨rfl, rfl, hm, by simp, by simp⟩
    refine ⟨by simp, ?_, .inl rfl, .inr ⟨_, rfl, hleft⟩, rfl, fun _ => ⟨by simp, by simp, by simp⟩⟩
    intro e he
    obtain rfl := mem_singleton.mp he
    exact hleft.deadline_le hcast
  · refine ⟨by simp, by simp, .inl rfl, .inl rfl, rfl, fun _ => ⟨by simp, by simp, fun _ => ?_⟩⟩
    simpa using hm

theorem Chain.left (h : Chain cast g v) {e : Entry α} (he : v.waiting = [e]) : Left cast g v.further.length e := by
  rcases h.waiting with hnil | ⟨e', he', hleft⟩
  · rw [he] at hnil
    cases hnil
  · rw [he, singleton_inj] at he'
    exact he' ▸ hleft

theorem OnTime.times_concat {e : Entry α} (h : OnTime cast g v) (he : v.waiting = [e]) {x : Execution α}
    (hx : x.time = e.deadline) : ∀ (k : ℕ) (y : Execution α), (v.further ++ [x])[k]? = some y →
      y.time = g.time + (k + 1) * cast g.repetition.interval := by
  intro k y hy
  rcases Nat.lt_trichotomy k v.further.length with hlt | heq | hgt
  · rw [List.getElem?_append_left hlt] at hy
    exact h.times k y hy
  · subst heq
    rw [List.getElem?_concat_length, some.injEq] at hy
    rw [← hy, hx]
    exact (h.next e (by rw [he]; exact mem_singleton_self e)).1
  · rw [List.getElem?_eq_none (by simpa using Nat.succ_le_of_lt hgt)] at hy
    cases hy

section Turn

variable {e : Entry α} {x : Execution α}

theorem Chain.request_concat (h : Chain cast g v) (he : v.waiting = [e]) (hx : x.request = e.request) :
    ∀ y ∈ v.further ++ [x], y.request = g.request := by
  refine forall_mem_append.mpr ⟨h.request_eq, forall_mem_singleton.mpr ?_⟩
  rw [hx]
  exact (h.left he).request_eq

theorem Chain.count_concat (h : Chain cast g v) (he : v.waiting = [e]) :
    ((v.further ++ [x]).length : ℚ) * g.repetition.interval ≤ g.repetition.maximum := by
  have hroom := (h.left he).room
  have hmax := (h.left he).maximum_le
  rw [length_append, length_singleton]
  push_cast
  linarith

theorem Chain.onTime_of_concat (h : Chain cast g v) (hall : ∀ y ∈ v.further ++ [x], y.delayed = 0) :
    x.delayed = 0 ∧ OnTime cast g v := by
  refine ⟨hall x (mem_append_right _ (mem_singleton_self x)), h.onTime fun y hy => ?_⟩
  exact hall y (mem_append_left _ hy)

variable {now : Units.Duration}

theorem Chain.turn_again (h : Chain cast g v) (hcast : cast g.repetition.interval ≤ g.repetition.interval)
    (he : v.waiting = [e]) (hdue : e.deadline ≤ now) {e' : Entry α}
    (he' : e' = ⟨o, e.request, ⟨g.repetition.interval,
      e.repetition.maximum - g.repetition.interval - (now - e.deadline)⟩,
      now + cast g.repetition.interval⟩) (hfit : g.repetition.interval ≤ e'.repetition.maximum) :
    Chain cast g ⟨v.original, v.further ++ [⟨o, e.request, now, now - e.deadline⟩], [e'], e' :: v.scheduled⟩ := by
  have hnext : Left cast g (v.further.length + 1) e' := by
    subst he'
    exact (h.left he).turn hcast hdue hfit
  have haccounted := h.accounted
  rw [he, length_singleton] at haccounted
  refine ⟨h.request_concat he rfl, ?_, .inr (h.count_concat he), .inr ⟨e', rfl, by simpa using hnext⟩, ?_,
    fun hall => ?_⟩
  · exact forall_mem_cons.mpr ⟨hnext.deadline_le hcast, h.scheduled_le⟩
  · simp [haccounted]
  · obtain ⟨hzero, htime⟩ := h.onTime_of_concat hall
    have hnow : now = e.deadline := sub_eq_zero.mp hzero
    obtain ⟨hd, hm⟩ := htime.next e (by rw [he]; exact mem_singleton_self e)
    refine ⟨htime.times_concat he hnow, ?_, nofun⟩
    intro y hy
    rw [mem_singleton.mp hy, he', length_append, length_singleton]
    push_cast
    constructor
    · show now + cast g.repetition.interval = _
      rw [hnow, hd]
      ring
    · show e.repetition.maximum - g.repetition.interval - (now - e.deadline) = _
      rw [hnow, hm]
      ring

theorem Chain.turn_last (h : Chain cast g v) (he : v.waiting = [e])
    (hfit : ¬g.repetition.interval ≤ e.repetition.maximum - g.repetition.interval - (now - e.deadline)) :
    Chain cast g ⟨v.original, v.further ++ [⟨o, e.request, now, now - e.deadline⟩], [], v.scheduled⟩ := by
  have haccounted := h.accounted
  rw [he, length_singleton] at haccounted
  refine ⟨h.request_concat he rfl, h.scheduled_le, .inr (h.count_concat he), .inl rfl, by simp [haccounted],
    fun hall => ?_⟩
  obtain ⟨hzero, htime⟩ := h.onTime_of_concat hall
  refine ⟨htime.times_concat he (sub_eq_zero.mp hzero), nofun, fun _ => ?_⟩
  obtain ⟨-, hm⟩ := htime.next e (by rw [he]; exact mem_singleton_self e)
  rw [length_append, length_singleton]
  push_cast
  rw [show now - e.deadline = 0 from hzero] at hfit
  linarith

theorem Chain.turn (h : Chain cast g v) (hi : 0 < g.repetition.interval)
    (hcast : cast g.repetition.interval ≤ g.repetition.interval) (he : v.waiting = [e])
 (hdue : e.deadline ≤ now) :
    Chain cast g ⟨v.original, v.further ++ [⟨o, e.request, now, now - e.deadline⟩],
      arranged cast now o e.request (e.repetition.afterTurn (now - e.deadline)),
      arranged cast now o e.request (e.repetition.afterTurn (now - e.deadline)) ++ v.scheduled⟩ := by
  have hinterval := (h.left he).interval_eq
  rw [Repetition.afterTurn_eq (hinterval ▸ hi) (hinterval ▸ (h.left he).room), hinterval]
  split_ifs with hfit
  · rw [arranged_eq, if_pos hfit]
    · exact h.turn_again hcast he hdue rfl hfit
    · exact hi
  · exact h.turn_last he hfit

end Turn

end Keeps

/-! ### Runs -/

variable (cast) in
/-- Nothing goes back to a request that was not made. -/
def Sound (v : View α) : Prop :=
  (v.original = none → v.further = [] ∧ v.waiting = [] ∧ v.scheduled = []) ∧
    ∀ g, v.original = some g → 0 < g.repetition.interval → cast g.repetition.interval ≤ g.repetition.interval →
      Chain cast g v

theorem Chain.alone (h : Chain cast g v) {l l' : List (Entry α)}
    (hw : v.waiting = l ++ e :: l') : l = [] ∧ l' = [] := by
  rcases h.waiting with hnil | ⟨e', he', -⟩
  · rw [hw] at hnil
    simp at hnil
  · rw [hw, append_eq_singleton_iff] at he'
    rcases he' with ⟨hl, htail⟩ | ⟨-, htail⟩
    · exact ⟨hl, (List.cons.inj htail).2⟩
    · cases htail

theorem Change.sound (h : Change cast o v w) (hv : Sound cast v) : Sound cast w := by
  obtain ⟨hnone, hchain⟩ := hv
  cases h with
  | other => exact ⟨hnone, hchain⟩
  | made g hg =>
    obtain ⟨hf, hw, hs⟩ := hnone hg
    refine ⟨nofun, ?_⟩
    rintro g' hg' hi hcast
    obtain rfl := some.inj hg'
    rw [hf, hw, hs, append_nil]
    exact .made hi hcast
  | turn e l l' now hw hdue =>
    refine ⟨fun hg => ?_, fun g hg hi hcast => ?_⟩
    · have := (hnone hg).2.1
      rw [hw] at this
      simp at this
    · have hc := hchain g hg hi hcast
      obtain ⟨rfl, rfl⟩ := hc.alone hw
      have := hc.turn (o := o) hi hcast hw hdue
      simpa using this

variable (cast) in
/-- From the start, by any events. -/
abbrev Reaches (s : State α) : Prop := Run (State.step cast) Anything {} s

theorem Reaches.sound (h : Reaches cast s) (o : ℕ) : Sound cast (s.view o) := by
  refine h.invariant (I := fun s => Sound cast (s.view o)) ⟨fun _ => ⟨rfl, rfl, rfl⟩, nofun⟩ ?_
  intro u v a hu _ hstep
  exact (step_change hstep o).sound hu

theorem Chain.count_le (h : Chain cast g v) (hi : 0 < g.repetition.interval) :
    v.scheduled.length ≤ ⌊g.repetition.maximum / g.repetition.interval⌋₊ := by
  rw [h.accounted]
  rcases h.waiting with hnil | ⟨e, he, hleft⟩
  · rw [hnil, length_nil, Nat.add_zero]
    rcases h.count with hnone | hle
    · simp [hnone]
    · exact Nat.le_floor ((le_div_iff₀ hi).mpr hle)
  · rw [he, length_singleton]
    have hroom := hleft.room
    have hmax := hleft.maximum_le
    apply Nat.le_floor
    rw [le_div_iff₀ hi]
    push_cast
    linarith

theorem Chain.count_eq (h : Chain cast g v) (hi : 0 < g.repetition.interval)
    (hall : ∀ x ∈ v.further, x.delayed = 0) (hdone : v.waiting = []) :
    v.further.length = ⌊g.repetition.maximum / g.repetition.interval⌋₊ := by
  have hle := h.count_le hi
  rw [h.accounted, hdone, length_nil, Nat.add_zero] at hle
  refine le_antisymm hle (Nat.lt_succ_iff.mp ?_)
  rw [Nat.succ_eq_add_one, Nat.floor_lt' (Nat.succ_ne_zero _), div_lt_iff₀ hi]
  push_cast
  exact (h.onTime hall).done hdone

theorem Change.over (h : Change cast o v w) (hg : v.original ≠ none) (hdone : v.waiting = []) : w.waiting = [] := by
  cases h with
  | other => exact hdone
  | made g hnone => exact absurd hnone hg
  | turn e l l' now hw _ =>
    rw [hw] at hdone
    simp at hdone

theorem Change.original_eq (h : Change cast o v w) (hg : v.original = some g) : w.original = some g := by
  cases h with
  | other | turn => exact hg
  | made g' hnone =>
    rw [hg] at hnone
    cases hnone

theorem Change.further_le (h : Change cast o v w) : v.further.length ≤ w.further.length := by
  cases h with
  | other | made => exact le_rfl
  | turn => simp

theorem trigger_further (s : State α) (index : ℕ) (e : Entry α) :
    ((s.trigger cast index e).view e.origin).further.length = (s.view e.origin).further.length + 1 := by
  unfold State.trigger
  simp [execute_eq, State.view]

/-! ### Endless runs -/

variable (cast) in
/-- An endless run in which every timer is served at some time, however late. -/
structure Fair (run : ℕ → State α) (events : ℕ → Event α) : Prop where
  step : ∀ n, (run n).step cast (events n) = some (run (n + 1))
  served : ∀ n, ∀ e ∈ (run n).repetitions,
    ∃ k ≥ n, ∃ index, events k = .serve index ∧ (run k).repetitions[index]? = some e

section Endless

variable {run : ℕ → State α} {events : ℕ → Event α} {o : ℕ}

theorem Fair.reaches (h : Fair cast run events) (h0 : Reaches cast (run 0)) (n : ℕ) : Reaches cast (run n) := by
  induction n with
  | zero => exact h0
  | succ n ih => exact ih.tail (events n) trivial (h.step n)

theorem Fair.original_eq (h : Fair cast run events) {g : Original α} (hg : ((run 0).view o).original = some g) (n : ℕ) :
    ((run n).view o).original = some g := by
  induction n with
  | zero => exact hg
  | succ n ih => exact (step_change (h.step n) o).original_eq ih

theorem Fair.further_mono (h : Fair cast run events) (o : ℕ) :
    Monotone fun n => ((run n).view o).further.length :=
  monotone_nat_of_le_succ fun n => (step_change (h.step n) o).further_le

theorem Fair.further_lt (h : Fair cast run events) {n : ℕ} (hw : ((run n).view o).waiting ≠ []) :
    ∃ k ≥ n, ((run n).view o).further.length < ((run k).view o).further.length := by
  obtain ⟨e, he⟩ := exists_mem_of_ne_nil _ hw
  obtain ⟨hmem, horigin⟩ := mem_filter.mp he
  obtain rfl : e.origin = o := of_decide_eq_true horigin
  obtain ⟨k, hk, index, hserve, hindex⟩ := h.served n e hmem
  have hstep := h.step k
  rw [hserve] at hstep
  obtain ⟨e', he', -, ht⟩ := serve_some hstep
  obtain rfl := some.inj (hindex.symm.trans he')
  refine ⟨k + 1, by omega, ?_⟩
  rw [ht, trigger_further]
  exact Nat.lt_succ_of_le (h.further_mono _ hk)

/-- The executions are bounded and every turn adds one, so the timers come to
an end. -/
theorem Fair.ends (h : Fair cast run events) {bound : ℕ}
    (hbound : ∀ n, ((run n).view o).further.length + ((run n).view o).waiting.length ≤ bound) :
    ∃ n, ((run n).view o).waiting = [] := by
  by_contra hnever
  have hlong : ∀ k, ∃ n, k ≤ ((run n).view o).further.length := by
    intro k
    induction k with
    | zero => exact ⟨0, Nat.zero_le _⟩
    | succ k ih =>
      obtain ⟨n, hn⟩ := ih
      obtain ⟨n', -, hlt⟩ := h.further_lt fun hdone => hnever ⟨n, hdone⟩
      exact ⟨n', by omega⟩
  obtain ⟨n, hn⟩ := hlong (bound + 1)
  have := hbound n
  omega

theorem Fair.over (h : Fair cast run events) {g : Original α} (hg : ((run 0).view o).original = some g) {n : ℕ}
    (hdone : ((run n).view o).waiting = []) : ∀ k ≥ n, ((run k).view o).waiting = [] := by
  intro k hk
  induction k, hk using Nat.le_induction with
  | base => exact hdone
  | succ k _ ih =>
    refine (step_change (h.step k) o).over ?_ ih
    rw [h.original_eq hg k]
    exact some_ne_none g

end Endless

/-! ### The schedule -/

theorem Reaches.chain (h : Reaches cast s) (hg : (s.view o).original = some g)
    (hi : 0 < g.repetition.interval) (hcast : cast g.repetition.interval ≤ g.repetition.interval) :
    Chain cast g (s.view o) :=
  (h.sound o).2 g hg hi hcast

/-- The clock of the source cuts intervals to microseconds. The bounds hold on
it as well, with differences of durations taken exactly. -/
theorem repetitions_on_clock (h : Reaches (fun d => ofClock (clockCast d)) s)
    (hg : (s.view o).original = some g) (hi : 0 < g.repetition.interval) :
    (∀ e ∈ (s.view o).scheduled, e.deadline ≤ g.time + g.repetition.maximum) ∧
      (s.view o).scheduled.length ≤ ⌊g.repetition.maximum / g.repetition.interval⌋₊ := by
  have hcast : ofClock (clockCast g.repetition.interval) ≤ g.repetition.interval := by
    have hnonneg : 0 ≤ g.repetition.interval * 1000000 := by positivity
    rw [ofClock, clockCast, truncate, if_pos hnonneg, div_le_iff₀ (by norm_num)]
    exact Int.floor_le _
  have hc := h.chain hg hi hcast
  exact ⟨hc.scheduled_le, hc.count_le hi⟩

/-- With exact times: as often as the interval fits into the maximum, at every interval while no
timer is late, and no more often if one is. -/
theorem repetition_schedule (h : Reaches id s) {o : ℕ} {g : Original α} (hg : (s.view o).original = some g)
    (hi : 0 < g.repetition.interval) :
    (∀ x ∈ (s.view o).further, x.request = g.request) ∧
    ((∀ x ∈ (s.view o).further, x.delayed = 0) →
      (∀ (k : ℕ) (x : Execution α), (s.view o).further[k]? = some x → x.time =
        g.time + (k + 1) * g.repetition.interval) ∧
      ((s.view o).waiting = [] → (s.view o).further.length = ⌊g.repetition.maximum / g.repetition.interval⌋₊)) ∧
    (∀ e ∈ (s.view o).scheduled, e.deadline ≤ g.time + g.repetition.maximum) ∧
    (s.view o).scheduled.length = (s.view o).further.length + (s.view o).waiting.length ∧
    (s.view o).scheduled.length ≤ ⌊g.repetition.maximum / g.repetition.interval⌋₊ ∧
    (g.repetition.maximum < g.repetition.interval → (s.view o).scheduled = [] ∧ (s.view o).further = []) ∧
    ∀ run events, run 0 = s → Fair id run events → ∃ n, ∀ k ≥ n, ((run k).view o).waiting = [] := by
  have hc : Chain id g (s.view o) := h.chain hg hi le_rfl
  have hle := hc.count_le hi
  refine ⟨hc.request_eq, fun hall => ⟨(hc.onTime hall).times, hc.count_eq hi hall⟩, hc.scheduled_le,
    hc.accounted, hle, ?_, ?_⟩
  · intro hm
    have hzero : ⌊g.repetition.maximum / g.repetition.interval⌋₊ = 0 := Nat.floor_eq_zero.mpr ((div_lt_one hi).mpr hm)
    have hnone : (s.view o).scheduled.length = 0 := by omega
    have haccounted := hc.accounted
    exact ⟨length_eq_zero_iff.mp hnone, length_eq_zero_iff.mp (by omega)⟩
  · rintro run events rfl hfair
    have hbound : ∀ n, ((run n).view o).further.length + ((run n).view o).waiting.length ≤
        ⌊g.repetition.maximum / g.repetition.interval⌋₊ := by
      intro n
      have hn := (hfair.reaches h n).chain (hfair.original_eq hg n) hi le_rfl
      exact hn.accounted ▸ hn.count_le hi
    obtain ⟨n, hn⟩ := hfair.ends hbound
    exact ⟨n, hfair.over hg hn⟩

/-- A request every 2 s for 5 s. Its first timer was served on time, and its
second is about to be. -/
def sample : State Unit :=
  let entry : Units.Duration → Units.Duration → Entry Unit := fun maximum deadline => ⟨0, (), ⟨2, maximum⟩, deadline⟩
  { now := 4, repetitions := [entry 3 4], originals := [⟨(), ⟨2, 5⟩, 0⟩], executions := [⟨0, (), 2, 0⟩],
    added := [entry 3 4, entry 5 2] }

def sampleRun : ℕ → State Unit
  | 0 => sample
  | _ + 1 => sample.trigger id 0 ⟨0, (), ⟨2, 3⟩, 4⟩

def sampleEvents : ℕ → Event Unit
  | 0 => .serve 0
  | _ + 1 => .clock 4

theorem sampleRun_fair : Fair id sampleRun sampleEvents where
  step := by
    have hserve : (sampleRun 0).step id (.serve 0) = some (sampleRun 1) := by decide +kernel
    have hclock : (sampleRun 1).step id (.clock 4) = some (sampleRun 1) := by decide +kernel
    rintro (_ | n)
    · exact hserve
    · exact hclock
  served := by
    have hnone : (sampleRun 1).repetitions = [] := by decide +kernel
    rintro (_ | n) e he
    · obtain rfl := mem_singleton.mp he
      exact ⟨0, le_rfl, 0, rfl, rfl⟩
    · rw [show sampleRun (n + 1) = sampleRun 1 from rfl, hnone] at he
      cases he

theorem sample_reached : Reaches id sample := by
  have h : exec (State.step id) Anything ({} : State Unit)
      [.request () ⟨2, 5⟩, .clock 2, .serve 0, .clock 4] = some sample := by decide +kernel
  exact run_of_exec h

theorem repetition_schedule_sample :
    (∀ e ∈ (sample.view 0).scheduled, e.deadline ≤ 5) ∧ ∃ n, ∀ k ≥ n, ((sampleRun k).view 0).waiting = [] := by
  obtain ⟨-, -, hle, -, -, -, hends⟩ :=
    repetition_schedule sample_reached (o := 0) (g := ⟨(), ⟨2, 5⟩, 0⟩) rfl (by decide +kernel)
  refine ⟨?_, hends sampleRun sampleEvents rfl sampleRun_fair⟩
  simpa using hle

/-- A third of a second is cut to 333333 µs, and fits three times into a
second. -/
theorem repetitions_on_clock_third : ∃ s : State Unit,
    (s.view 0).scheduled.map Entry.deadline = [999999 / 1000000, 666666 / 1000000, 333333 / 1000000] ∧
    (∀ e ∈ (s.view 0).scheduled, e.deadline ≤ 1) ∧ (s.view 0).scheduled.length ≤ ⌊(1 / (1 / 3) : ℚ)⌋₊ := by
  obtain ⟨s, hrun, hs⟩ := exists_run_of_exec (C := Anything) (s := ({} : State Unit))
    (f := State.step fun d => ofClock (clockCast d))
    (l := [.request () ⟨1 / 3, 1⟩, .clock (333333 / 1000000), .serve 0, .clock (666666 / 1000000), .serve 0,
      .clock (999999 / 1000000), .serve 0])
    (p := fun s => (s.view 0).original = some ⟨(), ⟨1 / 3, 1⟩, 0⟩ ∧
      (s.view 0).scheduled.map Entry.deadline = [999999 / 1000000, 666666 / 1000000, 333333 / 1000000])
    (by decide +kernel)
  obtain ⟨hg, hdeadlines⟩ := of_decide_eq_true hs
  obtain ⟨hle, hcount⟩ := repetitions_on_clock hrun hg (by norm_num)
  refine ⟨s, hdeadlines, fun e he => ?_, hcount⟩
  simpa using hle e he

end Repeater
end VanetzaIdf.Geonet
