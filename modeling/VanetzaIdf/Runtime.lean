/-
# ManualRuntime

`vanetza/common/manual_runtime.cpp`: a clock and callbacks ordered by deadline,
those of one deadline as they were scheduled. Callbacks are names (`κ`), and
whoever runs the runtime says what a name does. A scope (`σ`) is the pointer a
callback is cancelled by; `none` is the null pointer. `trigger` is `setNow`, and
`pop` for one due callback at a time, as it may schedule and cancel.
-/
import Mathlib.Data.List.Basic
import Mathlib.Data.Int.Order.Basic

namespace VanetzaIdf

/-- `Clock::time_point`: microseconds since 2004-01-01. -/
abbrev TimePoint := ℤ

/-- `Clock::duration`: microseconds. -/
abbrev Duration := ℤ

/-- `std::chrono::seconds` as a `Clock::duration`. -/
def seconds (n : ℤ) : Duration := n * 1000000

/-- `ManualRuntime::ScheduledCallback`. -/
structure ScheduledCallback (σ κ : Type) where
  deadline : TimePoint
  callback : κ
  scope : Option σ
deriving DecidableEq, Repr

structure ManualRuntime (σ κ : Type) where
  now : TimePoint
  queue : List (ScheduledCallback σ κ) := []
deriving DecidableEq, Repr

namespace ManualRuntime

variable {σ κ : Type}

/-- The queue with one more callback, after those with the same deadline. -/
def enqueue (c : ScheduledCallback σ κ) : List (ScheduledCallback σ κ) → List (ScheduledCallback σ κ)
  | [] => [c]
  | d :: q => if c.deadline < d.deadline then c :: d :: q else d :: enqueue c q

def schedule (rt : ManualRuntime σ κ) (tp : TimePoint) (cb : κ) (scope : Option σ) : ManualRuntime σ κ :=
  { rt with queue := enqueue ⟨tp, cb, scope⟩ rt.queue }

def scheduleIn (rt : ManualRuntime σ κ) (d : Duration) (cb : κ) (scope : Option σ) : ManualRuntime σ κ :=
  rt.schedule (rt.now + d) cb scope

/-- `cancel(scope)`: drops every callback of the scope; a null scope has none. -/
def cancel [DecidableEq σ] (rt : ManualRuntime σ κ) : Option σ → ManualRuntime σ κ
  | none => rt
  | some c => { rt with queue := rt.queue.filter (·.scope ≠ some c) }

/-- The clock part of `trigger(time_point)`. -/
def setNow (rt : ManualRuntime σ κ) (tp : TimePoint) : ManualRuntime σ κ := { rt with now := tp }

/-- The next due callback, taken out of the queue. -/
def pop (rt : ManualRuntime σ κ) : Option (ScheduledCallback σ κ × ManualRuntime σ κ) :=
  match rt.queue with
  | [] => none
  | c :: q => if c.deadline ≤ rt.now then some (c, { rt with queue := q }) else none

/-- A callback is scheduled. -/
def Waits (rt : ManualRuntime σ κ) (cb : κ) : Prop := ∃ c ∈ rt.queue, c.callback = cb

instance [DecidableEq κ] (rt : ManualRuntime σ κ) (cb : κ) : Decidable (rt.Waits cb) :=
  inferInstanceAs (Decidable (∃ c ∈ rt.queue, c.callback = cb))

def waiting [DecidableEq κ] (rt : ManualRuntime σ κ) (cb : κ) : ℕ := rt.queue.countP fun c => c.callback = cb

theorem enqueue_perm (c : ScheduledCallback σ κ) : ∀ q : List (ScheduledCallback σ κ), (enqueue c q).Perm (c :: q)
  | [] => .refl _
  | d :: q => by
    unfold enqueue
    split_ifs
    · exact .refl _
    · exact ((enqueue_perm c q).cons d).trans (.swap c d q)

variable {c d : ScheduledCallback σ κ} {rt : ManualRuntime σ κ} {tp : TimePoint} {scope : Option σ}

theorem mem_enqueue {q : List (ScheduledCallback σ κ)} : d ∈ enqueue c q ↔ d = c ∨ d ∈ q :=
  (enqueue_perm c q).mem_iff.trans List.mem_cons

theorem waiting_schedule [DecidableEq κ] (rt : ManualRuntime σ κ) (tp : TimePoint) (cb cb' : κ) (scope : Option σ) :
    (rt.schedule tp cb scope).waiting cb' = rt.waiting cb' + if cb = cb' then 1 else 0 := by
  unfold waiting schedule
  rw [(enqueue_perm _ _).countP_eq, List.countP_cons]
  simp

@[simp] theorem schedule_now (rt : ManualRuntime σ κ) (tp : TimePoint) (cb : κ) (scope : Option σ) :
    (rt.schedule tp cb scope).now = rt.now := rfl

@[simp] theorem scheduleIn_now (rt : ManualRuntime σ κ) (d : Duration) (cb : κ) (scope : Option σ) :
    (rt.scheduleIn d cb scope).now = rt.now := rfl

@[simp] theorem cancel_now [DecidableEq σ] (rt : ManualRuntime σ κ) (scope : Option σ) :
    (rt.cancel scope).now = rt.now := by
  cases scope <;> rfl

theorem mem_schedule {cb : κ} : d ∈ (rt.schedule tp cb scope).queue ↔ d = ⟨tp, cb, scope⟩ ∨ d ∈ rt.queue :=
  mem_enqueue

theorem mem_cancel [DecidableEq σ] {c : σ} : d ∈ (rt.cancel (some c)).queue ↔ d ∈ rt.queue ∧ d.scope ≠ some c := by
  simp [cancel]

theorem waits_schedule {cb cb' : κ} : (rt.schedule tp cb scope).Waits cb' ↔ cb = cb' ∨ rt.Waits cb' := by
  simp only [Waits, mem_schedule]
  constructor
  · rintro ⟨d, rfl | hd, h⟩
    · exact .inl h
    · exact .inr ⟨d, hd, h⟩
  · rintro (h | ⟨d, hd, h⟩)
    · exact ⟨_, .inl rfl, h⟩
    · exact ⟨d, .inr hd, h⟩

theorem pop_some {rt rt' : ManualRuntime σ κ} (h : rt.pop = some (c, rt')) :
    rt.queue = c :: rt'.queue ∧ c.deadline ≤ rt.now ∧ rt'.now = rt.now := by
  unfold pop at h
  split at h
  · cases h
  · rename_i d q hq
    split_ifs at h with hd
    obtain ⟨rfl, rfl⟩ := Prod.mk.inj (Option.some.inj h)
    exact ⟨hq, hd, rfl⟩

theorem mem_of_pop {rt rt' : ManualRuntime σ κ} (h : rt.pop = some (c, rt')) (hd : d ∈ rt'.queue) : d ∈ rt.queue := by
  rw [(pop_some h).1]
  exact List.mem_cons_of_mem _ hd

theorem mem_pop {rt rt' : ManualRuntime σ κ} (h : rt.pop = some (c, rt')) (hc : c.callback ≠ d.callback)
    (hd : d ∈ rt.queue) : d ∈ rt'.queue := by
  rw [(pop_some h).1] at hd
  exact (List.mem_cons.mp hd).resolve_left fun heq => hc (heq ▸ rfl)

end ManualRuntime

/-! ### The timers of a station

The callbacks a station's identity manager, router and repeater schedule and
the scopes they cancel them by. A repetition is named by its number. -/

inductive Scope
  | roundTimer | lockTimer | router | repeater
deriving DecidableEq, Repr

inductive Callback
  | roundTimeout | lockTimer | beacon | repetition (number : ℕ)
deriving DecidableEq, Repr

abbrev Runtime := ManualRuntime Scope Callback

/-! ### One component on a shared runtime

A component with one kind of callback sees its own callbacks, scheduled with
itself as scope, among those of others. -/

inductive Party
  | self | other (number : ℕ)
deriving DecidableEq, Repr

abbrev SharedRuntime := ManualRuntime Party Party

/-- What happens to the runtime without the component: time passes, others
schedule with a scope of theirs or none, and cancel. -/
inductive Outside
  | advance (elapsed : ℕ)
  | schedule (deadline : TimePoint) (number : ℕ) (scope : Option ℕ)
  | cancel (number : ℕ)
deriving DecidableEq, Repr

namespace ManualRuntime

def outside (rt : SharedRuntime) : Outside → SharedRuntime
  | .advance elapsed => rt.setNow (rt.now + elapsed)
  | .schedule deadline number scope => rt.schedule deadline (.other number) (scope.map .other)
  | .cancel number => rt.cancel (some (.other number))

def own (deadline : TimePoint) : ScheduledCallback Party Party := ⟨deadline, .self, some .self⟩

theorem own_mem_outside {rt : SharedRuntime} {deadline : TimePoint} (h : own deadline ∈ rt.queue) (o : Outside) :
    own deadline ∈ (rt.outside o).queue := by
  cases o with
  | advance elapsed => exact h
  | schedule tp number scope => exact mem_schedule.mpr (.inr h)
  | cancel number => exact mem_cancel.mpr ⟨h, by simp [own]⟩

end ManualRuntime
end VanetzaIdf
