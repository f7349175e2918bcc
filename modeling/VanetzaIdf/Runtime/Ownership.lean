/-
# Timers and the objects that own them

When a destructor has finished, no callback to its object may be left. The classes
that use a runtime are modelled by their calls to it; a scope is a pointer, and
memory is used again.

Limeric schedules without a scope, DccInformationSharing has no destructor, and
an IdentityManager may arm a timer after it has cancelled. Where none of that
happens (`Careful`), all that waits belongs to an object that is there (`Owned`).
-/
import VanetzaIdf.Runtime.Reentrant

namespace VanetzaIdf.Ownership

open List Option Lib

inductive Part
  | router | repeater | cbfPacketBuffer | flowControl | identityManager | dccInformationSharing | limeric
deriving DecidableEq, Repr

/-- What is created and destroyed, with what its constructor schedules. -/
inductive Component
  | router (beacon : Option Duration)
  | repeater | cbfPacketBuffer | flowControl | identityManager
  | dccInformationSharing (initial : Duration)
  | limeric (cbrInterval : Duration)
  | stack (beacon : Option Duration) (initial : Duration)
  | accessDcc
deriving DecidableEq, Repr

/-- The objects a component is made of, in the order of their construction. -/
def Component.parts : Component → List Part
  | .router _ => [.cbfPacketBuffer, .repeater, .router]
  | .repeater => [.repeater]
  | .cbfPacketBuffer => [.cbfPacketBuffer]
  | .flowControl => [.flowControl]
  | .identityManager => [.identityManager]
  | .dccInformationSharing _ => [.dccInformationSharing]
  | .limeric _ | .accessDcc => [.limeric]
  | .stack _ _ => [.cbfPacketBuffer, .repeater, .router, .dccInformationSharing]

/-- What a pointer used as a scope points to. -/
inductive Slot
  | router | repeater | cbfPacketBuffer | flowControl | roundTimer | lockTimer | limeric
deriving DecidableEq, Repr

structure Pointer where
  address : ℕ
  slot : Slot
deriving DecidableEq, Repr

/-- A callback to the object with this number. -/
structure OwnCallback where
  owner : ℕ
  part : Part
deriving DecidableEq, Repr

abbrev ObjectRuntime := ManualRuntime Pointer OwnCallback

structure Object where
  number : ℕ
  component : Component
  address : ℕ
deriving DecidableEq, Repr

namespace Object

variable (o : Object) (rt : ObjectRuntime)

def scope (slot : Slot) : Option Pointer := some ⟨o.address, slot⟩

/-- A callback to a part, with a pointer into the object as its scope or none. -/
def arm (part : Part) (slot : Option Slot) (tp : TimePoint) : ObjectRuntime :=
  rt.schedule tp ⟨o.number, part⟩ (slot.bind o.scope)

/-- The same in place of those scheduled with this pointer before. -/
def rearm (part : Part) (slot : Slot) (tp : TimePoint) : ObjectRuntime :=
  o.arm (rt.cancel (o.scope slot)) part (some slot) tp

def resetBeaconTimer (nextBeacon : Duration) : ObjectRuntime := o.rearm rt .router .router (rt.now + nextBeacon)

/-- `Repeater::add` for a request with a further repetition. -/
def add (interval : Duration) : ObjectRuntime := o.arm rt .repeater (some .repeater) (rt.now + interval)

def scheduleTimer (expiry : TimePoint) : ObjectRuntime := o.rearm rt .cbfPacketBuffer .cbfPacketBuffer expiry

/-- `FlowControl::schedule_trigger`. -/
def scheduleTrigger (callbackDelay : Duration) : ObjectRuntime :=
  o.arm rt .flowControl (some .flowControl) (rt.now + callbackDelay)

/-- `FlowControl::reschedule` with a packet queued. -/
def reschedule (callbackDelay : Duration) : ObjectRuntime :=
  o.rearm rt .flowControl .flowControl (rt.now + callbackDelay)

/-- `arm_round_timer` of the identity manager. -/
def armRoundTimer (responseTimeout : Duration) : ObjectRuntime :=
  o.rearm rt .identityManager .roundTimer (rt.now + responseTimeout)

/-- `arm_lock_timer` with the end of the first lock, if there are any. -/
def armLockTimer : Option TimePoint → ObjectRuntime
  | none => rt.cancel (o.scope .lockTimer)
  | some earliest => o.rearm rt .identityManager .lockTimer earliest

/-- The end of `DccInformationSharing::trigger`, with its interval of 100 ms. -/
def dccTrigger : ObjectRuntime := o.arm rt .dccInformationSharing none (rt.now + 100000)

/-- `Limeric::schedule`: the next multiple of twice the interval. -/
def limericSchedule (cbrInterval : Duration) : ObjectRuntime :=
  let tp := rt.now + 2 * cbrInterval
  let bias := tp.tmod (2 * cbrInterval)
  o.arm rt .limeric none (if bias > cbrInterval then tp + (2 * cbrInterval - bias) else if bias > 0 then
    tp - bias else tp)

/-- `Router::Router`. -/
def startBeacon : Option Duration → ObjectRuntime
  | none => rt
  | some d => o.resetBeaconTimer rt d

/-- What the constructor of a component schedules. -/
def construct : ObjectRuntime :=
  match o.component with
  | .router beacon => o.startBeacon rt beacon
  | .repeater | .cbfPacketBuffer | .flowControl | .identityManager => rt
  | .dccInformationSharing initial => o.arm rt .dccInformationSharing none (rt.now + initial)
  | .limeric cbrInterval => o.limericSchedule rt cbrInterval
  | .stack beacon initial => o.arm (o.startBeacon rt beacon) .dccInformationSharing none (rt.now + initial)
  | .accessDcc => o.limericSchedule rt 100000

end Object

def Part.cancels : Part → List Slot
  | .router => [.router]
  | .repeater => [.repeater]
  | .cbfPacketBuffer => [.cbfPacketBuffer]
  | .flowControl => [.flowControl]
  | .identityManager => [.roundTimer, .lockTimer]
  | .limeric => [.limeric]
  | .dccInformationSharing => []

/-- The destructor of the identity manager cancels before it notifies its
subscribers, the others after all else. -/
def Part.cancelsFirst (p : Part) : Bool := p = .identityManager

namespace Object

variable (o : Object) (rt : ObjectRuntime)

def cancelAll (slots : List Slot) : ObjectRuntime := slots.foldl (fun rt slot => rt.cancel (o.scope slot)) rt

/-- A destructor up to the code of others that it calls. -/
def destructFirst : ObjectRuntime := o.cancelAll rt ((o.component.parts.filter Part.cancelsFirst).flatMap Part.cancels)

/-- A destructor from there on: the parts in reverse order. -/
def destructLast : ObjectRuntime :=
  o.cancelAll rt ((o.component.parts.reverse.filter fun p => !p.cancelsFirst).flatMap Part.cancels)

end Object

/-- The functions of an object that call its runtime. -/
inductive Call
  | resetBeaconTimer (nextBeacon : Duration)
  | add (interval : Duration)
  | scheduleTimer (expiry : TimePoint)
  | scheduleTrigger (callbackDelay : Duration)
  | reschedule (callbackDelay : Duration)
  | armRoundTimer (responseTimeout : Duration)
  | cancelRoundTimer
  | armLockTimer (earliest : Option TimePoint)
  | dccTrigger
  | calculate (cbrInterval : Duration)
deriving DecidableEq, Repr

namespace Call

def part : Call → Part
  | .resetBeaconTimer _ => .router
  | .add _ => .repeater
  | .scheduleTimer _ => .cbfPacketBuffer
  | .scheduleTrigger _ | .reschedule _ => .flowControl
  | .armRoundTimer _ | .cancelRoundTimer | .armLockTimer _ => .identityManager
  | .dccTrigger => .dccInformationSharing
  | .calculate _ => .limeric

def perform (o : Object) (rt : ObjectRuntime) : Call → ObjectRuntime
  | .resetBeaconTimer nextBeacon => o.resetBeaconTimer rt nextBeacon
  | .add interval => o.add rt interval
  | .scheduleTimer expiry => o.scheduleTimer rt expiry
  | .scheduleTrigger callbackDelay => o.scheduleTrigger rt callbackDelay
  | .reschedule callbackDelay => o.reschedule rt callbackDelay
  | .armRoundTimer responseTimeout => o.armRoundTimer rt responseTimeout
  | .cancelRoundTimer => rt.cancel (o.scope .roundTimer)
  | .armLockTimer earliest => o.armLockTimer rt earliest
  | .dccTrigger => o.dccTrigger rt
  | .calculate cbrInterval => o.limericSchedule rt cbrInterval

def armsManager : Call → Bool
  | .armRoundTimer _ | .armLockTimer (some _) => true
  | _ => false

end Call

/-! ### Runs -/

/-- A callback that was called, and whether its object was there. -/
structure Called where
  callback : OwnCallback
  alive : Bool
deriving DecidableEq, Repr

/-- `dying` are the objects whose destructors have begun. -/
structure World where
  process : Process Pointer OwnCallback
  objects : List Object := []
  dying : List ℕ := []
  next : ℕ := 0
  called : List Called := []

/-- Objects are made, call their runtime, and are destroyed, with calls by others in between; the
runtime is triggered and reset. -/
inductive Event
  | create (component : Component) (address : ℕ)
  | call (number : ℕ) (call : Call)
  | destroy (number : ℕ)
  | destroyed (number : ℕ)
  | loop (l : Process.Loop)

namespace World

def start (now : TimePoint) : World := { process := { runtime := { now := now } } }

variable (w : World)

def find (number : ℕ) : Option Object := w.objects.find? (·.number = number)

def withRuntime (rt : ObjectRuntime) : World := { w with process := { w.process with runtime := rt } }

/-- The loop of the runtime goes on. -/
def proceed (p : Process Pointer OwnCallback) : World :=
  let r := p.proceed
  { w with
    process := r.2
    called := (r.1.map fun c => ⟨c.callback, (w.find c.callback.owner).isSome⟩).toList ++ w.called }

def step : Event → Option World
  | .create component address =>
    if address ∈ w.objects.map (·.address) then none
    else
      let o : Object := ⟨w.next, component, address⟩
      some { w.withRuntime (o.construct w.process.runtime) with objects := o :: w.objects, next := w.next + 1 }
  | .call number call =>
    (w.find number).bind fun o =>
      if call.part ∈ o.component.parts then some (w.withRuntime (call.perform o w.process.runtime)) else none
  | .destroy number =>
    (w.find number).map fun o => { w.withRuntime (o.destructFirst w.process.runtime) with dying := number :: w.dying }
  | .destroyed number =>
    (w.find number).bind fun o =>
      if number ∈ w.dying then
        some { w.withRuntime (o.destructLast w.process.runtime) with objects := w.objects.filter (·.number ≠ number) }
      else none
  | .loop l => (w.process.enter l).map w.proceed

/-- Nothing is destroyed that schedules without a scope or that a `reset` has
still to call, and nobody has an identity manager arm a timer that is being
destroyed. -/
def Careful : Event → Prop
  | .call number call => number ∈ w.dying → call.armsManager = false
  | .destroyed number =>
    (∀ o ∈ w.find number, .dccInformationSharing ∉ o.component.parts ∧ .limeric ∉ o.component.parts) ∧
      ∀ c ∈ w.process.detached, c.callback.owner ≠ number
  | _ => True

instance (w : World) (e : Event) : Decidable (w.Careful e) := by
  cases e <;> unfold Careful <;> infer_instance

end World

/-! ### What the calls schedule -/

/-- The part schedules without a scope. -/
def Part.Unscoped (p : Part) : Prop := p = .dccInformationSharing ∨ p = .limeric

/-- The entry is a callback to this part of the object, with a scope that the
part cancels unless it uses none. -/
structure Belongs (o : Object) (part : Part) (c : ScheduledCallback Pointer OwnCallback) : Prop where
  callback : c.callback = ⟨o.number, part⟩
  scope : part.Unscoped ∨ ∃ slot ∈ part.cancels, c.scope = o.scope slot

section Scheduled

variable {o : Object} {rt : ObjectRuntime} {c : ScheduledCallback Pointer OwnCallback} {part : Part}

theorem mem_of_mem_cancel {slot : Slot} (h : c ∈ (rt.cancel (o.scope slot)).queue) : c ∈ rt.queue :=
  (ManualRuntime.mem_cancel.mp h).1

variable {tp : TimePoint}

theorem mem_arm_unscoped (hpart : part.Unscoped) (h : c ∈ (o.arm rt part none tp).queue) :
    c ∈ rt.queue ∨ Belongs o part c := by
  obtain rfl | h := ManualRuntime.mem_schedule.mp h
  · exact .inr ⟨rfl, .inl hpart⟩
  · exact .inl h

theorem mem_arm {slot : Slot} (hslot : slot ∈ part.cancels) (h : c ∈ (o.arm rt part (some slot) tp).queue) :
    c ∈ rt.queue ∨ Belongs o part c := by
  obtain rfl | h := ManualRuntime.mem_schedule.mp h
  · exact .inr ⟨rfl, .inr ⟨slot, hslot, rfl⟩⟩
  · exact .inl h

theorem mem_rearm {slot : Slot} (hslot : slot ∈ part.cancels) (h : c ∈ (o.rearm rt part slot tp).queue) :
    c ∈ rt.queue ∨ Belongs o part c :=
  (mem_arm hslot h).imp_left mem_of_mem_cancel

theorem mem_perform {call : Call} (h : c ∈ (call.perform o rt).queue) :
    c ∈ rt.queue ∨ Belongs o call.part c ∧ (call.part = .identityManager → call.armsManager = true) := by
  cases call with
  | resetBeaconTimer | scheduleTimer | reschedule => exact (mem_rearm (by decide) h).imp_right fun hc => ⟨hc, nofun⟩
  | add | scheduleTrigger => exact (mem_arm (by decide) h).imp_right fun hc => ⟨hc, nofun⟩
  | armRoundTimer responseTimeout => exact (mem_rearm (by decide) h).imp_right fun hc => ⟨hc, fun _ => rfl⟩
  | cancelRoundTimer => exact .inl (mem_of_mem_cancel h)
  | armLockTimer earliest =>
    cases earliest with
    | none => exact .inl (mem_of_mem_cancel h)
    | some earliest => exact (mem_rearm (by decide) h).imp_right fun hc => ⟨hc, fun _ => rfl⟩
  | dccTrigger => exact (mem_arm_unscoped (.inl rfl) h).imp_right fun hc => ⟨hc, nofun⟩
  | calculate cbrInterval => exact (mem_arm_unscoped (.inr rfl) h).imp_right fun hc => ⟨hc, nofun⟩

theorem mem_startBeacon {beacon : Option Duration} (h : c ∈ (o.startBeacon rt beacon).queue) :
    c ∈ rt.queue ∨ Belongs o .router c := by
  cases beacon with
  | none => exact .inl h
  | some d => exact mem_rearm (by decide) h

theorem mem_construct (h : c ∈ (o.construct rt).queue) :
    c ∈ rt.queue ∨ ∃ part ∈ o.component.parts, Belongs o part c ∧ part ≠ .identityManager := by
  unfold Object.construct at h
  cases hcomponent : o.component with
  | router beacon =>
    rw [hcomponent] at h
    exact (mem_startBeacon h).imp_right fun hc => ⟨.router, by simp [Component.parts], hc, nofun⟩
  | repeater | cbfPacketBuffer | flowControl | identityManager =>
    rw [hcomponent] at h
    exact .inl h
  | dccInformationSharing initial =>
    rw [hcomponent] at h
    exact (mem_arm_unscoped (.inl rfl) h).imp_right fun hc =>
      ⟨.dccInformationSharing, by simp [Component.parts], hc, nofun⟩
  | limeric | accessDcc =>
    rw [hcomponent] at h
    exact (mem_arm_unscoped (.inr rfl) h).imp_right fun hc => ⟨.limeric, by simp [Component.parts], hc, nofun⟩
  | stack beacon initial =>
    rw [hcomponent] at h
    obtain h | hc := mem_arm_unscoped (.inl rfl) h
    · exact (mem_startBeacon h).imp_right fun hc => ⟨.router, by simp [Component.parts], hc, nofun⟩
    · exact .inr ⟨.dccInformationSharing, by simp [Component.parts], hc, nofun⟩

theorem mem_cancelAll {slots : List Slot} (h : c ∈ (o.cancelAll rt slots).queue) :
    c ∈ rt.queue ∧ ∀ slot ∈ slots, c.scope ≠ o.scope slot := by
  induction slots generalizing rt with
  | nil => exact ⟨h, fun _ hs => absurd hs not_mem_nil⟩
  | cons slot slots ih =>
    obtain ⟨hrt, hslots⟩ := ih h
    obtain ⟨hrt, hslot⟩ := ManualRuntime.mem_cancel.mp hrt
    exact ⟨hrt, forall_mem_cons.mpr ⟨hslot, hslots⟩⟩

end Scheduled

/-! ### All that waits has an owner -/

namespace World

variable {w : World}

/-- Every entry of the runtime has its owner among the objects. -/
structure Owned (w : World) : Prop where
  numbers : (w.objects.map (·.number)).Nodup
  below : ∀ o ∈ w.objects, o.number < w.next
  owners : ∀ c ∈ w.process.pending, ∃ o ∈ w.objects, ∃ part ∈ o.component.parts, Belongs o part c
  quiet : ∀ c ∈ w.process.runtime.queue, c.callback.part = .identityManager → c.callback.owner ∉ w.dying
  alive : ∀ call ∈ w.called, call.alive = true

variable {o : Object} {c : ScheduledCallback Pointer OwnCallback}

theorem find_some {number : ℕ} (h : w.find number = some o) : o ∈ w.objects ∧ o.number = number :=
  ⟨mem_of_find?_eq_some h, by simpa using List.find?_some h⟩

theorem Owned.belongs (hw : w.Owned) (ho : o ∈ w.objects)
    (hc : c ∈ w.process.pending) (howner : c.callback.owner = o.number) :
    ∃ part ∈ o.component.parts, Belongs o part c := by
  obtain ⟨o', ho', part, hpart, hbelongs⟩ := hw.owners c hc
  have hnumber : o'.number = o.number := by rw [← howner, hbelongs.callback]
  obtain rfl : o' = o := inj_on_of_nodup_map hw.numbers ho' ho hnumber
  exact ⟨part, hpart, hbelongs⟩

theorem Owned.find_owner (hw : w.Owned) (hc : c ∈ w.process.pending) : (w.find c.callback.owner).isSome = true := by
  obtain ⟨o, ho, part, -, hbelongs⟩ := hw.owners c hc
  rw [find, List.find?_isSome, hbelongs.callback]
  exact ⟨o, ho, decide_eq_true rfl⟩

theorem owned_start (now : TimePoint) : (start now).Owned := ⟨nodup_nil, nofun, nofun, nofun, nofun⟩

theorem create_owned (hw : w.Owned) (component : Component) (address : ℕ) :
    Owned { w.withRuntime (Object.construct ⟨w.next, component, address⟩ w.process.runtime) with
      objects := ⟨w.next, component, address⟩ :: w.objects, next := w.next + 1 } where
  numbers := by
    refine nodup_cons.mpr ⟨fun hmem => ?_, hw.numbers⟩
    obtain ⟨o, ho, heq⟩ := mem_map.mp hmem
    have hlt := hw.below o ho
    dsimp only at heq
    omega
  below o ho := by
    obtain rfl | ho := mem_cons.mp ho
    · exact Nat.lt_succ_self _
    · exact Nat.lt_succ_of_lt (hw.below o ho)
  owners c hc := by
    have hold (h : c ∈ w.process.pending) :
        ∃ o ∈ (⟨w.next, component, address⟩ : Object) :: w.objects, ∃ part ∈ o.component.parts, Belongs o part c := by
      obtain ⟨o, ho, hpart⟩ := hw.owners c h
      exact ⟨o, mem_cons_of_mem _ ho, hpart⟩
    obtain hqueue | hdetached := mem_append.mp hc
    · obtain hqueue | ⟨part, hpart, hbelongs, -⟩ := mem_construct hqueue
      · exact hold (mem_append_left _ hqueue)
      · exact ⟨_, mem_cons_self, part, hpart, hbelongs⟩
    · exact hold (mem_append_right _ hdetached)
  quiet c hc hmanager := by
    obtain hqueue | ⟨part, -, hbelongs, hne⟩ := mem_construct hc
    · exact hw.quiet c hqueue hmanager
    · rw [hbelongs.callback] at hmanager
      exact absurd hmanager hne
  alive := hw.alive

theorem call_owned (hw : w.Owned) {call : Call} (ho : o ∈ w.objects) (hpart : call.part ∈ o.component.parts)
    (hcareful : w.Careful (.call o.number call)) : Owned (w.withRuntime (call.perform o w.process.runtime)) where
  numbers := hw.numbers
  below := hw.below
  owners c hc := by
    obtain hqueue | hdetached := mem_append.mp hc
    · obtain hqueue | ⟨hbelongs, -⟩ := mem_perform hqueue
      · exact hw.owners c (mem_append_left _ hqueue)
      · exact ⟨o, ho, _, hpart, hbelongs⟩
    · exact hw.owners c (mem_append_right _ hdetached)
  quiet c hc hmanager := by
    obtain hqueue | ⟨hbelongs, harms⟩ := mem_perform hc
    · exact hw.quiet c hqueue hmanager
    · rw [hbelongs.callback] at hmanager ⊢
      intro hdying
      exact Bool.false_ne_true ((hcareful hdying).symm.trans (harms hmanager))
  alive := hw.alive

theorem destroy_owned (hw : w.Owned) (ho : o ∈ w.objects) :
    Owned { w.withRuntime (o.destructFirst w.process.runtime) with dying := o.number :: w.dying } where
  numbers := hw.numbers
  below := hw.below
  owners c hc := by
    obtain hqueue | hdetached := mem_append.mp hc
    · exact hw.owners c (mem_append_left _ (mem_cancelAll hqueue).1)
    · exact hw.owners c (mem_append_right _ hdetached)
  quiet c hc hmanager := by
    obtain ⟨hqueue, hslots⟩ := mem_cancelAll hc
    refine not_mem_cons_of_ne_of_not_mem (fun howner => ?_) (hw.quiet c hqueue hmanager)
    obtain ⟨part, hpart, hbelongs⟩ := hw.belongs ho (mem_append_left _ hqueue) howner
    rw [hbelongs.callback] at hmanager
    obtain rfl : part = .identityManager := hmanager
    obtain hunscoped | ⟨slot, hslot, hscope⟩ := hbelongs.scope
    · exact hunscoped.elim nofun nofun
    · exact hslots slot (mem_flatMap.mpr ⟨_, mem_filter.mpr ⟨hpart, rfl⟩, hslot⟩) hscope
  alive := hw.alive

theorem owner_ne_of_destructLast (hw : w.Owned) (ho : o ∈ w.objects) (hdying : o.number ∈ w.dying)
    (hscoped : .dccInformationSharing ∉ o.component.parts ∧ .limeric ∉ o.component.parts)
    (hc : c ∈ (o.destructLast w.process.runtime).queue) :
    c.callback.owner ≠ o.number := by
  intro howner
  obtain ⟨hqueue, hslots⟩ := mem_cancelAll hc
  obtain ⟨part, hpart, hbelongs⟩ := hw.belongs ho (mem_append_left _ hqueue) howner
  obtain (rfl | rfl) | ⟨slot, hslot, hscope⟩ := hbelongs.scope
  · exact hscoped.1 hpart
  · exact hscoped.2 hpart
  by_cases hmanager : part = .identityManager
  · exact hw.quiet c hqueue (by rw [hbelongs.callback, hmanager]) (howner ▸ hdying)
  · have hlast : part ∈ o.component.parts.reverse.filter fun p => !p.cancelsFirst :=
      mem_filter.mpr ⟨mem_reverse.mpr hpart, by simp [Part.cancelsFirst, hmanager]⟩
    exact hslots slot (mem_flatMap.mpr ⟨part, hlast, hslot⟩) hscope

theorem destroyed_owned (hw : w.Owned) (ho : o ∈ w.objects) (hdying : o.number ∈ w.dying)
    (hscoped : .dccInformationSharing ∉ o.component.parts ∧ .limeric ∉ o.component.parts)
    (hdetached : ∀ c ∈ w.process.detached, c.callback.owner ≠ o.number) :
    Owned { w.withRuntime (o.destructLast w.process.runtime) with
      objects := w.objects.filter (·.number ≠ o.number) } where
  numbers := hw.numbers.sublist (filter_sublist.map _)
  below o' ho' := hw.below o' (mem_of_mem_filter ho')
  owners c hc := by
    have hother : c ∈ w.process.pending ∧ c.callback.owner ≠ o.number := by
      obtain hqueue | hc := mem_append.mp hc
      · exact ⟨mem_append_left _ (mem_cancelAll hqueue).1, owner_ne_of_destructLast hw ho hdying hscoped hqueue⟩
      · exact ⟨mem_append_right _ hc, hdetached c hc⟩
    obtain ⟨hpending, hne⟩ := hother
    obtain ⟨o', ho', part, hpart, hbelongs⟩ := hw.owners c hpending
    refine ⟨o', mem_filter.mpr ⟨ho', ?_⟩, part, hpart, hbelongs⟩
    rw [hbelongs.callback] at hne
    exact decide_eq_true hne
  quiet c hc := hw.quiet c (mem_cancelAll hc).1
  alive := hw.alive

theorem proceed_owned (hw : w.Owned) {p : Process Pointer OwnCallback} (hpending : p.pending = w.process.pending)
    (hqueue : p.runtime.queue.Sublist w.process.runtime.queue) : (w.proceed p).Owned := by
  unfold proceed
  cases hp : p.proceed with
  | mk call p' =>
    cases call with
    | none =>
      obtain ⟨hrt, hpending', -⟩ := Process.proceed_none hp
      refine ⟨hw.numbers, hw.below, ?_, ?_, hw.alive⟩
      · show ∀ c ∈ p'.pending, _
        rw [hpending', hpending]
        exact hw.owners
      · show ∀ c ∈ p'.runtime.queue, _
        rw [hrt]
        exact fun c hc => hw.quiet c (hqueue.subset hc)
    | some c =>
      obtain ⟨htakes, -⟩ := Process.proceed_some hp
      have hmem : ∀ d ∈ c :: p'.pending, d ∈ w.process.pending := fun d hd => hpending ▸ htakes.perm.mem_iff.mpr hd
      refine ⟨hw.numbers, hw.below, fun d hd => hw.owners d (hmem d (mem_cons_of_mem _ hd)),
        fun d hd => hw.quiet d (hqueue.subset (htakes.sublist.subset hd)), forall_mem_cons.mpr ⟨?_, hw.alive⟩⟩
      exact hw.find_owner (hmem c mem_cons_self)

theorem step_owned {w' : World} {e : Event} (hw : w.Owned) (hcareful : w.Careful e) (h : w.step e = some w') :
    w'.Owned := by
  cases e with
  | create component address =>
    simp only [step] at h
    split_ifs at h
    obtain rfl := some.inj h
    exact create_owned hw component address
  | call number call =>
    obtain ⟨o, hfind, hsome⟩ := bind_eq_some_iff.mp h
    obtain ⟨ho, rfl⟩ := find_some hfind
    split_ifs at hsome with hpart
    obtain rfl := some.inj hsome
    exact call_owned hw ho hpart hcareful
  | destroy number =>
    obtain ⟨o, hfind, rfl⟩ := map_eq_some_iff.mp h
    obtain ⟨ho, rfl⟩ := find_some hfind
    exact destroy_owned hw ho
  | destroyed number =>
    obtain ⟨o, hfind, hsome⟩ := bind_eq_some_iff.mp h
    obtain ⟨ho, rfl⟩ := find_some hfind
    split_ifs at hsome with hdying
    obtain rfl := some.inj hsome
    exact destroyed_owned hw ho hdying (hcareful.1 o hfind) hcareful.2
  | loop l =>
    obtain ⟨p, henter, rfl⟩ := map_eq_some_iff.mp h
    obtain ⟨-, hpending, hqueue⟩ := Process.enter_some henter
    exact proceed_owned hw hpending hqueue

/-- **No callback after destruction.** In every careful run, all that waits in
the queue was scheduled by objects that are there, and so was all that was
called. -/
theorem no_callback_after_destruction (now : TimePoint) (w : World) (hrun : Run step Careful (start now) w) :
    (∀ c ∈ w.process.runtime.queue, (w.find c.callback.owner).isSome) ∧ ∀ call ∈ w.called, call.alive = true := by
  have hw : w.Owned := hrun.invariant (owned_start now) fun e hw hcareful hstep => step_owned hw hcareful hstep
  exact ⟨fun c hc => hw.find_owner (mem_append_left _ hc), hw.alive⟩

theorem no_callback_after_destruction_router : ∃ w, Run step Careful (start 0) w ∧
    w.objects = [⟨1, .repeater, 5⟩] ∧ w.called = [⟨⟨1, .repeater⟩, true⟩] ∧
      ∀ c ∈ w.process.runtime.queue, (w.find c.callback.owner).isSome := by
  have hexec : exec step Careful (start 0) [.create (.router (some 0)) 5, .call 0 (.add 10),
    .call 0 (.scheduleTimer 20),
      .destroy 0, .destroyed 0, .create .repeater 5, .call 1 (.add 30), .loop (.trigger 40)] = some _ := rfl
  have hrun := run_of_exec hexec
  exact ⟨_, hrun, rfl, rfl, (no_callback_after_destruction 0 _ hrun).1⟩

/-- A part of each object that schedules without a scope is called after its end,
and so is an identity manager that a subscriber has locked during its destructor. -/
theorem callback_after_destruction :
    (∀ component ∈ [Component.dccInformationSharing 0, .limeric 100000, .stack (some 0) 0, .accessDcc],
      ∃ w, Run step Anything (start 0) w ∧ ∃ part ∈ component.parts, ⟨⟨0, part⟩, false⟩ ∈ w.called) ∧
    ∃ w, Run step Anything (start 0) w ∧ ⟨⟨0, .identityManager⟩, false⟩ ∈ w.called := by
  refine ⟨fun component hmem => ?_, ?_⟩
  · have hrun : ∀ component ∈ [Component.dccInformationSharing 0, .limeric 100000, .stack (some 0) 0, .accessDcc],
        (exec step Anything (start 0)
          [.create component 0, .destroy 0, .destroyed 0, .loop (.trigger 200000)]).any
            (fun w => decide (∃ part ∈ component.parts, ⟨⟨0, part⟩, false⟩ ∈ w.called)) = true := by decide
    obtain ⟨w, hw, hcalled⟩ := exists_run_of_exec (hrun component hmem)
    exact ⟨w, hw, of_decide_eq_true hcalled⟩
  · have hexec : exec step Anything (start 0) [.create .identityManager 0, .destroy 0,
        .call 0 (.armLockTimer (some 1)), .destroyed 0, .loop (.trigger 1)] = some _ := rfl
    exact ⟨_, run_of_exec hexec, mem_cons_self⟩

end World
end VanetzaIdf.Ownership
