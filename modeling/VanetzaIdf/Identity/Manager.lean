/-
# IdentityManager

The identifier-change service of `ports/esp_idf/src/identity_manager.cpp`: a
two-phase commit over the subscribers, from one authorization ticket to the next.

Hooks run inside `notify` and may call any operation, so the manager is a machine
with a call stack: `control` says whose code runs, `frames` holds the calls of
user code that have not returned. Every call of `notify`, `advance`, `finish`,
`abort` and `try_start` is the last thing its caller does, so it only sets
`control`. `log` is the history, newest first; nothing reads it, except that only
a responder that was handed out can be answered.
-/
import VanetzaIdf.CertificatePool
import Mathlib.Data.Finset.Card

namespace VanetzaIdf

inductive IdChangeCommand
  | prepare | commit | abort | dereg
deriving DecidableEq, Repr

structure IdentityStatistics where
  committed : UInt32 := 0
  aborted : UInt32 := 0
  timedOut : UInt32 := 0
  commitFailures : UInt32 := 0
deriving DecidableEq, Repr

namespace IdentityManager

/-- The phases of a round: its `phase` is PREPARE or COMMIT. -/
inductive Phase
  | prepare | commit
deriving DecidableEq, Repr

/-- `Impl::Round`. -/
structure Round where
  id : ℕ
  phase : Phase
  newIdentifier : Identifier
  outstanding : Finset SubscriptionHandle
deriving DecidableEq

/-- `Impl::Responder`: what a response object remembers. -/
structure Responder where
  round : ℕ
  handle : SubscriptionHandle
deriving DecidableEq, Repr

/-- A running `notify` with the handles it has still to visit. `subject` is the round the command
belongs to; for ABORT it is the one that ended, which the source forgets. -/
structure Notification where
  command : IdChangeCommand
  id : Identifier
  expectResponse : Bool
  roundId : ℕ
  subject : ℕ
  handles : List SubscriptionHandle
deriving DecidableEq

inductive Control
  | user
  | loop (n : Notification)
  | advance | finish | abort | tryStart
deriving DecidableEq

/-- A call of user code that has not returned. -/
inductive Frame
  | hook (n : Notification) (handle : SubscriptionHandle)
  | committed
deriving DecidableEq

inductive Entry
  /-- PREPARE of a round goes out to these handles while this ticket is current. -/
  | prepared (round : ℕ) (snapshot : List SubscriptionHandle) (current : Option Ticket)
  /-- The hook of a handle is called with a command of a round. -/
  | delivered (command : IdChangeCommand) (id : Identifier) (responder : Responder)
  /-- A responder handed out with this command is answered. -/
  | answered (command : IdChangeCommand) (responder : Responder) (returnCode : Bool)
  | unsubscribed (handle : SubscriptionHandle)
  /-- `CertificatePool::select` is called for a round. -/
  | selected (round : ℕ) (id : Identifier)
  /-- A round for `id` ends by ABORT, which goes out to these handles. -/
  | aborted (round : ℕ) (id : Identifier) (snapshot : List SubscriptionHandle) (current : Option Ticket)
  /-- A round for `id` ends after COMMIT. -/
  | finished (round : ℕ) (id : Identifier) (current : Option Ticket)
deriving DecidableEq

/-- `IdentityManager::Impl` with the runtime and the pool it refers to. -/
structure State where
  runtime : Runtime
  pool : CertificatePool
  subscriptions : List (SubscriptionHandle × ByteBuffer) := []
  nextSubscription : SubscriptionHandle := 1
  locks : List (LockHandle × TimePoint) := []
  nextLock : LockHandle := 1
  round : Option Round := none
  roundCounter : ℕ := 0
  pendingTrigger : Bool := false
  responseTimeout : Duration := 500000
  committed : Bool := false
  stats : IdentityStatistics := {}
  notifyDepth : ℕ := 0
  control : Control := .user
  frames : List Frame := []
  log : List Entry := []
deriving DecidableEq

def init (pool : CertificatePool) (now : TimePoint) : State := { runtime := { now := now }, pool := pool }

namespace State

variable (s : State)

def currentIdentifier : Identifier := s.pool.identifier

def locked : Bool := !s.locks.isEmpty

/-- `round && round->id == id`. -/
def inRound (id : ℕ) : Bool := s.round.any (·.id == id)

/-- The handles of `subscriptions`, in the order of the map. -/
def handles : List SubscriptionHandle := s.subscriptions.map Prod.fst

/-- `round->outstanding.erase(handle)`. -/
def eraseOutstanding (h : SubscriptionHandle) : State :=
  { s with round := s.round.map fun ρ => { ρ with outstanding := ρ.outstanding.erase h } }

/-! ### The two-phase commit -/

/-- `notify` up to its loop. -/
def notify (command : IdChangeCommand) (id : Identifier) (expectResponse : Bool)
    (subject : ℕ) : State :=
  { s with
    round := if expectResponse then
        s.round.map fun ρ => { ρ with outstanding := ρ.outstanding ∪ s.handles.toFinset }
      else s.round
    notifyDepth := s.notifyDepth + 1
    control := .loop
      { command := command, id := id, expectResponse := expectResponse,
        roundId := (s.round.map (·.id)).getD 0, subject := subject, handles := s.handles } }

def cancelRoundTimer : State := { s with runtime := s.runtime.cancel (some .roundTimer) }

def armRoundTimer : State :=
  { s with
    runtime := (s.runtime.cancel (some .roundTimer)).scheduleIn s.responseTimeout .roundTimeout (some .roundTimer) }

/-- `notify` after its loop. -/
def endNotify (n : Notification) : State :=
  let s := { s with notifyDepth := s.notifyDepth - 1, control := .user }
  if n.expectResponse && s.notifyDepth == 0 && s.inRound n.roundId then
    if s.round.all (·.outstanding = ∅) then { s with control := .advance } else s.armRoundTimer
  else s

/-- One turn of the loop of `notify`. -/
def loop (n : Notification) : State :=
  match n.handles with
  | [] => s.endNotify n
  | h :: rest =>
    -- an abort raised by an earlier hook ends the round: `break`
    if n.expectResponse && !s.inRound n.roundId then s.endNotify n
    else if s.handles.contains h then
      { s with
        control := .user
        frames := .hook { n with handles := rest } h :: s.frames
        log := .delivered n.command n.id ⟨n.subject, h⟩ :: s.log }
    else
      { (if s.inRound n.roundId then s.eraseOutstanding h else s) with
        control := .loop { n with handles := rest } }

def tryStart : State :=
  if !s.pendingTrigger || s.locked || s.round.isSome then { s with control := .user }
  else
    match s.pool.nextValid s.runtime.now with
    | none => { s with pendingTrigger := false, control := .user }
    | some next =>
      let id := s.roundCounter + 1
      let s := { s with
        pendingTrigger := false
        roundCounter := id
        round := some { id := id, phase := .prepare, newIdentifier := next.digest, outstanding := ∅ }
        log := .prepared id s.handles s.pool.current :: s.log }
      s.notify .prepare next.digest true id

/-- `advance`; without a round it would follow a null pointer. -/
def advance : Option State :=
  s.round.map fun ρ =>
    let s := s.cancelRoundTimer
    match ρ.phase with
    | .prepare =>
      let s := { s with
        round := some { ρ with phase := .commit }
        pool := (s.pool.select ρ.newIdentifier).2
        log := .selected ρ.id ρ.newIdentifier :: s.log }
      s.notify .commit ρ.newIdentifier true ρ.id
    | .commit => { s with control := .finish }

/-- `finish`, up to the committed callback if there is one. -/
def finish : Option State :=
  s.round.map fun ρ =>
    let s := { s.cancelRoundTimer with
      round := none
      stats := { s.stats with committed := s.stats.committed + 1 }
      log := .finished ρ.id ρ.newIdentifier s.pool.current :: s.log }
    if s.committed then { s with control := .user, frames := .committed :: s.frames }
    else { s with control := .tryStart }

def abort : Option State :=
  s.round.map fun ρ =>
    let s := { s.cancelRoundTimer with
      round := none
      stats := { s.stats with aborted := s.stats.aborted + 1 }
      log := .aborted ρ.id ρ.newIdentifier s.handles s.pool.current :: s.log }
    s.notify .abort ρ.newIdentifier false ρ.id

def handleResponse (r : Responder) (returnCode : Bool) : State :=
  match s.round with
  | none => s
  | some ρ =>
    if ρ.id ≠ r.round then s
    else if r.handle ∉ ρ.outstanding then s
    else
      let s := s.eraseOutstanding r.handle
      if !returnCode && ρ.phase = .prepare then { s with control := .abort }
      else
        let s := if returnCode then s
          else { s with stats := { s.stats with commitFailures := s.stats.commitFailures + 1 } }
        if ρ.outstanding.erase r.handle = ∅ && s.notifyDepth == 0 then { s with control := .advance } else s

def onRoundTimeout : State :=
  match s.round with
  | none => s
  | some ρ =>
    let stats := { s.stats with timedOut := s.stats.timedOut + 1 }
    match ρ.phase with
    | .prepare => { s with stats := stats, control := .abort }
    | .commit =>
      { s with
        stats := { stats with commitFailures := stats.commitFailures + UInt32.ofNat ρ.outstanding.card }
        control := .finish }

/-! ### Locks -/

def armLockTimer : State :=
  let rt := s.runtime.cancel (some .lockTimer)
  match s.locks with
  | [] => { s with runtime := rt }
  | l :: ls =>
    let earliest := ls.foldl (fun e l => min e l.2) l.2
    { s with runtime := rt.schedule earliest .lockTimer (some .lockTimer) }

def onLockTimer : State :=
  let s := { s with locks := s.locks.filter fun l => !decide (l.2 ≤ s.runtime.now) }
  { s.armLockTimer with control := .tryStart }

/-! ### The service -/

def subscribe (data : ByteBuffer) : SubscriptionHandle × State :=
  (s.nextSubscription,
    { s with
      nextSubscription := s.nextSubscription + 1
      subscriptions := s.subscriptions ++ [(s.nextSubscription, data)] })

def unsubscribe (h : SubscriptionHandle) : Result × State :=
  if !s.handles.contains h then (.invalidArgument, s)
  else
    let last := s.round.any fun ρ => h ∈ ρ.outstanding && ρ.outstanding.erase h = ∅
    let s := { s.eraseOutstanding h with
      subscriptions := s.subscriptions.filter (·.1 ≠ h)
      log := .unsubscribed h :: s.log }
    (.accepted, if last && s.notifyDepth == 0 then { s with control := .advance } else s)

def trigger : Result × State :=
  match s.pool.nextValid s.runtime.now with
  | none => (.rejected, s)
  | some _ => (.accepted, { s with pendingTrigger := true, control := .tryStart })

def lock (duration : UInt8) : LockHandle × State :=
  let s' := { s with
    nextLock := s.nextLock + 1
    locks := s.locks ++ [(s.nextLock, s.runtime.now + seconds duration.toNat)] }
  (s.nextLock, if duration = 0 then s'.armLockTimer.onLockTimer else s'.armLockTimer)

def unlock (h : LockHandle) : Result × State :=
  if !(s.locks.map Prod.fst).contains h then (.invalidArgument, s)
  else
    let s := { s with locks := s.locks.filter (·.1 ≠ h) }
    (.accepted, { s.armLockTimer with control := .tryStart })

def handedOut (command : IdChangeCommand) (r : Responder) : Bool :=
  (command = .prepare || command = .commit) && s.log.any fun
    | .delivered c _ r' => c = command && r' = r
    | _ => false

end State

/-! ### Steps -/

inductive Event
  | subscribe (data : ByteBuffer)
  | unsubscribe (handle : SubscriptionHandle)
  | trigger
  | lock (duration : UInt8)
  | unlock (handle : LockHandle)
  | respond (command : IdChangeCommand) (responder : Responder) (returnCode : Bool)
  | setResponseTimeout (timeout : Duration)
  | onCommitted (isSet : Bool)
  | ret
  | tick (tp : TimePoint)
  | fire
  | add (certificate : Certificate) (key : PrivateKey) (probe : Bool)
  /-- `CertificatePool::prune`. -/
  | prune (now : TimePoint)
  | proceed
deriving DecidableEq

namespace State

/-- The manager's code up to the next call of user code or of another of
its functions. -/
def proceed (s : State) : Option State :=
  match s.control with
  | .user => none
  | .loop n => some (s.loop n)
  | .advance => s.advance
  | .finish => s.finish
  | .abort => s.abort
  | .tryStart => some s.tryStart

def ret (s : State) : Option State :=
  match s.frames with
  | [] => none
  | .hook n _ :: fs => some { s with frames := fs, control := .loop n }
  | .committed :: fs => some { s with frames := fs, control := .tryStart }

def fire (s : State) : Option State :=
  match s.runtime.pop with
  | none => none
  | some (c, rt) =>
    match c.callback with
    | .roundTimeout => some { s with runtime := rt }.onRoundTimeout
    | .lockTimer => some { s with runtime := rt }.onLockTimer
    | _ => none

def user (s : State) : Event → Option State
  | .subscribe data => some (s.subscribe data).2
  | .unsubscribe h => some (s.unsubscribe h).2
  | .trigger => some s.trigger.2
  | .lock d => some (s.lock d).2
  | .unlock h => some (s.unlock h).2
  | .respond c r b =>
    if s.handedOut c r then some ({ s with log := .answered c r b :: s.log }.handleResponse r b) else none
  | .setResponseTimeout d => some { s with responseTimeout := d }
  | .onCommitted b => some { s with committed := b }
  | .ret => s.ret
  | .tick tp => if s.runtime.now ≤ tp then some { s with runtime := s.runtime.setNow tp } else none
  | .fire => s.fire
  | .add c k probe => some { s with pool := (s.pool.add c k probe).2 }
  | .prune now => some { s with pool := (s.pool.prune now).2 }
  | .proceed => none

end State

/-- A step of the manager and its surroundings. -/
def step (s : State) (e : Event) : Option State :=
  match s.control, e with
  | .user, e => s.user e
  | _, .proceed => s.proceed
  | _, _ => none

/-- A ticket is added to an empty pool. -/
def FillsPool (s : State) : Event → Prop
  | .add _ _ _ => s.pool.tickets = []
  | _ => False

instance (s : State) (e : Event) : Decidable (FillsPool s e) := by
  cases e <;> unfold FillsPool <;> infer_instance

end IdentityManager
end VanetzaIdf
