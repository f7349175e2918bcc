/-
# FlowControl

The gatekeeper of congestion control, `dcc/flow_control.cpp`. A packet goes out
at once if none of its priority or higher waits and the transmit rate control
asks for no delay; otherwise a trigger takes it out of a queue.

The rate control is any state machine (`TransmitRateControl`), whose state may
change by itself (`Event.rate`), and the runtime is shared with others.
-/
import VanetzaIdf.Geonet.Packet

namespace VanetzaIdf.Dcc

open Geonet (DccProfile)

inductive AccessCategory
  | bk | be | vi | vo
deriving DecidableEq, Repr

namespace AccessCategory

def priority : AccessCategory → ℕ
  | bk => 1
  | be => 3
  | vi => 5
  | vo => 7

/-- The order of the map of queues: the highest priority first. -/
def order : List AccessCategory := [vo, vi, be, bk]

theorem mem_order (ac : AccessCategory) : ac ∈ order := by
  cases ac <;> decide

theorem nodup_order : order.Nodup := by decide

end AccessCategory

def mapProfileOntoAc : DccProfile → AccessCategory
  | .dp0 => .vo
  | .dp1 => .vi
  | .dp2 => .be
  | .dp3 => .bk

structure DataRateG5 where
  kbps : ℕ
  codedBitsPerSymbol : ℕ
deriving DecidableEq, Repr

def g5_6Mbps : DataRateG5 := ⟨6000, 96⟩

/-- `Transmission`, as the rate control sees it. -/
structure Transmission where
  profile : DccProfile
  dataRate : Option DataRateG5
  bodyLength : ℕ
deriving DecidableEq, Repr

/-- `TransmitRateControl`: a state machine over time. -/
structure TransmitRateControl (τ : Type) where
  delay : τ → TimePoint → Transmission → Duration
  notify : τ → TimePoint → Transmission → τ

structure DataRequest where
  etherType : UInt16 := 0
  source : MacAddress := Vector.replicate 6 0
  destination : MacAddress := Vector.replicate 6 0
  dccProfile : DccProfile := .dp0
  lifetime : Duration
deriving DecidableEq, Repr

/-- A `ChunkPacket`, told from others by its identity. -/
structure Packet where
  identity : ℕ
  octets : ByteBuffer
deriving DecidableEq, Repr

def DataRequest.transmission (r : DataRequest) (p : Packet) : Transmission := ⟨r.dccProfile, none, p.octets.length⟩

structure AccessRequest where
  sourceAddr : MacAddress
  destinationAddr : MacAddress
  etherType : UInt16
  accessCategory : AccessCategory
deriving DecidableEq, Repr

def DataRequest.access (r : DataRequest) : AccessRequest :=
  ⟨r.source, r.destination, r.etherType, mapProfileOntoAc r.dccProfile⟩

/-- `FlowControl::PendingTransmission`. -/
structure PendingTransmission where
  expiry : TimePoint
  request : DataRequest
  packet : Packet
deriving DecidableEq, Repr

def PendingTransmission.transmission (tx : PendingTransmission) : Transmission :=
  ⟨tx.request.dccProfile, some g5_6Mbps, tx.packet.octets.length⟩

inductive Effect
  | dropHook (ac : AccessCategory) (packet : Packet)
  | transmitHook (ac : AccessCategory) (packet : Packet)
  /-- `access::Interface::request`, and the delay asked for before `notify`. -/
  | access (request : AccessRequest) (packet : Packet) (delay : Duration)
deriving DecidableEq, Repr

/-- `Clock::duration::max()`. -/
def maxDuration : Duration := 2 ^ 63 - 1

structure FlowControl (τ : Type) where
  queues : AccessCategory → List PendingTransmission := fun _ => []
  queueLength : ℕ := 0
  rate : τ
  runtime : SharedRuntime

namespace FlowControl

variable {τ : Type} (trc : TransmitRateControl τ) (fc : FlowControl τ)

def now : TimePoint := fc.runtime.now

variable (tx : Transmission)

def delay : Duration := trc.delay fc.rate fc.now tx

/-! ### Queues -/

def empty : Bool := AccessCategory.order.all fun ac => (fc.queues ac).isEmpty

def PendingTransmission.isExpired (now : TimePoint) (tx : PendingTransmission) : Bool := decide (tx.expiry < now)

def dropExpired : List Effect × FlowControl τ :=
  (AccessCategory.order.flatMap fun ac =>
      ((fc.queues ac).filter (PendingTransmission.isExpired fc.now)).map fun tx => .dropHook ac tx.packet,
    { fc with queues := fun ac => (fc.queues ac).filter fun tx => !PendingTransmission.isExpired fc.now tx })

/-- One round of the loop of `next_queue`. -/
def consider (best : Option AccessCategory × Duration) (ac : AccessCategory) :
    Option AccessCategory × Duration :=
  match fc.queues ac with
  | [] => best
  | tx :: _ => if fc.delay trc tx.transmission < best.2 then (some ac, fc.delay trc tx.transmission) else best

/-- `next_queue`: the queue whose first packet has the smallest delay. -/
def nextQueue : Option AccessCategory :=
  (AccessCategory.order.foldl (fc.consider trc) (none, maxDuration)).1

def nextTransmission : Option PendingTransmission := (fc.nextQueue trc).bind fun ac => (fc.queues ac).head?

def dequeue : Option PendingTransmission × FlowControl τ :=
  match fc.nextQueue trc with
  | some ac => ((fc.queues ac).head?, { fc with queues := Function.update fc.queues ac (fc.queues ac).tail })
  | none => (none, fc)

/-! ### Operations -/

def scheduleTrigger (tx : PendingTransmission) : FlowControl τ :=
  { fc with runtime := fc.runtime.scheduleIn (fc.delay trc tx.transmission) .self (some .self) }

/-- `notify` and `transmit`. -/
def send (request : DataRequest) (packet : Packet) :
    List Effect × FlowControl τ :=
  ([.transmitHook (mapProfileOntoAc request.dccProfile) packet, .access request.access packet (fc.delay trc tx)],
    { fc with rate := trc.notify fc.rate fc.now tx })

def transmitImmediately : Bool :=
  (AccessCategory.order.all fun ac =>
    !(decide ((mapProfileOntoAc tx.profile).priority ≤ ac.priority) && !(fc.queues ac).isEmpty)) &&
  decide (fc.delay trc tx = 0)

/-- The loop of `enqueue`: the first packets go while the queue is full. The
drop hook is called with the packet that comes in. -/
def popFull (limit : ℕ) (ac : AccessCategory) (packet : Packet) :
    List PendingTransmission → List Effect × List PendingTransmission
  | [] => ([], [])
  | tx :: q =>
    if 0 < limit ∧ limit ≤ (tx :: q).length then
      let r := popFull limit ac packet q
      (.dropHook ac packet :: r.1, r.2)
    else ([], tx :: q)

def enqueue (request : DataRequest) (packet : Packet) : List Effect × FlowControl τ :=
  let ac := mapProfileOntoAc request.dccProfile
  let tx : PendingTransmission := ⟨fc.now + request.lifetime, request, packet⟩
  let popped := popFull fc.queueLength ac packet (fc.queues ac)
  let fc' : FlowControl τ := { fc with queues := Function.update fc.queues ac (popped.2 ++ [tx]) }
  (popped.1, if fc.empty then fc'.scheduleTrigger trc tx else fc')

def request (fc : FlowControl τ) (request : DataRequest) (packet : Packet) : List Effect × FlowControl τ :=
  let dropped := fc.dropExpired
  let done :=
    if dropped.2.transmitImmediately trc (request.transmission packet) then
      dropped.2.send trc (request.transmission packet) request packet
    else dropped.2.enqueue trc request packet
  (dropped.1 ++ done.1, done.2)

/-- The last part of `trigger`: the next packet, if any, is scheduled. -/
def scheduleNext : FlowControl τ :=
  match fc.nextTransmission trc with
  | some tx => fc.scheduleTrigger trc tx
  | none => fc

def trigger : List Effect × FlowControl τ :=
  let dropped := fc.dropExpired
  let taken := dropped.2.dequeue trc
  match taken.1 with
  | some tx =>
    let sent := taken.2.send trc tx.transmission tx.request tx.packet
    (dropped.1 ++ sent.1, sent.2.scheduleNext trc)
  | none => (dropped.1, taken.2.scheduleNext trc)

def reschedule : FlowControl τ :=
  match fc.nextTransmission trc with
  | some tx => scheduleTrigger trc { fc with runtime := fc.runtime.cancel (some .self) } tx
  | none => fc

/-! ### Runs -/

inductive Event (τ : Type)
  | request (request : DataRequest) (packet : Packet)
  | reschedule
  | queueLength (length : ℕ)
  /-- The runtime runs the next callback that is due. -/
  | fire
  /-- The rate control changes. -/
  | rate (state : τ)
  | outside (what : Outside)

def step : Event τ → List Effect × FlowControl τ
  | .request request packet => fc.request trc request packet
  | .reschedule => ([], fc.reschedule trc)
  | .queueLength queueLength => ([], { fc with queueLength })
  | .fire =>
    match fc.runtime.pop with
    | some (c, runtime) =>
      if c.callback = .self then trigger trc { fc with runtime } else ([], { fc with runtime })
    | none => ([], fc)
  | .rate rate => ([], { fc with rate })
  | .outside what => ([], { fc with runtime := fc.runtime.outside what })

end FlowControl
end VanetzaIdf.Dcc
