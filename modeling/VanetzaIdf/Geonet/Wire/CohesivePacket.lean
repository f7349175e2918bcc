/-
# CohesivePacket

A received packet, `net/cohesive_packet.cpp`: one buffer, and for each layer the
position at which its octets end. `setBoundary` asserts that a layer does not
grow: `none` is an assertion that fails. After the router has set the boundary of
the network layer and trimmed the others, the layers are the octets after the
headers, as many as announced or as there are (`layers_finished`).
-/
import VanetzaIdf.Basic

namespace VanetzaIdf.Geonet.Wire

open List

inductive OsiLayer
  | physical | link | network | transport | session | presentation | application
deriving DecidableEq, Repr

/-- `layer_index`. -/
def OsiLayer.index : OsiLayer → ℕ
  | physical => 1
  | link => 2
  | network => 3
  | transport => 4
  | session => 5
  | presentation => 6
  | application => 7

def OsiLayer.below : OsiLayer → Option OsiLayer
  | physical => none
  | link => some physical
  | network => some link
  | transport => some network
  | session => some transport
  | presentation => some session
  | application => some presentation

/-- `ChunkPacket`: the octets of each layer on their own. -/
abbrev DownPacket := OsiLayer → ByteBuffer

namespace DownPacket

def empty : DownPacket := fun _ => []

/-- The octets above the network layer. -/
def upper (p : DownPacket) : ByteBuffer := p .transport ++ (p .session ++ (p .presentation ++ p .application))

end DownPacket

/-- `m_iterators` without the first, which stays at the start of the buffer. -/
structure CohesivePacket where
  buffer : ByteBuffer
  ends : OsiLayer → ℕ

namespace CohesivePacket

variable (p : CohesivePacket)

/-- `m_iterators[layer_index(layer) - 1]`. -/
def start (layer : OsiLayer) : ℕ := layer.below.elim 0 p.ends

def size (lowest highest : OsiLayer) : ℕ := p.ends highest - p.start lowest

/-- `operator[]`. -/
def layer (p : CohesivePacket) (layer : OsiLayer) : ByteBuffer := (p.buffer.take (p.ends layer)).drop (p.start layer)

def duplicate : DownPacket := p.layer

def setBoundary (layer : OsiLayer) (bytes : ℕ) : Option CohesivePacket :=
  if bytes ≤ p.size layer layer then some { p with ends := Function.update p.ends layer (p.start layer + bytes) } else
    none

/-- `trim`: the layers from `lowest` on end within `bytes`. -/
def trim (lowest : OsiLayer) (bytes : ℕ) : CohesivePacket :=
  if bytes < p.size lowest .application then
    let stop := p.start lowest + bytes
    { p with
      ends := fun l =>
        if l = .application then stop else if lowest.index ≤ l.index + 1 then min (p.ends l) stop else p.ends l }
  else p

/-- Boundary and trimming once the headers are parsed. -/
def finish (parsed payload : ℕ) : Option CohesivePacket :=
  (p.setBoundary .network parsed).map (·.trim .transport payload)

/-- A packet of the link layer: its octets are those of the network layer. -/
def received (physical link network : ByteBuffer) : CohesivePacket where
  buffer := physical ++ link ++ network
  ends
    | .physical => physical.length
    | .link => physical.length + link.length
    | _ => physical.length + link.length + network.length

def ofNetwork (buffer : ByteBuffer) : CohesivePacket := received [] [] buffer

section Received

variable (physical link b : ByteBuffer)

theorem slice_append (lower b : ByteBuffer) (i j : ℕ) :
    ((lower ++ b).take (lower.length + j)).drop (lower.length + i) = (b.take j).drop i := by
  rw [take_length_add_append, drop_length_add_append]

@[simp] theorem layer_received_network : (received physical link b).layer .network = b := by
  have h := slice_append (physical ++ link) b 0 b.length
  rw [length_append, take_length, drop_zero, Nat.add_zero] at h
  exact h

/-- The layers after parsing: the headers, and of what follows at most the
announced payload. -/
def finishedLayers (parsed payload : ℕ) : DownPacket
  | .physical => physical
  | .link => link
  | .network => b.take parsed
  | .transport => (b.drop parsed).take payload
  | _ => []

def finishedEnds (parsed payload : ℕ) : OsiLayer → ℕ
  | .physical => physical.length
  | .link => physical.length + link.length
  | .network => physical.length + link.length + parsed
  | _ => physical.length + link.length + (parsed + min payload (b.length - parsed))

theorem finish_received {parsed : ℕ} (h : parsed ≤ b.length) (payload : ℕ) :
    (received physical link b).finish parsed payload =
      some ⟨physical ++ link ++ b, finishedEnds physical link b parsed payload⟩ := by
  have hsize : parsed ≤ (received physical link b).size .network .network := by
    show parsed ≤ physical.length + link.length + b.length - (physical.length + link.length)
    omega
  unfold finish setBoundary
  rw [if_pos hsize, Option.map_some, Option.some.injEq]
  unfold trim
  split_ifs with htrim
  · refine congrArg (CohesivePacket.mk _) (funext fun l => ?_)
    have hlt : payload < b.length - parsed := by
      have : payload < physical.length + link.length + b.length - (physical.length + link.length + parsed) := htrim
      omega
    cases l <;> simp [finishedEnds, received, start, OsiLayer.below, OsiLayer.index] <;> omega
  · refine congrArg (CohesivePacket.mk _) (funext fun l => ?_)
    have hle : b.length - parsed ≤ payload := by
      have : ¬ payload < physical.length + link.length + b.length - (physical.length + link.length + parsed) := htrim
      omega
    cases l <;> simp [finishedEnds, received, start, OsiLayer.below] <;> omega

variable {physical link b} {parsed payload : ℕ} {p : CohesivePacket}

theorem size_finished (h : parsed ≤ b.length) (hp : (received physical link b).finish parsed payload = some p) :
    p.size .transport .application = min payload (b.length - parsed) ∧
      p.size .network .application = parsed + min payload (b.length - parsed) := by
  rw [finish_received physical link b h, Option.some.injEq] at hp
  subst hp
  simp only [size, start, OsiLayer.below, Option.elim, finishedEnds]
  omega

theorem layers_finished (h : parsed ≤ b.length) (hp : (received physical link b).finish parsed payload = some p) :
    p.duplicate = finishedLayers physical link b parsed payload := by
  rw [finish_received physical link b h, Option.some.injEq] at hp
  subst hp
  have hslice := slice_append (physical ++ link) b
  rw [length_append] at hslice
  funext l
  cases l with
  | physical => simp [duplicate, layer, start, OsiLayer.below, finishedEnds, finishedLayers]
  | link =>
    have := slice_append physical (link ++ b) 0 link.length
    rw [← append_assoc, Nat.add_zero, drop_zero, take_left] at this
    exact this
  | network =>
    have := hslice 0 parsed
    rw [Nat.add_zero, drop_zero] at this
    exact this
  | transport =>
    refine (hslice parsed _).trans ?_
    rw [drop_take, Nat.add_sub_cancel_left]
    show (b.drop parsed).take (min payload (b.length - parsed)) = (b.drop parsed).take payload
    rw [← length_drop, ← take_take, take_length]
  | _ => exact (hslice _ _).trans (drop_of_length_le (length_take_le _ _))

end Received

end CohesivePacket

end VanetzaIdf.Geonet.Wire
