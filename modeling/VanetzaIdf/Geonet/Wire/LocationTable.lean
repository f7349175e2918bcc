/-
# The location table

`geonet/location_table.cpp` on top of the map with expiring entries
(`soft_state_map.hpp`), the lists of sequence numbers for duplicate detection,
and `gbc_memory.cpp`. An expired entry that is asked for again comes back with
its old value. The order of the list stands for that of the hash map. A rate
that is not a number is `none`.
-/
import VanetzaIdf.Geonet.CbfPacketBuffer
import VanetzaIdf.Geonet.Wire.Codec
import VanetzaIdf.Lib.CircularBuffer

namespace VanetzaIdf.Geonet.Wire

open Lib

/-! ### Position vectors -/

/-- `is_greater` of time stamps: at most half of the range ahead. -/
def isGreater (lhs rhs : UInt32) : Bool :=
  (rhs < lhs && lhs - rhs ≤ 0x7fffffff) || (lhs < rhs && 0x7fffffff < rhs - lhs)

/-- `operator<` of time stamps. -/
def isBefore (lhs rhs : UInt32) : Bool := !isGreater lhs rhs && lhs != rhs

namespace LongPositionVector

def position (v : LongPositionVector) : GeodeticPosition := ⟨v.latitude.toInt, v.longitude.toInt⟩

def isValid (v : LongPositionVector) : Bool :=
  if v = {} then false
  else if v.latitude < -900000000 ∨ 900000000 < v.latitude then false
  else if v.longitude < -1800000000 ∨ 1800000000 < v.longitude then false
  else if 3600 < v.heading then false
  else true

end LongPositionVector

structure ShortPositionVector where
  gnAddr : Address
  timestamp : UInt32
  latitude : Int32
  longitude : Int32
deriving DecidableEq, Repr

/-- `ShortPositionVector(const LongPositionVector&)`. -/
def ShortPositionVector.ofLong (v : LongPositionVector) : ShortPositionVector :=
  ⟨v.gnAddr, v.timestamp, v.latitude, v.longitude⟩

/-! ### Duplicate packet lists -/

/-- `DuplicatePacketList::ListElement`. -/
structure ListElement where
  sequenceNumber : UInt16
  counter : ℕ := 1
deriving DecidableEq, Repr

abbrev DuplicatePacketList := CircularBuffer ListElement

namespace DuplicatePacketList

/-- `++element->counter` of the first element with this number. -/
def count (sn : UInt16) : List ListElement → List ListElement
  | [] => []
  | e :: es => if e.sequenceNumber = sn then { e with counter := e.counter + 1 } :: es else e :: count sn es

@[simp] theorem length_count (sn : UInt16) : ∀ es : List ListElement, (count sn es).length = es.length
  | [] => rfl
  | e :: es => by
    unfold count
    split_ifs
    · rfl
    · rw [List.length_cons, length_count sn es, List.length_cons]

def check (l : DuplicatePacketList) (sn : UInt16) : Bool × DuplicatePacketList :=
  if l.contents.any (·.sequenceNumber = sn) then
    (true, ⟨l.capacity, count sn l.contents, by rw [length_count]; exact l.size_le⟩)
  else (false, l.pushBack { sequenceNumber := sn })

end DuplicatePacketList

/-! ### Entries -/

structure LocTexG5 where
  localUpdate : UInt32
  sourceUpdate : UInt32
  dccMco : DccMcoField
deriving DecidableEq, Repr

/-- `LocationTableEntry`; of its `extensions` those that the router puts in. -/
structure LocationTableEntry where
  isNeighbourUntil : TimePoint := -2 ^ 63
  positionVector : Option LongPositionVector := none
  pdr : Option ℚ := none
  pdrUpdate : TimePoint
  duplicatePacketList : Option DuplicatePacketList := none
  locTexG5 : Option LocTexG5 := none

namespace LocationTableEntry

variable (e : LocationTableEntry) (now : TimePoint)

def isNeighbour : Bool := decide (now < e.isNeighbourUntil)

def setNeighbour (flag : Bool) : LocationTableEntry :=
  { e with isNeighbourUntil := if flag then 2 ^ 63 - 1 else -2 ^ 63 }

/-- `set_neighbour(bool, Clock::duration)`. -/
def setNeighbourFor (flag : Bool) (expiry : Duration) : LocationTableEntry :=
  if flag ∧ 0 < expiry then { e with isNeighbourUntil := now + expiry } else e.setNeighbour flag

def updatePdr (packetSize : ℕ) (beta : ℚ) : LocationTableEntry :=
  match e.pdr with
  | none => { e with pdr := some 0, pdrUpdate := now }
  | some pdr =>
    if 0 < beta ∧ beta < 1 then
      let timePeriod := Units.ofClock (now - e.pdrUpdate)
      if 0 < timePeriod then
        { e with pdr := some (pdr * beta + (1 - beta) * (packetSize / timePeriod)), pdrUpdate := now }
      else e
    else e

/-- `get_pdr() > limit`; a rate that is not a number exceeds nothing. -/
def exceeds (limit : ℚ) : Bool := e.pdr.any fun pdr => decide (limit < pdr)

def setPositionVector (v : LongPositionVector) : Bool × LocationTableEntry :=
  if v.isValid then (true, { e with positionVector := some v }) else (false, e)

def updatePositionVector (v : LongPositionVector) : Bool × LocationTableEntry :=
  match e.positionVector with
  | some old => if isBefore old.timestamp v.timestamp then e.setPositionVector v else (false, e)
  | none => e.setPositionVector v

end LocationTableEntry

/-! ### The map -/

/-- A value with its key and the time it expires. -/
structure SoftState (κ α : Type) where
  key : κ
  expiry : TimePoint
  value : α

structure SoftStateMap (κ α : Type) where
  lifetime : Duration
  entries : List (SoftState κ α) := []

namespace SoftStateMap

variable {κ α : Type} [DecidableEq κ] (m : SoftStateMap κ α) (now : TimePoint) (key : κ)

def isExpired (now : TimePoint) (x : SoftState κ α) : Bool := decide (x.expiry < now)

def getDataPtr : Option (SoftState κ α) := m.entries.find? (·.key = key)

def getValuePtr : Option α := ((m.getDataPtr key).filter fun x => !isExpired now x).map (·.value)

def hasValue : Bool := (m.getValuePtr now key).isSome

/-- The entry of this key changed. -/
def modifyData (f : SoftState κ α → SoftState κ α) : SoftStateMap κ α :=
  { m with entries := m.entries.map fun x => if x.key = key then f x else x }

def modify (f : α → α) : SoftStateMap κ α := m.modifyData key fun x => { x with value := f x.value }

/-- `get_data`: a new entry, or the old one, brought back if it has expired. -/
def getData (create : α) : SoftStateMap κ α :=
  match m.getDataPtr key with
  | none => { m with entries := m.entries ++ [⟨key, now + m.lifetime, create⟩] }
  | some x => if isExpired now x then m.modifyData key fun x => { x with expiry := now + m.lifetime } else m

def refresh (create : α) : SoftStateMap κ α :=
  match m.getDataPtr key with
  | some _ => m.modifyData key fun x => { x with expiry := now + m.lifetime }
  | none => m.getData now key create

def dropExpired : SoftStateMap κ α := { m with entries := m.entries.filter fun x => !isExpired now x }

/-- `map`: the values that have not expired. -/
def values : List α := (m.entries.filter fun x => !isExpired now x).map (·.value)

end SoftStateMap

abbrev LocationTable := SoftStateMap MacAddress LocationTableEntry

namespace LocationTable

variable (t : LocationTable) (now : TimePoint)

/-- `LocationTable(const MIB&, Runtime&)`. -/
def init (itsGnLifetimeLocTE : Units.Duration) : LocationTable :=
  { lifetime := seconds (Units.truncate itsGnLifetimeLocTE) }

def newEntry : LocationTableEntry := { pdrUpdate := now }

/-- `update`; the entry it returns is the one of the source. -/
def update (v : LongPositionVector) : LocationTable :=
  let key := v.gnAddr.mid
  match (t.getValuePtr now key).filter fun e => e.positionVector.isSome with
  | some e =>
    let r := e.updatePositionVector v
    let t' := t.modify key fun _ => r.2
    if r.1 then t'.refresh now key (newEntry now) else t'
  | none => (t.refresh now key (newEntry now)).modify key fun e => (e.updatePositionVector v).2

def getPosition (mac : MacAddress) : Option LongPositionVector := (t.getValuePtr now mac).bind (·.positionVector)

def neighbours : List LocationTableEntry := (t.values now).filter fun e => e.isNeighbour now

def hasNeighbours : Bool := (t.values now).any fun e => e.isNeighbour now

end LocationTable

/-! ### Packets passed up -/

structure GbcMemory where
  capacity : ℕ := 1
  identifiers : List CbfPacketIdentifier := []
deriving DecidableEq, Repr

def GbcMemory.remember (m : GbcMemory) (id : CbfPacketIdentifier) : Bool × GbcMemory :=
  if id ∈ m.identifiers then (true, { m with identifiers := m.identifiers.erase id ++ [id] })
  else (false, { m with identifiers := push m.capacity m.identifiers id })

end VanetzaIdf.Geonet.Wire
