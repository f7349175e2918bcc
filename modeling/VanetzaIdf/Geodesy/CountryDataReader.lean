/-
# CountryDataReader

The reader of country polygons, `geodesy/country_data_reader.{hpp,cpp}`: a
version, then entries with a country code, a size and a WKB geometry.

Memory is a function of the index, so that reading past the end is possible; a
log has every octet read and every difference `length - offset` computed.
`std::size_t` has `w` bits. Coordinates are words of 64 bits.
`std::vector::reserve` throws `std::length_error` above `max_size()`.
-/
import VanetzaIdf.Basic
import VanetzaIdf.Lib.BigEndian
import VanetzaIdf.Lib.Watched

namespace VanetzaIdf.Geodesy

open Lib

/-! ### Sizes -/

section Size

variable (w : ℕ)

def sizeAdd (a b : ℕ) : ℕ := (a + b) % 2 ^ w

def sizeMul (a b : ℕ) : ℕ := a * b % 2 ^ w

def sizeSub (a b : ℕ) : ℕ := (2 ^ w + a - b) % 2 ^ w

/-- `max_size()` of a vector of points, which have 16 octets each. -/
def maxPoints : ℕ := (2 ^ w - 1) / 16

variable {w}

theorem sizeAdd_eq {a b : ℕ} (h : a + b < 2 ^ w) : sizeAdd w a b = a + b := Nat.mod_eq_of_lt h

theorem sizeSub_eq {a b : ℕ} (ha : a < 2 ^ w) (h : b ≤ a) : sizeSub w a b = a - b := by
  unfold sizeSub
  rw [Nat.add_sub_assoc h, Nat.add_mod_left, Nat.mod_eq_of_lt (by omega)]

end Size

/-! ### Geometries -/

/-- `country::Point`: the bits of longitude and latitude. -/
structure Point where
  lon : UInt64
  lat : UInt64
deriving DecidableEq, Repr

abbrev Ring := List Point

/-- `country::Polygon`. -/
structure Polygon where
  outer : Ring := []
  inners : List Ring := []
deriving DecidableEq, Repr

abbrev CountryPolygon := List Polygon

structure CountryReaderResult where
  success : Bool
  position : ℕ
  detail : String := ""
deriving DecidableEq, Repr

namespace CountryReaderResult

def succeeded (pos : ℕ) : CountryReaderResult := ⟨true, pos, ""⟩

def failure (msg : String) (pos : ℕ) : CountryReaderResult := ⟨false, pos, msg⟩

def ok (r : CountryReaderResult) : Bool := r.success

def addOffset (w : ℕ) (r : CountryReaderResult) (offset : ℕ) : CountryReaderResult :=
  { r with position := sizeAdd w r.position offset }

end CountryReaderResult

open CountryReaderResult (succeeded failure)

/-! ### Memory -/

/-- What the reader does to its input: it reads an octet, inside of a geometry or not, or
subtracts an offset from a length. -/
inductive Access
  | octet (index : ℕ) (entry : Option (ℕ × ℕ))
  | difference (length offset : ℕ)
deriving DecidableEq, Repr

def Access.inEntry (start size : ℕ) : Access → Access
  | .octet index _ => .octet index (some (start, size))
  | .difference length offset => .difference length offset

/-- What ends the reader without a result: `std::length_error`; `running` is
no end, it stands for a loop that is not done after the turns it was given. -/
inductive Stop
  | lengthError | running
deriving DecidableEq, Repr

abbrev Reading (α : Type) := Watched Access Stop α

/-- The number of octets in either order. -/
def number (le : Bool) (bs : ByteBuffer) : ℕ := ofBe (if le then bs.reverse else bs)

section Reader

variable (w : ℕ) (data : ℕ → UInt8)

def octets (p n : ℕ) : ByteBuffer := (List.range' p n).map data

/-- `memcpy` of `n` octets from `p`. -/
def readOctets (p n : ℕ) : Reading ByteBuffer := ⟨(List.range' p n).map (.octet · none), .ok (octets data p n)⟩

def readU16le (p : ℕ) : Reading ℕ := do
  let bs ← readOctets data p 2
  pure (number true bs)

/-- `read_u32`; `read_u32le` is the same in little-endian order. -/
def readU32 (p : ℕ) (le : Bool) : Reading ℕ := do
  let bs ← readOctets data p 4
  pure (number le bs)

def readF64 (p : ℕ) (le : Bool) : Reading UInt64 := do
  let bs ← readOctets data p 8
  pure (UInt64.ofNat (number le bs))

/-- `data[p]`. -/
def readU8 (p : ℕ) : Reading UInt8 := do
  let bs ← readOctets data p 1
  pure (bs.headD 0)

/-- `length - offset`. -/
def minus (length offset : ℕ) : Reading ℕ := do
  Watched.touch (.difference length offset)
  pure (sizeSub w length offset)

/-- `ring.reserve`. -/
def reserve (n : ℕ) : Reading Unit := if maxPoints w < n then Watched.stop .lengthError else pure ()

/-! ### Polygons -/

/-- The loop over the points of a ring, `left` of them to come. -/
def readPoints (base : ℕ) (le : Bool) : (left offset : ℕ) → Ring → Reading (Ring × ℕ)
  | 0, offset, ring => pure (ring, offset)
  | left + 1, offset, ring => do
    let lon ← readF64 data (base + offset) le
    let offset := sizeAdd w offset 8
    let lat ← readF64 data (base + offset) le
    let offset := sizeAdd w offset 8
    readPoints base le left offset (ring ++ [⟨lon, lat⟩])

/-- The loop over the rings of a polygon, `left` of them to come after `r`. -/
def parseRings (base length : ℕ) (le : Bool) : (left r offset : ℕ) → Polygon → Reading (CountryReaderResult × Polygon)
  | 0, _, offset, out => pure (succeeded offset, out)
  | left + 1, r, offset, out => do
    let remaining ← minus w length offset
    if remaining < 4 then pure (failure "truncated polygon: missing point count" offset, out)
    else do
      let numPoints ← readU32 data (base + offset) le
      let offset := sizeAdd w offset 4
      let pointsBytes := sizeMul w (sizeMul w numPoints 2) 8
      let remaining ← minus w length offset
      if remaining < pointsBytes then pure (failure "truncated polygon: missinsg point data" offset, out)
      else do
        reserve w numPoints
        let (ring, offset) ← readPoints w data base le numPoints offset []
        parseRings base length le left (r + 1) offset
          (if r = 0 then { out with outer := ring } else { out with inners := out.inners ++ [ring] })

def parsePolygonBody (base length : ℕ) (le : Bool) : Reading (CountryReaderResult × Polygon) :=
  if length < 4 then pure (failure "truncated polygon: missing ring count" 0, {})
  else do
    let numRings ← readU32 data base le
    parseRings w data base length le numRings 0 4 {}

/-- The loop over the polygons of a multi-polygon, `left` of them to come. -/
def parsePolygons (base length : ℕ) : (left offset : ℕ) → CountryPolygon →
    Reading (CountryReaderResult × CountryPolygon)
  | 0, offset, out => pure (succeeded offset, out)
  | left + 1, offset, out => do
    let remaining ← minus w length offset
    if remaining < 5 then pure (failure "truncated multi-polygon: missing polygon header" offset, out)
    else do
      let order ← readU8 data (base + offset)
      let polyLe := order == 0x01
      let polyType ← readU32 data (base + offset + 1) polyLe
      if polyType ≠ 3 then pure (failure "unexpected geometry type inside multi-polygon" (sizeAdd w offset 1), out)
      else do
        let offset := sizeAdd w offset 5
        let remaining ← minus w length offset
        let (inner, polygon) ← parsePolygonBody w data (base + offset) remaining polyLe
        if inner.ok then parsePolygons base length left (sizeAdd w offset inner.position) (out ++ [polygon])
        else pure (inner.addOffset w offset, out)

def parseWkb (base length : ℕ) : Reading (CountryReaderResult × CountryPolygon) :=
  if length < 5 then pure (failure "WKB too short for header" 0, [])
  else do
    let order ← readU8 data base
    let le := order == 0x01
    let type ← readU32 data (base + 1) le
    if type = 3 then do
      let remaining ← minus w length 5
      let (inner, polygon) ← parsePolygonBody w data (base + 5) remaining le
      pure (inner.addOffset w 5, if inner.ok then [polygon] else [])
    else if type = 6 then
      if length < 9 then pure (failure "truncated multi-polygon: missing polygon count" 5, [])
      else do
        let numPolygons ← readU32 data (base + 5) le
        parsePolygons w data base length numPolygons 9 []
    else pure (failure "unsupported WKB geometry type" 1, [])

/-! ### Entries -/

/-- The loop over the entries, with at most `fuel` of them to come; what was
given to the callback is collected. -/
def readEntries (length : ℕ) : (fuel offset : ℕ) → List (ℕ × CountryPolygon) →
    Reading (CountryReaderResult × List (ℕ × CountryPolygon))
  | 0, _, _ => Watched.stop .running
  | fuel + 1, offset, given =>
    if offset < length then do
      let remaining ← minus w length offset
      if remaining < 6 then pure (failure "truncated entry header" offset, given)
      else do
        let m49 ← readU16le data offset
        let offset := sizeAdd w offset 2
        let wkbSize ← readU32 data offset true
        let offset := sizeAdd w offset 4
        let remaining ← minus w length offset
        if remaining < wkbSize then pure (failure "invalid WKB payload size exceeding remaining data" offset, given)
        else do
          let (inner, polygon) ← (parseWkb w data offset wkbSize).relabel (Access.inEntry offset wkbSize)
          if inner.ok then readEntries length fuel (sizeAdd w offset wkbSize) (given ++ [(m49, polygon)])
          else pure (inner.addOffset w offset, given)
    else pure (succeeded offset, given)

/-- `read_country_data`; an entry takes at least six octets. -/
def readCountryData (length : ℕ) : Reading (CountryReaderResult × List (ℕ × CountryPolygon)) :=
  if length < 2 then pure (failure "truncated file header: missing version field" 0, [])
  else do
    let version ← readU16le data 0
    if version ≠ 1 then pure (failure "unsupported country data format version" 0, [])
    else readEntries w data length (length / 6 + 1) 2 []

end Reader

end VanetzaIdf.Geodesy
