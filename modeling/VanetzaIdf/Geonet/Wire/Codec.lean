/-
# Headers on the wire

The headers of GeoNetworking with all their bits. Enumerations are the numbers
of their width, as a received field may be any of them; the DCC field of an SHB
header is its 32 bits. Every header has a format of fixed length (`Fixed`): what
was written is read back, and what was read is written back, reserved bits
included. The `Parser` counts the octets of the headers that it could read.
-/
import VanetzaIdf.Geonet.Packet
import VanetzaIdf.Lib.Decoder
import Mathlib.Tactic.IntervalCases

namespace VanetzaIdf.Geonet.Wire

open Lib Decoder List

variable {σ : Type}

/-! ### Octets with parts -/

/-- The upper and the lower four bits of an octet. -/
def joinNibbles (high low : BitVec 4) : UInt8 :=
  ⟨(high.setWidth 8 <<< 4) ||| (low.setWidth 8 &&& 0x0f)⟩

def highNibble (b : UInt8) : BitVec 4 := (b >>> 4).toBitVec.setWidth 4

def lowNibble (b : UInt8) : BitVec 4 := (b &&& 0x0f).toBitVec.setWidth 4

theorem nibbles_join (high low : BitVec 4) :
    highNibble (joinNibbles high low) = high ∧ lowNibble (joinNibbles high low) = low := by
  unfold highNibble lowNibble joinNibbles
  constructor
  · ext i hi
    interval_cases i <;> simp
  · ext i hi
    interval_cases i <;> simp

variable (b : UInt8) (v : BitVec 16)

theorem join_nibbles : joinNibbles (highNibble b) (lowNibble b) = b := by
  unfold highNibble lowNibble joinNibbles
  rw [← UInt8.toBitVec_inj]
  ext i hi
  interval_cases i <;> simp

def rawLifetime (l : Lifetime) : UInt8 :=
  ⟨l.multiplier.setWidth 8 <<< 2 ||| (match l.base with
    | .fiftyMilliseconds => 0
    | .oneSecond => 1
    | .tenSeconds => 2
    | .hundredSeconds => 3)⟩

/-- `Lifetime::raw(uint8_t)`. -/
def lifetimeOfRaw (b : UInt8) : Lifetime where
  base := match (b &&& 0x03).toNat with
    | 0 => .fiftyMilliseconds
    | 1 => .oneSecond
    | 2 => .tenSeconds
    | _ => .hundredSeconds
  multiplier := (b >>> 2).toBitVec.setWidth 6

theorem lifetimeOfRaw_raw (l : Lifetime) : lifetimeOfRaw (rawLifetime l) = l := by
  obtain ⟨base, multiplier⟩ := l
  revert multiplier
  cases base <;> decide +kernel

theorem rawLifetime_ofRaw : rawLifetime (lifetimeOfRaw b) = b := by
  have h : ∀ v : BitVec 8, rawLifetime (lifetimeOfRaw ⟨v⟩) = ⟨v⟩ := by decide +kernel
  exact h b.toBitVec

def rawTrafficClass (tc : TrafficClass) : UInt8 :=
  ⟨(if tc.storeCarryForward then 0x80 else 0) ||| (if tc.channelOffload then 0x40 else 0) ||| tc.tcId.setWidth 8⟩

/-- `TrafficClass(uint8_t)`. -/
def trafficClassOfRaw (b : UInt8) : TrafficClass where
  storeCarryForward := b &&& 0x80 != 0
  channelOffload := b &&& 0x40 != 0
  tcId := (b &&& 0x3f).toBitVec.setWidth 6

theorem and_twoPow_bne {w : ℕ} (v : BitVec w) {i : ℕ} (hi : i < w) : (v &&& BitVec.twoPow w i != 0) = v[i] := by
  rw [BitVec.and_twoPow, BitVec.getLsbD_eq_getElem hi]
  cases v[i] with
  | true =>
    rw [if_pos rfl, bne_iff_ne]
    intro h
    have hbit := congrArg (fun w : BitVec _ => w.getLsbD i) h
    simp [hi] at hbit
  | false => simp

theorem flag_eq : (v &&& 0x8000 != 0) = v[15] := and_twoPow_bne v (i := 15) (by decide)

theorem octet_flag_eq (i : ℕ) (hi : i < 8) : (b &&& ⟨BitVec.twoPow 8 i⟩ != 0) = b.toBitVec[i] := by
  rw [← and_twoPow_bne b.toBitVec hi, Bool.eq_iff_iff, bne_iff_ne, bne_iff_ne, Ne, ← UInt8.toBitVec_inj]
  rfl

theorem trafficClassOfRaw_raw (tc : TrafficClass) : trafficClassOfRaw (rawTrafficClass tc) = tc := by
  obtain ⟨scf, offload, tcId⟩ := tc
  unfold trafficClassOfRaw rawTrafficClass
  congr 1
  · refine (octet_flag_eq _ 7 (by decide)).trans ?_
    cases scf <;> cases offload <;> simp
  · refine (octet_flag_eq _ 6 (by decide)).trans ?_
    cases scf <;> cases offload <;> simp
  · ext i hi
    cases scf <;> cases offload <;> interval_cases i <;> simp

theorem rawTrafficClass_ofRaw : rawTrafficClass (trafficClassOfRaw b) = b := by
  have hscf : (b &&& 0x80 != 0) = b.toBitVec[7] := octet_flag_eq b 7 (by decide)
  have hoffload : (b &&& 0x40 != 0) = b.toBitVec[6] := octet_flag_eq b 6 (by decide)
  unfold trafficClassOfRaw rawTrafficClass
  rw [← UInt8.toBitVec_inj]
  dsimp only
  rw [hscf, hoffload]
  ext i hi
  cases h : b.toBitVec[7] <;> cases h' : b.toBitVec[6] <;> interval_cases i <;> simp [h, h']

/-! ### Addresses -/

/-- The first two octets of an address. -/
def packAddress (a : Address) : BitVec 16 :=
  a.countryCode.setWidth 16 ||| ((a.stationType.setWidth 16 <<< 10) &&& 0x7c00) |||
    (if a.isManuallyConfigured then 0x8000 else 0x0000)

def unpackAddress (v : BitVec 16) (mid : MacAddress) : Address where
  isManuallyConfigured := v &&& 0x8000 != 0
  countryCode := (v &&& 0x03ff).setWidth 10
  stationType := ((v &&& 0x7c00) >>> 10).setWidth 5
  mid := mid

theorem unpack_packAddress (a : Address) : unpackAddress (packAddress a) a.mid = a := by
  obtain ⟨manual, station, country, mid⟩ := a
  unfold unpackAddress packAddress
  congr 1
  · rw [flag_eq]
    cases manual <;> simp
  · ext i hi
    cases manual <;> interval_cases i <;> simp
  · ext i hi
    cases manual <;> interval_cases i <;> simp

theorem pack_unpackAddress (mid : MacAddress) : packAddress (unpackAddress v mid) = v := by
  unfold packAddress unpackAddress
  rw [flag_eq]
  ext i hi
  cases h : v[15] <;> interval_cases i <;> simp [h]

def serializeAddress (a : Address) : ByteBuffer := be16 ⟨packAddress a⟩ ++ a.mid.toList

def deserializeAddress : Decoder σ Address := do
  let v ← uint16
  let mid ← vector 6
  pure (unpackAddress v.toBitVec mid)

theorem fixed_address : Fixed (σ := σ) 8 deserializeAddress serializeAddress := by
  refine Rest.fixed (fixed_uint16.bind fun v => (fixed_vector 6).bind fun mid => .pure ?_) fun a => ?_
  · show be16 ⟨packAddress (unpackAddress v.toBitVec mid)⟩ ++ mid.toList = _
    rw [pack_unpackAddress, nil_append]
  · exact (fixed_uint16.reads _).bind (((fixed_vector 6).reads _).last (unpack_packAddress a))

/-! ### Position vectors -/

/-- `LongPositionVector`; angles in tenths of a microdegree, the speed in
centimetres per second. -/
structure LongPositionVector where
  gnAddr : Address := {}
  timestamp : UInt32 := 0
  latitude : Int32 := 0
  longitude : Int32 := 0
  positionAccuracyIndicator : Bool := false
  speed : BitVec 15 := 0
  heading : UInt16 := 0
deriving DecidableEq, Repr

/-- Accuracy indicator and speed. -/
def packSpeed (pai : Bool) (speed : BitVec 15) : BitVec 16 := speed.setWidth 16 ||| (if pai then 0x8000 else 0x0000)

theorem unpack_packSpeed (pai : Bool) (speed : BitVec 15) :
    (packSpeed pai speed &&& 0x8000 != 0) = pai ∧ (packSpeed pai speed).setWidth 15 = speed := by
  unfold packSpeed
  constructor
  · rw [flag_eq]
    cases pai <;> simp
  · ext i hi
    cases pai <;> interval_cases i <;> simp

theorem pack_unpackSpeed : packSpeed (v &&& 0x8000 != 0) (v.setWidth 15) = v := by
  unfold packSpeed
  rw [flag_eq]
  ext i hi
  cases h : v[15] <;> interval_cases i <;> simp [h]

namespace LongPositionVector

def serialize (v : LongPositionVector) : ByteBuffer :=
  serializeAddress v.gnAddr ++ (be32 v.timestamp ++ (beInt32 v.latitude ++ (beInt32 v.longitude ++
    (be16 ⟨packSpeed v.positionAccuracyIndicator v.speed⟩ ++ be16 v.heading))))

def deserialize : Decoder σ LongPositionVector := do
  let gnAddr ← deserializeAddress
  let timestamp ← uint32
  let latitude ← int32
  let longitude ← int32
  let paiAndSpeed ← uint16
  let heading ← uint16
  pure ⟨gnAddr, timestamp, latitude, longitude, paiAndSpeed.toBitVec &&& 0x8000 != 0, paiAndSpeed.toBitVec.setWidth 15,
    heading⟩

theorem fixed : Fixed (σ := σ) 24 deserialize serialize := by
  refine Rest.fixed (fixed_address.bind fun _ => fixed_uint32.bind fun _ => fixed_int32.bind fun _ =>
    fixed_int32.bind fun _ =>
    fixed_uint16.bind fun v => fixed_uint16.bind fun _ => .pure ?_) fun v => ?_
  · unfold serialize
    rw [pack_unpackSpeed]
    simp only [append_assoc, nil_append]
  · obtain ⟨hpai, hspeed⟩ := unpack_packSpeed v.positionAccuracyIndicator v.speed
    refine (fixed_address.reads _).bind ((fixed_uint32.reads _).bind ((fixed_int32.reads _).bind
      ((fixed_int32.reads _).bind ((fixed_uint16.reads _).bind ((fixed_uint16.reads _).last ?_)))))
    rw [hpai, hspeed]

end LongPositionVector

/-! ### Basic and common header -/

/-- `NextHeaderBasic`, four bits. -/
abbrev NextHeaderBasic := BitVec 4

namespace NextHeaderBasic
def any : NextHeaderBasic := 0
def common : NextHeaderBasic := 1
def secured : NextHeaderBasic := 2
end NextHeaderBasic

/-- `NextHeaderCommon`, four bits. -/
abbrev NextHeaderCommon := BitVec 4

namespace NextHeaderCommon
def any : NextHeaderCommon := 0
def btpA : NextHeaderCommon := 1
def btpB : NextHeaderCommon := 2
def ipv6 : NextHeaderCommon := 3
end NextHeaderCommon

/-- `HeaderType`, an octet. -/
abbrev HeaderType := UInt8

namespace HeaderType
def beacon : HeaderType := 0x10
def geoBroadcastCircle : HeaderType := 0x40
def geoBroadcastRect : HeaderType := 0x41
def geoBroadcastElip : HeaderType := 0x42
def tsbSingleHop : HeaderType := 0x50
def tsbMultiHop : HeaderType := 0x51

/-- One of the three shapes of a geographical broadcast. -/
def isGeoBroadcast (ht : HeaderType) : Bool :=
  ht == geoBroadcastCircle || ht == geoBroadcastRect || ht == geoBroadcastElip

end HeaderType

structure BasicHeader where
  version : BitVec 4 := 0
  nextHeader : NextHeaderBasic := .any
  reserved : UInt8 := 0
  lifetime : Lifetime := .zero
  hopLimit : UInt8 := 0
deriving DecidableEq, Repr

namespace BasicHeader

def serialize (h : BasicHeader) : ByteBuffer :=
  [joinNibbles h.version h.nextHeader, h.reserved, rawLifetime h.lifetime, h.hopLimit]

def deserialize : Decoder σ BasicHeader := do
  let versionAndNextHeader ← octet
  let reserved ← octet
  let lifetime ← octet
  let hopLimit ← octet
  pure ⟨highNibble versionAndNextHeader, lowNibble versionAndNextHeader, reserved, lifetimeOfRaw lifetime, hopLimit⟩

theorem fixed : Fixed (σ := σ) 4 deserialize serialize := by
  refine Rest.fixed (fixed_octet.bind fun _ => fixed_octet.bind fun _ => fixed_octet.bind fun _ =>
    fixed_octet.bind fun _ =>
    .pure ?_) fun h => ?_
  · unfold serialize
    rw [join_nibbles, rawLifetime_ofRaw]
    rfl
  · obtain ⟨hversion, hnext⟩ := nibbles_join h.version h.nextHeader
    refine (fixed_octet.reads _).bind ((fixed_octet.reads _).bind ((fixed_octet.reads _).bind
      ((fixed_octet.reads _).last ?_)))
    rw [hversion, hnext, lifetimeOfRaw_raw]

end BasicHeader

structure CommonHeader where
  nextHeader : NextHeaderCommon := .any
  reserved1 : BitVec 4 := 0
  headerType : HeaderType := 0
  trafficClass : TrafficClass := {}
  flags : UInt8 := 0
  payload : UInt16 := 0
  maximumHopLimit : UInt8 := 0
  reserved2 : UInt8 := 0
deriving DecidableEq, Repr

namespace CommonHeader

def serialize (h : CommonHeader) : ByteBuffer :=
  [joinNibbles h.nextHeader h.reserved1] ++ ([h.headerType] ++ ([rawTrafficClass h.trafficClass] ++ ([h.flags] ++
    (be16 h.payload ++ ([h.maximumHopLimit] ++ [h.reserved2])))))

def deserialize : Decoder σ CommonHeader := do
  let nextHeaderAndReserved ← octet
  let headerType ← octet
  let trafficClass ← octet
  let flags ← octet
  let payload ← uint16
  let maximumHopLimit ← octet
  let reserved2 ← octet
  pure ⟨highNibble nextHeaderAndReserved, lowNibble nextHeaderAndReserved, headerType, trafficClassOfRaw trafficClass,
    flags,
    payload, maximumHopLimit, reserved2⟩

theorem fixed : Fixed (σ := σ) 8 deserialize serialize := by
  refine Rest.fixed (fixed_octet.bind fun _ => fixed_octet.bind fun _ => fixed_octet.bind fun _ =>
    fixed_octet.bind fun _ =>
    fixed_uint16.bind fun _ => fixed_octet.bind fun _ => fixed_octet.bind fun _ => .pure ?_) fun h => ?_
  · unfold serialize
    rw [join_nibbles, rawTrafficClass_ofRaw]
    simp only [append_assoc, nil_append]
  · obtain ⟨hnext, hreserved⟩ := nibbles_join h.nextHeader h.reserved1
    refine (fixed_octet.reads _).bind ((fixed_octet.reads _).bind
      ((fixed_octet.reads _).bind ((fixed_octet.reads _).bind
      ((fixed_uint16.reads _).bind ((fixed_octet.reads _).bind ((fixed_octet.reads _).last ?_))))))
    rw [hnext, hreserved, trafficClassOfRaw_raw]

end CommonHeader

/-! ### Extended headers -/

structure DccMcoField where
  cbrL0Hop : UInt8 := 0
  cbrL1Hop : UInt8 := 0
  outputPower : BitVec 5 := 0
deriving DecidableEq, Repr

/-- `DccMcoField(uint32_t)`. -/
def DccMcoField.ofRaw (field : UInt32) : DccMcoField :=
  ⟨(field >>> 24).toUInt8, (field >>> 16).toUInt8, (field >>> 11).toBitVec.setWidth 5⟩

def DccMcoField.raw (f : DccMcoField) : UInt32 :=
  (((f.cbrL0Hop.toUInt32 <<< 8 ||| f.cbrL1Hop.toUInt32) <<< 5) ||| ⟨f.outputPower.setWidth 32⟩) <<< 11

inductive DccField
  | mco (f : DccMcoField)
  | raw (v : UInt32)
deriving DecidableEq, Repr

def DccField.bits : DccField → UInt32
  | mco f => f.raw
  | raw v => v

def DccField.getDccMco : DccField → DccMcoField
  | mco f => f
  | raw v => .ofRaw v

structure ShbHeader where
  sourcePosition : LongPositionVector := {}
  dcc : DccField := .raw 0
deriving DecidableEq, Repr

structure TsbHeader where
  sequenceNumber : UInt16 := 0
  reserved : UInt16 := 0
  sourcePosition : LongPositionVector := {}
deriving DecidableEq, Repr

/-- `GeoBroadcastHeader`. -/
structure GbcHeader where
  sequenceNumber : UInt16 := 0
  reserved1 : UInt16 := 0
  sourcePosition : LongPositionVector := {}
  geoAreaPosLatitude : Int32 := 0
  geoAreaPosLongitude : Int32 := 0
  distanceA : UInt16 := 0
  distanceB : UInt16 := 0
  angle : UInt16 := 0
  reserved2 : UInt16 := 0
deriving DecidableEq, Repr

structure BeaconHeader where
  sourcePosition : LongPositionVector := {}
deriving DecidableEq, Repr

namespace ShbHeader

def serialize (h : ShbHeader) : ByteBuffer := h.sourcePosition.serialize ++ be32 h.dcc.bits

def deserialize : Decoder σ ShbHeader := do
  let sourcePosition ← LongPositionVector.deserialize
  let dcc ← uint32
  pure ⟨sourcePosition, .raw dcc⟩

def withRawDcc (h : ShbHeader) : ShbHeader := { h with dcc := .raw h.dcc.bits }

theorem reads (h : ShbHeader) : Reads (σ := σ) deserialize h.serialize h.withRawDcc :=
  (LongPositionVector.fixed.reads _).bind ((fixed_uint32.reads _).last rfl)

theorem rest : Rest (σ := σ) [] 28 deserialize serialize :=
  LongPositionVector.fixed.bind fun _ => fixed_uint32.bind fun _ => .pure rfl

end ShbHeader

namespace TsbHeader

def serialize (h : TsbHeader) : ByteBuffer := be16 h.sequenceNumber ++ (be16 h.reserved ++ h.sourcePosition.serialize)

def deserialize : Decoder σ TsbHeader := do
  let sequenceNumber ← uint16
  let reserved ← uint16
  let sourcePosition ← LongPositionVector.deserialize
  pure ⟨sequenceNumber, reserved, sourcePosition⟩

theorem fixed : Fixed (σ := σ) 28 deserialize serialize := by
  refine Rest.fixed (fixed_uint16.bind fun _ => fixed_uint16.bind fun _ => LongPositionVector.fixed.bind fun _ =>
    .pure ?_) fun h => ?_
  · simp only [serialize, append_assoc, nil_append]
  · exact (fixed_uint16.reads _).bind ((fixed_uint16.reads _).bind ((LongPositionVector.fixed.reads _).last rfl))

end TsbHeader

namespace GbcHeader

def serialize (h : GbcHeader) : ByteBuffer :=
  be16 h.sequenceNumber ++ (be16 h.reserved1 ++ (h.sourcePosition.serialize ++ (beInt32 h.geoAreaPosLatitude ++
    (beInt32 h.geoAreaPosLongitude ++ (be16 h.distanceA ++ (be16 h.distanceB ++ (be16 h.angle ++ be16 h.reserved2)))))))

def deserialize : Decoder σ GbcHeader := do
  let sequenceNumber ← uint16
  let reserved1 ← uint16
  let sourcePosition ← LongPositionVector.deserialize
  let geoAreaPosLatitude ← int32
  let geoAreaPosLongitude ← int32
  let distanceA ← uint16
  let distanceB ← uint16
  let angle ← uint16
  let reserved2 ← uint16
  pure ⟨sequenceNumber, reserved1, sourcePosition, geoAreaPosLatitude, geoAreaPosLongitude, distanceA, distanceB,
    angle, reserved2⟩

theorem fixed : Fixed (σ := σ) 44 deserialize serialize := by
  refine Rest.fixed (fixed_uint16.bind fun _ => fixed_uint16.bind fun _ => LongPositionVector.fixed.bind fun _ =>
    fixed_int32.bind fun _ => fixed_int32.bind fun _ => fixed_uint16.bind fun _ => fixed_uint16.bind fun _ =>
    fixed_uint16.bind fun _ => fixed_uint16.bind fun _ => .pure ?_) fun h => ?_
  · simp only [serialize, append_assoc, nil_append]
  · exact (fixed_uint16.reads _).bind ((fixed_uint16.reads _).bind ((LongPositionVector.fixed.reads _).bind
      ((fixed_int32.reads _).bind ((fixed_int32.reads _).bind ((fixed_uint16.reads _).bind ((fixed_uint16.reads _).bind
      ((fixed_uint16.reads _).bind ((fixed_uint16.reads _).last rfl))))))))

end GbcHeader

namespace BeaconHeader

def serialize (h : BeaconHeader) : ByteBuffer := h.sourcePosition.serialize

def deserialize : Decoder σ BeaconHeader := do
  let sourcePosition ← LongPositionVector.deserialize
  pure ⟨sourcePosition⟩

theorem fixed : Fixed (σ := σ) 24 deserialize serialize :=
  LongPositionVector.fixed.map BeaconHeader.mk sourcePosition (fun _ => rfl) (fun _ => rfl)

end BeaconHeader

inductive HeaderVariant
  | beacon (h : BeaconHeader)
  | gbc (h : GbcHeader)
  | shb (h : ShbHeader)
  | tsb (h : TsbHeader)
deriving DecidableEq, Repr

namespace HeaderVariant

def serialize : HeaderVariant → ByteBuffer
  | beacon h => h.serialize
  | gbc h => h.serialize
  | shb h => h.serialize
  | tsb h => h.serialize

/-- `length_bytes`. -/
def length : HeaderVariant → ℕ
  | beacon _ => 24
  | gbc _ => 44
  | shb _ => 28
  | tsb _ => 28

/-- A DCC field as its 32 bits. -/
def withRawDcc : HeaderVariant → HeaderVariant
  | shb h => shb h.withRawDcc
  | h => h

/-- The header that the type announces. -/
def SelectedBy (ht : HeaderType) : HeaderVariant → Prop
  | beacon _ => ht = .beacon
  | gbc _ => ht.isGeoBroadcast
  | shb _ => ht = .tsbSingleHop
  | tsb _ => ht = .tsbMultiHop

theorem length_serialize (h : HeaderVariant) : h.serialize.length = h.length := by
  cases h with
  | beacon h => exact (BeaconHeader.fixed (σ := Unit)).length h
  | gbc h => exact (GbcHeader.fixed (σ := Unit)).length h
  | tsb h => exact (TsbHeader.fixed (σ := Unit)).length h
  | shb h =>
    show (h.sourcePosition.serialize ++ be32 h.dcc.bits).length = 28
    rw [length_append, (LongPositionVector.fixed (σ := Unit)).length, (fixed_uint32 (σ := Unit)).length]

end HeaderVariant

/-- The header that a type selects, and its length. -/
def extendedFormat (ht : HeaderType) : Option (Decoder σ HeaderVariant × ℕ) :=
  if ht = .tsbSingleHop then some (do let h ← ShbHeader.deserialize; pure (.shb h), 28)
  else if ht = .tsbMultiHop then some (do let h ← TsbHeader.deserialize; pure (.tsb h), 28)
  else if ht.isGeoBroadcast then some (do let h ← GbcHeader.deserialize; pure (.gbc h), 44)
  else if ht = .beacon then some (do let h ← BeaconHeader.deserialize; pure (.beacon h), 24)
  else none

/-- A format has the given length, and reads and writes back the selected header. -/
structure FormatSpec (ht : HeaderType) (d : Decoder σ HeaderVariant) (n : ℕ) : Prop where
  sized : Sized n d
  yields : Yields [] d HeaderVariant.serialize
  reads : ∀ x : HeaderVariant, x.SelectedBy ht → x.length = n ∧ Reads d x.serialize x.withRawDcc

variable {ht : HeaderType} {d : Decoder σ HeaderVariant} {n : ℕ} {x : HeaderVariant}

theorem extendedFormat_spec (h : extendedFormat ht = some (d, n)) : FormatSpec ht d n := by
  unfold extendedFormat at h
  split_ifs at h with hshb htsb hgbc hbeacon <;> cases h
  · subst hshb
    refine ⟨ShbHeader.rest.sized.bind fun _ => Sized.pure _, ShbHeader.rest.yields.bind fun _ => Yields.pure rfl,
      fun x hx => ?_⟩
    cases x with
    | shb x => exact ⟨rfl, x.reads.last rfl⟩
    | _ => exact absurd hx (by simp [HeaderVariant.SelectedBy]; decide)
  · subst htsb
    refine ⟨TsbHeader.fixed.sized.bind fun _ => Sized.pure _, TsbHeader.fixed.yields.bind fun _ => Yields.pure rfl,
      fun x hx => ?_⟩
    cases x with
    | tsb x => exact ⟨rfl, (TsbHeader.fixed.reads x).last rfl⟩
    | _ => exact absurd hx (by simp [HeaderVariant.SelectedBy]; decide)
  · refine ⟨GbcHeader.fixed.sized.bind fun _ => Sized.pure _, GbcHeader.fixed.yields.bind fun _ => Yields.pure rfl,
      fun x hx => ?_⟩
    cases x with
    | gbc x => exact ⟨rfl, (GbcHeader.fixed.reads x).last rfl⟩
    | beacon x =>
      rw [show ht = .beacon from hx] at hgbc
      exact absurd hgbc (by decide)
    | shb x => exact absurd hx hshb
    | tsb x => exact absurd hx htsb
  · subst hbeacon
    refine ⟨BeaconHeader.fixed.sized.bind fun _ => Sized.pure _, BeaconHeader.fixed.yields.bind fun _ =>
      Yields.pure rfl, fun x hx => ?_⟩
    cases x with
    | beacon x => exact ⟨rfl, (BeaconHeader.fixed.reads x).last rfl⟩
    | _ => exact absurd hx (by simp [HeaderVariant.SelectedBy]; decide)

theorem extendedFormat_gives (h : extendedFormat ht = some (d, n))
    {s s' : List UInt8 × σ} (hx : d s = some (x, s')) : x.SelectedBy ht ∧ x.withRawDcc = x := by
  unfold extendedFormat at h
  split_ifs at h with hshb htsb hgbc hbeacon <;> cases h <;>
    rw [bind_eq, Option.bind_eq_some_iff] at hx <;> obtain ⟨⟨y, t⟩, hy, hx⟩ := hx <;> cases hx
  · refine ⟨hshb, ?_⟩
    unfold ShbHeader.deserialize at hy
    rw [bind_eq, Option.bind_eq_some_iff] at hy
    obtain ⟨v, -, hy⟩ := hy
    rw [bind_eq, Option.bind_eq_some_iff] at hy
    obtain ⟨bits, -, hy⟩ := hy
    cases hy
    rfl
  · exact ⟨htsb, rfl⟩
  · exact ⟨hgbc, rfl⟩
  · exact ⟨hbeacon, rfl⟩

theorem extendedFormat_of_selectedBy (h : x.SelectedBy ht) :
    ∃ d : Decoder σ HeaderVariant, extendedFormat ht = some (d, x.length) := by
  unfold extendedFormat
  cases x with
  | beacon _ =>
    rw [show ht = .beacon from h]
    exact ⟨_, rfl⟩
  | shb _ =>
    rw [show ht = .tsbSingleHop from h]
    exact ⟨_, rfl⟩
  | tsb _ =>
    rw [show ht = .tsbMultiHop from h]
    exact ⟨_, rfl⟩
  | gbc _ =>
    have hgbc : ht.isGeoBroadcast = true := h
    rw [if_neg, if_neg, if_pos hgbc]
    · exact ⟨_, rfl⟩
    · rintro rfl
      exact absurd hgbc (by decide)
    · rintro rfl
      exact absurd hgbc (by decide)

/-! ### Packets -/

/-- How a secured message is written and read; which version is read is
decided by the first octet. -/
class SecuredCodec (M : Type) where
  serialize : M → ByteBuffer
  getSize : M → ℕ
  /-- The message, the size it is said to have, and what is left. -/
  deserializeV2 : ByteBuffer → Option (M × ℕ × ByteBuffer)
  deserializeV3 : ByteBuffer → Option (M × ℕ × ByteBuffer)

/-- Where there are no secured messages, none is read. -/
instance : SecuredCodec Empty where
  serialize := nofun
  getSize := nofun
  deserializeV2 _ := none
  deserializeV3 _ := none

structure Pdu (M : Type) where
  basic : BasicHeader := {}
  common : CommonHeader := {}
  extended : HeaderVariant := .beacon {}
  secured : Option M := none
deriving DecidableEq

namespace Pdu

variable {M : Type} [SecuredCodec M]

def serialize (pdu : Pdu M) : ByteBuffer :=
  pdu.basic.serialize ++ (match pdu.secured with
    | some m => SecuredCodec.serialize m
    | none => pdu.common.serialize ++ pdu.extended.serialize)

def getLength (pdu : Pdu M) : ℕ :=
  4 + (match pdu.secured with
    | some m => SecuredCodec.getSize m
    | none => 8 + pdu.extended.length)

end Pdu

/-- `Parser`: what is left to read, whether the archive is good, and the
octets of the headers that were read. -/
structure Parser where
  input : ByteBuffer
  good : Bool := true
  readBytes : ℕ := 0
deriving DecidableEq, Repr

namespace Parser

variable {α M : Type} (p : Parser)

/-- Reads a header of the given length. A read that comes short takes all that
is left. -/
def parse (d : Decoder Unit α) (bytes : ℕ) : Option α × Parser :=
  match d (p.input, ()) with
  | some (a, rest, _) => (some a, { p with input := rest, readBytes := p.readBytes + bytes })
  | none => (none, { p with input := [], good := false })

def parseBasic : Option BasicHeader × Parser := p.parse BasicHeader.deserialize 4

def parseCommon : Option CommonHeader × Parser := p.parse CommonHeader.deserialize 8

def parseExtended (ht : HeaderType) : Option HeaderVariant × Parser :=
  match extendedFormat ht with
  | some (d, n) => p.parse d n
  | none => (none, p)

/-- A message of size zero counts as none. -/
def parseSecured [SecuredCodec M] : Option M × Parser :=
  if p.good then
    match p.input with
    | [] => (none, { p with good := false })
    | first :: _ =>
      let read := if first < 3 then SecuredCodec.deserializeV2 p.input
        else if first = 3 then SecuredCodec.deserializeV3 p.input
        else none
      match read with
      | some (m, bytes, rest) =>
        (if 0 < bytes then some m else none, { p with input := rest, readBytes := p.readBytes + bytes })
      | none => (none, p)
  else (none, p)

/-- Basic and common header, then the extended header that the type selects. -/
def parseHeaders : Option (BasicHeader × CommonHeader × HeaderVariant) × Parser :=
  match p.parseBasic with
  | (none, p) => (none, p)
  | (some basic, p) =>
    match p.parseCommon with
    | (none, p) => (none, p)
    | (some common, p) =>
      match p.parseExtended common.headerType with
      | (none, p) => (none, p)
      | (some extended, p) => (some (basic, common, extended), p)

theorem parseHeaders_of {p p₁ p₂ p₃ : Parser} {basic : BasicHeader} {common : CommonHeader} {extended : HeaderVariant}
    (hbasic : p.parseBasic = (some basic, p₁)) (hcommon : p₁.parseCommon = (some common, p₂))
    (hextended : p₂.parseExtended common.headerType = (some extended, p₃)) :
    p.parseHeaders = (some (basic, common, extended), p₃) := by
  unfold parseHeaders
  simp only [hbasic, hcommon, hextended]

variable {d : Decoder Unit α} {a : α} {n : ℕ} {write : α → ByteBuffer}

theorem parse_reads {bs : ByteBuffer} (h : Reads d bs a) (p : Parser) (rest : ByteBuffer)
    (hp : p.input = bs ++ rest) (n : ℕ) :
    p.parse d n = (some a, { p with input := rest, readBytes := p.readBytes + n }) := by
  unfold parse
  rw [hp, h]

theorem parseSecured_v2 [SecuredCodec M] {p : Parser} (hgood : p.good = true) {version : UInt8} {tail : ByteBuffer}
    (hp : p.input = version :: tail) (hversion : version < 3) {m : M} {bytes : ℕ} {rest : ByteBuffer}
    (hread : SecuredCodec.deserializeV2 p.input = some (m, bytes, rest)) (hpos : 0 < bytes) :
    p.parseSecured = (some m, { p with input := rest, readBytes := p.readBytes + bytes }) := by
  unfold parseSecured
  rw [hp] at hread
  simp only [if_pos hgood, hp, if_pos hversion, hread, if_pos hpos]

theorem parse_cases (hsized : Sized n d) (hyields : Yields [] d write) (p : Parser) :
    (∃ a, n ≤ p.input.length ∧ p.parse d n =
      (some a, { p with input := p.input.drop n, readBytes := p.readBytes + n }) ∧
      write a = p.input.take n) ∨
    (p.input.length < n ∧ p.parse d n = (none, { p with input := [], good := false })) := by
  rcases lt_or_ge p.input.length n with hlt | hge
  · refine .inr ⟨hlt, ?_⟩
    unfold parse
    rw [(hsized p.input ()).2 hlt]
  · obtain ⟨a, rest, ha, hrest⟩ := (hsized p.input ()).1 hge
    obtain ⟨hinput, -⟩ := hyields ha
    rw [nil_append] at hinput
    have hwrite : (write a).length = n := by
      have := congrArg List.length hinput
      rw [length_append] at this
      omega
    refine .inl ⟨a, hge, ?_, ?_⟩
    · unfold parse
      rw [ha, hinput, drop_left' hwrite]
    · rw [hinput, take_left' hwrite]

theorem parse_eq_some (hyields : Yields [] d write) {p p' : Parser}
    (h : p.parse d n = (some a, p')) : p.input = write a ++ p'.input ∧ p'.readBytes = p.readBytes + n := by
  unfold parse at h
  split at h
  · rename_i a' rest st hd
    cases h
    exact ⟨(hyields hd).1, rfl⟩
  · cases h

theorem parse_of_le (hsized : Sized n d) (hyields : Yields [] d write) (p : Parser) (hlen : n ≤ p.input.length) :
    ∃ a, p.parse d n = (some a, { p with input := p.input.drop n, readBytes := p.readBytes + n }) ∧ write a =
      p.input.take n := by
  rcases parse_cases hsized hyields p with ⟨a, -, ha⟩ | ⟨hlt, -⟩
  · exact ⟨a, ha⟩
  · omega

end Parser

/-! ### The round trip -/

section RoundTrip

variable {M : Type} [SecuredCodec M]

theorem Pdu.serialize_unsecured {pdu : Pdu M} (h : pdu.secured = none) :
    pdu.serialize = pdu.basic.serialize ++ (pdu.common.serialize ++ pdu.extended.serialize) := by
  unfold Pdu.serialize
  rw [h]

theorem Pdu.length_serialize {pdu : Pdu M} (h : pdu.secured = none) : pdu.serialize.length = pdu.getLength := by
  rw [Pdu.serialize_unsecured h, length_append, length_append, (BasicHeader.fixed (σ := Unit)).length,
    (CommonHeader.fixed (σ := Unit)).length, HeaderVariant.length_serialize]
  unfold Pdu.getLength
  rw [h]

theorem Parser.parseHeaders_serialize {pdu : Pdu M} (hsec : pdu.secured = none)
    (hext : pdu.extended.SelectedBy pdu.common.headerType) (rest : ByteBuffer) :
    ({ input := pdu.serialize ++ rest } : Parser).parseHeaders =
      (some (pdu.basic, pdu.common, pdu.extended.withRawDcc), { input := rest, readBytes := pdu.getLength }) := by
  obtain ⟨d, hd⟩ := extendedFormat_of_selectedBy (σ := Unit) hext
  have hspec := extendedFormat_spec hd
  rw [Pdu.serialize_unsecured hsec, append_assoc, append_assoc]
  refine Parser.parseHeaders_of (Parser.parse_reads (BasicHeader.fixed.reads _) _ _ rfl 4)
    (Parser.parse_reads (CommonHeader.fixed.reads _) _ _ rfl 8) ?_
  have hlength : pdu.getLength = 0 + 4 + 8 + pdu.extended.length := by
    unfold Pdu.getLength
    rw [hsec]
    simp only
    omega
  unfold Parser.parseExtended
  rw [hd, hlength]
  exact Parser.parse_reads (hspec.reads _ hext).2 _ _ rfl _

theorem Parser.serialize_parseHeaders {b : ByteBuffer} {common : CommonHeader} {d : Decoder Unit HeaderVariant} {n : ℕ}
    (hcommon : (({ input := b } : Parser).parseBasic.2.parseCommon).1 = some common)
    (hext : extendedFormat common.headerType = some (d, n)) (hlen : 12 + n ≤ b.length) :
    ∃ basic extended, ({ input := b } : Parser).parseHeaders =
        (some (basic, common, extended), { input := b.drop (12 + n), readBytes := 12 + n }) ∧
      (⟨basic, common, extended, none⟩ : Pdu M).serialize = b.take (12 + n) := by
  have hspec := extendedFormat_spec hext
  obtain ⟨basic, hbasic, hwbasic⟩ :=
    Parser.parse_of_le BasicHeader.fixed.sized BasicHeader.fixed.yields { input := b } (show 4 ≤ b.length by omega)
  have hpb : ({ input := b } : Parser).parseBasic = (some basic, { input := b.drop 4, readBytes := 4 }) := hbasic
  obtain ⟨common', hc, hwcommon⟩ := Parser.parse_of_le CommonHeader.fixed.sized CommonHeader.fixed.yields
    { input := b.drop 4, readBytes := 4 } (show 8 ≤ (b.drop 4).length by rw [length_drop]; omega)
  have hpc : ({ input := b.drop 4, readBytes := 4 } : Parser).parseCommon =
      (some common', { input := b.drop 12, readBytes := 12 }) := by
    rw [Parser.parseCommon, hc, drop_drop]
  rw [hpb] at hcommon
  simp only [hpc, Option.some.injEq] at hcommon
  subst hcommon
  obtain ⟨extended, he, hwext⟩ := Parser.parse_of_le hspec.sized hspec.yields { input := b.drop 12, readBytes := 12 }
    (show n ≤ (b.drop 12).length by rw [length_drop]; omega)
  have hpe : ({ input := b.drop 12, readBytes := 12 } : Parser).parseExtended common'.headerType =
      (some extended, { input := b.drop (12 + n), readBytes := 12 + n }) := by
    rw [Parser.parseExtended, hext]
    show Parser.parse _ d n = _
    rw [he, drop_drop]
  refine ⟨basic, extended, ?_, ?_⟩
  · exact Parser.parseHeaders_of hpb hpc hpe
  · rw [Pdu.serialize_unsecured rfl]
    simp only at hwbasic hwcommon hwext ⊢
    rw [hwbasic, hwcommon, hwext, show 12 + n = 4 + (8 + n) by omega, take_add, take_add, drop_drop]

/-- **The header codec.** Headers are read back from their octets, and what is read writes exactly
the consumed octets, reserved bits included. -/
theorem headers_round_trip :
    (∀ pdu : Pdu M, pdu.secured = none →
      pdu.serialize.length = pdu.getLength ∧
      (pdu.extended.SelectedBy pdu.common.headerType → ∀ rest : ByteBuffer,
        ({ input := pdu.serialize ++ rest } : Parser).parseHeaders =
          (some (pdu.basic, pdu.common, pdu.extended.withRawDcc), { input := rest, readBytes := pdu.getLength }))) ∧
    (∀ (b : ByteBuffer) (common : CommonHeader) (d : Decoder Unit HeaderVariant) (n : ℕ),
      (({ input := b } : Parser).parseBasic.2.parseCommon).1 = some common →
      extendedFormat common.headerType = some (d, n) → 12 + n ≤ b.length →
      ∃ basic extended, ({ input := b } : Parser).parseHeaders =
          (some (basic, common, extended), { input := b.drop (12 + n), readBytes := 12 + n }) ∧
        (⟨basic, common, extended, none⟩ : Pdu M).serialize = b.take (12 + n)) :=
  ⟨fun _ hsec => ⟨Pdu.length_serialize hsec, fun hext rest => Parser.parseHeaders_serialize hsec hext rest⟩,
    fun _ _ _ _ hcommon hext hlen => Parser.serialize_parseHeaders hcommon hext hlen⟩

end RoundTrip

/-- A packet with single hop and some reserved bits set. -/
def shbExample : Pdu Empty where
  common := { headerType := .tsbSingleHop, reserved1 := 5, reserved2 := 6 }
  extended := .shb { dcc := .mco ⟨7, 9, 3⟩ }

theorem headers_round_trip_shb :
    ({ input := shbExample.serialize ++ [] } : Parser).parseHeaders =
      (some (shbExample.basic, shbExample.common, .shb { dcc := .raw 0x07091800 }), { input := [], readBytes := 40 }) :=
  (headers_round_trip.1 shbExample rfl).2 rfl []

end VanetzaIdf.Geonet.Wire
