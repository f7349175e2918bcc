/-
# The order of time stamps and sequence numbers

Time stamps of 32 bits are compared by `geonet/timestamp.cpp`, sequence
numbers of 16 bits by `geonet/sequence_number.cpp`. Both comparisons test the
distance in both directions against half of the largest number, the one by
what is greater, the other by what is less; both are the order of serial
numbers.
-/
import VanetzaIdf.Geonet.Wire.LocationTable
import VanetzaIdf.Lib.Serial

namespace VanetzaIdf.Geonet.Wire

open Lib

/-- `operator<` of sequence numbers. -/
def SequenceNumber.isBefore (number other : UInt16) : Bool :=
  (number < other && other - number ≤ 0x7fff) || (other < number && 0x7fff < number - other)

def timestamps : Wrapping UInt32 where
  half := 2 ^ 31
  toNat := UInt32.toNat
  ofInt := UInt32.ofInt
  toNat_lt := UInt32.toNat_lt
  toNat_injective _ _ := UInt32.toNat_inj.mp
  toNat_ofInt x := by
    have h : (UInt32.ofInt x).toNat = (x % 2 ^ 32).toNat % 2 ^ 32 := UInt32.toNat_ofNat'
    rw [h]
    omega
  toNat_add := UInt32.toNat_add

def sequenceNumbers : Wrapping UInt16 where
  half := 2 ^ 15
  toNat := UInt16.toNat
  ofInt := UInt16.ofInt
  toNat_lt := UInt16.toNat_lt
  toNat_injective _ _ := UInt16.toNat_inj.mp
  toNat_ofInt x := by
    have h : (UInt16.ofInt x).toNat = (x % 2 ^ 16).toNat % 2 ^ 16 := UInt16.toNat_ofNat'
    rw [h]
    omega
  toNat_add := UInt16.toNat_add

theorem isBefore_iff_before (a b : UInt32) : isBefore a b = true ↔ timestamps.Before a b := by
  have ha := a.toNat_lt
  have hb := b.toNat_lt
  unfold isBefore isGreater
  simp only [Bool.and_eq_true, Bool.not_eq_true', Bool.or_eq_false_iff, Bool.and_eq_false_iff, bne_iff_ne, ne_eq,
    decide_eq_false_iff_not, UInt32.lt_iff_toNat_lt, UInt32.le_iff_toNat_le, UInt32.toNat_sub, ← UInt32.toNat_inj,
    UInt32.reduceToNat, Wrapping.Before, timestamps]
  omega

theorem sequenceNumber_isBefore_iff_before (a b : UInt16) :
    SequenceNumber.isBefore a b = true ↔ sequenceNumbers.Before a b := by
  have ha := a.toNat_lt
  have hb := b.toNat_lt
  unfold SequenceNumber.isBefore
  simp only [Bool.or_eq_true, Bool.and_eq_true, decide_eq_true_eq, UInt16.lt_iff_toNat_lt, UInt16.le_iff_toNat_le,
    UInt16.toNat_sub, UInt16.reduceToNat, Wrapping.Before, sequenceNumbers]
  omega

/-- **Time stamps and sequence numbers are serial numbers.** -/
theorem serial_order :
    timestamps.IsSerialOrder (fun a b => isBefore a b = true) ∧
      sequenceNumbers.IsSerialOrder (fun a b => SequenceNumber.isBefore a b = true) := by
  simp only [isBefore_iff_before, sequenceNumber_isBefore_iff_before]
  exact ⟨Wrapping.isSerialOrder_before, Wrapping.isSerialOrder_before⟩

end VanetzaIdf.Geonet.Wire
