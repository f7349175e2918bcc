/-
# Archives

`common/archives.cpp` and `security/v2/serialization.{hpp,cpp}`: an archive that can
fail without an exception, lengths, and lists with their length in front. A type
round-trips (`RoundTrips`) if its reader gives back what was written and reports
the size the type is said to have.

`IntX` is a number in the length coding. A cut off encoding is taken for a success,
as `decode_length` then gives the end of the buffer (`decode_truncated`).
-/
import Mathlib.Algebra.BigOperators.Ring.List
import VanetzaIdf.V2.LengthCoding
import VanetzaIdf.Lib.Decoder

namespace VanetzaIdf.V2

open Lib Decoder List

/-! ### Input archives -/

/-- `InputArchive::ErrorCode`. -/
inductive ErrorCode
  | ok | incompleteData | excessiveLength | constraintViolation
deriving DecidableEq, Repr, Inhabited

/-- Reading from an `InputArchive`; `failure` is an exception. -/
abbrev Archive (α : Type) := Decoder ErrorCode α

namespace Archive

def fail (e : ErrorCode) : Archive Unit := fun s => some ((), s.1, if s.2 = .ok then e else s.2)

def isGood : Archive Bool := fun s => some (decide (s.2 = .ok), s)

theorem readsIn_isGood : ReadsIn .ok isGood [] true := fun _ => rfl

theorem gives_isGood : GivesIn .ok isGood (· = true) := by
  intro input rest st good h
  cases h
  exact ⟨rfl, rfl⟩

theorem gives_fail {e : ErrorCode} (he : e ≠ .ok) : GivesIn .ok (fail e) fun _ => False := by
  intro input rest st a h
  have hst := (Prod.mk.inj (Prod.mk.inj (Option.some.inj h)).2).2
  dsimp only at hst
  split_ifs at hst with hok
  · exact absurd hst he
  · exact absurd hst hok

end Archive

/-! ### Lengths -/

/-- The largest `std::size_t` of the target, which has 32 bits. -/
def sizeMax : ℕ := 2 ^ 32 - 1

def trimSize (n : ℕ) : Archive ℕ := if sizeMax < n then failure else pure n

def serializeLength (length : ℕ) : ByteBuffer := encodeLength length

def deserializeLength : Archive ℕ := do
  let front ← octet
  let rest ← octets (countLeadingOnes front)
  let decoded := decodeLength (front :: rest)
  if decoded.1 ≠ 0 then pure decoded.2
  else do
    Archive.fail .constraintViolation
    pure 0

theorem readsIn_length {n : ℕ} (hn : n < 2 ^ 56) : ReadsIn .ok deserializeLength (serializeLength n) n := by
  obtain ⟨front, j, -, heq, hones, -⟩ := encodeLength_cons hn
  have hdecode := decodeLength_encodeLength hn []
  rw [append_nil, heq] at hdecode
  unfold serializeLength
  rw [heq, ← singleton_append, ← append_nil (beBytes j n)]
  refine (fixed_octet.reads front _).bind ((reads_octets (by rw [length_beBytes, hones]) _).bind ?_)
  dsimp only
  rw [hdecode, if_pos (by simp)]
  exact ReadsIn.pure rfl

theorem front_masked (front : UInt8) (k : ℕ) (hk : k < 8) (hones : countLeadingOnes front = k) :
    (front &&& UInt8.ofNat (2 ^ (8 - k) - 1)).toNat = front.toNat % 2 ^ (7 - k) := by
  have hall : ∀ b < 256, ∀ k < 8, countLeadingOnes (UInt8.ofNat b) = k →
      (UInt8.ofNat b &&& UInt8.ofNat (2 ^ (8 - k) - 1)).toNat = b % 2 ^ (7 - k) := by
    decide +kernel
  have hfront : UInt8.ofNat front.toNat = front := UInt8.ofNat_toNat
  have := hall front.toNat front.toNat_lt k hk
  rw [hfront] at this
  exact this hones

theorem number_eq {front : UInt8} {rest : ByteBuffer} {k : ℕ} (hk : k < 8) (hlen : k ≤ rest.length) :
    ofBeFrom (front.toNat % 2 ^ (7 - k)) (rest.take k) = ofBe ((front :: rest).take (k + 1)) % 128 ^ (k + 1) := by
  have hlength : (rest.take k).length = k := length_take_of_le hlen
  have hlt := ofBe_lt (rest.take k)
  have hpow : 2 ^ (7 - k) * 256 ^ k = 128 ^ (k + 1) := by
    interval_cases k <;> norm_num
  have hmod : front.toNat % 2 ^ (7 - k) < 2 ^ (7 - k) := Nat.mod_lt _ (by positivity)
  rw [hlength] at hlt
  rw [ofBeFrom_eq, hlength, take_succ_cons, ← singleton_append, ofBe_append, ofBe_singleton, hlength, ← hpow]
  set r := ofBe (rest.take k)
  set m := 2 ^ (7 - k)
  have hsplit : front.toNat * 256 ^ k + r = front.toNat % m * 256 ^ k + r + front.toNat / m * (m * 256 ^ k) := by
    conv_lhs => rw [← Nat.mod_add_div' front.toNat m]
    ring
  have hsmall : front.toNat % m * 256 ^ k + r < m * 256 ^ k := by
    calc front.toNat % m * 256 ^ k + r < (front.toNat % m + 1) * 256 ^ k := by linarith
      _ ≤ m * 256 ^ k := Nat.mul_le_mul_right _ hmod
  rw [hsplit, Nat.add_mul_mod_self_right, Nat.mod_eq_of_lt hsmall]

theorem decodeLength_complete {front : UInt8} {rest : ByteBuffer} (h8 : countLeadingOnes front < 8)
    (hlen : countLeadingOnes front ≤ rest.length) :
    decodeLength (front :: rest) = (countLeadingOnes front + 1,
      ofBe ((front :: rest).take (countLeadingOnes front + 1)) % 128 ^ (countLeadingOnes front + 1)) := by
  rw [decodeLength_cons rfl h8 hlen, front_masked front _ h8 rfl, number_eq h8 hlen]

theorem gives_length : GivesIn .ok deserializeLength (· < 2 ^ 56) := by
  refine (fixed_octet.gives _).bind fun front => GivesIn.octets.bind fun rest => ?_
  dsimp only
  split_ifs with hdecoded
  · refine .pure fun hlen _ => ?_
    have h8 : countLeadingOnes front < 8 := by
      by_contra h8
      exact hdecoded (by rw [decodeLength, if_pos (not_lt.mp h8)])
    rw [decodeLength_complete h8 hlen.ge]
    calc _ < 128 ^ (countLeadingOnes front + 1) := Nat.mod_lt _ (by positivity)
      _ ≤ 128 ^ 8 := Nat.pow_le_pow_right (by norm_num) h8
      _ = 2 ^ 56 := by norm_num
  · exact (Archive.gives_fail (by decide)).bind fun _ => .pure False.elim

theorem gives_trimSize (n : ℕ) : GivesIn .ok (trimSize n) fun m => m = n ∧ n ≤ sizeMax := by
  unfold trimSize
  split_ifs with h
  · exact .failure
  · exact .pure ⟨rfl, not_lt.mp h⟩

theorem readsIn_trimSize {n : ℕ} (hn : n ≤ sizeMax) : ReadsIn .ok (trimSize n) [] n := by
  unfold trimSize
  rw [if_neg (by omega)]
  exact ReadsIn.pure rfl

/-! ### Types -/

/-- The reader gives back what was written, and reports its size; what it gives
is well-formed, whatever it reads. -/
structure RoundTrips {α : Type} (read : Archive (α × ℕ)) (write : α → ByteBuffer) (size : α → ℕ)
    (wellFormed : α → Prop) :
    Prop where
  reads : ∀ {a}, wellFormed a → ReadsIn .ok read (write a) (a, size a)
  gives : GivesIn .ok read fun x => wellFormed x.1 ∧ x.2 = size x.1
  length : ∀ {a}, wellFormed a → (write a).length = size a
  pos : ∀ a, 0 < size a

/-! ### Lists -/

section Lists

variable {α : Type}

/-- `get_size` of a list, its length not included. -/
def getSizeList (getSize : α → ℕ) (list : List α) : ℕ := (list.map getSize).sum

def serializeList (getSize : α → ℕ) (serialize : α → ByteBuffer) (list : List α) : ByteBuffer :=
  serializeLength (getSizeList getSize list) ++ list.flatMap serialize

/-- The loop of `deserialize` of a list. No reader reports a size of zero, so
there are at most as many elements as octets. -/
def deserializeElements (deserialize : Archive (α × ℕ)) : ℕ → ℕ → List α → Archive (List α)
  | 0, remainder, list => if remainder = 0 then pure list else failure
  | fuel + 1, remainder, list =>
    if remainder = 0 then pure list
    else do
      let x ← deserialize
      let good ← Archive.isGood
      if x.2 ≤ remainder ∧ good then deserializeElements deserialize fuel (remainder - x.2) (list ++ [x.1])
      else do
        Archive.fail .constraintViolation
        pure list

/-- `deserialize` of a list: the list, and the length that was read. -/
def deserializeList (deserialize : Archive (α × ℕ)) : Archive (List α × ℕ) := do
  let coded ← deserializeLength
  let length ← trimSize coded
  if length ≤ 4096 then do
    let list ← deserializeElements deserialize length length []
    pure (list, length)
  else do
    Archive.fail .excessiveLength
    pure ([], length)

variable {read : Archive (α × ℕ)} {write : α → ByteBuffer} {size : α → ℕ} {wellFormed : α → Prop}

@[simp] theorem getSizeList_cons (a : α) (list : List α) :
    getSizeList size (a :: list) = size a + getSizeList size list := by
  simp [getSizeList]

theorem dvd_getSizeList {w : ℕ} (h : ∀ a, w ∣ size a) (list : List α) : w ∣ getSizeList size list :=
  dvd_sum (forall_mem_map.mpr fun a _ => h a)

theorem readsIn_elements (h : RoundTrips read write size wellFormed) : ∀ {list : List α} {fuel : ℕ} (done : List α),
    (∀ a ∈ list, wellFormed a) → getSizeList size list ≤ fuel →
    ReadsIn .ok (deserializeElements read fuel (getSizeList size list) done) (list.flatMap write) (done ++ list)
  | [], fuel, done, _, _ => by
    rw [append_nil]
    cases fuel <;> exact ReadsIn.pure rfl
  | a :: list, fuel, done, hok, hfuel => by
    have hpos := h.pos a
    rw [getSizeList_cons] at hfuel ⊢
    obtain ⟨fuel, rfl⟩ : ∃ k, fuel = k + 1 := ⟨fuel - 1, by omega⟩
    have hrest : getSizeList size list ≤ fuel := by omega
    unfold deserializeElements
    rw [if_neg (by omega), flatMap_cons]
    refine (h.reads (hok a mem_cons_self)).bind (Archive.readsIn_isGood.bind ?_)
    dsimp only
    rw [if_pos ⟨by omega, rfl⟩, Nat.add_sub_cancel_left]
    have hnext := readsIn_elements h (done ++ [a]) (fun a' ha' => hok a' (mem_cons_of_mem _ ha')) hrest
    rwa [append_assoc, singleton_append] at hnext

theorem readsIn_list (h : RoundTrips read write size wellFormed) {list : List α} (hok : ∀ a ∈ list, wellFormed a)
    (hlimit : getSizeList size list ≤ 4096) :
    ReadsIn .ok (deserializeList read) (serializeList size write list) (list, getSizeList size list) := by
  unfold deserializeList serializeList
  refine (readsIn_length (by omega)).bind ((readsIn_trimSize (hlimit.trans (by decide))).bind ?_)
  rw [if_pos hlimit]
  exact (readsIn_elements h [] hok le_rfl).last rfl

theorem gives_elements (h : RoundTrips read write size wellFormed) : ∀ (fuel remainder : ℕ) (done : List α),
    GivesIn .ok (deserializeElements read fuel remainder done) fun list =>
      ∃ new, list = done ++ new ∧ (∀ a ∈ new, wellFormed a) ∧ getSizeList size new = remainder
  | 0, remainder, done => by
    unfold deserializeElements
    split_ifs with hzero
    · exact .pure ⟨[], (append_nil _).symm, nofun, hzero.symm⟩
    · exact .failure
  | fuel + 1, remainder, done => by
    unfold deserializeElements
    split_ifs with hzero
    · exact .pure ⟨[], (append_nil _).symm, nofun, hzero.symm⟩
    · refine h.gives.bind fun x => Archive.gives_isGood.bind fun good => ?_
      split_ifs with hfits
      · refine (gives_elements h fuel _ _).imp ?_
        rintro list ⟨new, rfl, hnew, hsize⟩ - ⟨hwf, hx⟩
        refine ⟨x.1 :: new, by simp, forall_mem_cons.mpr ⟨hwf, hnew⟩, ?_⟩
        rw [getSizeList_cons, hsize, ← hx]
        omega
      · exact (Archive.gives_fail (by decide)).bind fun _ => .pure False.elim

theorem gives_list (h : RoundTrips read write size wellFormed) : GivesIn .ok (deserializeList read) fun x =>
    (∀ a ∈ x.1, wellFormed a) ∧ x.2 = getSizeList size x.1 ∧ getSizeList size x.1 ≤ 4096 := by
  refine gives_length.bind fun coded => (gives_trimSize coded).bind fun length => ?_
  split_ifs with hlimit
  · refine (gives_elements h length length []).bind fun list => .pure ?_
    rintro ⟨new, rfl, hnew, hsize⟩ - -
    exact ⟨hnew, hsize.symm, hsize.trans_le hlimit⟩
  · exact (Archive.gives_fail (by decide)).bind fun _ => .pure False.elim

theorem length_flatMap (h : RoundTrips read write size wellFormed) : ∀ {list : List α}, (∀ a ∈ list, wellFormed a) →
    (list.flatMap write).length = getSizeList size list
  | [], _ => rfl
  | a :: list, hok => by
    rw [flatMap_cons, length_append, h.length (hok a mem_cons_self),
      length_flatMap h fun a' ha' => hok a' (mem_cons_of_mem _ ha'), getSizeList_cons]

theorem length_list (h : RoundTrips read write size wellFormed) {list : List α} (hok : ∀ a ∈ list, wellFormed a)
    (hlimit : getSizeList size list < 2 ^ 56) :
    (serializeList size write list).length = getSizeList size list + lengthCodingSize (getSizeList size list) := by
  unfold serializeList
  rw [length_append, length_flatMap h hok, serializeLength, length_encodeLength hlimit, Nat.add_comm]

end Lists

/-! ### Integers -/

abbrev IntX := ℕ

namespace IntX

def getSize (x : IntX) : ℕ := lengthCodingSize x

def serialize (x : IntX) : ByteBuffer := serializeLength x

def deserialize : Archive (IntX × ℕ) := do
  let size ← deserializeLength
  pure (size, lengthCodingSize size)

/-- Longer numbers are not decoded. -/
def WellFormed (x : IntX) : Prop := x < 2 ^ 56

theorem roundTrips : RoundTrips deserialize serialize getSize WellFormed where
  reads h := (readsIn_length h).last rfl
  gives := gives_length.bind fun _ => .pure fun h => ⟨h, rfl⟩
  length h := length_encodeLength h
  pos x := by
    unfold getSize lengthCodingSize lengthCodingSizeFrom
    split_ifs <;> omega

def encode (x : IntX) : ByteBuffer := encodeLength x

def decode (buffer : ByteBuffer) : Option IntX :=
  let decoded := decodeLength buffer
  if decoded.1 ≠ 0 then some decoded.2 else none

/-- The buffer starts with `k` ones and a zero and has `k` octets after the first; the number is
in the bits after the prefix. -/
structure Complete (buffer : ByteBuffer) (k : ℕ) (x : IntX) : Prop where
  narrow : k < 8
  present : k + 1 ≤ buffer.length
  ones : ∀ front ∈ buffer.head?, front.toNat / 2 ^ (7 - k) = 2 ^ (k + 1) - 2
  number : x = ofBe (buffer.take (k + 1)) % 128 ^ (k + 1)

/-- The first octet announces more octets than there are. -/
def Truncated (buffer : ByteBuffer) : Prop :=
  ∃ front ∈ buffer.head?, countLeadingOnes front < 8 ∧ buffer.length ≤ countLeadingOnes front

theorem countLeadingOnes_iff (front : UInt8) (k : ℕ) (hk : k < 8) :
    front.toNat / 2 ^ (7 - k) = 2 ^ (k + 1) - 2 ↔ countLeadingOnes front = k := by
  have hall : ∀ b < 256, ∀ k < 8, b / 2 ^ (7 - k) = 2 ^ (k + 1) - 2 ↔ countLeadingOnes (UInt8.ofNat b) = k := by
    decide +kernel
  simpa using hall front.toNat front.toNat_lt k hk

variable {front : UInt8} {rest : ByteBuffer} {k : ℕ} {x : IntX}

theorem decode_encode (h : x.WellFormed) (s : ByteBuffer) : decode (x.encode ++ s) = some x := by
  have hpos := length_encodeLength_pos x
  unfold decode encode
  rw [decodeLength_encodeLength h s]
  simp only [if_pos hpos.ne']

theorem decode_nil : decode [] = none := rfl

theorem decode_wide (h : 8 ≤ countLeadingOnes front) : decode (front :: rest) = none := by
  simp [decode, decodeLength, h]

theorem decode_truncated (h8 : countLeadingOnes front < 8)
    (hlen : rest.length < countLeadingOnes front) : decode (front :: rest) = some 0 := by
  have hshort : ¬ countLeadingOnes front < rest.length + 1 := by omega
  simp [decode, decodeLength, Nat.not_le.mpr h8, hshort]

theorem decode_complete (h8 : countLeadingOnes front < 8) (hlen : countLeadingOnes front ≤ rest.length) :
    decode (front :: rest) =
      some (ofBe ((front :: rest).take (countLeadingOnes front + 1)) % 128 ^ (countLeadingOnes front + 1)) := by
  unfold decode
  rw [decodeLength_complete h8 hlen]
  rfl

theorem complete_cons (h : Complete (front :: rest) k x) : countLeadingOnes front = k ∧ k < 8 ∧ k ≤ rest.length := by
  refine ⟨(countLeadingOnes_iff front k h.narrow).mp (h.ones front rfl), h.narrow, ?_⟩
  have := h.present
  rw [length_cons] at this
  omega

theorem truncated_cons :
    Truncated (front :: rest) ↔ countLeadingOnes front < 8 ∧ rest.length < countLeadingOnes front := by
  constructor
  · rintro ⟨front', hfront, hlt, hle⟩
    obtain rfl := Option.some.inj hfront
    exact ⟨hlt, hle⟩
  · rintro ⟨hlt, hle⟩
    exact ⟨front, rfl, hlt, hle⟩

/-- **Decoding.** A buffer is decoded exactly if it starts with a complete
encoding, and to the number encoded there, unless the encoding is cut off. -/
theorem decode_iff_complete (buffer : ByteBuffer) :
    (∀ x, decode buffer = some x ↔ ∃ k, Complete buffer k x) ↔ ¬ Truncated buffer := by
  cases buffer with
  | nil =>
    refine iff_of_true (fun x => iff_of_false (by simp [decode_nil]) ?_) (by simp [Truncated])
    rintro ⟨k, h⟩
    exact absurd h.present (by simp)
  | cons front rest =>
    rw [truncated_cons]
    constructor
    · -- zero is given although nothing complete is there
      rintro h ⟨h8, hlen⟩
      obtain ⟨k, hk⟩ := (h 0).mp (decode_truncated h8 hlen)
      obtain ⟨rfl, -, hle⟩ := complete_cons hk
      omega
    · intro h x
      by_cases h8 : countLeadingOnes front < 8
      · have hlen : countLeadingOnes front ≤ rest.length := by
          by_contra hlt
          exact h ⟨h8, by omega⟩
        rw [decode_complete h8 hlen]
        constructor
        · intro hx
          refine ⟨countLeadingOnes front, h8, by rw [length_cons]; omega, ?_, (Option.some.inj hx).symm⟩
          intro front' hfront
          obtain rfl : front = front' := Option.some.inj hfront
          exact (countLeadingOnes_iff front _ h8).mpr rfl
        · rintro ⟨k, hk⟩
          obtain ⟨rfl, -, -⟩ := complete_cons hk
          rw [← hk.number]
      · rw [decode_wide (by omega)]
        refine iff_of_false (by simp) ?_
        rintro ⟨k, hk⟩
        obtain ⟨rfl, hlt, -⟩ := complete_cons hk
        exact h8 hlt

/-- One octet that announces another. -/
theorem decode_incomplete :
    ¬ ∀ buffer : ByteBuffer, ∀ x, decode buffer = some x ↔ ∃ k, Complete buffer k x := by
  intro h
  have hdecoded : decode [0x80] = some 0 := by decide
  obtain ⟨k, hk⟩ := (h [0x80] 0).mp hdecoded
  obtain ⟨hones, -, hlen⟩ := complete_cons hk
  have : countLeadingOnes 0x80 = 1 := by decide
  rw [length_nil] at hlen
  omega

end IntX

end VanetzaIdf.V2
