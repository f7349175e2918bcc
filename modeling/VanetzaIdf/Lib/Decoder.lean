/-
# Decoders

A decoder reads octets from the front of its input, with a state `σ`; `none` is an
exception. Four properties compose along a sequence of reads:

* `ReadsIn st p bs a`: in the state `st`, `p` reads exactly `bs` and gives `a`
  (`Reads`: in every state);
* `Yields before p write`: of what `p` gives, `write` gives back what was
  consumed, after the octets `before`;
* `Sized n p`: `p` consumes `n` octets, and fails exactly if there are fewer;
* `GivesIn st p Q`: if `p` ends in `st`, it began there and has given a `Q`.
-/
import VanetzaIdf.Lib.BigEndian
import Mathlib.Control.Lawful

namespace VanetzaIdf.Lib

/-- What is left to read, and the state of the archive. -/
abbrev Decoder (σ α : Type) := StateT (List UInt8 × σ) Option α

namespace Decoder

variable {σ α β : Type}

theorem bind_eq (p : Decoder σ α) (f : α → Decoder σ β) (s : List UInt8 × σ) :
    (p >>= f) s = (p s).bind fun r => f r.1 r.2 := rfl

def octets (n : ℕ) : Decoder σ (List UInt8) := fun s =>
  if n ≤ s.1.length then some (s.1.take n, s.1.drop n, s.2) else none

/-! ### What is read -/

/-- In the state `st`, reads exactly `bs`, gives `a`, and touches nothing else. -/
def ReadsIn (st : σ) (p : Decoder σ α) (bs : List UInt8) (a : α) : Prop :=
  ∀ rest, p (bs ++ rest, st) = some (a, rest, st)

namespace ReadsIn

variable {st : σ}

theorem pure {a b : α} (h : a = b) : ReadsIn st (Pure.pure a) [] b := by
  intro rest
  rw [h]
  rfl

theorem bind {p : Decoder σ α} {f : α → Decoder σ β} {bs cs : List UInt8} {a : α} {b : β} (hp : ReadsIn st p bs a)
    (hf : ReadsIn st (f a) cs b) : ReadsIn st (p >>= f) (bs ++ cs) b := by
  intro rest
  rw [bind_eq, List.append_assoc, hp]
  exact hf rest

theorem last {p : Decoder σ α} {f : α → β} {bs : List UInt8} {a : α} {b : β} (hp : ReadsIn st p bs a) (h : f a = b) :
    ReadsIn st (p >>= fun x => Pure.pure (f x)) bs b := by
  have hbind := hp.bind (f := fun x => Pure.pure (f x)) (ReadsIn.pure h)
  rwa [List.append_nil] at hbind

end ReadsIn

/-- Reads exactly `bs` in every state. -/
def Reads (p : Decoder σ α) (bs : List UInt8) (a : α) : Prop := ∀ st, ReadsIn st p bs a

variable {p : Decoder σ α} {f : α → Decoder σ β} {a : α} {b : β} {bs before : List UInt8} {n : ℕ}
  {write : α → List UInt8}

theorem Reads.bind {bs cs : List UInt8} (hp : Reads p bs a) (hf : Reads (f a) cs b) : Reads (p >>= f) (bs ++ cs) b :=
  fun st => (hp st).bind (hf st)

theorem Reads.last {f : α → β} (hp : Reads p bs a) (h : f a = b) : Reads (p >>= fun x => Pure.pure (f x)) bs b :=
  fun st => (hp st).last h

theorem reads_octets (h : bs.length = n) : Reads (σ := σ) (octets n) bs bs := by
  intro st rest
  subst h
  rw [octets, if_pos (by simp), List.take_left, List.drop_left]

/-! ### What was written -/

/-- Of whatever `p` gives, `write` gives back what was consumed before and by
`p`. -/
def Yields (before : List UInt8) (p : Decoder σ α) (write : α → List UInt8) : Prop :=
  ∀ ⦃input rest st st' a⦄, p (input, st) = some (a, rest, st') → before ++ input = write a ++ rest ∧ st' = st

theorem Yields.pure (h : write a = before) : Yields (σ := σ) before (Pure.pure a) write := by
  intro input rest st st' b hb
  cases hb
  exact ⟨by rw [h], rfl⟩

theorem Yields.bind
    {write' : β → List UInt8} (hp : Yields [] p write) (hf : ∀ a, Yields (before ++ write a) (f a) write') :
    Yields before (p >>= f) write' := by
  intro input rest st st' b hb
  rw [bind_eq, Option.bind_eq_some_iff] at hb
  obtain ⟨⟨a, middle, st''⟩, ha, hb⟩ := hb
  obtain ⟨hinput, rfl⟩ := hp ha
  obtain ⟨hmiddle, rfl⟩ := hf a hb
  rw [List.nil_append] at hinput
  rw [hinput, ← List.append_assoc]
  exact ⟨hmiddle, rfl⟩

/-! ### How much is read -/

/-- Consumes `n` octets, and fails exactly if there are fewer. -/
def Sized (n : ℕ) (p : Decoder σ α) : Prop :=
  ∀ input st, (n ≤ input.length → ∃ a rest, p (input, st) = some (a, rest, st) ∧ rest.length + n = input.length) ∧
    (input.length < n → p (input, st) = none)

theorem Sized.pure (a : α) : Sized (σ := σ) 0 (Pure.pure a) :=
  fun input _ => ⟨fun _ => ⟨a, input, rfl, rfl⟩, fun h => absurd h (Nat.not_lt_zero _)⟩

theorem Sized.bind {n m : ℕ} (hp : Sized n p) (hf : ∀ a, Sized m (f a)) : Sized (n + m) (p >>= f) := by
  intro input st
  rw [bind_eq]
  rcases lt_or_ge input.length n with hlt | hge
  · refine ⟨fun h => by omega, fun _ => ?_⟩
    rw [(hp input st).2 hlt]
    rfl
  · obtain ⟨a, rest, ha, hrest⟩ := (hp input st).1 hge
    rw [ha]
    refine ⟨fun h => ?_, fun h => (hf a rest st).2 (by omega)⟩
    obtain ⟨b, rest', hb, hrest'⟩ := (hf a rest st).1 (by omega)
    exact ⟨b, rest', hb, by omega⟩

/-! ### What is given -/

/-- Whenever `p` ends in the state `st`, it began there, and what it gives has
`Q`. -/
def GivesIn (st : σ) (p : Decoder σ α) (Q : α → Prop) : Prop :=
  ∀ ⦃input rest st' a⦄, p (input, st') = some (a, rest, st) → st' = st ∧ Q a

namespace GivesIn

variable {st : σ} {P Q : α → Prop} {R : β → Prop}

theorem pure (h : Q a) : GivesIn st (Pure.pure a) Q := by
  intro input rest st' b hb
  cases hb
  exact ⟨rfl, h⟩

theorem bind (hp : GivesIn st p P) (hf : ∀ a, GivesIn st (f a) fun b => P a → R b) : GivesIn st (p >>= f) R := by
  intro input rest st' b hb
  rw [bind_eq, Option.bind_eq_some_iff] at hb
  obtain ⟨⟨a, middle, st''⟩, ha, hb⟩ := hb
  obtain ⟨rfl, hR⟩ := hf a hb
  obtain ⟨hbegan, hP⟩ := hp ha
  exact ⟨hbegan, hR hP⟩

theorem split (hf : ∀ a, GivesIn st (f a) fun _ => True) {s : List UInt8 × σ} {rest : List UInt8}
    (h : (p >>= f) s = some (b, rest, st)) :
    ∃ a middle, p s = some (a, middle, st) ∧ f a (middle, st) = some (b, rest, st) := by
  rw [bind_eq, Option.bind_eq_some_iff] at h
  obtain ⟨⟨a, middle, st'⟩, ha, hb⟩ := h
  obtain ⟨rfl, -⟩ := hf a hb
  exact ⟨a, middle, ha, hb⟩

theorem imp (h : GivesIn st p P) (hPQ : ∀ a, P a → Q a) : GivesIn st p Q :=
  fun _ _ _ a ha => (h ha).imp_right (hPQ a)

theorem failure : GivesIn st (failure : Decoder σ α) Q := by
  intro input rest st' a ha
  cases ha

theorem octets : GivesIn st (octets n) (·.length = n) := by
  intro input rest st' bs hbs
  unfold Decoder.octets at hbs
  split_ifs at hbs with hle
  cases hbs
  exact ⟨rfl, List.length_take_of_le hle⟩

end GivesIn

/-! ### Formats of a fixed length -/

/-- A codec of `n` octets. -/
structure Fixed (n : ℕ) (p : Decoder σ α) (write : α → List UInt8) : Prop where
  reads : ∀ a, Reads p (write a) a
  yields : Yields [] p write
  sized : Sized n p

namespace Fixed

variable {n : ℕ} {p : Decoder σ α} {write : α → List UInt8}

theorem length [Inhabited σ] (h : Fixed n p write) (a : α) : (write a).length = n := by
  have hread := h.reads a default []
  rcases lt_or_ge (write a ++ []).length n with hlt | hge
  · rw [(h.sized _ _).2 hlt] at hread
    cases hread
  · obtain ⟨b, rest, hb, hrest⟩ := (h.sized _ default).1 hge
    rw [hread] at hb
    cases hb
    simpa using hrest.symm

theorem gives (h : Fixed n p write) (st : σ) : GivesIn st p fun _ => True :=
  fun _ _ _ _ ha => ⟨(h.yields ha).2.symm, trivial⟩

theorem map (h : Fixed n p write) (f : α → β) (g : β → α) (hfg : ∀ b, f (g b) = b) (hgf : ∀ a, g (f a) = a) :
    Fixed n (do let a ← p; pure (f a)) (fun b => write (g b)) where
  reads b := (h.reads (g b)).last (hfg b)
  yields := h.yields.bind fun a => Yields.pure (by rw [hgf, List.nil_append])
  sized := h.sized.bind fun a => Sized.pure (f a)

end Fixed

/-- The rest of a format: `n` octets, after the octets `before`. -/
structure Rest (before : List UInt8) (n : ℕ) (p : Decoder σ α) (write : α → List UInt8) : Prop where
  yields : Yields before p write
  sized : Sized n p

theorem Rest.pure (h : write a = before) : Rest (σ := σ) before 0 (Pure.pure a) write := ⟨.pure h, .pure a⟩

theorem Fixed.bind {m : ℕ} {write' : β → List UInt8} (hp : Fixed n p write)
    (hf : ∀ a, Rest (before ++ write a) m (f a) write') :
    Rest before (n + m) (p >>= f) write' :=
  ⟨hp.yields.bind fun a => (hf a).yields, hp.sized.bind fun a => (hf a).sized⟩

theorem Rest.fixed (h : Rest [] n p write) (hreads : ∀ a, Reads p (write a) a) :
    Fixed n p write := ⟨hreads, h.yields, h.sized⟩

/-- The next `n` octets, as an array. -/
def vector (n : ℕ) : Decoder σ (Vector UInt8 n) := fun s =>
  if h : n ≤ s.1.length then some (⟨(s.1.take n).toArray, by simp [h]⟩, s.1.drop n, s.2) else none

theorem fixed_vector (n : ℕ) : Fixed (σ := σ) n (vector n) Vector.toList where
  reads v := by
    intro st rest
    have hlen : v.toList.length = n := by simp
    unfold vector
    rw [dif_pos (by simp)]
    simp only [List.take_left' hlen, List.drop_left' hlen, Option.some.injEq, Prod.mk.injEq, and_true]
    exact Vector.toList_inj.mp (by simp)
  yields := by
    intro input rest st st' v hv
    unfold vector at hv
    split_ifs at hv
    cases hv
    simp
  sized := by
    intro input st
    unfold vector
    refine ⟨fun h => ?_, fun h => dif_neg (by simpa using h)⟩
    rw [dif_pos h]
    exact ⟨_, _, rfl, by simp only [List.length_drop]; omega⟩

/-! ### Integers, the most significant octet first -/

def octet : Decoder σ UInt8
  | (b :: input, st) => some (b, input, st)
  | ([], _) => none

theorem fixed_octet : Fixed (σ := σ) 1 octet (fun b => [b]) where
  reads _ _ _ := rfl
  yields := by
    intro input rest st st' b hb
    cases input with
    | nil => cases hb
    | cons b' input =>
      cases hb
      exact ⟨rfl, rfl⟩
  sized := by
    intro input st
    cases input with
    | nil => exact ⟨fun h => absurd h (by simp), fun _ => rfl⟩
    | cons b input => exact ⟨fun _ => ⟨b, input, rfl, rfl⟩, fun h => absurd h (by simp)⟩

/-- The big-endian octets of a number as an array. -/
def beVector (n v : ℕ) : Vector UInt8 n := ⟨(beBytes n v).toArray, by simp⟩

@[simp] theorem toList_beVector (n v : ℕ) : (beVector n v).toList = beBytes n v := rfl

theorem ofBe_vector_lt (v : Vector UInt8 n) : ofBe v.toList < 256 ^ n := by
  have h := ofBe_lt v.toList
  rwa [Vector.length_toList] at h

theorem beVector_ofBe (v : Vector UInt8 n) : beVector n (ofBe v.toList) = v := by
  apply Vector.toList_inj.mp
  rw [toList_beVector]
  have h := beBytes_ofBe v.toList
  rwa [Vector.length_toList] at h

def uint16 : Decoder σ UInt16 := do
  let v ← vector 2
  pure (UInt16.ofNat (ofBe v.toList))

def be16 (v : UInt16) : List UInt8 := beBytes 2 v.toNat

theorem fixed_uint16 : Fixed (σ := σ) 2 uint16 be16 := by
  refine (fixed_vector 2).map _ (fun v : UInt16 => beVector 2 v.toNat) (fun v => ?_) (fun v => ?_)
  · rw [toList_beVector, ofBe_beBytes v.toNat_lt, UInt16.ofNat_toNat]
  · rw [UInt16.toNat_ofNat_of_lt' (ofBe_vector_lt v), beVector_ofBe]

def uint32 : Decoder σ UInt32 := do
  let v ← vector 4
  pure (UInt32.ofNat (ofBe v.toList))

def be32 (v : UInt32) : List UInt8 := beBytes 4 v.toNat

theorem fixed_uint32 : Fixed (σ := σ) 4 uint32 be32 := by
  refine (fixed_vector 4).map _ (fun v : UInt32 => beVector 4 v.toNat) (fun v => ?_) (fun v => ?_)
  · rw [toList_beVector, ofBe_beBytes v.toNat_lt, UInt32.ofNat_toNat]
  · rw [UInt32.toNat_ofNat_of_lt' (ofBe_vector_lt v), beVector_ofBe]

def uint64 : Decoder σ UInt64 := do
  let v ← vector 8
  pure (UInt64.ofNat (ofBe v.toList))

def be64 (v : UInt64) : List UInt8 := beBytes 8 v.toNat

theorem fixed_uint64 : Fixed (σ := σ) 8 uint64 be64 := by
  refine (fixed_vector 8).map _ (fun v : UInt64 => beVector 8 v.toNat) (fun v => ?_) (fun v => ?_)
  · rw [toList_beVector, ofBe_beBytes v.toNat_lt, UInt64.ofNat_toNat]
  · rw [UInt64.toNat_ofNat_of_lt' (ofBe_vector_lt v), beVector_ofBe]

def int16 : Decoder σ Int16 := do
  let v ← uint16
  pure v.toInt16

def beInt16 (v : Int16) : List UInt8 := be16 v.toUInt16

theorem fixed_int16 : Fixed (σ := σ) 2 int16 beInt16 :=
  fixed_uint16.map _ Int16.toUInt16 Int16.toInt16_toUInt16 UInt16.toUInt16_toInt16

def int32 : Decoder σ Int32 := do
  let v ← uint32
  pure v.toInt32

def beInt32 (v : Int32) : List UInt8 := be32 v.toUInt32

theorem fixed_int32 : Fixed (σ := σ) 4 int32 beInt32 :=
  fixed_uint32.map _ Int32.toUInt32 Int32.toInt32_toUInt32 UInt32.toUInt32_toInt32

end Decoder

end VanetzaIdf.Lib
