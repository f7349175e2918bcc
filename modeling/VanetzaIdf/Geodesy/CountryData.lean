/-
# Country data

What country data is, without reference to its reader, which accepts exactly
that and stays inside its input (`country_data_read`).

A parser `Settles` a form if it reports success exactly when the octets from
`start` to `stop` start with it; the loops are inductions with `Settles.step`.
The offset is at most the length, so that no difference wraps. Where the octets
of a ring wrap, it has more points than a vector can hold.
-/
import VanetzaIdf.Geodesy.CountryDataReader

namespace VanetzaIdf.Geodesy

open Lib Watched List
open CountryReaderResult (succeeded failure)

/-! ### The format -/

variable (le : Bool)

/-- A number of 32 bits in either order. -/
def u32 (n : ℕ) : ByteBuffer := if le then (beBytes 4 n).reverse else beBytes 4 n

/-- `k` pieces of a form, one after the other. -/
def Items (P : ByteBuffer → Prop) (k : ℕ) (bs : ByteBuffer) : Prop :=
  ∃ items : List ByteBuffer, items.length = k ∧ (∀ item ∈ items, P item) ∧ bs = items.flatten

/-- A number of points, and 16 octets for each. -/
def IsRing (bs : ByteBuffer) : Prop :=
  ∃ count points, count < 2 ^ 32 ∧ points.length = 16 * count ∧ bs = u32 le count ++ points

/-- A number of rings, and the rings. -/
def IsPolygonBody (bs : ByteBuffer) : Prop :=
  ∃ count rings, count < 2 ^ 32 ∧ Items (IsRing le) count rings ∧ bs = u32 le count ++ rings

variable (bs : ByteBuffer)

/-- The order of octets, the type of a polygon and its body. -/
def IsPolygon : Prop :=
  ∃ order body, IsPolygonBody (order == 0x01) body ∧ bs = order :: (u32 (order == 0x01) 3 ++ body)

/-- The order of octets, the type of several polygons, their number, and the
polygons, each with its own order of octets. -/
def IsMultiPolygon : Prop :=
  ∃ order count polygons, count < 2 ^ 32 ∧ Items IsPolygon count polygons ∧
    bs = order :: (u32 (order == 0x01) 6 ++ (u32 (order == 0x01) count ++ polygons))

/-- The octets of a geometry. -/
def IsGeometry : Prop := IsPolygon bs ∨ IsMultiPolygon bs

/-- The code of a country, a size, and as many octets that start with a
geometry. -/
def IsEntry : Prop :=
  ∃ code geometry rest : ByteBuffer, code.length = 2 ∧ (geometry ++ rest).length < 2 ^ 32 ∧ IsGeometry geometry ∧
    bs = code ++ (u32 true (geometry ++ rest).length ++ (geometry ++ rest))

/-- The octets of a file: its version, and as many entries as counted. -/
def IsCountryData : Prop := ∃ count entries, Items IsEntry count entries ∧ bs = [1, 0] ++ entries

/-! ### Numbers -/

@[simp] theorem length_u32 (n : ℕ) : (u32 le n).length = 4 := by
  cases le <;> simp [u32]

theorem number_u32 {n : ℕ} (h : n < 2 ^ 32) : number le (u32 le n) = n := by
  have hn : ofBe (beBytes 4 n) = n := ofBe_beBytes (h.trans_eq (by norm_num))
  cases le <;> simpa [number, u32] using hn

theorem u32_number {bs : ByteBuffer} (h : bs.length = 4) : u32 le (number le bs) = bs := by
  cases le with
  | false =>
    have := beBytes_ofBe bs
    rw [h] at this
    simpa [number, u32] using this
  | true =>
    have := beBytes_ofBe bs.reverse
    rw [length_reverse, h] at this
    simp [number, u32, this]

theorem number_lt {bs : ByteBuffer} (h : bs.length = 4) : number le bs < 2 ^ 32 := by
  cases le with
  | false =>
    have := ofBe_lt bs
    rw [h] at this
    simpa [number] using this
  | true =>
    have := ofBe_lt bs.reverse
    rw [length_reverse, h] at this
    simpa [number] using this

/-! ### Octets in memory -/

section Memory

variable {data : ℕ → UInt8} (data) in
@[simp] theorem length_octets (p n : ℕ) : (octets data p n).length = n := by
  simp [octets]

theorem octets_add (p a b : ℕ) : octets data p (a + b) = octets data p a ++ octets data (p + a) b := by
  unfold octets
  rw [← List.range'_append_1, map_append]

theorem octets_one (p : ℕ) : octets data p 1 = [data p] := rfl

variable {p m n : ℕ} {le : Bool} {ys : ByteBuffer} {P : ByteBuffer → Prop}

theorem octets_eq_append {xs ys : ByteBuffer} :
    octets data p m = xs ++ ys ↔
      octets data p xs.length = xs ∧ ∃ b, m = xs.length + b ∧ octets data (p + xs.length) b = ys := by
  constructor
  · intro h
    have hm : m = xs.length + ys.length := by
      rw [← length_append, ← h, length_octets]
    rw [hm, octets_add] at h
    obtain ⟨hxs, hys⟩ := append_inj h (length_octets data _ _)
    exact ⟨hxs, ys.length, hm, hys⟩
  · rintro ⟨hxs, b, rfl, hys⟩
    rw [octets_add, hxs, hys]

theorem octets_eq_u32 (h : n < 2 ^ 32) : octets data p 4 = u32 le n ↔ number le (octets data p 4) = n := by
  constructor
  · intro heq
    rw [heq, number_u32 le h]
  · rintro rfl
    rw [u32_number le (length_octets data p 4)]

theorem octets_eq_u32_append (h : n < 2 ^ 32) :
    octets data p m = u32 le n ++ ys ↔ number le (octets data p 4) = n ∧ ∃ b, m = 4 + b ∧
      octets data (p + 4) b = ys := by
  rw [octets_eq_append, length_u32, octets_eq_u32 h]

theorem items_zero : Items P 0 (octets data p m) ↔ m = 0 := by
  constructor
  · rintro ⟨items, hlen, -, heq⟩
    obtain rfl := eq_nil_of_length_eq_zero hlen
    rw [← length_octets data p m, heq]
    rfl
  · rintro rfl
    exact ⟨[], rfl, fun _ h => absurd h not_mem_nil, rfl⟩

theorem items_succ {k p m : ℕ} :
    Items P (k + 1) (octets data p m) ↔
      ∃ a b, m = a + b ∧ P (octets data p a) ∧ Items P k (octets data (p + a) b) := by
  constructor
  · rintro ⟨items, hlen, hP, heq⟩
    obtain ⟨item, items, rfl⟩ := exists_cons_of_length_eq_add_one hlen
    rw [flatten_cons, octets_eq_append] at heq
    obtain ⟨hitem, b, hm, hrest⟩ := heq
    refine ⟨item.length, b, hm, ?_, items, Nat.succ.inj hlen, fun i hi => hP i (mem_cons_of_mem _ hi), hrest⟩
    rw [hitem]
    exact hP item mem_cons_self
  · rintro ⟨a, b, rfl, ha, items, hlen, hP, heq⟩
    refine ⟨octets data p a :: items, congrArg (· + 1) hlen, ?_, ?_⟩
    · rintro i (_ | ⟨_, hi⟩)
      · exact ha
      · exact hP i hi
    · rw [octets_add, heq, flatten_cons]

theorem counted_iff {Q : ℕ → ByteBuffer → Prop} :
    (∃ count rest, count < 2 ^ 32 ∧ Q count rest ∧ octets data p m = u32 le count ++ rest) ↔
      ∃ b, m = 4 + b ∧ Q (number le (octets data p 4)) (octets data (p + 4) b) := by
  constructor
  · rintro ⟨count, rest, hcount, hrest, heq⟩
    obtain ⟨rfl, b, rfl, rfl⟩ := (octets_eq_u32_append hcount).mp heq
    exact ⟨b, rfl, hrest⟩
  · rintro ⟨b, rfl, hrest⟩
    have hlt := number_lt le (length_octets data p 4)
    exact ⟨_, _, hlt, hrest, (octets_eq_u32_append hlt).mpr ⟨rfl, b, rfl, rfl⟩⟩

theorem isRing_iff : IsRing le (octets data p m) ↔ m = 4 + 16 * number le (octets data p 4) :=
  counted_iff.trans (by simp)

theorem isPolygonBody_iff :
    IsPolygonBody le (octets data p m) ↔
      ∃ b, m = 4 + b ∧ Items (IsRing le) (number le (octets data p 4)) (octets data (p + 4) b) :=
  counted_iff

theorem octets_eq_header {p m type : ℕ} (h : type < 2 ^ 32) {order : UInt8} :
    octets data p m = order :: (u32 (order == 0x01) type ++ ys) ↔
      data p = order ∧ number (order == 0x01) (octets data (p + 1) 4) = type ∧ ∃ b, m = 5 + b ∧
        octets data (p + 5) b = ys := by
  rw [← singleton_append, octets_eq_append, length_singleton, octets_one, singleton_inj]
  refine and_congr_right fun _ => ?_
  constructor
  · rintro ⟨b, rfl, hb⟩
    obtain ⟨htype, b, rfl, hys⟩ := (octets_eq_u32_append h).mp hb
    exact ⟨htype, b, by omega, hys⟩
  · rintro ⟨htype, b, rfl, hys⟩
    exact ⟨4 + b, by omega, (octets_eq_u32_append h).mpr ⟨htype, b, rfl, hys⟩⟩

/-- The type of the geometry at a position, in the order of octets it states. -/
def typeAt (data : ℕ → UInt8) (p : ℕ) : ℕ := number (data p == 0x01) (octets data (p + 1) 4)

theorem isPolygon_iff :
    IsPolygon (octets data p m) ↔ typeAt data p = 3 ∧
      ∃ b, m = 5 + b ∧ IsPolygonBody (data p == 0x01) (octets data (p + 5) b) := by
  constructor
  · rintro ⟨order, body, hbody, heq⟩
    obtain ⟨rfl, htype, b, rfl, rfl⟩ := (octets_eq_header (by norm_num)).mp heq
    exact ⟨htype, b, rfl, hbody⟩
  · rintro ⟨htype, b, rfl, hbody⟩
    exact ⟨data p, _, hbody, (octets_eq_header (by norm_num)).mpr ⟨rfl, htype, b, rfl, rfl⟩⟩

theorem isMultiPolygon_iff :
    IsMultiPolygon (octets data p m) ↔ typeAt data p = 6 ∧
      ∃ b, m = 9 + b ∧ Items IsPolygon (number (data p == 0x01) (octets data (p + 5) 4)) (octets data (p + 9) b) := by
  constructor
  · rintro ⟨order, count, polygons, hcount, hpolygons, heq⟩
    obtain ⟨rfl, htype, b, rfl, hb⟩ := (octets_eq_header (by norm_num)).mp heq
    obtain ⟨b, rfl, hitems⟩ := counted_iff.mp ⟨count, polygons, hcount, hpolygons, hb⟩
    exact ⟨htype, b, by omega, hitems⟩
  · rintro ⟨htype, b, rfl, hpolygons⟩
    obtain ⟨count, rest, hcount, hitems, hrest⟩ := counted_iff.mpr ⟨b, rfl, hpolygons⟩
    exact ⟨data p, count, rest, hcount, hitems, (octets_eq_header (by norm_num)).mpr
      ⟨rfl, htype, 4 + b, by omega, hrest⟩⟩

theorem isEntry_iff :
    IsEntry (octets data p m) ↔ m = 6 + number true (octets data (p + 2) 4) ∧
      ∃ g ≤ number true (octets data (p + 2) 4), IsGeometry (octets data (p + 6) g) := by
  constructor
  · rintro ⟨code, geometry, rest, hcode, hlen, hgeometry, heq⟩
    obtain ⟨-, b, rfl, hb⟩ := octets_eq_append.mp heq
    rw [hcode] at hb ⊢
    obtain ⟨hsize, b, rfl, hwkb⟩ := (octets_eq_u32_append hlen).mp hb
    have hb' : b = (geometry ++ rest).length := by rw [← hwkb, length_octets]
    obtain ⟨hg, -⟩ := octets_eq_append.mp hwkb
    refine ⟨by rw [hsize, ← hb']; omega, geometry.length, by rw [hsize, length_append]; omega, ?_⟩
    rw [show p + 6 = p + 2 + 4 by omega, hg]
    exact hgeometry
  · rintro ⟨rfl, g, hg, hgeometry⟩
    have hlt := number_lt true (length_octets data (p + 2) 4)
    obtain ⟨r, hr⟩ := Nat.exists_eq_add_of_le hg
    have hlen : (octets data (p + 6) g ++ octets data (p + 6 + g) r).length = number true (octets data (p + 2) 4) := by
      rw [length_append, length_octets, length_octets, hr]
    refine ⟨octets data p 2, octets data (p + 6) g, octets data (p + 6 + g) r, length_octets data _ _, ?_,
      hgeometry, ?_⟩
    · rwa [hlen]
    · rw [hlen, ← octets_add, ← hr, octets_eq_append, length_octets]
      exact ⟨rfl, _, by omega, (octets_eq_u32_append hlt).mpr ⟨rfl, _, rfl, rfl⟩⟩

end Memory

/-! ### What a parser settles -/

/-- Octets are read between the bounds, and no difference wraps. -/
def Access.Within (lo hi : ℕ) : Access → Prop
  | .octet index _ => lo ≤ index ∧ index < hi
  | .difference length offset => offset ≤ length

/-- The octets from `start` to `stop` are told to start with the form or not
to; the position is counted from `base`. -/
def Settles {α : Type} (data : ℕ → UInt8) (P : ByteBuffer → Prop) (base start stop : ℕ) :
    Except Stop (CountryReaderResult × α) → Prop
  | .ok (res, _) => base + res.position ≤ stop ∧
      (res.ok = true → ∃ m, base + res.position = start + m ∧ P (octets data start m)) ∧
      ∀ m, start + m ≤ stop → P (octets data start m) → res.ok = true ∧ base + res.position = start + m
  | .error e => e = .lengthError ∧ ∀ m, start + m ≤ stop → ¬ P (octets data start m)

section Parsers

variable {α : Type} {w : ℕ} {data : ℕ → UInt8} {P P' : ByteBuffer → Prop} {base start stop : ℕ}
  {res : CountryReaderResult} {a : α} {offset n p k m : ℕ} {r : Except Stop (CountryReaderResult × α)}
  {le : Bool}

theorem Settles.refuse (hres : res.ok = false) (hpos : base + res.position ≤ stop)
    (h : ∀ m, start + m ≤ stop → ¬ P (octets data start m)) : Settles data P base start stop (.ok (res, a)) := by
  refine ⟨hpos, fun hok => ?_, fun m hm hP => absurd hP (h m hm)⟩
  rw [hres] at hok
  cases hok

theorem Settles.failure {msg : String} {pos : ℕ} (hpos : base + pos ≤ stop)
    (h : ∀ m, start + m ≤ stop → ¬ P (octets data start m)) :
    Settles data P base start stop (.ok (failure msg pos, a)) :=
  Settles.refuse rfl hpos h

theorem Settles.nothing (h : base + offset ≤ stop) :
    Settles data (Items P 0) base (base + offset) stop (.ok (succeeded offset, a)) := by
  refine ⟨h, fun _ => ⟨0, rfl, items_zero.mpr rfl⟩, fun m _ hm => ?_⟩
  rw [items_zero.mp hm]
  exact ⟨rfl, rfl⟩

theorem Settles.not_of_failed (h : Settles data P base start stop (.ok (res, a)))
    (hres : res.ok = false) : ∀ m, start + m ≤ stop → ¬ P (octets data start m) := by
  intro m hm hP
  have hok := (h.2.2 m hm hP).1
  rw [hres] at hok
  cases hok

theorem Settles.iff_of_ok (h : Settles data P base start stop (.ok (res, a)))
    (hres : res.ok = true) (hn : base + res.position = start + n) :
    ∀ m, start + m ≤ stop → (P (octets data start m) ↔ m = n) := by
  intro m hm
  constructor
  · intro hP
    have hat := (h.2.2 m hm hP).2
    omega
  · rintro rfl
    obtain ⟨m', hm', hP⟩ := h.2.1 hres
    obtain rfl : m = m' := by omega
    exact hP

theorem Settles.addOffset {inner : CountryReaderResult} {β : Type} {b : β}
    (h : Settles data P (base + n) start stop (.ok (inner, a))) (hadd : sizeAdd w inner.position n =
      inner.position + n) :
    Settles data P base start stop (.ok (inner.addOffset w n, b)) := by
  obtain ⟨hpos, hok, hcomplete⟩ := h
  have hmoved : base + (inner.addOffset w n).position = base + n + inner.position := by
    show base + sizeAdd w inner.position n = _
    omega
  rw [← hmoved] at hpos hok hcomplete
  exact ⟨hpos, hok, hcomplete⟩

theorem Settles.step
    (hform : ∀ m, start + m ≤ stop → (P' (octets data start m) ↔ ∃ b, m = n + b ∧ P (octets data (start + n) b)))
    (h : Settles data P base (start + n) stop r) : Settles data P' base start stop r := by
  match r, h with
  | .ok (res, a), ⟨hpos, hok, hcomplete⟩ =>
    refine ⟨hpos, fun hres => ?_, fun m hm hP => ?_⟩
    · obtain ⟨b, hb, hP⟩ := hok hres
      exact ⟨n + b, by omega, (hform _ (by omega)).mpr ⟨b, rfl, hP⟩⟩
    · obtain ⟨b, rfl, hb⟩ := (hform m hm).mp hP
      obtain ⟨hres, hat⟩ := hcomplete b (by omega) hb
      exact ⟨hres, by omega⟩
  | .error e, ⟨he, hnone⟩ =>
    refine ⟨he, fun m hm hP => ?_⟩
    obtain ⟨b, rfl, hb⟩ := (hform m hm).mp hP
    exact hnone b (by omega) hb

/-! ### Reads -/

/-- Octets between the bounds may be read, and differences computed that do
not wrap. -/
structure Permits (Q : Access → Prop) (lo hi : ℕ) : Prop where
  octet : ∀ index, lo ≤ index → index < hi → Q (.octet index none)
  difference : ∀ length offset, offset ≤ length → Q (.difference length offset)

theorem permits_within {lo hi : ℕ} : Permits (Access.Within lo hi) lo hi where
  octet _ hlo hhi := ⟨hlo, hhi⟩
  difference _ _ h := h

variable {Q : Access → Prop} {lo hi : ℕ}

theorem gives_readOctets (hQ : Permits Q lo hi) (hlo : lo ≤ p) (hhi : p + n ≤ hi) :
    Gives Q (readOctets data p n) (octets data p n) where
  touched e he := by
    obtain ⟨i, hi', rfl⟩ := mem_map.mp he
    rw [mem_range'_1] at hi'
    exact hQ.octet i (by omega) (by omega)
  outcome := rfl

theorem gives_readU32 (hQ : Permits Q lo hi) (le : Bool) (hlo : lo ≤ p) (hhi : p + 4 ≤ hi) :
    Gives Q (readU32 data p le) (number le (octets data p 4)) :=
  (gives_readOctets hQ hlo hhi).bind (Ensures.pure rfl)

theorem gives_readU16le (hQ : Permits Q lo hi) (hlo : lo ≤ p) (hhi : p + 2 ≤ hi) :
    Gives Q (readU16le data p) (number true (octets data p 2)) :=
  (gives_readOctets hQ hlo hhi).bind (Ensures.pure rfl)

theorem gives_readU8 (hQ : Permits Q lo hi) (hlo : lo ≤ p) (hhi : p + 1 ≤ hi) : Gives Q (readU8 data p) (data p) :=
  (gives_readOctets hQ hlo hhi).bind (Ensures.pure rfl)

theorem gives_minus (hQ : Permits Q lo hi) {length offset : ℕ} (hlength : length < 2 ^ w) (h : offset ≤ length) :
    Gives Q (minus w length offset) (length - offset) := by
  have htouch : Gives Q (touch (.difference length offset) : Reading Unit) () := Gives.touch (hQ.difference _ _ h)
  exact htouch.bind (Ensures.pure (congrArg Except.ok (sizeSub_eq hlength h)))

theorem ensures_readPoints {base length : ℕ} (hlength : length < 2 ^ w) :
    ∀ {left offset : ℕ} {ring : Ring}, offset + 16 * left ≤ length →
      Ensures (Access.Within base (base + length)) (fun r => ∃ ring', r = .ok (ring', offset + 16 * left))
        (readPoints w data base le left offset ring)
  | 0, offset, ring, _ => Ensures.pure ⟨ring, rfl⟩
  | left + 1, offset, ring, h => by
    have h8 : sizeAdd w offset 8 = offset + 8 := sizeAdd_eq (by omega)
    have h16 : sizeAdd w (offset + 8) 8 = offset + 16 := sizeAdd_eq (by omega)
    have hlon : ∀ p, base ≤ p → p + 8 ≤ base + length → Gives (Access.Within base (base + length)) (readF64 data p le)
        (UInt64.ofNat (number le (octets data p 8))) :=
      fun p hlo hhi => (gives_readOctets permits_within hlo hhi).bind (Ensures.pure rfl)
    unfold readPoints
    refine (hlon _ (by omega) (by omega)).bind ?_
    simp only [h8, h16]
    refine (hlon _ (by omega) (by omega)).bind ?_
    rw [show offset + 16 * (left + 1) = offset + 16 + 16 * left by ring]
    exact ensures_readPoints hlength (by omega)

/-! ### Polygons -/

theorem pointsBytes_eq (c : ℕ) : sizeMul w (sizeMul w c 2) 8 = 16 * c % 2 ^ w := by
  unfold sizeMul
  rw [Nat.mod_mul_mod]
  congr 1
  ring

theorem items_isRing_succ :
    Items (IsRing le) (k + 1) (octets data p m) ↔
      ∃ b, m = 4 + 16 * number le (octets data p 4) + b ∧
        Items (IsRing le) k (octets data (p + (4 + 16 * number le (octets data p 4))) b) := by
  rw [items_succ]
  constructor
  · rintro ⟨a, b, rfl, ha, hb⟩
    rw [isRing_iff] at ha
    rw [← ha]
    exact ⟨b, rfl, hb⟩
  · rintro ⟨b, rfl, hb⟩
    exact ⟨_, b, rfl, isRing_iff.mpr rfl, hb⟩

theorem ensures_parseRings {base length : ℕ} (hlength : length < 2 ^ w) :
    ∀ {left r offset : ℕ} {out : Polygon}, offset ≤ length →
      Ensures (Access.Within base (base + length)) (Settles data (Items (IsRing le) left) base (base + offset)
        (base + length))
        (parseRings w data base length le left r offset out)
  | 0, _, _, _, h => Ensures.pure (Settles.nothing (Nat.add_le_add_left h _))
  | left + 1, r, offset, out, h => by
    set c := number le (octets data (base + offset) 4) with hc
    -- a ring takes at least its number and what the number says
    have hnone : length < offset + (4 + 16 * c) →
        ∀ m, base + offset + m ≤ base + length → ¬ Items (IsRing le) (left + 1) (octets data (base + offset) m) := by
      intro hshort m hm hitems
      obtain ⟨b, hb, -⟩ := items_isRing_succ.mp hitems
      omega
    unfold parseRings
    refine (gives_minus permits_within hlength h).bind ?_
    refine Ensures.ite (fun h4 => Ensures.pure (Settles.failure (by omega) (hnone (by omega)))) fun h4 => ?_
    have hadd : sizeAdd w offset 4 = offset + 4 := sizeAdd_eq (by omega)
    refine (gives_readU32 permits_within le (by omega) (by omega)).bind ?_
    simp only [hadd, ← hc, pointsBytes_eq]
    refine (gives_minus permits_within hlength (by omega)).bind ?_
    refine Ensures.ite (fun hbytes => ?_) fun hbytes => ?_
    · have := Nat.mod_le (16 * c) (2 ^ w)
      exact Ensures.pure (Settles.failure (by omega) (hnone (by omega)))
    unfold reserve maxPoints
    by_cases hmax : (2 ^ w - 1) / 16 < c
    · -- more points than a vector can hold do not fit
      rw [if_pos hmax]
      exact Ensures.bind (Ensures.stop (Q := (· = .error .lengthError)) rfl) (fun a ha => nomatch ha)
        fun e he => ⟨(Except.error.inj he), hnone (by omega)⟩
    · rw [if_neg hmax]
      have hexact : 16 * c % 2 ^ w = 16 * c := Nat.mod_eq_of_lt (by omega)
      rw [hexact] at hbytes
      refine Gives.bind (a := ()) (Ensures.pure rfl) ?_
      refine Ensures.bind (ensures_readPoints hlength (by omega)) ?_ (fun e he => nomatch he.choose_spec)
      rintro ⟨ring, offset'⟩ ⟨ring', hring⟩
      obtain ⟨rfl, rfl⟩ := Prod.mk.inj (Except.ok.inj hring)
      refine (ensures_parseRings hlength (by omega)).mono (fun _ h => h) fun r hr => ?_
      refine Settles.step (n := 4 + 16 * c) (fun m _ => items_isRing_succ) ?_
      rwa [show base + (offset + 4 + 16 * c) = base + offset + (4 + 16 * c) by ring] at hr

theorem ensures_parsePolygonBody {base length : ℕ} (hlength : length < 2 ^ w) (hstop : base + length = stop) :
    Ensures (Access.Within base stop) (Settles data (IsPolygonBody le) base base stop)
      (parsePolygonBody w data base length le) := by
  subst hstop
  unfold parsePolygonBody
  split_ifs with h4
  · refine Ensures.pure (Settles.failure (by omega) fun m hm hbody => ?_)
    obtain ⟨b, rfl, -⟩ := isPolygonBody_iff.mp hbody
    omega
  · refine (gives_readU32 permits_within le le_rfl (by omega)).bind ?_
    exact (ensures_parseRings hlength (by omega)).mono (fun _ h => h) fun r hr =>
      Settles.step (n := 4) (fun m _ => isPolygonBody_iff) hr

theorem ensures_widen {lo hi lo' hi' : ℕ} {Q : Except Stop α → Prop} {m : Reading α}
    (h : Ensures (Access.Within lo hi) Q m)
    (hlo : lo' ≤ lo) (hhi : hi ≤ hi') : Ensures (Access.Within lo' hi') Q m := by
  refine h.mono (fun e he => ?_) fun _ hr => hr
  match e, he with
  | .octet _ _, ⟨h1, h2⟩ => exact ⟨by omega, by omega⟩
  | .difference _ _, h => exact h

theorem items_isPolygon_succ (htype : typeAt data p = 3)
    (hbody : ∀ b, p + 5 + b ≤ stop → (IsPolygonBody (data p == 0x01) (octets data (p + 5) b) ↔ b = n))
    (hm : p + m ≤ stop)
    (hn : p + 5 + n ≤ stop) :
    Items IsPolygon (k + 1) (octets data p m) ↔ ∃ b, m = 5 + n + b ∧
      Items IsPolygon k (octets data (p + (5 + n)) b) := by
  rw [items_succ]
  constructor
  · rintro ⟨a, b, rfl, ha, hb⟩
    obtain ⟨-, body, rfl, hbody'⟩ := isPolygon_iff.mp ha
    obtain rfl := (hbody body (by omega)).mp hbody'
    exact ⟨b, rfl, hb⟩
  · rintro ⟨b, rfl, hb⟩
    exact ⟨5 + n, b, rfl, isPolygon_iff.mpr ⟨htype, n, rfl, (hbody n hn).mpr rfl⟩, hb⟩

theorem not_items_isPolygon (h : ∀ b, typeAt data p = 3 → p + 5 + b ≤ stop →
      ¬ IsPolygonBody (data p == 0x01) (octets data (p + 5) b)) :
    ∀ m, p + m ≤ stop → ¬ Items IsPolygon (k + 1) (octets data p m) := by
  intro m hm hitems
  obtain ⟨a, b, rfl, ha, -⟩ := items_succ.mp hitems
  obtain ⟨htype, body, rfl, hbody⟩ := isPolygon_iff.mp ha
  exact h body htype (by omega) hbody

theorem ensures_parsePolygons {base length : ℕ} (hlength : length < 2 ^ w) :
    ∀ {left offset : ℕ} {out : CountryPolygon}, offset ≤ length →
      Ensures (Access.Within base (base + length)) (Settles data (Items IsPolygon left) base (base + offset)
        (base + length))
        (parsePolygons w data base length left offset out)
  | 0, _, _, h => Ensures.pure (Settles.nothing (Nat.add_le_add_left h _))
  | left + 1, offset, out, h => by
    unfold parsePolygons
    refine (gives_minus permits_within hlength h).bind ?_
    refine Ensures.ite
      (fun h5 => Ensures.pure (Settles.failure (by omega) (not_items_isPolygon fun b _ hb => by omega))) fun h5 => ?_
    have hadd : sizeAdd w offset 5 = offset + 5 := sizeAdd_eq (by omega)
    have hadd1 : sizeAdd w offset 1 = offset + 1 := sizeAdd_eq (by omega)
    refine (gives_readU8 permits_within (by omega) (by omega)).bind ?_
    refine (gives_readU32 permits_within _ (by omega) (by omega)).bind ?_
    rw [hadd, hadd1]
    refine Ensures.ite (fun htype => Ensures.pure (Settles.failure (by omega)
      (not_items_isPolygon fun b htype' _ => absurd htype' htype))) fun htype => ?_
    refine (gives_minus permits_within hlength (by omega)).bind ?_
    have hstop : base + (offset + 5) + (length - (offset + 5)) = base + length := by omega
    refine Ensures.bind (ensures_widen (ensures_parsePolygonBody (by omega) hstop) (by omega) le_rfl) ?_ ?_
    · rintro ⟨inner, polygon⟩ hinner
      have hpos := hinner.1
      refine Ensures.ite (fun hres => ?_) fun hres => ?_
      · have hadd' : sizeAdd w (offset + 5) inner.position = offset + 5 + inner.position := sizeAdd_eq (by omega)
        rw [hadd']
        refine (ensures_parsePolygons hlength (by omega)).mono (fun _ h => h) fun r hr => ?_
        refine Settles.step (n := 5 + inner.position) (fun m hm =>
          items_isPolygon_succ (not_not.mp htype) (hinner.iff_of_ok hres rfl) hm (by omega)) ?_
        rwa [show base + (offset + 5 + inner.position) = base + offset + (5 + inner.position) by ring] at hr
      · have hadd' : sizeAdd w inner.position (offset + 5) = inner.position + (offset + 5) := sizeAdd_eq (by omega)
        have hno := hinner.not_of_failed (Bool.eq_false_iff.mpr hres)
        refine Ensures.pure (Settles.refuse (Bool.eq_false_iff.mpr hres) ?_
          (not_items_isPolygon fun b _ hb => hno b hb))
        show base + sizeAdd w inner.position (offset + 5) ≤ _
        omega
    · rintro e ⟨he, hnone⟩
      exact ⟨he, not_items_isPolygon fun b _ hb hbody => hnone b (by omega) hbody⟩

theorem isGeometry_polygon (htype : typeAt data p = 3) :
    IsGeometry (octets data p m) ↔ ∃ b, m = 5 + b ∧ IsPolygonBody (data p == 0x01) (octets data (p + 5) b) := by
  constructor
  · rintro (h | h)
    · exact (isPolygon_iff.mp h).2
    · have := (isMultiPolygon_iff.mp h).1
      omega
  · intro h
    exact .inl (isPolygon_iff.mpr ⟨htype, h⟩)

theorem isGeometry_multiPolygon (htype : typeAt data p = 6) :
    IsGeometry (octets data p m) ↔ ∃ b, m = 9 + b ∧
      Items IsPolygon (number (data p == 0x01) (octets data (p + 5) 4)) (octets data (p + 9) b) := by
  constructor
  · rintro (h | h)
    · have := (isPolygon_iff.mp h).1
      omega
    · exact (isMultiPolygon_iff.mp h).2
  · intro h
    exact .inr (isMultiPolygon_iff.mpr ⟨htype, h⟩)

theorem header_of_isGeometry (h : IsGeometry (octets data p m)) :
    5 ≤ m ∧ (typeAt data p = 3 ∨ typeAt data p = 6) := by
  rcases h with h | h
  · obtain ⟨htype, b, rfl, -⟩ := isPolygon_iff.mp h
    exact ⟨by omega, .inl htype⟩
  · obtain ⟨htype, b, rfl, -⟩ := isMultiPolygon_iff.mp h
    exact ⟨by omega, .inr htype⟩

theorem ensures_parseWkb {base length : ℕ} (hlength : length < 2 ^ w) :
    Ensures (Access.Within base (base + length)) (Settles data IsGeometry base base (base + length))
      (parseWkb w data base length) := by
  unfold parseWkb
  refine Ensures.ite (fun h5 => Ensures.pure (Settles.failure (by omega) fun m hm hgeometry => ?_)) fun h5 => ?_
  · have := (header_of_isGeometry hgeometry).1
    omega
  refine (gives_readU8 permits_within le_rfl (by omega)).bind ?_
  refine (gives_readU32 permits_within _ (by omega) (by omega)).bind ?_
  refine Ensures.ite (fun h3 => ?_) fun h3 => Ensures.ite (fun h6 => ?_) fun h6 => ?_
  · have hstop : base + 5 + (length - 5) = base + length := by omega
    refine (gives_minus permits_within hlength (by omega)).bind ?_
    refine Ensures.bind (ensures_widen (ensures_parsePolygonBody (by omega) hstop) (by omega) le_rfl) ?_ ?_
    · rintro ⟨inner, polygon⟩ hinner
      have hpos := hinner.1
      exact Ensures.pure (Settles.step (fun m _ => isGeometry_polygon h3) (hinner.addOffset (sizeAdd_eq (by omega))))
    · intro e herror
      exact Settles.step (r := .error e) (fun m _ => isGeometry_polygon h3) herror
  · refine Ensures.ite (fun h9 => Ensures.pure (Settles.failure (by omega) fun m hm hgeometry => ?_)) fun h9 => ?_
    · obtain ⟨b, rfl, -⟩ := (isGeometry_multiPolygon h6).mp hgeometry
      omega
    refine (gives_readU32 permits_within _ (by omega) (by omega)).bind ?_
    refine (ensures_parsePolygons hlength (by omega)).mono (fun _ h => h) fun r hr => ?_
    exact Settles.step (n := 9) (fun m _ => isGeometry_multiPolygon h6) hr
  · refine Ensures.pure (Settles.failure (by omega) fun m _ hgeometry => ?_)
    rcases (header_of_isGeometry hgeometry).2 with htype | htype
    · exact h3 htype
    · exact h6 htype

/-! ### Entries -/

/-- Every octet that is read is one of the input, and one of its entry if it
is read for a geometry, and no difference wraps. -/
def Access.Inside (n : ℕ) : Access → Prop
  | .octet index none => index < n
  | .octet index (some (start, size)) => start ≤ index ∧ index < start + size ∧ start + size ≤ n
  | .difference length offset => offset ≤ length

def entryLength (data : ℕ → UInt8) (p : ℕ) : ℕ := 6 + number true (octets data (p + 2) 4)

theorem entries_iff (hm : 0 < m) :
    (∃ k, Items IsEntry k (octets data p m)) ↔ IsEntry (octets data p (entryLength data p)) ∧
      ∃ b, m = entryLength data p + b ∧ ∃ k, Items IsEntry k (octets data (p + entryLength data p) b) := by
  constructor
  · rintro ⟨k, hk⟩
    cases k with
    | zero =>
      rw [items_zero.mp hk] at hm
      exact absurd hm (lt_irrefl 0)
    | succ k =>
      obtain ⟨a, b, rfl, ha, hb⟩ := items_succ.mp hk
      obtain rfl : a = entryLength data p := (isEntry_iff.mp ha).1
      exact ⟨ha, b, rfl, k, hb⟩
  · rintro ⟨hentry, b, rfl, k, hrest⟩
    exact ⟨k + 1, items_succ.mpr ⟨_, b, rfl, hentry, hrest⟩⟩

/-- The octets from `offset` to `n` are told to consist of entries or not to. -/
def Tells {β : Type} (data : ℕ → UInt8) (n offset : ℕ) : Except Stop (CountryReaderResult × β) → Prop
  | .ok (res, _) => res.position ≤ n ∧ (res.ok = true ↔ ∃ k, Items IsEntry k (octets data offset (n - offset)))
  | .error e => e = .lengthError ∧ ¬ ∃ k, Items IsEntry k (octets data offset (n - offset))

theorem Tells.refuse (hres : res.ok = false) (hpos : res.position ≤ n)
    (h : ¬ ∃ k, Items IsEntry k (octets data offset (n - offset))) : Tells data n offset (.ok (res, a)) :=
  ⟨hpos, iff_of_false (by simp [hres]) h⟩

theorem Tells.step (hlt : offset < n) (hentry : IsEntry (octets data offset (entryLength data offset)))
    (hfits : offset + entryLength data offset ≤ n) (h : Tells data n (offset + entryLength data offset) r) :
    Tells data n offset r := by
  have hiff : (∃ k, Items IsEntry k (octets data offset (n - offset))) ↔
      ∃ k, Items IsEntry k (octets data (offset + entryLength data offset)
        (n - (offset + entryLength data offset))) := by
    rw [entries_iff (by omega)]
    constructor
    · rintro ⟨-, b, hb, hrest⟩
      rwa [show n - (offset + entryLength data offset) = b by omega]
    · intro hrest
      exact ⟨hentry, _, by omega, hrest⟩
  match r, h with
  | .ok (res, a), ⟨hpos, hok⟩ => exact ⟨hpos, hok.trans hiff.symm⟩
  | .error e, ⟨he, hnone⟩ => exact ⟨he, fun h => hnone (hiff.mp h)⟩

theorem permits_inside : Permits (Access.Inside n) 0 n where
  octet _ _ h := h
  difference _ _ h := h

theorem Access.Within.inEntry {n start size : ℕ} (hfits : start + size ≤ n) {e : Access}
    (h : e.Within start (start + size)) :
    (e.inEntry start size).Inside n := by
  match e, h with
  | .octet _ _, ⟨hlo, hhi⟩ => exact ⟨hlo, hhi, hfits⟩
  | .difference _ _, h => exact h

theorem ensures_readEntries (hn : n < 2 ^ w) :
    ∀ {fuel offset : ℕ} {given : List (ℕ × CountryPolygon)}, offset ≤ n → n - offset < 6 * fuel →
      Ensures (Access.Inside n) (Tells data n offset) (readEntries w data n fuel offset given)
  | 0, _, _, _, hfuel => absurd hfuel (Nat.not_lt_zero _)
  | fuel + 1, offset, given, h, hfuel => by
    unfold readEntries
    refine Ensures.ite (fun hlt => ?_) fun hlt => ?_
    swap
    · obtain rfl : offset = n := by omega
      exact Ensures.pure ⟨le_rfl, iff_of_true rfl ⟨0, items_zero.mpr (Nat.sub_self _)⟩⟩
    set size := number true (octets data (offset + 2) 4) with hsize
    have hentry_of : (∃ k, Items IsEntry k (octets data offset (n - offset))) →
        IsEntry (octets data offset (6 + size)) ∧ offset + (6 + size) ≤ n := by
      intro hentries
      obtain ⟨hentry, b, hb, -⟩ := (entries_iff (by omega)).mp hentries
      exact ⟨hentry, by unfold entryLength at hb; omega⟩
    have hshort : n < offset + (6 + size) → ¬ ∃ k, Items IsEntry k (octets data offset (n - offset)) :=
      fun hlt hentries => absurd (hentry_of hentries).2 (Nat.not_le_of_lt hlt)
    refine (gives_minus permits_inside hn h).bind ?_
    refine Ensures.ite (fun h6 => Ensures.pure (Tells.refuse rfl h (hshort (by omega)))) fun h6 => ?_
    have hadd2 : sizeAdd w offset 2 = offset + 2 := sizeAdd_eq (by omega)
    have hadd6 : sizeAdd w (offset + 2) 4 = offset + 6 := sizeAdd_eq (by omega)
    refine (gives_readU16le permits_inside (Nat.zero_le _) (by omega)).bind ?_
    simp only [hadd2, hadd6]
    refine (gives_readU32 permits_inside true (Nat.zero_le _) (by omega)).bind ?_
    refine (gives_minus permits_inside hn (by omega)).bind ?_
    rw [← hsize]
    refine Ensures.ite (fun hfits => Ensures.pure
      (Tells.refuse rfl (show offset + 6 ≤ n by omega) (hshort (by omega)))) fun hfits => ?_
    have hwkb : Ensures _ _ (parseWkb w data (offset + 6) size) := ensures_parseWkb (by omega)
    refine Ensures.bind (hwkb.relabel fun e he => Access.Within.inEntry (n := n) (by omega) he) ?_ ?_
    · rintro ⟨inner, polygon⟩ hinner
      have hpos := hinner.1
      refine Ensures.ite (fun hres => ?_) fun hres => ?_
      · obtain ⟨g, hg, hgeometry⟩ := hinner.2.1 hres
        have hadd : sizeAdd w (offset + 6) size = offset + (6 + size) := by
          rw [sizeAdd_eq (by omega)]
          omega
        rw [hadd]
        have hentry : IsEntry (octets data offset (6 + size)) := isEntry_iff.mpr ⟨rfl, g, by omega, hgeometry⟩
        exact (ensures_readEntries hn (by omega) (by omega)).mono (fun _ h => h) fun r hr =>
          Tells.step hlt hentry (show offset + (6 + size) ≤ n by omega) hr
      · have hadd : sizeAdd w inner.position (offset + 6) = inner.position + (offset + 6) := sizeAdd_eq (by omega)
        refine Ensures.pure (Tells.refuse (Bool.eq_false_iff.mpr hres) ?_ fun hentries => ?_)
        · show sizeAdd w inner.position (offset + 6) ≤ n
          omega
        · obtain ⟨-, g, hg, hgeometry⟩ := isEntry_iff.mp (hentry_of hentries).1
          exact hinner.not_of_failed (Bool.eq_false_iff.mpr hres) g (by omega) hgeometry
    · rintro e ⟨he, hnone⟩
      refine ⟨he, fun hentries => ?_⟩
      obtain ⟨-, g, hg, hgeometry⟩ := isEntry_iff.mp (hentry_of hentries).1
      exact hnone g (by omega) hgeometry

end Parsers

theorem number_version {a b : UInt8} : number true [a, b] = 1 ↔ [a, b] = [1, 0] := by
  have hnumber : number true [a, b] = b.toNat * 256 + a.toNat := by
    simp [number, ofBe, ofBeFrom]
  have ha := a.toNat_lt
  rw [hnumber]
  constructor
  · intro h
    obtain rfl : a = 1 := UInt8.toNat_inj.mp (show a.toNat = 1 by omega)
    obtain rfl : b = 0 := UInt8.toNat_inj.mp (show b.toNat = 0 by omega)
    rfl
  · rintro ⟨⟩
    rfl

theorem isCountryData_iff {data : ℕ → UInt8} {n : ℕ} :
    IsCountryData (octets data 0 n) ↔
      2 ≤ n ∧ number true (octets data 0 2) = 1 ∧ ∃ k, Items IsEntry k (octets data 2 (n - 2)) := by
  have hversion : number true (octets data 0 2) = 1 ↔ octets data 0 2 = [1, 0] := number_version
  rw [hversion]
  constructor
  · rintro ⟨k, entries, hentries, heq⟩
    obtain ⟨hhead, b, rfl, rfl⟩ := octets_eq_append.mp heq
    refine ⟨Nat.le_add_right _ _, hhead, k, ?_⟩
    have hb : ([1, 0] : ByteBuffer).length + b - 2 = b := Nat.add_sub_cancel_left 2 b
    rw [hb]
    exact hentries
  · rintro ⟨h2, hhead, k, hentries⟩
    exact ⟨k, _, hentries, octets_eq_append.mpr ⟨hhead, n - 2, show n = 2 + (n - 2) by omega, rfl⟩⟩

theorem ensures_readCountryData {w : ℕ} {data : ℕ → UInt8} {n : ℕ} (hn : n < 2 ^ w) :
    Ensures (Access.Inside n)
      (fun r => match r with
        | .ok (res, _) => res.position ≤ n ∧ (res.ok = true ↔ IsCountryData (octets data 0 n))
        | .error e => e = .lengthError ∧ ¬ IsCountryData (octets data 0 n))
      (readCountryData w data n) := by
  unfold readCountryData
  refine Ensures.ite (fun h2 => Ensures.pure ⟨Nat.zero_le _, iff_of_false Bool.false_ne_true fun h => ?_⟩) fun h2 => ?_
  · have := (isCountryData_iff.mp h).1
    omega
  refine (gives_readU16le permits_inside le_rfl (by omega)).bind ?_
  refine Ensures.ite (fun hversion => Ensures.pure ⟨Nat.zero_le _,
    iff_of_false Bool.false_ne_true fun h => hversion (isCountryData_iff.mp h).2.1⟩) fun hversion => ?_
  have hdata : IsCountryData (octets data 0 n) ↔ ∃ k, Items IsEntry k (octets data 2 (n - 2)) := by
    rw [isCountryData_iff]
    exact ⟨fun h => h.2.2, fun h => ⟨by omega, not_not.mp hversion, h⟩⟩
  refine (ensures_readEntries hn (by omega) (by omega)).mono (fun _ h => h) fun r hr => ?_
  rw [hdata]
  match r, hr with
  | .ok (res, given), hr => exact hr
  | .error e, hr => exact hr

/-- **Reading country data**, whatever the width of sizes and whatever lies behind the input: the
reader stays inside of it, no difference wraps, and it succeeds exactly if the input is country
data. -/
theorem country_data_read (w : ℕ) (data : ℕ → UInt8) (n : ℕ) (hn : n < 2 ^ w) :
    (∀ e ∈ (readCountryData w data n).log, e.Inside n) ∧
    (∀ e ∈ (parseWkb w data 0 n).log, e.Within 0 n) ∧
    (∀ res given, (readCountryData w data n).outcome = .ok (res, given) → res.position ≤ n) ∧
    (∀ res polygon, (parseWkb w data 0 n).outcome = .ok (res, polygon) → res.position ≤ n) ∧
    ((∃ res given, (readCountryData w data n).outcome = .ok (res, given) ∧ res.ok = true) ↔
      IsCountryData (octets data 0 n)) ∧
    (readCountryData w data n).outcome ≠ .error .running := by
  have hreader : Ensures _ _ (readCountryData w data n) := ensures_readCountryData hn
  have hparser : Ensures _ _ (parseWkb w data 0 n) := ensures_parseWkb hn
  rw [Nat.zero_add] at hparser
  obtain ⟨hinside, hread⟩ := hreader
  obtain ⟨hwithin, hwkb⟩ := hparser
  refine ⟨hinside, hwithin, fun res given heq => ?_, fun res polygon heq => ?_, ?_, fun heq => ?_⟩
  · rw [heq] at hread
    exact hread.1
  · rw [heq] at hwkb
    exact (Nat.zero_add _).symm.trans_le hwkb.1
  · constructor
    · rintro ⟨res, given, heq, hok⟩
      rw [heq] at hread
      exact hread.2.mp hok
    · intro hdata
      cases heq : (readCountryData w data n).outcome with
      | ok r =>
        rw [heq] at hread
        exact ⟨r.1, r.2, rfl, hread.2.mpr hdata⟩
      | error e =>
        rw [heq] at hread
        exact absurd hdata hread.2
  · rw [heq] at hread
    cases hread.1

/-- An entry with a polygon of one ring of one point. -/
def sampleData : ByteBuffer :=
  [1, 0, 20, 1, 29, 0, 0, 0, 1, 3, 0, 0, 0, 1, 0, 0, 0, 1, 0, 0, 0] ++ List.replicate 16 7

theorem country_data_read_sample :
    sampleData.length < 2 ^ 32 ∧ IsCountryData (octets (fun i => sampleData.getD i 0) 0 sampleData.length) := by
  have hn : sampleData.length < 2 ^ 32 := by decide
  have hread := (country_data_read 32 (fun i => sampleData.getD i 0) sampleData.length hn).2.2.2.2.1
  exact ⟨hn, hread.mp ⟨succeeded 37, [(276, [⟨[⟨0x0707070707070707, 0x0707070707070707⟩], []⟩])], by rfl, rfl⟩⟩

/-- A ring of `2 ^ 28` points, the octets of which wrap to none. -/
example : (readCountryData 32
    (fun i => ([1, 0, 20, 1, 13, 0, 0, 0, 1, 3, 0, 0, 0, 1, 0, 0, 0, 0, 0, 0, 16] : ByteBuffer).getD i 0) 21).outcome =
      .error .lengthError := by
  rfl

end VanetzaIdf.Geodesy
