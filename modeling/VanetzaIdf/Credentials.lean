/-
# Credentials

The octets in which a station keeps certificates and keys,
`ports/esp_idf/src/credentials.cpp`: a magic number, then records of a type, a
length of two octets and a payload.

The decoder accepts exactly the octets of a list of items (`decode_iff`). The
encoder does not look at lengths: one of 65536 octets or more is written modulo
65536, and the rest of the payload is read as further records.
-/
import VanetzaIdf.CertificatePool

namespace VanetzaIdf

open List

structure Credentials.Ticket where
  certificate : ByteBuffer
  key : PrivateKey
deriving DecidableEq, Repr

structure Credentials where
  roots : List ByteBuffer := []
  authorities : List ByteBuffer := []
  tickets : List Credentials.Ticket := []
deriving DecidableEq, Repr

namespace Credentials

/-- The characters VCR1. -/
def magic : ByteBuffer := [0x56, 0x43, 0x52, 0x31]

/-- `Record`, as it is read from a bundle. -/
abbrev Record := UInt8

namespace Record
@[match_pattern] def root : Record := 1
@[match_pattern] def authority : Record := 2
@[match_pattern] def ticket : Record := 3
@[match_pattern] def ticketKey : Record := 4
end Record

def curveCode : KeyType → UInt8
  | .nistP256 => 1
  | .brainpoolP256r1 => 2
  | .brainpoolP384r1 => 3
  | .unspecified => 0

def curveType (code : UInt8) : KeyType :=
  if code = 1 then .nistP256 else if code = 2 then .brainpoolP256r1
  else if code = 3 then .brainpoolP384r1 else .unspecified

/-- `put`: the length is cut to its two low octets. -/
def put (type : Record) (payload : ByteBuffer) : ByteBuffer :=
  type :: UInt8.ofNat (payload.length >>> 8) :: UInt8.ofNat payload.length :: payload

def Ticket.encode (t : Ticket) : ByteBuffer :=
  put Record.ticket t.certificate ++ put Record.ticketKey (curveCode t.key.type :: t.key.key)

def encode (c : Credentials) : ByteBuffer :=
  magic ++ (c.roots.flatMap (put Record.root) ++
    (c.authorities.flatMap (put Record.authority) ++ c.tickets.flatMap Ticket.encode))

/-- `tickets.back().key = key`. -/
def setLastKey (key : PrivateKey) : List Ticket → List Ticket
  | [] => []
  | [t] => [{ t with key := key }]
  | t :: t' :: ts => t :: setLastKey key (t' :: ts)

/-- The switch over the type of a record; `keyPending` says that a ticket
waits for its key. -/
def acceptRecord (parsed : Credentials) (keyPending : Bool) (type : Record) (payload : ByteBuffer) :
    Option (Credentials × Bool) :=
  if keyPending ∧ type ≠ Record.ticketKey then none
  else if type = Record.root then some ({ parsed with roots := parsed.roots ++ [payload] }, keyPending)
  else if type = Record.authority then some ({ parsed with authorities := parsed.authorities ++ [payload] }, keyPending)
  else if type = Record.ticket then
    some ({ parsed with tickets := parsed.tickets ++ [⟨payload, ⟨.unspecified, []⟩⟩] }, true)
  else if type = Record.ticketKey then
    if !keyPending then none
    else
      let curve := curveType (payload.headD 0)
      if curve = .unspecified ∨ payload.length - 1 ≠ curve.keyLength then none
      else some ({ parsed with tickets := setLastKey ⟨curve, payload.tail⟩ parsed.tickets }, false)
  else none

/-- The loop of `decode` over what is left of the bundle. -/
def decodeRecords (parsed : Credentials) (keyPending : Bool) : ByteBuffer → Option Credentials
  | [] => if keyPending then none else some parsed
  | type :: hi :: lo :: rest =>
    let length := (hi.toNat <<< 8) ||| lo.toNat
    if rest.length < length ∨ length = 0 then none
    else
      match acceptRecord parsed keyPending type (rest.take length) with
      | none => none
      | some (parsed, keyPending) => decodeRecords parsed keyPending (rest.drop length)
  | _ => none
termination_by bundle => bundle.length
decreasing_by
  simp only [length_drop, length_cons]
  omega

/-- `decode`: whether the bundle is accepted, and the output argument. -/
def decode (bundle : ByteBuffer) (out : Credentials) : Bool × Credentials :=
  if bundle.length < magic.length ∨ bundle.take magic.length ≠ magic then (false, out)
  else
    match decodeRecords {} false (bundle.drop magic.length) with
    | some parsed => (true, parsed)
    | none => (false, out)

/-! ### Records -/

theorem curveType_curveCode (type : KeyType) : curveType (curveCode type) = type := by
  cases type <;> rfl

theorem curveCode_curveType {code : UInt8} (h : curveType code ≠ .unspecified) : curveCode (curveType code) = code := by
  unfold curveType at h ⊢
  split_ifs at h ⊢ with h1 h2 h3
  · exact h1.symm
  · exact h2.symm
  · exact h3.symm
  · exact absurd rfl h

theorem setLastKey_append (key : PrivateKey) (t : Ticket) :
    ∀ ts : List Ticket, setLastKey key (ts ++ [t]) = ts ++ [{ t with key := key }]
  | [] => rfl
  | [_] => rfl
  | t' :: t'' :: ts => congrArg (t' :: ·) (setLastKey_append key t (t'' :: ts))

variable {n : ℕ} {parsed c out : Credentials} {keyPending : Bool} {type : Record} {payload b : ByteBuffer}
  {t : Ticket} {item : Item} {is : List Item}

theorem length_octets (h : n < 65536) : ((UInt8.ofNat (n >>> 8)).toNat <<< 8) ||| (UInt8.ofNat n).toNat = n := by
  have hhi : (UInt8.ofNat (n >>> 8)).toNat = n / 256 := by
    rw [UInt8.toNat_ofNat', Nat.shiftRight_eq_div_pow]
    omega
  have hlo : (UInt8.ofNat n).toNat = n % 256 := by
    rw [UInt8.toNat_ofNat']
  rw [hhi, hlo, ← Nat.shiftLeft_add_eq_or_of_lt (by omega), Nat.shiftLeft_eq]
  omega

theorem octets_length {hi lo : UInt8} (h : n = (hi.toNat <<< 8) ||| lo.toNat) :
    n < 65536 ∧ UInt8.ofNat (n >>> 8) = hi ∧ UInt8.ofNat n = lo := by
  have hhi := hi.toNat_lt
  have hlo := lo.toNat_lt
  rw [← Nat.shiftLeft_add_eq_or_of_lt (by omega), Nat.shiftLeft_eq] at h
  refine ⟨by omega, UInt8.toNat_inj.mp ?_, UInt8.toNat_inj.mp ?_⟩
  · rw [UInt8.toNat_ofNat', Nat.shiftRight_eq_div_pow]
    omega
  · rw [UInt8.toNat_ofNat']
    omega

/-- A payload that a record can have. -/
def Storable (payload : ByteBuffer) : Prop := 0 < payload.length ∧ payload.length < 65536

theorem decodeRecords_put (h : Storable payload) (rest : ByteBuffer) :
    decodeRecords parsed keyPending (put type payload ++ rest) =
      (acceptRecord parsed keyPending type payload).bind fun r => decodeRecords r.1 r.2 rest := by
  have hlen := length_octets h.2
  simp only [put, cons_append]
  rw [decodeRecords]
  simp only [hlen, take_left, drop_left, length_append]
  rw [if_neg (by have := h.1; omega)]
  cases acceptRecord parsed keyPending type payload <;> rfl

theorem decodeRecords_put_nil (rest : ByteBuffer) : decodeRecords parsed keyPending (put type [] ++ rest) = none := by
  simp only [put, cons_append, nil_append, length_nil]
  rw [decodeRecords]
  simp

theorem decodeRecords_eq_some (h : decodeRecords parsed keyPending b = some c) :
    (b = [] ∧ keyPending = false ∧ c = parsed) ∨
    ∃ type payload rest r, Storable payload ∧ b = put type payload ++ rest ∧
      acceptRecord parsed keyPending type payload = some r ∧ decodeRecords r.1 r.2 rest = some c := by
  match b with
  | [] =>
    rw [decodeRecords] at h
    cases keyPending with
    | true => cases h
    | false => exact .inl ⟨rfl, rfl, (Option.some.inj h).symm⟩
  | [_] | [_, _] =>
    rw [decodeRecords] at h
    · cases h
    all_goals simp
  | type :: hi :: lo :: rest =>
    rw [decodeRecords] at h
    set n := (hi.toNat <<< 8) ||| lo.toNat with hn
    split_ifs at h with hshort
    obtain ⟨hlt, hhi, hlo⟩ := octets_length hn
    have hlen : (rest.take n).length = n := length_take_of_le (by omega)
    refine .inr ⟨type, rest.take n, rest.drop n, ?_⟩
    cases hr : acceptRecord parsed keyPending type (rest.take n) with
    | none =>
      rw [hr] at h
      cases h
    | some r =>
      rw [hr] at h
      refine ⟨r, ⟨by omega, by omega⟩, ?_, rfl, h⟩
      rw [put, hlen, hhi, hlo, cons_append, cons_append, cons_append, take_append_drop]

/-! ### Items -/

/-- What the records of a bundle say. -/
inductive Item
  | root (certificate : ByteBuffer)
  | authority (certificate : ByteBuffer)
  | ticket (t : Ticket)
deriving DecidableEq, Repr

namespace Item

def octets : Item → ByteBuffer
  | root certificate => put Record.root certificate
  | authority certificate => put Record.authority certificate
  | ticket t => t.encode

/-- Records can have the payloads, and the key fits its curve. -/
def Valid : Item → Prop
  | root certificate => Storable certificate
  | authority certificate => Storable certificate
  | ticket t => Storable t.certificate ∧ t.key.type ≠ .unspecified ∧ t.key.key.length = t.key.type.keyLength

end Item

def add (c : Credentials) : Item → Credentials
  | .root certificate => { c with roots := c.roots ++ [certificate] }
  | .authority certificate => { c with authorities := c.authorities ++ [certificate] }
  | .ticket t => { c with tickets := c.tickets ++ [t] }

theorem storable_key (h : (Item.ticket t).Valid) : Storable (curveCode t.key.type :: t.key.key) := by
  obtain ⟨-, -, hlen⟩ := h
  unfold Storable
  rw [length_cons, hlen]
  cases t.key.type <;> simp [KeyType.keyLength]

theorem acceptRecord_ticketKey (parsed : Credentials) (payload : ByteBuffer) :
    acceptRecord parsed true Record.ticketKey payload =
      if curveType (payload.headD 0) = .unspecified ∨ payload.length - 1 ≠ (curveType (payload.headD 0)).keyLength then
        none
      else some ({ parsed with tickets := setLastKey ⟨curveType (payload.headD 0), payload.tail⟩ parsed.tickets },
        false) :=
  rfl

theorem acceptRecord_pending (h : type ≠ Record.ticketKey) : acceptRecord parsed true type payload = none :=
  if_pos ⟨rfl, h⟩

theorem acceptRecord_key (htype : t.key.type ≠ .unspecified) (hlen : t.key.key.length = t.key.type.keyLength) :
    acceptRecord { parsed with tickets := parsed.tickets ++ [⟨t.certificate, ⟨.unspecified, []⟩⟩] }
      true Record.ticketKey
      (curveCode t.key.type :: t.key.key) = some (parsed.add (.ticket t), false) := by
  rw [acceptRecord_ticketKey, headD_cons, tail_cons, curveType_curveCode, length_cons, Nat.add_sub_cancel,
    if_neg (not_or.mpr ⟨htype, not_not_intro hlen⟩), setLastKey_append]
  rfl

theorem decodeRecords_octets (h : item.Valid) (rest : ByteBuffer) :
    decodeRecords parsed false (item.octets ++ rest) = decodeRecords (parsed.add item) false rest := by
  cases item with
  | root | authority => exact decodeRecords_put h rest
  | ticket t =>
    show decodeRecords parsed false (t.encode ++ rest) = _
    rw [Ticket.encode, append_assoc, decodeRecords_put h.1]
    show decodeRecords _ true _ = _
    rw [decodeRecords_put (storable_key h), acceptRecord_key h.2.1 h.2.2]
    rfl

theorem decodeRecords_flatMap {items : List Item} (h : ∀ item ∈ items, item.Valid) (parsed : Credentials) :
    decodeRecords parsed false (items.flatMap Item.octets) = some (items.foldl add parsed) := by
  induction items generalizing parsed with
  | nil =>
    rw [flatMap_nil, decodeRecords]
    rfl
  | cons item items ih =>
    rw [flatMap_cons, decodeRecords_octets (h item mem_cons_self)]
    exact ih (fun i hi => h i (mem_cons_of_mem _ hi)) _

theorem decodeRecords_pending {certificate b : ByteBuffer} (hcertificate : Storable certificate)
    (h : decodeRecords { parsed with tickets := parsed.tickets ++ [⟨certificate, ⟨.unspecified, []⟩⟩] } true b =
      some c) :
    ∃ t rest, (Item.ticket t).Valid ∧ t.certificate = certificate ∧
      b = put Record.ticketKey (curveCode t.key.type :: t.key.key) ++ rest ∧
      decodeRecords (parsed.add (.ticket t)) false rest = some c := by
  rcases decodeRecords_eq_some h with ⟨-, hpending, -⟩ | ⟨type, payload, rest, r, hpayload, rfl, hr, hrest⟩
  · cases hpending
  · by_cases htype : type = Record.ticketKey
    · obtain ⟨code, key, rfl⟩ := exists_cons_of_length_pos hpayload.1
      rw [htype, acceptRecord_ticketKey, setLastKey_append, headD_cons, length_cons, Nat.add_sub_cancel] at hr
      split_ifs at hr with hcurve
      obtain ⟨hknown, hlen⟩ := not_or.mp hcurve
      rw [not_not] at hlen
      obtain rfl := Option.some.inj hr
      refine ⟨⟨certificate, ⟨curveType code, key⟩⟩, rest, ⟨hcertificate, hknown, hlen⟩, rfl, ?_, hrest⟩
      rw [htype, curveCode_curveType hknown]
    · rw [acceptRecord_pending htype] at hr
      cases hr

theorem items_of_decodeRecords (h : decodeRecords parsed false b = some c) :
    ∃ items : List Item, (∀ item ∈ items, item.Valid) ∧ b = items.flatMap Item.octets ∧ c = items.foldl add parsed := by
  induction hn : b.length using Nat.strong_induction_on generalizing b parsed with
  | _ n ih =>
    -- one item more in front of the items that follow
    have hcons : ∀ (item : Item) (rest : ByteBuffer), item.Valid → b = item.octets ++ rest →
        decodeRecords (parsed.add item) false rest = some c → rest.length < n →
        ∃ items : List Item, (∀ item ∈ items, item.Valid) ∧ b = items.flatMap Item.octets ∧ c =
          items.foldl add parsed := by
      intro item rest hitem hb hrest hlt
      obtain ⟨items, hitems, hflat, hc⟩ := ih rest.length hlt hrest rfl
      refine ⟨item :: items, ?_, ?_, hc⟩
      · rintro i (_ | ⟨_, hi⟩)
        · exact hitem
        · exact hitems i hi
      · rw [hb, hflat, flatMap_cons]
    rcases decodeRecords_eq_some h with ⟨rfl, -, rfl⟩ | ⟨type, payload, rest, r, hpayload, hb, hr, hrest⟩
    · exact ⟨[], fun _ hi => absurd hi not_mem_nil, rfl, rfl⟩
    · have hlen : rest.length < n := by
        rw [← hn, hb, put, length_append, length_cons]
        omega
      unfold acceptRecord at hr
      simp only [Bool.false_eq_true, false_and, if_false, Bool.not_false, if_true] at hr
      split_ifs at hr with hroot hauthority hticket
      · obtain rfl := Option.some.inj hr
        exact hcons (.root payload) rest hpayload (by rw [hb, hroot]; rfl) hrest hlen
      · obtain rfl := Option.some.inj hr
        exact hcons (.authority payload) rest hpayload (by rw [hb, hauthority]; rfl) hrest hlen
      · obtain rfl := Option.some.inj hr
        obtain ⟨t, rest', ht, rfl, hrest', hdecoded⟩ := decodeRecords_pending hpayload hrest
        refine hcons (.ticket t) rest' ht ?_ hdecoded ?_
        · show b = t.encode ++ rest'
          rw [hb, hrest', hticket, Ticket.encode, append_assoc]
        · rw [hrest', length_append] at hlen
          omega

/-- A bundle: the magic number and the octets of valid items. -/
def IsBundle (b : ByteBuffer) (items : List Item) : Prop :=
  (∀ item ∈ items, item.Valid) ∧ b = magic ++ items.flatMap Item.octets

/-- **Decoding.** Exactly the octets of valid items are accepted, and give
the credentials made of these. -/
theorem decode_iff : decode b out = (true, c) ↔ ∃ items, IsBundle b items ∧ c = items.foldl add {} := by
  unfold decode
  constructor
  · intro h
    split_ifs at h with hmagic
    · cases h
    · have hhead : b.take magic.length = magic := by
        by_contra hne
        exact hmagic (.inr hne)
      cases hparsed : decodeRecords {} false (b.drop magic.length) with
      | none =>
        rw [hparsed] at h
        cases h
      | some parsed =>
        rw [hparsed] at h
        obtain rfl : parsed = c := (Prod.mk.inj h).2
        obtain ⟨items, hvalid, hflat, hc⟩ := items_of_decodeRecords hparsed
        refine ⟨items, ⟨hvalid, ?_⟩, hc⟩
        rw [← hflat, ← hhead, hhead, ← take_append_drop magic.length b, hhead]
        simp
  · rintro ⟨items, ⟨hvalid, rfl⟩, rfl⟩
    rw [if_neg (by simp), drop_left, decodeRecords_flatMap hvalid]

theorem decode_eq_false (h : (decode b out).1 = false) : decode b out = (false, out) := by
  unfold decode at h ⊢
  split_ifs at h ⊢ with hmagic
  · rfl
  · cases hparsed : decodeRecords {} false (b.drop magic.length) with
    | none => rfl
    | some parsed =>
      rw [hparsed] at h
      cases h

/-! ### Round trips -/

def items (c : Credentials) : List Item := c.roots.map .root ++ (c.authorities.map .authority ++ c.tickets.map .ticket)

theorem encode_eq (c : Credentials) : c.encode = magic ++ c.items.flatMap Item.octets := by
  simp only [encode, items, flatMap_append, flatMap_map]
  rfl

theorem foldl_add_root (certificates : List ByteBuffer) (c : Credentials) :
    (certificates.map Item.root).foldl add c = { c with roots := c.roots ++ certificates } := by
  induction certificates generalizing c with
  | nil => simp
  | cons certificate certificates ih => simp [ih, add]

theorem foldl_add_authority (certificates : List ByteBuffer) (c : Credentials) :
    (certificates.map Item.authority).foldl add c = { c with authorities := c.authorities ++ certificates } := by
  induction certificates generalizing c with
  | nil => simp
  | cons certificate certificates ih => simp [ih, add]

theorem foldl_add_ticket (tickets : List Ticket) (c : Credentials) :
    (tickets.map Item.ticket).foldl add c = { c with tickets := c.tickets ++ tickets } := by
  induction tickets generalizing c with
  | nil => simp
  | cons t tickets ih => simp [ih, add]

theorem foldl_items (c : Credentials) : c.items.foldl add {} = c := by
  rw [items, foldl_append, foldl_append, foldl_add_root, foldl_add_authority, foldl_add_ticket]
  simp

/-- Payloads of 1 to 65535 octets, and keys of a known curve and its length. -/
def WellFormed (c : Credentials) : Prop := ∀ item ∈ c.items, item.Valid

theorem mem_items_add {item item' : Item} : item' ∈ (c.add item).items ↔ item' ∈ c.items ∨ item' = item := by
  cases item <;> simp [add, items] <;> grind

theorem wellFormed_foldl (h : ∀ item ∈ is, item.Valid) (hc : c.WellFormed) : (is.foldl add c).WellFormed := by
  induction is generalizing c with
  | nil => exact hc
  | cons item is ih =>
    refine ih (fun i hi => h i (mem_cons_of_mem _ hi)) fun i hi => ?_
    rcases mem_items_add.mp hi with hi | rfl
    · exact hc i hi
    · exact h _ mem_cons_self

theorem wellFormed_of_decode (h : decode b out = (true, c)) : c.WellFormed := by
  obtain ⟨is, ⟨hvalid, -⟩, rfl⟩ := decode_iff.mp h
  exact wellFormed_foldl hvalid fun _ hi => absurd hi not_mem_nil

theorem decode_encode (h : c.WellFormed) (out : Credentials) : decode c.encode out = (true, c) :=
  decode_iff.mpr ⟨c.items, ⟨h, c.encode_eq⟩, c.foldl_items.symm⟩

/-- **Normal form.** What is accepted is accepted again when it is written, with the same result;
a bundle that is refused leaves the output as it is. -/
theorem bundle_normal_form (out : Credentials) :
    (∀ c : Credentials, c.WellFormed → decode c.encode out = (true, c)) ∧
    (∀ b c, decode b out = (true, c) → decode c.encode out = (true, c)) ∧
    (∀ b, (decode b out).1 = false → (decode b out).2 = out) := by
  refine ⟨fun c h => decode_encode h out, fun b c h => ?_, fun b h => ?_⟩
  · exact decode_encode (wellFormed_of_decode h) out
  · rw [decode_eq_false h]

/-- An authority before a root, and a ticket between them. -/
def sampleBundle : ByteBuffer :=
  magic ++ ([2, 0, 1, 9, 3, 0, 2, 7, 7, 4, 0, 33, 2] ++ List.replicate 32 5 ++ [1, 0, 1, 8])

theorem bundle_normal_form_interleaved :
    ∃ c : Credentials, decode sampleBundle {} = (true, c) ∧ c.encode ≠ sampleBundle ∧ decode c.encode {} =
      (true, c) := by
  have hbundle : IsBundle sampleBundle
      [.authority [9], .ticket ⟨[7, 7], ⟨.brainpoolP256r1, List.replicate 32 5⟩⟩, .root [8]] := by
    refine ⟨?_, by decide⟩
    simp [Item.Valid, Storable, KeyType.keyLength]
  have hdecoded : decode sampleBundle {} = (true, _) := decode_iff.mpr ⟨_, hbundle, rfl⟩
  exact ⟨_, hdecoded, by decide, (bundle_normal_form {}).2.1 _ _ hdecoded⟩

/-! ### Lengths that do not fit -/

/-- The length of a record can say the lengths of the payloads. -/
def Item.Fits : Item → Prop
  | .root certificate => certificate.length < 65536
  | .authority certificate => certificate.length < 65536
  | .ticket t => t.certificate.length < 65536 ∧ t.key.key.length + 1 < 65536

/-- Every item has a length that its field can hold. -/
def Fits (c : Credentials) : Prop := ∀ item ∈ c.items, item.Fits

theorem Item.Valid.fits (h : item.Valid) : item.Fits := by
  cases item with
  | root | authority => exact h.2
  | ticket t => exact ⟨h.1.2, (storable_key h).2⟩

theorem decodeRecords_invalid (hfits : item.Fits) (h : ¬ item.Valid) (rest : ByteBuffer) :
    decodeRecords parsed false (item.octets ++ rest) = none := by
  have hnil : ∀ {p : ByteBuffer}, p.length < 65536 → ¬ Storable p → p = [] := by
    intro p hlt hp
    by_contra hne
    exact hp ⟨length_pos_of_ne_nil hne, hlt⟩
  cases item with
  | root | authority =>
    obtain rfl := hnil hfits h
    exact decodeRecords_put_nil rest
  | ticket t =>
    show decodeRecords parsed false (t.encode ++ rest) = none
    rw [Ticket.encode, append_assoc]
    by_cases hcertificate : Storable t.certificate
    · rw [decodeRecords_put hcertificate]
      show decodeRecords _ true _ = none
      have hpayload : Storable (curveCode t.key.type :: t.key.key) := ⟨Nat.succ_pos _, hfits.2⟩
      rw [decodeRecords_put hpayload, acceptRecord_ticketKey, headD_cons, curveType_curveCode,
        length_cons, Nat.add_sub_cancel]
      have hkey : t.key.type = .unspecified ∨ t.key.key.length ≠ t.key.type.keyLength := by
        by_contra hne
        obtain ⟨htype, hlen⟩ := not_or.mp hne
        exact h ⟨hcertificate, htype, not_not.mp hlen⟩
      rw [if_pos hkey]
      rfl
    · rw [hnil hfits.1 hcertificate]
      exact decodeRecords_put_nil _

theorem decodeRecords_fits (h : ∀ item ∈ is, item.Fits) (parsed : Credentials) :
    decodeRecords parsed false (is.flatMap Item.octets) = none ∨
      decodeRecords parsed false (is.flatMap Item.octets) = some (is.foldl add parsed) := by
  induction is generalizing parsed with
  | nil =>
    right
    rw [flatMap_nil, decodeRecords]
    rfl
  | cons item is ih =>
    rw [flatMap_cons]
    by_cases hvalid : item.Valid
    · rw [decodeRecords_octets hvalid]
      exact ih (fun i hi => h i (mem_cons_of_mem _ hi)) _
    · exact .inl (decodeRecords_invalid (h item mem_cons_self) hvalid _)

/-- **Storing.** What is stored is refused or read back as it was, exactly if
all lengths fit, or the octets that are written are no bundle of any items. The
second is no matter of single payloads: what a payload that does not fit leaves
over is read as records, the last of which may take in those that follow. -/
theorem stored_unchanged (c out : Credentials) :
    (decode c.encode out = (false, out) ∨ decode c.encode out = (true, c)) ↔
      c.Fits ∨ ¬ ∃ is, IsBundle c.encode is := by
  constructor
  · intro h
    by_contra hne
    obtain ⟨hfits, hbundle⟩ := not_or.mp hne
    obtain ⟨is, his⟩ := not_not.mp hbundle
    have hdecoded : decode c.encode out = (true, is.foldl add {}) := decode_iff.mpr ⟨is, his, rfl⟩
    rcases h with h | h
    · rw [h] at hdecoded
      cases hdecoded
    · exact hfits fun item hitem => (wellFormed_of_decode h item hitem).fits
  · rintro (hfits | hbundle)
    · -- the lengths fit
      rcases decodeRecords_fits hfits {} with h | h
      · left
        unfold decode
        rw [encode_eq, if_neg (by simp), drop_left, h]
      · right
        unfold decode
        rw [encode_eq, if_neg (by simp), drop_left, h, foldl_items]
    · left
      apply decode_eq_false
      by_contra htrue
      rw [Bool.not_eq_false] at htrue
      obtain ⟨is, his, -⟩ := decode_iff.mp (Prod.ext htrue rfl : decode c.encode out = (true, _))
      exact hbundle ⟨is, his⟩

theorem put_reread (h : payload.length = 65533) :
    put Record.root (0 :: put Record.root payload) = put Record.root [0] ++ put Record.root payload := by
  have hlen : (0 :: put Record.root payload).length = 65537 := by
    simp only [put, length_cons, h]
  rw [put, hlen]
  rfl

/-- The root is read as one of a single octet and one of 65533. -/
theorem stored_changed :
    ¬ ∀ c out : Credentials, decode c.encode out = (false, out) ∨ decode c.encode out = (true, c) := by
  intro h
  obtain ⟨payload, hlen⟩ : ∃ payload : ByteBuffer, payload.length = 65533 := ⟨List.replicate 65533 0, length_replicate⟩
  let c : Credentials := { roots := [0 :: put Record.root payload] }
  have hbundle : IsBundle c.encode [.root [0], .root payload] := by
    refine ⟨?_, ?_⟩
    · simp [Item.Valid, Storable, hlen]
    · simp [c, encode, Item.octets, put_reread hlen]
  have hdecoded : decode c.encode {} = (true, { roots := [[0], payload] }) := decode_iff.mpr ⟨_, hbundle, rfl⟩
  rcases h c {} with h' | h'
  · rw [h'] at hdecoded
    cases hdecoded
  · rw [h'] at hdecoded
    have hroots := congrArg (fun r => r.2.roots.length) hdecoded
    simp [c] at hroots

end Credentials
end VanetzaIdf
