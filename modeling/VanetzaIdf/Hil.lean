/-
# Frames of the test transport

`ports/esp_idf/src/hil.cpp`. The decoder puts octet after octet into its buffer,
drops an octet that begins no frame, and takes a complete frame off. The verdict
about the front looks only at octets that are there (`inspect_steady`), so the
decoder is a scanner of the whole stream. A frame taken is an encoding
(`encode_of_frame`), and an encoding is never skipped (`inspect_encode`),
whatever the checksum is.
-/
import Mathlib.Data.List.GetD
import VanetzaIdf.Basic
import VanetzaIdf.Lib.BigEndian
import VanetzaIdf.Lib.Scanner

namespace VanetzaIdf.Hil

open List

/-- `Frame`. The enumeration of channels, 1 to 3, is made of any octet by a cast. -/
structure Frame where
  channel : UInt8
  sequence : UInt32
  payload : ByteBuffer
deriving DecidableEq, Repr

/-- The characters VID1. -/
def magic : ByteBuffer := [0x56, 0x49, 0x44, 0x31]

/-- The source's loop over the bits of an octet, least significant first. -/
def crcOctet (crc : UInt32) (octet : UInt8) : UInt32 :=
  Nat.repeat (fun crc => (crc >>> 1) ^^^ (0xedb88320 &&& (0 - (crc &&& 1)))) 8 (crc ^^^ octet.toUInt32)

def crc32 (data : ByteBuffer) : UInt32 := ~~~(data.foldl crcOctet 0xffffffff)

example : crc32 [0x31, 0x32, 0x33, 0x34, 0x35, 0x36, 0x37, 0x38, 0x39] = 0xcbf43926 := by decide +kernel

def append32 (n : UInt32) : ByteBuffer := Lib.beBytes 4 n.toNat

def read32 (p : ByteBuffer) : UInt32 := UInt32.ofNat (Lib.ofBe (p.take 4))

@[simp] theorem length_append32 (n : UInt32) : (append32 n).length = 4 := Lib.length_beBytes 4 _

theorem read32_append32 (n : UInt32) (m : ByteBuffer) : read32 (append32 n ++ m) = n := by
  rw [read32, take_left' (length_append32 n), append32, Lib.ofBe_beBytes n.toNat_lt, UInt32.ofNat_toNat]

theorem append32_read32 {p : ByteBuffer} (h : 4 ≤ p.length) : append32 (read32 p) = p.take 4 := by
  have hlen : (p.take 4).length = 4 := length_take_of_le h
  have hlt := Lib.ofBe_lt (p.take 4)
  rw [hlen] at hlt
  rw [append32, read32, UInt32.toNat_ofNat_of_lt' hlt]
  calc Lib.beBytes 4 (Lib.ofBe (p.take 4)) = Lib.beBytes (p.take 4).length (Lib.ofBe (p.take 4)) := by rw [hlen]
    _ = p.take 4 := Lib.beBytes_ofBe _

section Checksum

/-! ### Encoder and decoder

`crc` is the checksum, `crc32` in the source. -/

variable (crc : ByteBuffer → UInt32)

/-- What the checksum is about. -/
def Frame.body (f : Frame) : ByteBuffer :=
  magic ++ f.channel :: (append32 f.sequence ++ (Lib.beBytes 2 f.payload.length ++ f.payload))

/-- `none` is the exception. -/
def encode (f : Frame) (maximum : ℕ) : Option ByteBuffer :=
  if maximum > 65535 ∨ f.payload.length = 0 ∨ f.payload.length > maximum ∨ f.channel < 1 ∨ f.channel > 3 then none
  else some (f.body ++ append32 (crc f.body))

/-- The bounds are what the constructor checks. -/
structure Decoder where
  maximum : ℕ
  maximum_pos : 0 < maximum
  maximum_le : maximum ≤ 65535
  buffer : ByteBuffer := []

/-- One round of the loop of `Decoder::process`. -/
def inspect (maximum : ℕ) (buffer : ByteBuffer) : Lib.Verdict Frame :=
  if buffer.length < 4 then .wait
  else if buffer.take 4 ≠ magic then .skip
  else if buffer.length < 11 then .wait
  else
    let size := Lib.ofBe ((buffer.drop 9).take 2)
    if buffer.getD 4 0 < 1 ∨ buffer.getD 4 0 > 3 ∨ size = 0 ∨ size > maximum then .skip
    else if buffer.length < size + 15 then .wait
    else if crc (buffer.take (size + 11)) ≠ read32 (buffer.drop (size + 11)) then .skip
    else .frame ⟨buffer.getD 4 0, read32 (buffer.drop 5), (buffer.drop 11).take size⟩ (size + 14)

namespace Decoder

/-- `Decoder::feed`: an octet is pushed and the buffer processed, for each one
in turn. The frames are those the handler is called with. -/
def feed (d : Decoder) (p : ByteBuffer) : List Frame × Decoder :=
  let r := Lib.feed (inspect crc d.maximum) d.buffer p
  (Lib.frames r.1, { d with buffer := r.2 })

/-- Calls of `feed`, one after the other. -/
def feedAll (d : Decoder) : List ByteBuffer → List Frame × Decoder
  | [] => ([], d)
  | p :: ps =>
    let r := d.feed crc p
    let r' := feedAll r.2 ps
    (r.1 ++ r'.1, r'.2)

end Decoder

/-! ### The verdict -/

variable {crc} {maximum : ℕ} {l bs : ByteBuffer} {f : Frame} {more : ℕ}

theorem slice_append (m : ByteBuffer) {i n : ℕ} (h : i + n ≤ l.length) :
    ((l ++ m).drop i).take n = (l.drop i).take n := by
  rw [drop_append_of_le_length (by omega), take_append_of_le_length (by rw [length_drop]; omega)]

theorem read32_append (m : ByteBuffer) {i : ℕ} (h : i + 4 ≤ l.length) :
    read32 ((l ++ m).drop i) = read32 (l.drop i) := by
  rw [read32, read32, slice_append m h]

theorem inspect_append (m : ByteBuffer) (h : inspect crc maximum l ≠ .wait) :
    inspect crc maximum (l ++ m) = inspect crc maximum l := by
  have hlen : l.length ≤ (l ++ m).length := by
    rw [length_append]
    omega
  unfold inspect at h ⊢
  by_cases h4 : l.length < 4
  · rw [if_pos h4] at h
    exact absurd rfl h
  rw [if_neg h4] at h
  rw [if_neg h4, if_neg (by omega), take_append_of_le_length (by omega)]
  by_cases hmagic : l.take 4 ≠ magic
  · rw [if_pos hmagic, if_pos hmagic]
  rw [if_neg hmagic] at h
  rw [if_neg hmagic, if_neg hmagic]
  split_ifs at h with h11
  · exact absurd rfl h
  rw [if_neg h11, if_neg (by omega), slice_append m (by omega), getD_append _ _ _ _ (by omega)]
  generalize Lib.ofBe ((l.drop 9).take 2) = size at h ⊢
  dsimp only at h ⊢
  by_cases hheader : l.getD 4 0 < 1 ∨ l.getD 4 0 > 3 ∨ size = 0 ∨ size > maximum
  · rw [if_pos hheader, if_pos hheader]
  rw [if_neg hheader] at h
  rw [if_neg hheader, if_neg hheader]
  by_cases htotal : l.length < size + 15
  · rw [if_pos htotal] at h
    exact absurd rfl h
  rw [if_neg htotal, if_neg (by omega), take_append_of_le_length (by omega), read32_append m (by omega),
    read32_append m (by omega), slice_append m (by omega)]

/-- A frame in front: the tests it passed, and where its parts are. -/
structure InFront (crc : ByteBuffer → UInt32) (maximum : ℕ) (l : ByteBuffer) (f : Frame) : Prop where
  magic : l.take 4 = magic
  valid : ¬f.channel < 1 ∧ ¬f.channel > 3 ∧ f.payload.length ≠ 0 ∧ f.payload.length ≤ maximum
  channel : f.channel = l.getD 4 0
  sequence : f.sequence = read32 (l.drop 5)
  size : f.payload.length = Lib.ofBe ((l.drop 9).take 2)
  payload : f.payload = (l.drop 11).take f.payload.length
  total : f.payload.length + 15 ≤ l.length
  checksum : crc (l.take (f.payload.length + 11)) = read32 (l.drop (f.payload.length + 11))

theorem inspect_frame (h : inspect crc maximum l = .frame f more) :
    InFront crc maximum l f ∧ more = f.payload.length + 14 := by
  unfold inspect at h
  dsimp only at h
  split_ifs at h with h4 hmagic h11 hheader htotal hcrc
  obtain ⟨rfl, rfl⟩ := Lib.Verdict.frame.inj h
  have hsize : ((l.drop 11).take (Lib.ofBe ((l.drop 9).take 2))).length = Lib.ofBe ((l.drop 9).take 2) := by
    rw [length_take_of_le]
    rw [length_drop]
    omega
  rw [not_or, not_or, not_or] at hheader
  refine ⟨⟨not_not.mp hmagic, ?_, rfl, rfl, hsize, ?_, ?_, ?_⟩, ?_⟩
  all_goals dsimp only
  all_goals rw [hsize]
  · exact ⟨hheader.1, hheader.2.1, hheader.2.2.1, not_lt.mp hheader.2.2.2⟩
  · exact not_lt.mp htotal
  · exact not_not.mp hcrc

variable (crc maximum) in
theorem inspect_steady : Lib.Steady (inspect crc maximum) where
  append _ m h := inspect_append m h
  present _ _ _ h := by
    obtain ⟨hfront, rfl⟩ := inspect_frame h
    have htotal := hfront.total
    omega

theorem length_of_wait (h : inspect crc maximum l = .wait) : l.length ≤ maximum + 14 := by
  unfold inspect at h
  dsimp only at h
  split_ifs at h with h4 hmagic h11 hheader htotal hcrc
  all_goals omega

/-! ### Frames -/

theorem encode_eq_some (h : encode crc f maximum = some bs) :
    bs = f.body ++ append32 (crc f.body) ∧ maximum ≤ 65535 ∧ f.payload.length ≠ 0 ∧ f.payload.length ≤ maximum ∧
      ¬f.channel < 1 ∧ ¬f.channel > 3 := by
  unfold encode at h
  split_ifs at h with hbad
  rw [not_or, not_or, not_or, not_or] at hbad
  exact ⟨(Option.some.inj h).symm, not_lt.mp hbad.1, hbad.2.1, not_lt.mp hbad.2.2.1, hbad.2.2.2⟩

theorem length_body (f : Frame) : f.body.length = f.payload.length + 11 := by
  simp only [Frame.body, magic, length_append, length_cons, length_nil, length_append32, Lib.length_beBytes]
  omega

theorem encode_length (h : encode crc f maximum = some bs) : bs.length = f.payload.length + 15 := by
  rw [(encode_eq_some h).1, length_append, length_body, length_append32]

theorem inspect_encode (h : encode crc f maximum = some bs) (m : ByteBuffer) :
    inspect crc maximum (bs ++ m) = .frame f (bs.length - 1) := by
  have hlen := encode_length h
  obtain ⟨hbs, hmax, hpos, hle, hlow, hhigh⟩ := encode_eq_some h
  have hl : bs ++ m = f.body ++ (append32 (crc f.body) ++ m) := by rw [hbs, append_assoc]
  have hmagic : (bs ++ m).take 4 = magic := by
    rw [hl]
    rfl
  have hsize : Lib.ofBe (((bs ++ m).drop 9).take 2) = f.payload.length := by
    rw [hl]
    have hlt : f.payload.length < 256 ^ 2 := by omega
    exact Lib.ofBe_beBytes hlt
  have hchannel : (bs ++ m).getD 4 0 = f.channel := by
    rw [hl]
    rfl
  have hsequence : read32 ((bs ++ m).drop 5) = f.sequence := by
    rw [hl]
    exact read32_append32 f.sequence _
  have hpayload : ((bs ++ m).drop 11).take f.payload.length = f.payload := by
    rw [hl]
    exact take_left
  have hbody : (bs ++ m).take (f.payload.length + 11) = f.body := by
    rw [hl]
    exact take_left' (length_body f)
  have hcrc : read32 ((bs ++ m).drop (f.payload.length + 11)) = crc f.body := by
    rw [hl, drop_left' (length_body f)]
    exact read32_append32 _ m
  have htotal : f.payload.length + 15 ≤ (bs ++ m).length := by
    rw [length_append, hlen]
    omega
  unfold inspect
  dsimp only
  rw [hsize, hchannel, hsequence, hpayload, hbody, hcrc, if_neg (by omega), if_neg (not_not.mpr hmagic),
    if_neg (by omega),
    if_neg (by rw [not_or, not_or, not_or]; exact ⟨hlow, hhigh, hpos, by omega⟩), if_neg (by omega),
      if_neg (not_not.mpr rfl), hlen]
  rfl

theorem take_eleven (h : 11 ≤ l.length) :
    l.take 11 = l.take 4 ++ l.getD 4 0 :: ((l.drop 5).take 4 ++ (l.drop 9).take 2) := by
  match l, h with
  | _ :: _ :: _ :: _ :: _ :: _ :: _ :: _ :: _ :: _ :: _ :: _, _ => rfl

theorem encode_of_frame (hmax : maximum ≤ 65535)
    (h : inspect crc maximum l = .frame f more) : encode crc f maximum = some (l.take (more + 1)) := by
  obtain ⟨hfront, rfl⟩ := inspect_frame h
  have htotal := hfront.total
  have hlength : Lib.beBytes 2 f.payload.length = (l.drop 9).take 2 := by
    have htwo : ((l.drop 9).take 2).length = 2 := length_take_of_le (by rw [length_drop]; omega)
    calc Lib.beBytes 2 f.payload.length = Lib.beBytes ((l.drop 9).take 2).length (Lib.ofBe ((l.drop 9).take 2)) := by
          rw [htwo, ← hfront.size]
      _ = (l.drop 9).take 2 := Lib.beBytes_ofBe _
  have hsequence : append32 f.sequence = (l.drop 5).take 4 := by
    rw [hfront.sequence]
    exact append32_read32 (by rw [length_drop]; omega)
  have hbody : f.body = l.take (f.payload.length + 11) := by
    calc f.body = (l.take 4 ++ l.getD 4 0 :: ((l.drop 5).take 4 ++ (l.drop 9).take 2)) ++ f.payload := by
          simp only [Frame.body, hsequence, hlength, hfront.channel, hfront.magic, append_assoc, cons_append]
      _ = l.take 11 ++ (l.drop 11).take f.payload.length := by rw [← take_eleven (by omega), ← hfront.payload]
      _ = l.take (f.payload.length + 11) := by rw [← take_add, Nat.add_comm]
  have hchecksum : append32 (crc f.body) = (l.drop (f.payload.length + 11)).take 4 := by
    rw [hbody, hfront.checksum]
    exact append32_read32 (by rw [length_drop]; omega)
  obtain ⟨hlow, hhigh, hpos, hle⟩ := hfront.valid
  have hgood : ¬(maximum > 65535 ∨ f.payload.length = 0 ∨ f.payload.length > maximum ∨ f.channel < 1 ∨
    f.channel > 3) := by
    rw [not_or, not_or, not_or, not_or]
    exact ⟨by omega, hpos, by omega, hlow, hhigh⟩
  rw [encode, if_neg hgood, hchecksum, hbody, ← take_add]

/-! ### Streams -/

namespace Decoder

/-- A decoder whose buffer waits for more, as every call leaves it. -/
def Settled (crc : ByteBuffer → UInt32) (d : Decoder) : Prop := Lib.scan (inspect crc d.maximum) d.buffer =
  ([], d.buffer)

theorem feed_scan {d : Decoder} (h : d.Settled crc) (p : ByteBuffer) :
    d.feed crc p = (Lib.frames (Lib.scan (inspect crc d.maximum) (d.buffer ++ p)).1,
      { d with buffer := (Lib.scan (inspect crc d.maximum) (d.buffer ++ p)).2 }) := by
  rw [feed, Lib.feed_eq (inspect_steady crc d.maximum) h]

theorem feedAll_scan {d : Decoder} (h : d.Settled crc) (ps : List ByteBuffer) :
    d.feedAll crc ps = (Lib.frames (Lib.scan (inspect crc d.maximum) (d.buffer ++ ps.flatten)).1,
      { d with buffer := (Lib.scan (inspect crc d.maximum) (d.buffer ++ ps.flatten)).2 }) := by
  induction ps generalizing d with
  | nil =>
    rw [flatten_nil, append_nil, h]
    rfl
  | cons p ps ih =>
    have hp : (d.feed crc p).2.Settled crc := by
      rw [feed_scan h]
      exact Lib.scan_scan _
    rw [feedAll, ih hp, feed_scan h, flatten_cons, ← append_assoc,
      Lib.scan_append (inspect_steady crc d.maximum) (d.buffer ++ p) ps.flatten]
    simp only [Lib.frames, filterMap_append]

end Decoder

/-- What became of a stream: its pieces in order; those delivered are encodings, and none begins
where an octet was skipped. -/
structure Account (crc : ByteBuffer → UInt32) (maximum : ℕ) (stream : ByteBuffer) (delivered : List Frame)
    (retained : ByteBuffer)
    (pieces : List (Lib.Piece UInt8 Frame)) : Prop where
  partition : stream = pieces.flatMap Lib.Piece.octets ++ retained
  delivered : delivered = Lib.frames pieces
  encoded : ∀ f bs, .framed f bs ∈ pieces → encode crc f maximum = some bs
  skipped : ∀ before b after, pieces = before ++ .skipped b :: after → ∀ f bs, encode crc f maximum = some bs →
    ¬bs <+: b :: (after.flatMap Lib.Piece.octets ++ retained)

theorem account_scan (hmax : maximum ≤ 65535) (stream : ByteBuffer) :
    Account crc maximum stream (Lib.frames (Lib.scan (inspect crc maximum) stream).1)
      (Lib.scan (inspect crc maximum) stream).2
      (Lib.scan (inspect crc maximum) stream).1 where
  partition := (Lib.scan_octets stream).symm
  delivered := rfl
  encoded f bs hmem := by
    obtain ⟨before, after, hsplit⟩ := append_of_mem hmem
    have hjudged := Lib.scan_judged (inspect_steady crc maximum) hsplit
    have hsome := encode_of_frame hmax hjudged
    have hpos : 0 < bs.length := by
      by_contra hnil
      rw [length_eq_zero_iff.mp (by omega : bs.length = 0)] at hjudged
      obtain ⟨-, hmore⟩ := inspect_frame hjudged
      rw [length_nil] at hmore
      omega
    rw [Nat.sub_add_cancel hpos, Lib.Piece.octets, take_left] at hsome
    exact hsome
  skipped before b after hsplit f bs hbs hstarts := by
    have hjudged := Lib.scan_judged (inspect_steady crc maximum) hsplit
    obtain ⟨m, hm⟩ := hstarts
    rw [Lib.Piece.octets, singleton_append, ← hm, inspect_encode hbs m] at hjudged
    rw [Lib.Piece.verdict] at hjudged
    cases hjudged

/-- **Framing.** However a stream is cut into calls, the decoder delivers its frames, accounts for
every octet, and keeps less than a whole frame. -/
theorem stream_decoded (d : Decoder) (hfresh : d.buffer = []) (chunks : List ByteBuffer) :
    (∀ chunks' : List ByteBuffer, chunks'.flatten = chunks.flatten → d.feedAll crc chunks' = d.feedAll crc chunks) ∧
    (∃ pieces, Account crc d.maximum chunks.flatten (d.feedAll crc chunks).1 (d.feedAll crc chunks).2.buffer pieces) ∧
    (d.feedAll crc chunks).2.buffer.length ≤ d.maximum + 14 ∧
    ∀ fs bss, List.Forall₂ (fun f bs => encode crc f d.maximum = some bs) fs bss → chunks.flatten = bss.flatten →
      (d.feedAll crc chunks).1 = fs ∧ (d.feedAll crc chunks).2.buffer = [] := by
  have hsettled : d.Settled crc := by
    rw [Decoder.Settled, hfresh, Lib.scan]
  have hscan : ∀ ps : List ByteBuffer, d.feedAll crc ps =
      (Lib.frames (Lib.scan (inspect crc d.maximum) ps.flatten).1,
        { d with buffer := (Lib.scan (inspect crc d.maximum) ps.flatten).2 }) := by
    intro ps
    rw [Decoder.feedAll_scan hsettled, hfresh, nil_append]
  refine ⟨fun chunks' h => ?_, ?_, ?_, fun fs bss hencoded hstream => ?_⟩
  · rw [hscan, hscan, h]
  · rw [hscan]
    exact ⟨_, account_scan d.maximum_le chunks.flatten⟩
  · rw [hscan]
    obtain hnil | hwait := Lib.scan_left (inspect crc d.maximum) chunks.flatten
    · rw [hnil]
      exact Nat.zero_le _
    · exact length_of_wait hwait
  · rw [hscan, hstream]
    apply Lib.scan_frames
    refine hencoded.imp fun f bs hbs => ⟨?_, inspect_encode hbs⟩
    have hlen := encode_length hbs
    exact ne_nil_of_length_pos (by omega)

/-- Two octets of noise and a frame, cut inside of it. -/
theorem stream_decoded_cut :
    let d : Decoder := { maximum := 4, maximum_pos := by decide, maximum_le := by decide }
    let chunks : List ByteBuffer := [[0, 0x56, 0x56, 0x49, 0x44, 0x31, 1, 0],
      [0, 0, 7, 0, 1, 0xab, 0xa2, 0xef, 0x1e, 0xa4]]
    (d.feedAll crc32 chunks).1 = [⟨1, 7, [0xab]⟩] ∧ ∃ pieces,
      Account crc32 4 chunks.flatten (d.feedAll crc32 chunks).1 (d.feedAll crc32 chunks).2.buffer pieces := by
  intro d chunks
  refine ⟨?_, (stream_decoded d rfl chunks).2.1⟩
  have hsettled : d.Settled crc32 := by
    rw [Decoder.Settled, Lib.scan]
  rw [Decoder.feedAll_scan hsettled]
  have hframe : inspect crc32 4 [0x56, 0x49, 0x44, 0x31, 1, 0, 0, 0, 7, 0, 1, 0xab, 0xa2, 0xef, 0x1e, 0xa4] =
      .frame ⟨1, 7, [0xab]⟩ 15 := by decide +kernel
  show Lib.frames (Lib.scan (inspect crc32 4)
    [0, 0x56, 0x56, 0x49, 0x44, 0x31, 1, 0, 0, 0, 7, 0, 1, 0xab, 0xa2, 0xef, 0x1e, 0xa4]).1 = _
  rw [Lib.scan_skip (by decide +kernel), Lib.scan_skip (by decide +kernel), Lib.scan_frame hframe]
  show ⟨1, 7, [0xab]⟩ :: Lib.frames (Lib.scan (inspect crc32 4) []).1 = _
  rw [Lib.scan]
  rfl

end Checksum

end VanetzaIdf.Hil
