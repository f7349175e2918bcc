/-
# Accounting for the octets of messages

What is written for a well-formed message is accounted for. Conversely a message
is well-formed if it is read from what is written for it and as many octets are
reported (`wellFormed_of_accounted`): what the readers give is within their limits,
and the sizes of the header fields add up, but for one octet too many with every
certificate chain of 127 octets.
-/
import VanetzaIdf.V2.SecuredMessage

namespace VanetzaIdf.V2

open Lib Decoder List

theorem lt_of_length_good {n x : ℕ} {rest after : ByteBuffer}
    (h : deserializeLength (serializeLength n ++ rest, .ok) = some (x, after, .ok)) : n < 2 ^ 56 := by
  by_contra hge
  obtain ⟨front, hfront⟩ := encodeLength_front (not_lt.mp hge)
  rw [serializeLength, hfront, cons_append] at h
  obtain ⟨⟨octets, input, st⟩, -, h⟩ := Option.bind_eq_some_iff.mp (show Option.bind _ _ = _ from h)
  have hdecoded : ¬ (decodeLength (0xff :: octets)).1 ≠ 0 := not_not.mpr rfl
  dsimp only at h
  rw [if_neg hdecoded] at h
  exact ((Archive.gives_fail (by decide)).bind (R := fun _ => False) (fun _ => .pure False.elim) h).2

theorem reported_eq (list : List HeaderField) :
    getSizeList HeaderField.reportedSize list = headerFieldsSize list + list.countP HeaderField.overcounted := by
  induction list with
  | nil => rfl
  | cons field list ih =>
    rw [getSizeList_cons, headerFieldsSize_cons, countP_cons, ih, HeaderField.reportedSize]
    cases field.overcounted <;> simp <;> omega

theorem gives_limited (size : ℕ) : GivesIn .ok (do
    if 1024 < size then do
      Archive.fail .excessiveLength
      deserializeFields size size 0 none []
    else deserializeFields size size 0 none []) fun x => size ≤ 1024 ∧ FieldsWellFormed none x.1 := by
  have hfields := gives_fields size size 0 none [] (by simp)
  split_ifs with hlimit
  · exact (Archive.gives_fail (by decide)).bind fun _ => hfields.imp fun _ _ => False.elim
  · refine hfields.imp ?_
    rintro x ⟨new, hx, hnew⟩
    exact ⟨not_lt.mp hlimit, hx ▸ hnew⟩

theorem headerFields_cases {b after : ByteBuffer} {x : List HeaderField × ℕ}
    (h : deserializeHeaderFields (b, .ok) = some (x, after, .ok)) :
    ∃ size rest, deserializeLength (b, .ok) = some (size, rest, .ok) ∧ size ≤ 1024 ∧ FieldsWellFormed none x.1 ∧
      deserializeFields size size 0 none [] (rest, .ok) = some (x, after, .ok) := by
  obtain ⟨coded, input, hlength, h⟩ := GivesIn.split
    (fun coded => (gives_trimSize coded).bind fun size => (gives_limited size).imp fun _ _ _ => trivial) h
  obtain ⟨size, rest, htrim, h⟩ := GivesIn.split (fun size => (gives_limited size).imp fun _ _ => trivial) h
  obtain ⟨-, hlimit, hwf⟩ := gives_limited size h
  rw [if_neg (not_lt.mpr hlimit)] at h
  unfold trimSize at htrim
  split_ifs at htrim
  · cases htrim
  · cases htrim
    exact ⟨_, _, hlength, hlimit, hwf, h⟩

theorem gives_headerFields : GivesIn .ok deserializeHeaderFields fun _ => True :=
  gives_length.bind fun coded => (gives_trimSize coded).bind fun size => (gives_limited size).imp fun _ _ _ _ => trivial

theorem headerFields_reported {list : List HeaderField} {rest after : ByteBuffer} {n : ℕ}
    (h : deserializeHeaderFields (serializeList HeaderField.getSize HeaderField.serialize list ++ rest, .ok) =
      some ((list, n), after, .ok)) :
    FieldsWellFormed none list ∧ headerFieldsSize list ≤ 1024 ∧
      n = headerFieldsSize list + list.countP HeaderField.overcounted ∧ after = rest := by
  obtain ⟨size, input, hlength, hlimit, hwf, hfields⟩ := headerFields_cases h
  rw [serializeList, append_assoc] at hlength
  rw [readsIn_length (lt_of_length_good hlength)] at hlength
  cases hlength
  obtain ⟨hn, hafter⟩ := fields_reported hwf (by simp) hfields
  exact ⟨hwf, hlimit, by rw [hn, Nat.zero_add, reported_eq], hafter⟩

theorem gives_payload : GivesIn .ok Payload.deserialize fun x => x.1.data.length ≤ 4096 := by
  refine (fixed_octet.gives _).bind fun type => gives_length.bind fun length => ?_
  split_ifs with hlimit
  · exact GivesIn.octets.bind fun data => .pure fun hlength _ _ => hlength.trans_le hlimit
  · exact (Archive.gives_fail (by decide)).bind fun _ => .pure False.elim

namespace SecuredMessage

/-- The octets of the length, and of the header fields after them. -/
def HeaderExact (b : ByteBuffer) : Prop :=
  ∃ size fields afterLength afterFields read, deserializeLength (b, .ok) = some (size, afterLength, .ok) ∧
    deserializeHeaderFields (b, .ok) = some ((fields, read), afterFields, .ok) ∧ afterFields.length + size =
      afterLength.length

/-- **Accounting.** If a message is accepted and the archive is good, then the
size that is reported is what was consumed, the header fields take as many
octets as their length says, and the message is written as it was read. -/
def Accounted (b : ByteBuffer) : Prop :=
  ∀ message n rest, deserialize (b, .ok) = some ((message, n), rest, .ok) →
    n + rest.length = b.length ∧ HeaderExact b.tail ∧ message.serialize ++ rest = b

theorem headerExact {list : List HeaderField} (h : FieldsWellFormed none list)
    (hchains : ∀ field ∈ list, field.overcounted = false) (hlimit : headerFieldsSize list ≤ 1024) (rest : ByteBuffer) :
    HeaderExact (serializeList HeaderField.getSize HeaderField.serialize list ++ rest) := by
  refine ⟨headerFieldsSize list, list, list.flatMap HeaderField.serialize ++ rest, rest, headerFieldsSize list, ?_, ?_,
    ?_⟩
  · unfold serializeList
    rw [append_assoc]
    exact readsIn_length (show headerFieldsSize list < 2 ^ 56 by omega) _
  · exact readsIn_headerFields h hchains hlimit rest
  · rw [length_append, length_fields h, Nat.add_comm]

variable {message : SecuredMessage}

theorem accounted_of_wellFormed (h : message.WellFormed) (rest : ByteBuffer) :
    Accounted (message.serialize ++ rest) := by
  intro message' n rest' hd
  rw [reads h rest, ← length_serialize h.toLimited] at hd
  cases hd
  refine ⟨(length_append).symm, ?_, rfl⟩
  rw [serialize, append_assoc, singleton_append, tail_cons, append_assoc]
  exact headerExact h.headerFields h.chains h.headerFields_le _

theorem deserialize_cases {b rest : ByteBuffer} {n : ℕ}
    (h : deserialize (b, .ok) = some ((message, n), rest, .ok)) :
    ∃ tail header payload trailer after after', b = 2 :: tail ∧
      deserializeHeaderFields (tail, .ok) = some ((message.headerFields, header), after, .ok) ∧
      Payload.deserialize (after, .ok) = some ((message.payload, payload), after', .ok) ∧
      deserializeList TrailerField.deserialize (after', .ok) = some ((message.trailerFields, trailer), rest, .ok) ∧
      n = 1 + (header + lengthCodingSize header) + payload + (trailer + lengthCodingSize trailer) := by
  have htrailers := gives_list TrailerField.roundTrips
  obtain ⟨version, tail, hversion, h⟩ := GivesIn.split (fun version => by
    split_ifs
    · exact gives_headerFields.bind fun _ => gives_payload.bind fun _ => htrailers.bind fun _ =>
        .pure fun _ _ _ => trivial
    · exact .failure) h
  split_ifs at h with htwo
  · obtain ⟨header, after, hheader, h⟩ := GivesIn.split
      (fun _ => gives_payload.bind fun _ => htrailers.bind fun _ => .pure fun _ _ => trivial) h
    obtain ⟨payload, after', hpayload, h⟩ := GivesIn.split (fun _ => htrailers.bind fun _ => .pure fun _ => trivial) h
    obtain ⟨trailer, rest', htrailer, h⟩ := GivesIn.split (fun _ => .pure trivial) h
    cases h
    exact ⟨tail, _, _, _, after, after', htwo ▸ (fixed_octet.yields hversion).1, hheader, hpayload, htrailer, rfl⟩
  · cases h

theorem wellFormed_of_accounted {n : ℕ} {rest : ByteBuffer}
    (h : deserialize (message.serialize ++ rest, .ok) = some ((message, n), rest, .ok))
    (hn : n = message.serialize.length) : message.WellFormed := by
  obtain ⟨tail, header, payload, trailer, after, after', htail, hheader, hpayload, htrailer, hsize⟩ :=
    deserialize_cases h
  rw [serialize, append_assoc, singleton_append, append_assoc] at htail
  obtain rfl := (List.cons.inj htail).2
  obtain ⟨hwf, hlimit, hreported, rfl⟩ := headerFields_reported hheader
  have hpayload_le : message.payload.data.length ≤ 4096 := (gives_payload hpayload).2
  rw [append_assoc, Payload.reads hpayload_le] at hpayload
  have hpayload_eq : message.payload.getSize = payload := (Prod.mk.inj (Prod.mk.inj (Option.some.inj hpayload)).1).2
  have htrailer_eq : trailer = message.trailerFieldsSize := (gives_list TrailerField.roundTrips htrailer).2.2.1
  have hlimited : message.Limited := ⟨hwf, hlimit, hpayload_le, (gives_list TrailerField.roundTrips htrailer).2.2.2⟩
  rw [length_serialize hlimited, hsize, getSize, hpayload_eq, htrailer_eq] at hn
  have hheader_eq : header + lengthCodingSize header = headerFieldsSize message.headerFields +
      lengthCodingSize (headerFieldsSize message.headerFields) := by omega
  have hchains : message.headerFields.countP HeaderField.overcounted = 0 := by
    -- one octet more in the length makes up for at most one, and only downwards
    have hcoding := lengthCodingSize_of_lt (show headerFieldsSize message.headerFields < 128 ^ 2 by omega)
    have hpos : 0 < lengthCodingSize header := IntX.roundTrips.pos header
    have hle : lengthCodingSize (headerFieldsSize message.headerFields) ≤ 2 := by
      rw [hcoding]
      split_ifs <;> omega
    rw [hcoding, lengthCodingSize_of_lt (show header < 128 ^ 2 by omega)] at hheader_eq
    split_ifs at hheader_eq <;> omega
  exact ⟨hlimited, fun field hfield => by simpa using countP_eq_zero.mp hchains field hfield⟩

end SecuredMessage

end VanetzaIdf.V2
