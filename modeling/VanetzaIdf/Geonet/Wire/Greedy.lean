/-
# Greedy forwarding

`greedy` is `greedy_forwarding` for packets of any kind and a distance in any
linear order (`greedyForwarding_eq`): the loop ends with the neighbour closest to
the destination, or with the station itself (`foldl_closer`). The buffer refuses
packets that are longer than itself, and the answer is not looked at: such a
packet is neither sent nor stored (`greedy_loses_long_packet`).
-/
import VanetzaIdf.Geonet.Wire.Indication

namespace VanetzaIdf.Geonet.Wire

open BufferData

/-- What `greedy_forwarding` looks at in a packet, and what it would store. -/
structure Forwarding (δ : Type) where
  position : GeodeticPosition
  storeCarryForward : Bool
  data : δ

inductive Hop
  | transmit (destination : MacAddress)
  | buffer
deriving DecidableEq, Repr

section Greedy

variable {L δ : Type} [LinearOrder L] (distance : GeodeticPosition → GeodeticPosition → L)

def greedy [BufferData δ] (table : LocationTable) (now : TimePoint) (localPosition : GeodeticPosition)
    (buffer : PacketBuffer δ) (packet : Forwarding δ) : Hop × PacketBuffer δ :=
  let own := distance packet.position localPosition
  let mfr := (table.neighbours now).foldl (closer distance packet.position) (own, Vector.replicate 6 0)
  if mfr.1 < own then (.transmit mfr.2, buffer)
  else if packet.storeCarryForward then (.buffer, (buffer.push packet.data now).2)
  else (.transmit broadcastMacAddress, buffer)

/-- The position vector of a neighbour: an entry that has not expired, of a
station that is still a neighbour. -/
def Candidate (table : LocationTable) (now : TimePoint) (v : LongPositionVector) : Prop :=
  ∃ x ∈ table.entries, ¬ x.expiry < now ∧ now < x.value.isNeighbourUntil ∧ x.value.positionVector = some v

theorem candidate_iff {table : LocationTable} {now : TimePoint} {v : LongPositionVector} :
    Candidate table now v ↔ ∃ e ∈ table.neighbours now, e.positionVector = some v := by
  unfold Candidate LocationTable.neighbours SoftStateMap.values
  constructor
  · rintro ⟨x, hx, hexpiry, hneighbour, hv⟩
    refine ⟨x.value, List.mem_filter.mpr ⟨List.mem_map_of_mem (List.mem_filter.mpr ⟨hx, ?_⟩), ?_⟩, hv⟩
    · simpa [SoftStateMap.isExpired] using hexpiry
    · exact decide_eq_true hneighbour
  · rintro ⟨e, he, hv⟩
    obtain ⟨hmem, hneighbour⟩ := List.mem_filter.mp he
    obtain ⟨x, hx, rfl⟩ := List.mem_map.mp hmem
    obtain ⟨hx, hexpiry⟩ := List.mem_filter.mp hx
    refine ⟨x, hx, ?_, of_decide_eq_true hneighbour, hv⟩
    simpa [SoftStateMap.isExpired] using hexpiry

theorem closer_spec (dest : GeodeticPosition) (best : L × MacAddress) (e : LocationTableEntry) :
    (closer distance dest best e = best ∨
      ∃ v, e.positionVector = some v ∧ closer distance dest best e = (distance dest v.position, v.gnAddr.mid)) ∧
    (closer distance dest best e).1 ≤ best.1 ∧
    ∀ v, e.positionVector = some v → (closer distance dest best e).1 ≤ distance dest v.position := by
  unfold closer
  cases hv : e.positionVector with
  | none => exact ⟨.inl rfl, le_rfl, nofun⟩
  | some v =>
    dsimp only
    split_ifs with hlt
    · refine ⟨.inr ⟨v, rfl, rfl⟩, hlt.le, fun w hw => ?_⟩
      rw [Option.some.inj hw]
    · refine ⟨.inl rfl, le_rfl, fun w hw => ?_⟩
      rw [← Option.some.inj hw]
      exact not_lt.mp hlt

theorem foldl_closer (dest : GeodeticPosition) : ∀ (es : List LocationTableEntry) (best : L × MacAddress),
    (es.foldl (closer distance dest) best = best ∨ ∃ e ∈ es, ∃ v, e.positionVector = some v ∧
      es.foldl (closer distance dest) best = (distance dest v.position, v.gnAddr.mid)) ∧
    (es.foldl (closer distance dest) best).1 ≤ best.1 ∧
    ∀ e ∈ es, ∀ v, e.positionVector = some v →
      (es.foldl (closer distance dest) best).1 ≤ distance dest v.position
  | [], best => ⟨.inl rfl, le_rfl, fun e he => absurd he List.not_mem_nil⟩
  | e :: es, best => by
    obtain ⟨hturn, hle, hall⟩ := closer_spec distance dest best e
    obtain ⟨hrest, hle', hall'⟩ := foldl_closer dest es (closer distance dest best e)
    refine ⟨?_, hle'.trans hle, fun e' he' v hv => ?_⟩
    · rcases hrest with hsame | ⟨e', he', v, hv, hfold⟩
      · rcases hturn with hbest | ⟨v, hv, hcloser⟩
        · exact .inl (hsame.trans hbest)
        · exact .inr ⟨e, List.mem_cons_self, v, hv, hsame.trans hcloser⟩
      · exact .inr ⟨e', List.mem_cons_of_mem _ he', v, hv, hfold⟩
    · rcases List.mem_cons.mp he' with rfl | he'
      · exact hle'.trans (hall v hv)
      · exact hall' e' he' v hv

/-- **Greedy forwarding makes the most progress**, if a neighbour is closer to the destination.
Otherwise the packet is buffered, unless it is longer than the buffer, or broadcast. -/
theorem greedy_makes_progress [BufferData δ] (table : LocationTable) (now : TimePoint)
    (localPosition : GeodeticPosition)
    (buffer : PacketBuffer δ) (packet : Forwarding δ) :
    let remaining (v : LongPositionVector) : L := distance packet.position v.position
    let own := distance packet.position localPosition
    ((∃ v, Candidate table now v ∧ remaining v < own) →
      ∃ v, Candidate table now v ∧ remaining v < own ∧ (∀ w, Candidate table now w → remaining v ≤ remaining w) ∧
        greedy distance table now localPosition buffer packet = (.transmit v.gnAddr.mid, buffer)) ∧
    ((¬ ∃ v, Candidate table now v ∧ remaining v < own) →
      (packet.storeCarryForward = true →
        greedy distance table now localPosition buffer packet = (.buffer, (buffer.push packet.data now).2) ∧
        (buffer.Wf → length packet.data ≤ buffer.capacity → ∃ kept, kept.Sublist buffer.nodes ∧
          (buffer.push packet.data now).2.nodes =
            kept ++ [(⟨now, now + (reduceLifetime packet.data 0).1⟩, (reduceLifetime packet.data 0).2)])) ∧
      (packet.storeCarryForward = false →
        greedy distance table now localPosition buffer packet = (.transmit broadcastMacAddress, buffer))) := by
  intro remaining own
  obtain ⟨hbest, -, hall⟩ := foldl_closer distance packet.position (table.neighbours now) (own, Vector.replicate 6 0)
  by_cases hlt : ((table.neighbours now).foldl (closer distance packet.position) (own, Vector.replicate 6 0)).1 < own
  · rcases hbest with hsame | ⟨e, he, v, hv, hfold⟩
    · rw [hsame] at hlt
      exact absurd hlt (lt_irrefl own)
    rw [hfold] at hlt hall
    have hcandidate : Candidate table now v := candidate_iff.mpr ⟨e, he, hv⟩
    refine ⟨fun _ => ⟨v, hcandidate, hlt, fun w hw => ?_, ?_⟩, fun h => absurd ⟨v, hcandidate, hlt⟩ h⟩
    · obtain ⟨e', he', hw'⟩ := candidate_iff.mp hw
      exact hall e' he' w hw'
    · unfold greedy
      dsimp only
      rw [hfold]
      exact if_pos hlt
  · have hnone : ¬ ∃ v, Candidate table now v ∧ remaining v < own := by
      rintro ⟨v, hcandidate, hcloser⟩
      obtain ⟨e, he, hv⟩ := candidate_iff.mp hcandidate
      exact hlt ((hall e he v hv).trans_lt hcloser)
    refine ⟨fun h => absurd h hnone, fun _ => ⟨fun hscf => ⟨?_, fun hwf hfits => ?_⟩, fun hscf => ?_⟩⟩
    · unfold greedy
      exact (if_neg hlt).trans (if_pos hscf)
    · obtain ⟨kept, hsub, hnodes⟩ := buffer.push_nodes packet.data now
      rw [if_pos (hwf.push_fits hfits)] at hnodes
      exact ⟨kept, hsub, hnodes⟩
    · unfold greedy
      exact (if_neg hlt).trans (if_neg (by simp [hscf]))

end Greedy

/-- A packet with a payload of 1024 octets, to be stored in a buffer of 1024: it is
gone. -/
theorem greedy_loses_long_packet :
    ¬ ∀ (distance : GeodeticPosition → GeodeticPosition → ℕ) (table : LocationTable) (now : TimePoint)
        (localPosition : GeodeticPosition) (buffer : PacketBuffer PendingPacket) (packet : Forwarding PendingPacket),
      buffer.Wf → (¬ ∃ v, Candidate table now v ∧
        distance packet.position v.position < distance packet.position localPosition) →
      packet.storeCarryForward = true →
        (reduceLifetime packet.data 0).2 ∈ (greedy distance table now localPosition buffer packet).2.packets := by
  intro h
  have hstored := h (fun _ _ => 0) { lifetime := 0 } 0 ⟨0, 0⟩ { capacity := 1024 }
    ⟨⟨0, 0⟩, true, { (CbfPacketBuffer.samplePacket 1 ⟨.oneSecond, 60⟩).packet with payload := List.replicate 1024 0 }⟩
    ⟨rfl, Nat.zero_le _⟩
    (by rintro ⟨v, ⟨x, hx, -⟩, -⟩; exact absurd hx List.not_mem_nil) rfl
  exact absurd hstored (by decide +kernel)

namespace Router

variable {M E R κ : Type} [SecuredCodec M]

theorem greedyForwarding_eq (env : Environment) (r : Router M E R κ) (p : GbcPacket M) :
    r.greedyForwarding env p =
      let x := greedy env.distance r.locationTable r.now r.localPositionVector.position r.bcForwardBuffer
        ⟨p.header.position, p.pdu.common.trafficClass.storeCarryForward, Pending.gbc p .greedy⟩
      (match x.1 with
        | .transmit destination => .transmit p destination
        | .buffer => .buffer, { r with bcForwardBuffer := x.2 }) := by
  unfold greedyForwarding greedy
  dsimp only
  split_ifs <;> rfl

end Router

end VanetzaIdf.Geonet.Wire
