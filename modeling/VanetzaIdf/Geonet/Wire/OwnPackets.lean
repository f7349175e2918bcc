/-
# Own packets and the wire

`Geonet.Router` is the router as it sends own packets, with headers as values and of
a neighbour only its position; `Router` of this directory is the same router as it
receives octets and forwards. Headers of own packets have the length that was
computed for them and are read by a receiver (`own_headers_read`), and both routers
forward greedily by one algorithm (`greedyForwarding_own`, `greedyForwarding_eq`).
-/
import VanetzaIdf.Geonet.Wire.Greedy

namespace VanetzaIdf.Geonet.Wire

/-! ### Headers -/

def LongPositionVector.values (v : LongPositionVector) : Geonet.LongPositionVector where
  gnAddr := v.gnAddr
  timestamp := v.timestamp
  latitude := v.latitude.toInt
  longitude := v.longitude.toInt
  positionAccuracyIndicator := v.positionAccuracyIndicator
  speed := v.speed.toNat
  heading := v.heading.toNat

/-- The octet of a type. -/
def typeOctet : Geonet.HeaderType → HeaderType
  | .any => 0
  | .beacon => .beacon
  | .geoBroadcastCircle => .geoBroadcastCircle
  | .geoBroadcastRect => .geoBroadcastRect
  | .geoBroadcastElip => .geoBroadcastElip
  | .tsbSingleHop => .tsbSingleHop
  | .tsbMultiHop => .tsbMultiHop

/-- The type that a request sets for an extended header. -/
def typeOf : ExtendedHeader → Geonet.HeaderType
  | .shb _ => .tsbSingleHop
  | .tsb _ _ => .tsbMultiHop
  | .gbc _ _ a => Geonet.Router.gbcHeaderType a
  | .beacon _ => .beacon

/-- The fields stand for these values. -/
def Holds : HeaderVariant → ExtendedHeader → Prop
  | .shb h, .shb v => h.sourcePosition.values = v
  | .tsb h, .tsb n v => h.sequenceNumber = n ∧ h.sourcePosition.values = v
  | .gbc h, .gbc n v a => h.sequenceNumber = n ∧ h.sourcePosition.values = v ∧
      h.destination (typeOctet (Geonet.Router.gbcHeaderType a)) = some a
  | .beacon h, .beacon v => h.sourcePosition.values = v
  | _, _ => False

variable {M : Type} [SecuredCodec M]

/-- A PDU of the sending router as it is written; of a secured message the size. -/
structure WrittenAs (own : Geonet.Pdu) (pdu : Pdu M) : Prop where
  lifetime : pdu.basic.lifetime = own.basic.lifetime
  hopLimit : pdu.basic.hopLimit = own.basic.hopLimit
  headerType : pdu.common.headerType = typeOctet own.common.headerType
  trafficClass : pdu.common.trafficClass = own.common.trafficClass
  payload : pdu.common.payload = own.common.payload
  extended : Holds pdu.extended own.extended
  secured : pdu.secured.map SecuredCodec.getSize = own.secured.map (·.size)

theorem Holds.length_eq {x : HeaderVariant} {y : ExtendedHeader} (h : Holds x y) : x.length = y.length := by
  cases x <;> cases y <;> first | rfl | exact h.elim

theorem Holds.selectedBy {x : HeaderVariant} {y : ExtendedHeader} (h : Holds x y) :
    x.SelectedBy (typeOctet (typeOf y)) := by
  cases x <;> cases y <;> try exact h.elim
  case gbc.gbc n v a =>
    rcases a with ⟨_ | _ | _, _, _⟩ <;> rfl
  all_goals rfl

variable {own : Geonet.Pdu} {pdu : Pdu M}

theorem WrittenAs.length_eq (h : WrittenAs own pdu) : pdu.getLength = own.length := by
  have hsecured := h.secured
  unfold Pdu.getLength Geonet.Pdu.length
  rw [h.extended.length_eq]
  cases hown : own.secured <;> cases hpdu : pdu.secured <;> simp [hown, hpdu] at hsecured ⊢
  · omega
  · exact hsecured

/-- **Own packets are read by a receiver**, with the octets that the sender counts for the headers. -/
theorem own_headers_read (h : WrittenAs own pdu) (hplain : pdu.secured = none)
    (htype : own.common.headerType = typeOf own.extended) (rest : ByteBuffer) :
    pdu.serialize.length = own.length ∧ ({ input := pdu.serialize ++ rest } : Parser).parseHeaders =
      (some (pdu.basic, pdu.common, pdu.extended.withRawDcc), { input := rest, readBytes := own.length }) := by
  have hselected : pdu.extended.SelectedBy pdu.common.headerType := by
    rw [h.headerType, htype]
    exact h.extended.selectedBy
  rw [← h.length_eq]
  exact ⟨Pdu.length_serialize hplain, Parser.parseHeaders_serialize hplain hselected rest⟩

/-! ### Greedy forwarding -/

/-- What the router for own packets has of an entry. -/
def LocationTableEntry.seen (e : LocationTableEntry) : Geonet.LocationTableEntry where
  isNeighbour := e.isNeighbourUntil
  positionVector := e.positionVector.map LongPositionVector.values

theorem mostForward_seen (env : Geonet.Environment) (now : TimePoint) (dest : GeodeticPosition) :
    ∀ (es : List LocationTableEntry) (best : ℚ × MacAddress),
      Geonet.Router.mostForward env now dest (es.map LocationTableEntry.seen) best =
        (es.filter fun e => e.isNeighbour now).foldl (closer env.distance dest) best
  | [], _ => rfl
  | e :: es, best => by
    have hbody : Geonet.Router.mostForward env now dest ((e :: es).map LocationTableEntry.seen) best =
        Geonet.Router.mostForward env now dest (es.map LocationTableEntry.seen)
          (if e.isNeighbour now then closer env.distance dest best e else best) := by
      unfold LocationTableEntry.isNeighbour closer
      simp only [List.map_cons, Geonet.Router.mostForward, LocationTableEntry.seen]
      cases e.positionVector <;> by_cases hnear : now < e.isNeighbourUntil <;> simp [hnear]
      rfl
    rw [hbody, mostForward_seen env now dest es, List.filter_cons]
    split_ifs <;> rfl

/-- Own packets are forwarded by the same algorithm. -/
theorem greedyForwarding_own {S : Type} (env : Geonet.Environment) (r : Geonet.Router S) (table : LocationTable)
    (htable : r.locationTable = (table.values r.runtime.now).map LocationTableEntry.seen)
    (p : PendingPacket) (ctrl : ControlInfo) (area : Area) :
    r.greedyForwarding env p ctrl area =
      let x := greedy env.distance table r.runtime.now r.localPositionVector.position r.bcForwardBuffer
        ⟨area.position, p.pdu.common.trafficClass.storeCarryForward, { p with action := .greedy ctrl }⟩
      (match x.1 with
        | .transmit destination => .transmit destination
        | .buffer => .buffer, { r with bcForwardBuffer := x.2 }) := by
  have hloop (best : ℚ × MacAddress) : Geonet.Router.mostForward env r.runtime.now area.position r.locationTable best =
      (table.neighbours r.runtime.now).foldl (closer env.distance area.position) best := by
    rw [htable, mostForward_seen]
    rfl
  unfold Geonet.Router.greedyForwarding greedy
  dsimp only
  rw [hloop]
  split_ifs <;> rfl

end VanetzaIdf.Geonet.Wire
