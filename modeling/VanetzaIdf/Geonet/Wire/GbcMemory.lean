/-
# GeoBroadcast packets are passed up once

The memory holds the identifiers accepted last, and a packet is passed up only
if its identifier is not remembered (`decide_pass_up`). So between two packets
passed up with one identifier, as many with distinct others were accepted as the
memory holds; a repeated packet refreshes its identifier, and others are
forgotten in its place.
-/
import VanetzaIdf.Geonet.Wire.Forwarded
import VanetzaIdf.Lib.Recency

namespace VanetzaIdf.Geonet.Wire

open Lib List

variable {M E R κ : Type}

/-! ### The memory -/

theorem GbcMemory.remember_eq {C : ℕ} (hC : 1 ≤ C) (history : List CbfPacketIdentifier) (id : CbfPacketIdentifier) :
    GbcMemory.remember ⟨C, mostRecent C history⟩ id =
      (decide (id ∈ mostRecent C history), ⟨C, mostRecent C (history ++ [id])⟩) := by
  rw [← touch_mostRecent hC, remember, touch]
  split_ifs with hid
  · rw [decide_eq_true hid]
  · rw [decide_eq_false hid]

def GbcMemory.rememberAll (m : GbcMemory) (history : List CbfPacketIdentifier) : GbcMemory :=
  history.foldl (fun m id => (m.remember id).2) m

theorem GbcMemory.rememberAll_eq {C : ℕ} (hC : 1 ≤ C) (history : List CbfPacketIdentifier) :
    GbcMemory.rememberAll ⟨C, []⟩ history = ⟨C, mostRecent C history⟩ := by
  induction history using List.reverseRecOn with
  | nil => simp [rememberAll, mostRecent, last]
  | append_singleton history id ih =>
    rw [rememberAll, foldl_append]
    show ((rememberAll ⟨C, []⟩ history).remember id).2 = _
    rw [ih, remember_eq hC]

/-! ### GeoBroadcast packets received -/

/-- A received packet with a GeoBroadcast header and its destination. -/
structure GbcIndication (M : Type) where
  rx : Router.Reception M
  header : GbcHeader
  extended_eq : rx.pdu.extended = .gbc header
  area : Area
  area_eq : header.destination rx.pdu.common.headerType = some area

/-- A packet that was accepted, and whether it was passed up. -/
structure Accepted where
  identifier : CbfPacketIdentifier
  passedUp : Bool
deriving DecidableEq, Repr

namespace Router

/-- Duplicate detection on behalf of the forwarding algorithm in charge. -/
def detected (env : Environment) (r : Router M E R κ) (x : GbcIndication M) : Bool × Router M E R κ :=
  if r.detectsDuplicates (env.insideOrAtBorder x.area r.localPositionVector.position) then
    r.detectDuplicatePacket x.header.sourcePosition.gnAddr x.header.sequenceNumber
  else (false, r)

/-- The packet is no duplicate, and for this station. -/
def accepts (env : Environment) (r : Router M E R κ) (x : GbcIndication M) : Bool :=
  !(r.detected env x).1 &&
    (env.insideOrAtBorder x.area r.localPositionVector.position || r.mib.vanetzaGbcPassUpOutsideDestination)

variable (env : Environment) (r : Router M E R κ) (x : GbcIndication M)

theorem keeps_detected : r.Keeps (r.detected env x).2 := by
  unfold detected
  split_ifs
  all_goals exact ⟨rfl, rfl⟩

variable [SecuredCodec M] [CbfCounter κ]

def indicateGbc (env : Environment) (r : Router M E R κ) (x : GbcIndication M) : Bool × Router M E R κ :=
  r.processGbc env x.rx x.header x.extended_eq x.area x.area_eq

def accepted (env : Environment) (r : Router M E R κ) (x : GbcIndication M) : Option Accepted :=
  if r.accepts env x then some ⟨x.header.identifier, (r.indicateGbc env x).1⟩ else none

/-- The router before it decides, the packet being no duplicate. -/
def undecided (env : Environment) (r : Router M E R κ) (x : GbcIndication M) : Router M E R κ :=
  ((r.detected env x).2.noteSource env x.rx x.header.sourcePosition
    (r.locationTable.hasValue r.now x.header.sourcePosition.gnAddr.mid)).forwardGbc env x.rx x.header x.extended_eq
      x.area x.area_eq

theorem keeps_undecided : r.Keeps (r.undecided env x) :=
  have hO := admits_copiesOf (R := R) fun _ : Received M => True
  ((keeps_detected env r x).trans (moves_noteSource env hO (traced_self _ _) _ _).keeps).trans
    (forwards_forwardGbc env hO trivial).keeps

theorem indicateGbc_eq {r : Router M E R κ} (hC : r.mib.vanetzaGbcMemoryCapacity ≠ 0) (x : GbcIndication M) :
    (r.indicateGbc env x).2.mib = r.mib ∧
    (r.accepts env x = true → (r.indicateGbc env x).1 = !(r.gbcMemory.remember x.header.identifier).1 ∧
      (r.indicateGbc env x).2.gbcMemory = (r.gbcMemory.remember x.header.identifier).2) ∧
    (r.accepts env x = false → (r.indicateGbc env x).1 = false ∧ (r.indicateGbc env x).2.gbcMemory = r.gbcMemory) := by
  have hdetected := keeps_detected env r x
  have hforward := keeps_undecided env r x
  have hprocess : r.indicateGbc env x = if (r.detected env x).1 then (false, (r.detected env x).2)
      else (r.undecided env x).decidePassUp (env.insideOrAtBorder x.area r.localPositionVector.position) x.header := rfl
  rw [hprocess, accepts]
  cases (r.detected env x).1 with
  | true => exact ⟨hdetected.2, nofun, fun _ => ⟨rfl, hdetected.1⟩⟩
  | false =>
    rw [if_neg Bool.false_ne_true]
    unfold decidePassUp
    rw [hforward.2, if_neg hC]
    dsimp only
    cases env.insideOrAtBorder x.area r.localPositionVector.position || r.mib.vanetzaGbcPassUpOutsideDestination with
    | true => exact ⟨rfl, fun _ => ⟨by rw [if_pos rfl, hforward.1], by rw [if_pos rfl, hforward.1]⟩, nofun⟩
    | false => exact ⟨hforward.2, nofun, fun _ => ⟨rfl, hforward.1⟩⟩

/-- A router receives GeoBroadcast packets while anything else leaves the memory alone; the
accepted ones in order. -/
inductive Reaches (env : Environment) (r : Router M E R κ) : List Accepted → Router M E R κ → Prop
  | refl : Reaches env r [] r
  | elsewhere {h : List Accepted} {r' r'' : Router M E R κ} : Reaches env r h r' → r'.Keeps r'' → Reaches env r h r''
  | gbc {h : List Accepted} {r' : Router M E R κ} (x : GbcIndication M) :
    Reaches env r h r' → Reaches env r (h ++ (r'.accepted env x).toList) (r'.indicateGbc env x).2

theorem Reaches.remembers {env : Environment} {r r' : Router M E R κ} {h : List Accepted} (hrun : Reaches env r h r')
    {C : ℕ} (hC : 1 ≤ C) (hmib : r.mib.vanetzaGbcMemoryCapacity = C) (hempty : r.gbcMemory = ⟨C, []⟩) :
    r'.mib.vanetzaGbcMemoryCapacity = C ∧ r'.gbcMemory = ⟨C, mostRecent C (h.map (·.identifier))⟩ ∧
      ∀ before x after, h = before ++ x :: after →
        (x.passedUp = true → x.identifier ∉ mostRecent C (before.map (·.identifier))) := by
  induction hrun with
  | refl => exact ⟨hmib, by simpa [mostRecent, last] using hempty, fun before x after heq => absurd heq (by simp)⟩
  | elsewhere _ hkeeps ih =>
    obtain ⟨hcapacity, hmemory, hpassed⟩ := ih
    exact ⟨by rw [hkeeps.2, hcapacity], by rw [hkeeps.1, hmemory], hpassed⟩
  | @gbc h r' x _ ih =>
    obtain ⟨hcapacity, hmemory, hpassed⟩ := ih
    obtain ⟨hmib', hyes, hno⟩ := indicateGbc_eq env (by omega : r'.mib.vanetzaGbcMemoryCapacity ≠ 0) x
    refine ⟨by rw [hmib', hcapacity], ?_⟩
    unfold accepted
    cases haccepts : r'.accepts env x with
    | true =>
      obtain ⟨hdecision, hremembered⟩ := hyes haccepts
      rw [hmemory, GbcMemory.remember_eq hC] at hdecision hremembered
      rw [if_pos rfl, hdecision, Option.toList_some, map_append]
      refine ⟨hremembered, fun before y after heq hup => ?_⟩
      obtain hlast | hearlier := eq_nil_or_concat after
      · subst hlast
        obtain ⟨rfl, hy⟩ := append_inj' heq rfl
        obtain rfl := singleton_inj.mp hy
        simpa using hup
      · obtain ⟨after', z, rfl⟩ := hearlier
        rw [concat_eq_append, ← cons_append, ← append_assoc] at heq
        exact hpassed before y after' (append_inj' heq rfl).1 hup
    | false =>
      rw [if_neg Bool.false_ne_true, Option.toList_none, append_nil]
      exact ⟨by rw [(hno haccepts).2, hmemory], hpassed⟩

/-- **Once among many.** Between two packets that are passed up with one identifier, the router
accepts packets with as many distinct others as it may remember. -/
theorem gbc_passed_up_once (env : Environment) (mib : Mib) (runtime : SharedRuntime) (counter : κ)
    (hC : 1 ≤ mib.vanetzaGbcMemoryCapacity) :
    (∀ history id, ((GbcMemory.rememberAll ⟨mib.vanetzaGbcMemoryCapacity, []⟩ history).remember id).1 = true ↔
      id ∈ mostRecent mib.vanetzaGbcMemoryCapacity history) ∧
    ∀ h (r : Router M E R κ), Reaches env (init mib runtime counter) h r → ∀ before between after id,
      h = before ++ ⟨id, true⟩ :: between ++ ⟨id, true⟩ :: after →
        mib.vanetzaGbcMemoryCapacity ≤ ((between.map (·.identifier)).filter (· ≠ id)).toFinset.card := by
  refine ⟨fun history id => ?_, fun h r hrun before between after id heq => ?_⟩
  · rw [GbcMemory.rememberAll_eq hC, GbcMemory.remember_eq hC]
    exact decide_eq_true_iff
  · have hmemory : (init mib runtime counter : Router M E R κ).gbcMemory = ⟨mib.vanetzaGbcMemoryCapacity, []⟩ := by
      show (⟨max 1 _, []⟩ : GbcMemory) = _
      rw [max_eq_right hC]
    have hpassed := (hrun.remembers hC rfl hmemory).2.2 _ ⟨id, true⟩ after heq rfl
    rw [map_append, map_cons] at hpassed
    exact distinct_since hpassed

/-! ### A packet that is repeated -/

def receiveAll (env : Environment) : Router M E R κ → List (GbcIndication M) → List Accepted × Router M E R κ
  | r, [] => ([], r)
  | r, x :: xs =>
    let y := receiveAll env (r.indicateGbc env x).2 xs
    ((r.accepted env x).toList ++ y.1, y.2)

theorem reaches_receiveAll {r : Router M E R κ} : ∀ (xs : List (GbcIndication M)) {r' : Router M E R κ}
    {h : List Accepted}, Reaches env r h r' → Reaches env r (h ++ (receiveAll env r' xs).1) (receiveAll env r' xs).2
  | [], r', h, hrun => by
    rw [receiveAll, append_nil]
    exact hrun
  | x :: xs, r', h, hrun => by
    rw [receiveAll, ← append_assoc]
    exact reaches_receiveAll xs (hrun.gbc x)

/-- A packet for a circle at the end of its hops. -/
def sampleGbc (sequenceNumber : UInt16) : GbcIndication SampleMessage where
  rx :=
    { pdu :=
        { basic := { nextHeader := .common, hopLimit := 1 }
          common := { headerType := .geoBroadcastCircle }
          extended := .gbc { sequenceNumber } }
      packetSize := 56
      packet := .empty
      linkLayer := sampleLink
      marked := ⟨nofun, nofun⟩ }
  header := { sequenceNumber }
  extended_eq := rfl
  area := ⟨.circle 0, ⟨0, 0⟩, 0⟩
  area_eq := rfl

def sampleReceiver : Router SampleMessage Unit Unit CbfCounterContending :=
  .init { vanetzaGbcMemoryCapacity := 2, itsGnAreaForwardingAlgorithm := .cbf } { now := 0 } {}

/-- What the packet with this sequence number is known by. -/
def sampleIdentifier (n : UInt16) : CbfPacketIdentifier := (sampleGbc n).header.identifier

/-- The second packet 1 is not passed up, but packet 0 is forgotten for packet 2
in its place. So packet 0 is passed up again after one other packet. -/
theorem sampleReceiver_accepts : (receiveAll sampleSurroundings sampleReceiver ([1, 0, 1, 2, 0].map sampleGbc)).1 =
    [⟨sampleIdentifier 1, true⟩] ++ ⟨sampleIdentifier 0, true⟩ ::
      [⟨sampleIdentifier 1, false⟩, ⟨sampleIdentifier 2, true⟩] ++
      ⟨sampleIdentifier 0, true⟩ :: [] := by
  decide +kernel

theorem gbc_repeat_refreshes : ∃ h r, Reaches sampleSurroundings sampleReceiver h r ∧
    ∃ before between after id, h = before ++ ⟨id, true⟩ :: between ++ ⟨id, true⟩ :: after ∧
      ¬2 ≤ (((between.filter (·.passedUp)).map (·.identifier)).filter (· ≠ id)).toFinset.card := by
  have hrun := reaches_receiveAll sampleSurroundings ([1, 0, 1, 2, 0].map sampleGbc) (.refl (r := sampleReceiver))
  rw [nil_append] at hrun
  exact ⟨_, _, hrun, _, _, _, _, sampleReceiver_accepts, by decide +kernel⟩

/-- In between two others were accepted, one of them for the second time. -/
theorem gbc_passed_up_once_sample :
    2 ≤ ((([⟨sampleIdentifier 1, false⟩, ⟨sampleIdentifier 2, true⟩] : List Accepted).map (·.identifier)).filter
      (· ≠ sampleIdentifier 0)).toFinset.card := by
  have hrun := reaches_receiveAll sampleSurroundings ([1, 0, 1, 2, 0].map sampleGbc) (.refl (r := sampleReceiver))
  rw [nil_append] at hrun
  exact (gbc_passed_up_once sampleSurroundings _ _ _ (by decide)).2 _ _ hrun _ _ _ _ sampleReceiver_accepts

end Router
end VanetzaIdf.Geonet.Wire
