/-
# Where packets of the router come from

`Traced given K O` is a state whose copies are of received packets with the
property `K` and whose outputs after those `given` have the property `O`. Every
function behind the parser keeps it, if the packet that it processes has `K`.
What else is left alone goes along (`Moves`, `Forwards`); a predicate kept by such
moves and by GeoBroadcast packets is kept by all of reception (`Closed`).
-/
import VanetzaIdf.Geonet.Wire.Indication
import VanetzaIdf.Geonet.Carried

namespace VanetzaIdf.Geonet

open BufferData CbfData List

/-! ### Packets in the buffers -/

theorem PacketBuffer.mem_push {α : Type} [BufferData α] {b : PacketBuffer α} {data x : α} {now : TimePoint}
    (h : x ∈ (b.push data now).2.packets) : x ∈ b.packets ∨ x = (reduceLifetime data 0).2 := by
  obtain ⟨kept, hsub, heq⟩ := b.push_packets data now
  rw [heq, mem_append] at h
  rcases h with h | h
  · exact .inl (hsub.subset h)
  · split_ifs at h
    · exact .inr (mem_singleton.mp h)
    · cases h

theorem PacketBuffer.mem_take {α : Type} [BufferData α] {b : PacketBuffer α} {x : α} {now : TimePoint}
    (h : x ∈ (b.take now).1) : ∃ p ∈ b.packets, ∃ d, x = (reduceLifetime p d).2 := by
  obtain ⟨n, hn, rfl⟩ := mem_map.mp h
  exact ⟨n.2, mem_map_of_mem (mem_of_mem_filter hn), _, rfl⟩

namespace CbfPacketBuffer

variable {α κ : Type} [CbfData α] [CbfCounter κ] {b : CbfPacketBuffer α κ} {x : α}

theorem mem_add {packet : α} {timeout : Duration} {allocator : Allocator}
    (h : x ∈ (b.add packet timeout allocator).packets) : x ∈ b.packets ∨ x = packet := by
  have hroom := (b.makeRoom_frame packet).1.subset
  rcases b.add_cases packet timeout allocator with ⟨-, heq⟩ | ⟨-, hadd⟩
  · rw [heq] at h
    exact .inl h
  · rw [hadd.packets] at h
    rcases (b.makeRoom packet).insert_cases packet timeout allocator with ⟨-, -, heq⟩ | ⟨-, -, -, heq⟩
    · rw [heq] at h
      exact .inl (hroom h)
    · rw [heq, mem_append, mem_singleton] at h
      exact h.imp_left fun hx => hroom hx

theorem mem_update {id : CbfPacketIdentifier} {timeout : Duration} (h : x ∈ (b.update id timeout).packets) :
    x ∈ b.packets ∨ ∃ p ∈ b.packets, ∃ d, x = (reduceLifetime p d).2 := by
  unfold update at h
  split at h
  · rename_i entry packet hl
    obtain ⟨p, hp, rfl⟩ := mem_map.mp h
    split_ifs
    · exact .inr ⟨packet, (lookup_some hl).2.2.1, _, rfl⟩
    · exact .inl hp
  · exact .inl h

theorem mem_flush (b : CbfPacketBuffer α κ) :
    b.flush.2.packets ⊆ b.packets ∧ ∀ x ∈ b.flush.1, ∃ p ∈ b.packets, ∃ d, x = (reduceLifetime p d).2 := by
  obtain ⟨hsub, hout⟩ := flushTimers_output b b.timers
  refine ⟨?_, fun x hx => ?_⟩
  · rw [b.flush_rescheduled.packets]
    exact hsub
  · obtain ⟨e, -, -, p, hp, -, -, heq⟩ := hout x hx
    exact ⟨p, hp, _, heq⟩

end CbfPacketBuffer

namespace Wire

/-! ### States -/

variable {M E R κ : Type}

/-- A packet in a forwarding buffer is of this station, or a copy of a packet
with the property. -/
def Pending.From (K : Received M → Prop) : Pending M → Prop
  | .own _ => True
  | .tsb p => K p.origin
  | .gbc p _ => K p.origin

/-- What is transmitted was received. -/
def NextHop.From (K : Received M → Prop) : NextHop M → Prop
  | .transmit p _ => K p.origin
  | _ => True

/-- Outputs of forwarding have the property. -/
structure Admits (K : Received M → Prop) (O : Output M R → Prop) : Prop where
  handed : ∀ x : Handed M, K x.origin → O (.handed x)
  own : ∀ p mac, O (.own p mac)
  stopped : ∀ reason, O (.stopped reason)

namespace Router

/-- Neither the memory for duplicates nor the MIB changes. -/
def Keeps (r r' : Router M E R κ) : Prop := r'.gbcMemory = r.gbcMemory ∧ r'.mib = r.mib

/-- The state's copies are of packets with the property `K`, and its outputs
after those already given have the property `O`. -/
structure Traced (given : List (Output M R)) (K : Received M → Prop) (O : Output M R → Prop)
    (r : Router M E R κ) : Prop where
  outputs : ∃ fresh, r.outputs = given ++ fresh ∧ ∀ x ∈ fresh, O x
  bc : ∀ p ∈ r.bcForwardBuffer.packets, p.From K
  uc : ∀ p ∈ r.ucForwardBuffer.packets, p.From K
  cbf : ∀ p ∈ r.cbfBuffer.packets, K p.packet.origin

variable {given : List (Output M R)} {K : Received M → Prop} {O : Output M R → Prop} {r r' r'' : Router M E R κ}

theorem Keeps.trans (h : r.Keeps r') (h' : r'.Keeps r'') : r.Keeps r'' := ⟨h'.1.trans h.1, h'.2.trans h.2⟩

/-- Part of what the router does with a packet, apart from `decide_pass_up`. -/
structure Moves (K : Received M → Prop) (O : Output M R → Prop) (r r' : Router M E R κ) : Prop where
  keeps : r.Keeps r'
  traced : ∀ {given}, r.Traced given K O → r'.Traced given K O

structure Forwards (K : Received M → Prop) (O : Output M R → Prop) (r r' : Router M E R κ) :
    Prop extends Moves K O r r' where
  table : r'.locationTable = r.locationTable

theorem Moves.still (hkeeps : r.Keeps r')
    (h : (r'.outputs, r'.bcForwardBuffer.packets, r'.ucForwardBuffer.packets, r'.cbfBuffer.packets) =
      (r.outputs, r.bcForwardBuffer.packets, r.ucForwardBuffer.packets, r.cbfBuffer.packets)) : Moves K O r r' where
  keeps := hkeeps
  traced ht := by
    simp only [Prod.mk.injEq] at h
    obtain ⟨hout, hbc, huc, hcbf⟩ := h
    exact ⟨hout ▸ ht.outputs, hbc ▸ ht.bc, huc ▸ ht.uc, hcbf ▸ ht.cbf⟩

theorem Moves.trans (h : Moves K O r r') (h' : Moves K O r' r'') : Moves K O r r'' where
  keeps := h.keeps.trans h'.keeps
  traced ht := h'.traced (h.traced ht)

namespace Forwards

theorem refl : Forwards K O r r := ⟨.still ⟨rfl, rfl⟩ rfl, rfl⟩

theorem trans (h : Forwards K O r r') (h' : Forwards K O r' r'') : Forwards K O r r'' where
  toMoves := h.toMoves.trans h'.toMoves
  table := h'.table.trans h.table

theorem foldl {α : Type} {f : Router M E R κ → α → Router M E R κ} {G : α → Prop}
    (hf : ∀ {r : Router M E R κ} {a : α}, G a → Forwards K O r (f r a)) :
    ∀ (as : List α) {r : Router M E R κ}, (∀ a ∈ as, G a) → Forwards K O r (as.foldl f r)
  | [], _, _ => refl
  | a :: as, _, hG => (hf (hG a mem_cons_self)).trans (foldl hf as fun a' ha' => hG a' (mem_cons_of_mem _ ha'))

end Forwards

/-! ### Outputs and buffers -/

theorem forwards_output {x : Output M R} (hx : O x) : Forwards K O r (r.output x) where
  keeps := ⟨rfl, rfl⟩
  table := rfl
  traced h := by
    obtain ⟨fresh, heq, hfresh⟩ := h.outputs
    refine ⟨⟨fresh ++ [x], ?_, forall_mem_append.mpr ⟨hfresh, forall_mem_singleton.mpr hx⟩⟩, h.bc, h.uc, h.cbf⟩
    show r.outputs ++ [x] = _ ++ (fresh ++ [x])
    rw [heq, append_assoc]

theorem Moves.withTable (h : Moves K O r r') (f : LocationTable → LocationTable) : Moves K O r (r'.withTable f) :=
  h.trans (.still ⟨rfl, rfl⟩ rfl)

variable {packet : CohesivePacket} {p : GbcPacket M} {rx : Reception M} {gbc : GbcHeader}
  {hgbc : rx.pdu.extended = .gbc gbc} {area : Area} {harea : gbc.destination rx.pdu.common.headerType = some area}

theorem moves_passUpIf {x : Bool × Router M E R κ} {indication : DataIndication R}
    (hup : O (.passUp indication packet)) :
    Moves K O x.2 (passUpIf packet indication x) := by
  unfold passUpIf passUp
  split_ifs
  · exact (forwards_output hup).toMoves
  · exact .still ⟨rfl, rfl⟩ rfl
  · exact .still ⟨rfl, rfl⟩ rfl

variable [SecuredCodec M]

theorem from_reduceLifetime {p : Pending M} (h : p.From K) (d : Duration) :
    (BufferData.reduceLifetime p d).2.From K := by
  cases p <;> exact h

theorem forwards_store {p : Pending M} (hp : p.From K) : Forwards K O r (r.store p) where
  keeps := ⟨rfl, rfl⟩
  table := rfl
  traced h := by
    refine ⟨h.outputs, fun q hq => ?_, h.uc, h.cbf⟩
    rcases PacketBuffer.mem_push hq with hq | rfl
    · exact h.bc q hq
    · exact from_reduceLifetime hp 0

section Contending

variable [CbfCounter κ]

theorem forwards_contend {env : Environment} {p : CbfPacket M} (hp : K p.packet.origin) {timeout : Units.Duration} :
    Forwards K O r (r.contend env p timeout) where
  keeps := ⟨rfl, rfl⟩
  table := rfl
  traced h := by
    refine ⟨h.outputs, h.bc, h.uc, fun q hq => ?_⟩
    rcases CbfPacketBuffer.mem_add hq with hq | rfl
    · exact h.cbf q hq
    · exact hp

theorem forwards_removeContending (id : CbfPacketIdentifier) : Forwards K O r (r.removeContending id).2 where
  keeps := ⟨rfl, rfl⟩
  table := rfl
  traced h := ⟨h.outputs, h.bc, h.uc, fun q hq => h.cbf q ((r.cbfBuffer.remove_leaves id).packets.subset hq)⟩

theorem forwards_updateContending (id : CbfPacketIdentifier) (timeout : Duration) :
    Forwards K O r { r with cbfBuffer := r.cbfBuffer.update id timeout } where
  keeps := ⟨rfl, rfl⟩
  table := rfl
  traced h := by
    refine ⟨h.outputs, h.bc, h.uc, fun q hq => ?_⟩
    rcases CbfPacketBuffer.mem_update hq with hq | ⟨p, hp, d, rfl⟩
    · exact h.cbf q hq
    · exact h.cbf p hp

end Contending

/-! ### Algorithms -/

/-- A forwarding decision about received packets. -/
def Hops (K : Received M → Prop) (O : Output M R → Prop) (r : Router M E R κ) (x : NextHop M × Router M E R κ) : Prop :=
  x.1.From K ∧ Forwards K O r x.2

variable (env : Environment)

theorem hops_greedyForwarding (hp : K p.origin) : Hops K O r (r.greedyForwarding env p) := by
  unfold greedyForwarding
  dsimp only
  split_ifs
  · exact ⟨hp, .refl⟩
  · exact ⟨trivial, forwards_store hp⟩
  · exact ⟨hp, .refl⟩

section Contention

variable [CbfCounter κ]

theorem hops_nonAreaContentionBasedForwarding (hp : K p.origin) (sender : MacAddress) :
    Hops K O r (r.nonAreaContentionBasedForwarding env p sender) := by
  have hremoved := forwards_removeContending (K := K) (O := O) (r := r) p.header.identifier
  unfold nonAreaContentionBasedForwarding
  dsimp only
  split_ifs
  · exact ⟨trivial, hremoved⟩
  · split
    · split_ifs
      · exact ⟨trivial, hremoved.trans (forwards_contend hp)⟩
      · exact ⟨trivial, hremoved⟩
    · exact ⟨trivial, hremoved.trans (forwards_contend hp)⟩

theorem hops_areaContentionBasedForwarding (hp : K p.origin) (sender : MacAddress) :
    Hops K O r (r.areaContentionBasedForwarding env p sender) := by
  have hremoved := forwards_removeContending (K := K) (O := O) (r := r) p.header.identifier
  unfold areaContentionBasedForwarding
  dsimp only
  split_ifs
  · exact ⟨trivial, hremoved⟩
  · exact ⟨trivial, hremoved.trans (forwards_contend hp)⟩

theorem hops_areaAdvancedForwarding (hp : K p.origin) (ll : LinkLayer) :
    Hops K O r (r.areaAdvancedForwarding env p ll) := by
  unfold areaAdvancedForwarding
  dsimp only
  split
  · split_ifs
    · exact ⟨trivial, forwards_removeContending _⟩
    · exact ⟨trivial, forwards_removeContending _⟩
    · exact ⟨trivial, forwards_updateContending _ _⟩
  · split_ifs
    · obtain ⟨hhop, hgreedy⟩ := hops_greedyForwarding (K := K) (O := O) (r := r) env (p := p.duplicate)
        (by rwa [p.origin_duplicate])
      exact ⟨hhop, hgreedy.trans (forwards_contend hp)⟩
    · exact ⟨trivial, forwards_contend hp⟩

end Contention

variable (hO : Admits K O)

include hO

theorem forwards_transmit {p : Packet M} (hp : K p.origin) (mac : MacAddress) : Forwards K O r (r.transmit p mac) :=
  forwards_output (hO.handed _ hp)

theorem forwards_processNextHop {x : NextHop M × Router M E R κ} (hx : Hops K O r x) :
    Forwards K O r (processNextHop x) := by
  obtain ⟨hop, r'⟩ := x
  obtain ⟨hhop, h⟩ := hx
  cases hop with
  | transmit p mac => exact h.trans (forwards_transmit hO hhop mac)
  | _ => exact h

theorem forwards_processContended {p : CbfPacket M} (hp : K p.packet.origin) :
    Forwards K O r (r.processContended p) := by
  unfold processContended
  split_ifs
  · exact .refl
  · exact forwards_transmit hO hp _

theorem forwards_forwardTsb (hrx : K rx.received) (source : MacAddress) : Forwards K O r (r.forwardTsb rx source) := by
  unfold forwardTsb
  split
  · exact forwards_output (hO.stopped _)
  · rename_i hhop
    split
    · exact forwards_output (hO.stopped _)
    · dsimp only
      split_ifs
      · exact forwards_store (p := .tsb (rx.forwardingDuplicate hhop)) hrx
      · exact forwards_transmit hO (p := rx.forwardingDuplicate hhop) hrx _

variable [CbfCounter κ]

theorem hops_forwardingAlgorithmSelection (hp : K p.origin) (ll : LinkLayer) :
    Hops K O r (r.forwardingAlgorithmSelection env p ll) := by
  unfold forwardingAlgorithmSelection
  split_ifs
  · split
    · exact ⟨hp, .refl⟩
    · exact ⟨hp, .refl⟩
    · exact hops_areaContentionBasedForwarding env hp ll.sender
    · exact hops_areaAdvancedForwarding env hp ll
  · exact ⟨trivial, forwards_output (hO.stopped _)⟩
  · split
    · exact hops_greedyForwarding env hp
    · exact hops_greedyForwarding env hp
    · exact hops_nonAreaContentionBasedForwarding env hp ll.sender

theorem forwards_process {p : Pending M} (hp : p.From K) : Forwards K O r (r.process env p) := by
  cases p with
  | own p =>
    have hdecided : Forwards K O r { r with decisions := r.decisions + 1 } := ⟨.still ⟨rfl, rfl⟩ rfl, rfl⟩
    unfold process
    dsimp only
    split
    · exact hdecided.trans (forwards_output (hO.own _ _))
    · exact hdecided.trans (forwards_store trivial)
    · exact hdecided
  | tsb p => exact forwards_transmit hO hp _
  | gbc p action =>
    cases action with
    | forwarding ll => exact forwards_processNextHop hO (hops_forwardingAlgorithmSelection env hO hp ll)
    | greedy => exact forwards_processNextHop hO (hops_greedyForwarding env hp)

theorem forwards_taken {b : PacketBuffer (Pending M)} (hb : ∀ p ∈ b.packets, p.From K) (now : TimePoint) :
    Forwards K O r ((b.take now).1.foldl (process env) r) := by
  refine .foldl (G := Pending.From K) (fun hp => forwards_process env hO hp) _ fun p hp => ?_
  obtain ⟨q, hq, d, rfl⟩ := PacketBuffer.mem_take hp
  exact from_reduceLifetime (hb q hq) d

theorem forwards_flushBroadcastForwardingBuffer (h : r.Traced given K O) :
    Forwards K O r (r.flushBroadcastForwardingBuffer env) :=
  have htaken : Forwards K O r { r with bcForwardBuffer := (r.bcForwardBuffer.take r.now).2 } :=
    { keeps := ⟨rfl, rfl⟩, table := rfl, traced := fun h => ⟨h.outputs, fun _ hp => (nomatch hp), h.uc, h.cbf⟩ }
  htaken.trans (forwards_taken env hO h.bc r.now)

theorem forwards_flushUnicastForwardingBuffer (h : r.Traced given K O) :
    Forwards K O r (r.flushUnicastForwardingBuffer env) :=
  have htaken : Forwards K O r { r with ucForwardBuffer := (r.ucForwardBuffer.take r.now).2 } :=
    { keeps := ⟨rfl, rfl⟩, table := rfl, traced := fun h => ⟨h.outputs, h.bc, fun _ hp => (nomatch hp), h.cbf⟩ }
  htaken.trans (forwards_taken env hO h.uc r.now)

theorem forwards_forwardGbc (hrx : K rx.received) : Forwards K O r (r.forwardGbc env rx gbc hgbc area harea) := by
  unfold forwardGbc
  split
  · exact forwards_output (hO.stopped _)
  rename_i hhop
  split
  · exact forwards_output (hO.stopped _)
  · split
    · exact forwards_output (hO.stopped _)
    · have hpending : Pending.From K (.gbc ⟨rx.forwardingDuplicate hhop, gbc, hgbc, area, harea⟩
        (.forwarding rx.linkLayer)) :=
        hrx
      dsimp only
      split_ifs
      · exact forwards_store hpending
      · exact forwards_process env hO hpending

/-! ### Extended headers -/

omit hO [SecuredCodec M] [CbfCounter κ] in
theorem moves_detectDuplicateAddress (source : Address) (sender : MacAddress) :
    Moves K O r (r.detectDuplicateAddress env source sender) := by
  unfold detectDuplicateAddress
  dsimp only
  split_ifs <;> exact .still ⟨rfl, rfl⟩ rfl

omit hO [SecuredCodec M] [CbfCounter κ] in
theorem moves_noteNeighbour (v : LongPositionVector) : Moves K O r (r.noteNeighbour env rx v) := by
  unfold noteNeighbour
  exact (((moves_detectDuplicateAddress env _ _).withTable _).withTable _).withTable _

omit hO [SecuredCodec M] [CbfCounter κ] in
theorem moves_processShb (shb : ShbHeader) : Moves K O r (r.processShb env rx shb).2 := by
  have hnote : Moves K O r (r.noteNeighbour env rx shb.sourcePosition) := moves_noteNeighbour env _
  unfold processShb
  dsimp only
  split_ifs
  · exact hnote.withTable _
  · exact hnote

theorem moves_noteSource (h : r.Traced given K O) (v : LongPositionVector) (known : Bool) :
    Moves K O r (r.noteSource env rx v known) := by
  have hflush : ∀ {r'}, Moves K O r r' → Moves K O r (r'.flushUnicastForwardingBuffer env) := fun hm =>
    hm.trans (forwards_flushUnicastForwardingBuffer env hO (hm.traced h)).toMoves
  unfold noteSource
  refine hflush (Moves.withTable ?_ _)
  split_ifs
  · exact (moves_detectDuplicateAddress env _ _).withTable _
  · exact Moves.withTable (.still ⟨rfl, rfl⟩ rfl) _
  · exact ((moves_detectDuplicateAddress env _ _).withTable _).withTable _
  · exact (Moves.withTable (.still ⟨rfl, rfl⟩ rfl) _).withTable _

theorem moves_processTsb (h : r.Traced given K O) (hrx : K rx.received) (tsb : TsbHeader) :
    Moves K O r (r.processTsb env rx tsb).2 := by
  have hdetect : Moves K O r (r.detectDuplicatePacket tsb.sourcePosition.gnAddr tsb.sequenceNumber).2 :=
    .still ⟨rfl, rfl⟩ rfl
  unfold processTsb
  dsimp only
  split_ifs
  · exact hdetect
  · exact (hdetect.trans (moves_noteSource env hO (hdetect.traced h) _ _)).trans (forwards_forwardTsb hO hrx _).toMoves

theorem Traced.processGbc (h : r.Traced given K O) (hrx : K rx.received) :
    (r.processGbc env rx gbc hgbc area harea).2.Traced given K O := by
  have hdecide : ∀ {r : Router M E R κ} (within : Bool), r.Traced given K O → (r.decidePassUp within gbc).2.Traced
    given K O := by
    intro r within h
    unfold decidePassUp
    dsimp only
    split_ifs
    all_goals exact ⟨h.outputs, h.bc, h.uc, h.cbf⟩
  have hdetect : (r.detectDuplicatePacket gbc.sourcePosition.gnAddr gbc.sequenceNumber).2.Traced given K O :=
    ⟨h.outputs, h.bc, h.uc, h.cbf⟩
  have hforward : ∀ {r : Router M E R κ} {known : Bool}, r.Traced given K O →
      ((r.noteSource env rx gbc.sourcePosition known).forwardGbc env rx gbc hgbc area harea).Traced given K O :=
    fun h => ((moves_noteSource env hO h _ _).trans (forwards_forwardGbc env hO hrx).toMoves).traced h
  unfold Router.processGbc
  dsimp only
  split_ifs
  · exact hdetect
  · exact hdecide _ (hforward hdetect)
  · exact h
  · exact hdecide _ (hforward h)

/-! ### Indications -/

omit hO in
/-- A predicate that whatever the router does with packets of the property
keeps. -/
structure Closed (env : Environment) (K : Received M → Prop) (O : Output M R → Prop)
    (I : Router M E R κ → Prop) : Prop where
  traced : ∀ {r}, I r → ∃ given, r.Traced given K O
  moves : ∀ {r r'}, I r → Moves K O r r' → I r'
  gbc : ∀ {r} {rx : Reception M} {gbc hgbc area harea}, I r → K rx.received →
    I (r.processGbc env rx gbc hgbc area harea).2

theorem closed_traced : Closed env K O (Traced (E := E) (κ := κ) given K O) where
  traced h := ⟨given, h⟩
  moves h hm := hm.traced h
  gbc h hrx := h.processGbc env hO hrx

variable {env} {I : Router M E R κ → Prop}

theorem Closed.visitExtended (hI : Closed env K O I) (h : I r) (hrx : K rx.received)
    {report : Option R} (hup : ∀ indication, O (.passUp indication packet)) (hthrew : O .threw) :
    I (r.visitExtended env rx report packet) := by
  obtain ⟨given, ht⟩ := hI.traced h
  unfold Router.visitExtended
  split
  · exact hI.moves h ((moves_processShb env _).trans (moves_passUpIf (hup _)))
  · exact hI.moves h ((moves_processTsb env hO ht hrx _).trans (moves_passUpIf (hup _)))
  · exact hI.moves h (moves_noteNeighbour env _)
  · split
    · exact hI.moves h (forwards_output hthrew).toMoves
    · exact hI.moves (hI.gbc h hrx) (moves_passUpIf (hup _))

theorem Closed.cleanUp (hI : Closed env K O I) (h : I r) : I (r.cleanUp env) := by
  obtain ⟨given, ht⟩ := hI.traced h
  have hexpired : Moves K O r (r.withTable fun t => t.dropExpired r.now) := .still ⟨rfl, rfl⟩ rfl
  exact hI.moves h (hexpired.trans (forwards_flushBroadcastForwardingBuffer env hO (hexpired.traced ht)).toMoves)

end Router

end Wire
end VanetzaIdf.Geonet
