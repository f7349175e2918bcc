/-
# What is forwarded

Every copy that the router hands to the access layer is of a packet that was
indicated to it, with a hop less and perhaps another lifetime
(`forwarded_copies`). Which packet it is a copy of is followed from the octets
through the buffers (`Traced`), once for every predicate that is `Closed`.
-/
import VanetzaIdf.Geonet.Wire.Delivered

namespace VanetzaIdf.Geonet.Wire

open Lib List

variable {M E R κ : Type}

/-! ### Octets and packets -/

/-- The octets say this packet: after the basic header there is a secured
message, or there are the headers and as many octets as announced. -/
def IsReceived [SecuredCodec M] (b : ByteBuffer) (o : Received M) : Prop :=
  ∃ rest, b = o.pdu.basic.serialize ++ rest ∧
    match o.pdu.secured with
    | some m => ({ input := rest } : Parser).parseSecured.1 = some m
    | none => ∃ trailing, rest = o.pdu.common.serialize ++ (o.pdu.extended.serialize ++ (o.payload ++ trailing)) ∧
        o.payload.length = o.pdu.common.payload.toNat

theorem Parser.parseSecured_fst [SecuredCodec M] {p : Parser} (hgood : p.good = true) :
    ({ input := p.input } : Parser).parseSecured.1 = (p.parseSecured (M := M)).1 := by
  obtain ⟨input, good, readBytes⟩ := p
  subst hgood
  unfold Parser.parseSecured
  cases input with
  | nil => rfl
  | cons first tail =>
    dsimp only
    split
    · split <;> rfl
    · rfl

theorem Parser.parse_good {α : Type} {d : Decoder Unit α} {n : ℕ} {p p' : Parser} {a : α}
    (h : p.parse d n = (some a, p')) :
    p'.good = p.good := by
  unfold Parser.parse at h
  split at h <;> cases h
  rfl

theorem isReceived_secured [SecuredCodec M] {b : ByteBuffer} {basic : BasicHeader} {p p' : Parser} {message : M}
    (hbasic : ({ input := b } : Parser).parseBasic = (some basic, p)) (hmessage : p.parseSecured = (some message, p'))
    (common : CommonHeader) (extended : HeaderVariant) (payload : ByteBuffer) :
    IsReceived b ⟨⟨basic, common, extended, some message⟩, payload⟩ := by
  refine ⟨p.input, (Parser.parse_eq_some BasicHeader.fixed.yields hbasic).1, ?_⟩
  dsimp only
  rw [Parser.parseSecured_fst (Parser.parse_good hbasic), hmessage]

theorem isReceived_complete [SecuredCodec M] {b : ByteBuffer} {basic : BasicHeader} {common : CommonHeader}
    {extended : HeaderVariant} {p : Parser}
    (hheaders : ({ input := b } : Parser).parseHeaders = (some (basic, common, extended), p))
    (hlen : p.readBytes + common.payload.toNat ≤ b.length) :
    IsReceived b (⟨⟨basic, common, extended, none⟩, (b.drop p.readBytes).take common.payload.toNat⟩ : Received M) := by
  obtain ⟨hb, hread, -, -⟩ := Parser.parseHeaders_accepts (M := M) hheaders
  have hdrop : b.drop p.readBytes = p.input := by
    rw [hread]
    nth_rewrite 1 [hb]
    exact drop_left' (Pdu.length_serialize rfl)
  have hpayload : (p.input.take common.payload.toNat).length = common.payload.toNat := by
    apply length_take_of_le
    rw [← hdrop, length_drop]
    omega
  rw [hdrop]
  refine ⟨common.serialize ++ (extended.serialize ++ p.input), ?_, p.input.drop common.payload.toNat, ?_, hpayload⟩
  · rw [hb, Pdu.serialize_unsecured rfl, append_assoc, append_assoc]
  · dsimp only
    rw [take_append_drop]

/-- A packet in a forwarding buffer is a copy of this one. -/
def Pending.Of (o : Received M) : Pending M → Prop
  | .own _ => False
  | .tsb p => p.origin = o
  | .gbc p _ => p.origin = o

namespace Router

/-- A copy of the packet waits in one of the buffers. -/
def Waits (r : Router M E R κ) (o : Received M) : Prop :=
  (∃ p ∈ r.bcForwardBuffer.packets, p.Of o) ∨ (∃ p ∈ r.ucForwardBuffer.packets, p.Of o) ∨
    ∃ p ∈ r.cbfBuffer.packets, p.packet.origin = o

/-- What is handed over is a copy of a received packet in `K`. -/
def CopiesOf (K : Received M → Prop) (x : Output M R) : Prop := ∀ y, x = .handed y → K y.origin

theorem admits_copiesOf (K : Received M → Prop) : Admits K (CopiesOf (R := R) K) where
  handed _ hx _ hy := by
    cases hy
    exact hx
  own _ _ _ hy := by cases hy
  stopped _ _ hy := by cases hy

theorem traced_waits {K : Received M → Prop} (r : Router M E R κ) (h : ∀ o, r.Waits o → K o) :
    r.Traced r.outputs K (CopiesOf K) where
  outputs := ⟨[], (append_nil _).symm, fun _ hx => absurd hx not_mem_nil⟩
  bc p hp := by
    cases p with
    | own p => exact True.intro
    | tsb | gbc => exact h _ (.inl ⟨_, hp, rfl⟩)
  uc p hp := by
    cases p with
    | own p => exact True.intro
    | tsb | gbc => exact h _ (.inr (.inl ⟨_, hp, rfl⟩))
  cbf _ hp := h _ (.inr (.inr ⟨_, hp, rfl⟩))

theorem Traced.mono {given : List (Output M R)} {K K' : Received M → Prop} {r : Router M E R κ}
    (hK : ∀ o, K o → K' o) (h : r.Traced given K (CopiesOf K)) : r.Traced given K' (CopiesOf K') := by
  have hfrom : ∀ p : Pending M, p.From K → p.From K' := by
    rintro (p | p | p) hp
    · exact hp
    · exact hK _ hp
    · exact hK _ hp
  obtain ⟨fresh, hfresh, hcopies⟩ := h.outputs
  exact ⟨⟨fresh, hfresh, fun x hx y hy => hK _ (hcopies x hx y hy)⟩, fun p hp => hfrom p (h.bc p hp),
    fun p hp => hfrom p (h.uc p hp), fun p hp => hK _ (h.cbf p hp)⟩

section

variable [SecuredCodec M] [CbfCounter κ] {given : List (Output M R)} {K : Received M → Prop} {r : Router M E R κ}
  {env : Environment} {physical link b : ByteBuffer} {basic : BasicHeader} {ll : LinkLayer} {report : Option R}
  {I : Router M E R κ → Prop}

/-! ### Indications -/

namespace Closed

variable (hI : Closed env K (CopiesOf K) I)

include hI

theorem output (h : I r) {x : Output M R} (hx : ∀ y, x ≠ .handed y) : I (r.output x) :=
  hI.moves h (forwards_output fun y hy => absurd hy (hx y)).toMoves

theorem drop (h : I r) (reason : PacketDropReason) : I (r.drop reason) := hI.output h fun _ hy => by cases hy

theorem visit (h : I r) {rx : Reception M} (hrx : K rx.received) {packet : CohesivePacket} :
    I (r.visitExtended env rx report packet) :=
  hI.visitExtended (admits_copiesOf K) h hrx (fun _ _ hy => by cases hy) fun _ hy => by cases hy

theorem indicateCommon (h : I r) {ctx : IndicationContext} {secured : Option M}
    {hmarked : secured.isSome ↔ basic.nextHeader = .secured}
    (hK : ∀ common extended payload, K ⟨⟨basic, common, extended, secured⟩, payload⟩) :
    I (r.indicateCommon env ctx basic secured hmarked report ll) := by
  unfold Router.indicateCommon
  split
  · exact hI.drop h _
  · split_ifs
    · exact hI.drop h _
    · have hclean := hI.cleanUp (admits_copiesOf K) h
      unfold indicateExtended
      dsimp only
      split
      · exact hI.output hclean fun _ hy => by cases hy
      · split
        · exact hI.drop hclean _
        · split_ifs
          · exact hI.drop hclean _
          · refine hI.visit hclean ?_
            exact hK _ _ _

theorem unsecured (h : I r) (hK : ∀ o, IsReceived b o → K o) {p : Parser}
    (hbasic : ({ input := b } : Parser).parseBasic = (some basic, p)) (hnext : basic.nextHeader = .common) :
    I (r.indicateCommon env (.deserialize (.received physical link b) p) basic none (unmarked hnext) none ll) := by
  have hat := (Parser.at_start b).parseBasic hbasic
  unfold Router.indicateCommon
  dsimp only [IndicationContext.parser]
  split
  · exact hI.drop h _
  · rename_i common p₂ hcommon
    split_ifs
    · exact hI.drop h _
    · have hclean := hI.cleanUp (admits_copiesOf K) h
      dsimp only [IndicationContext.withParser]
      rw [indicateExtended_eq (hat.parseCommon hcommon) hnext]
      split
      · exact hI.drop hclean _
      · rename_i extended p₃ hextended
        split_ifs with hshort
        · exact hI.drop hclean _
        · refine hI.visit hclean (hK _ ?_)
          have hreceived := isReceived_complete (M := M) (Parser.parseHeaders_of hbasic hcommon hextended) (by omega)
          rwa [← append_nil (List.take _ _)] at hreceived

variable [Decapsulation E M R]

theorem indicate (h : I r) (hK : ∀ o, IsReceived b o → K o) : I (r.indicate env physical link b ll) := by
  unfold Router.indicate indicateBasic
  rw [CohesivePacket.layer_received_network]
  split
  · exact hI.drop h _
  · rename_i basic p hbasic
    split_ifs with hversion hsec hcommon hhandling
    · exact hI.drop h _
    · unfold indicateSecured
      split
      · exact hI.drop h _
      · rename_i message p' hmessage
        have hany := fun common extended payload => hK _ (isReceived_secured hbasic hmessage common extended payload)
        split
        · exact hI.drop h _
        · rename_i entity hentity
          have h' : I { r with securityEntity := some (Decapsulation.decapsulatePacket (R := R) entity message).2 } :=
            hI.moves h (.still ⟨rfl, rfl⟩ rfl)
          dsimp only
          split
          · split
            · exact hI.indicateCommon h' hany
            · split <;> exact hI.output h' fun _ hy => by cases hy
          · exact hI.drop h' _
    · exact hI.unsecured h hK hbasic hcommon
    · exact hI.drop h _
    · exact h

end Closed

/-! ### Runs -/

variable [Decapsulation E M R]

/-- The event indicates the octets of `o`. -/
def Event.Says (e : Event E) (o : Received M) : Prop := ∃ physical link b ll, e = .indicate physical link b ll ∧
  IsReceived b o

omit [Decapsulation E M R] in
theorem Traced.fire (h : r.Traced given K (CopiesOf K)) :
    (∀ p ∈ (r.cbfBuffer.step .fire).1.packets, K p.packet.origin) ∧
      ∀ p ∈ (r.cbfBuffer.step .fire).2.packets, K p.packet.origin := by
  rcases r.cbfBuffer.fire_cases with heq | ⟨c, runtime, -, ⟨-, heq⟩ | ⟨-, heq⟩⟩ <;> rw [heq]
  · exact ⟨fun _ hp => absurd hp not_mem_nil, h.cbf⟩
  · obtain ⟨hsub, hout⟩ := CbfPacketBuffer.mem_flush { r.cbfBuffer with runtime }
    refine ⟨fun p hp => ?_, fun p hp => h.cbf p (hsub hp)⟩
    obtain ⟨q, hq, d, rfl⟩ := hout p hp
    exact h.cbf q hq
  · exact ⟨fun _ hp => absurd hp not_mem_nil, h.cbf⟩

theorem Closed.step (hI : Closed env K (CopiesOf K) I) (h : I r) (e : Event E) (hK : ∀ o, e.Says o → K o) :
    I (r.step env e) := by
  obtain ⟨given, ht⟩ := hI.traced h
  have hO := admits_copiesOf (R := R) K
  cases e with
  | indicate physical link b ll => exact hI.indicate h fun o ho => hK o ⟨physical, link, b, ll, rfl, ho⟩
  | fire =>
    have hleft : I { r with cbfBuffer := (r.cbfBuffer.step .fire).2 } :=
      hI.moves h ⟨⟨rfl, rfl⟩, fun h => ⟨h.outputs, h.bc, h.uc, h.fire.2⟩⟩
    exact hI.moves hleft (Forwards.foldl (G := fun p : CbfPacket M => K p.packet.origin)
      (fun hp => forwards_processContended hO hp) _ ht.fire.1).toMoves
  | submit p => exact hI.moves h (forwards_process env hO (p := .own p) True.intro).toMoves
  | flushForwardingBuffers =>
    have hbroadcast := forwards_flushBroadcastForwardingBuffer env hO ht
    exact hI.moves h (hbroadcast.trans (forwards_flushUnicastForwardingBuffer env hO (hbroadcast.traced ht))).toMoves
  | _ => exact hI.moves h (.still ⟨rfl, rfl⟩ rfl)

theorem Closed.run (hI : Closed env K (CopiesOf K) I) : ∀ (es : List (Event E)) {r : Router M E R κ}, I r →
    (∀ e ∈ es, ∀ o, e.Says o → K o) → I (r.run env es)
  | [], _, h, _ => h
  | e :: es, _, h, hK =>
    hI.run es (hI.step h e (hK e mem_cons_self)) fun e' he' => hK e' (mem_cons_of_mem _ he')

/-- **Forwarding alters only hop limit and lifetime.** Along every run from any state, what is
handed over has a hop less than the packet it is a copy of, which waited at the start or was
indicated during the run. -/
theorem forwarded_copies (env : Environment) (r : Router M E R κ) (es : List (Event E)) :
    ∃ fresh, (r.run env es).outputs = r.outputs ++ fresh ∧ ∀ x, .handed x ∈ fresh →
      IsCopy x.origin x.pdu x.packet.upper ∧ 2 ≤ x.origin.pdu.basic.hopLimit.toNat ∧
      (r.Waits x.origin ∨ ∃ physical link b ll, .indicate physical link b ll ∈ es ∧ IsReceived b x.origin) := by
  let K : Received M → Prop := fun o => r.Waits o ∨ ∃ e ∈ es, e.Says o
  have hstart : r.Traced r.outputs K (CopiesOf K) := traced_waits r fun o ho => .inl ho
  have hrun := (closed_traced env (admits_copiesOf K)).run es hstart fun e he o ho => .inr ⟨e, he, ho⟩
  obtain ⟨fresh, heq, hfresh⟩ := hrun.outputs
  refine ⟨fresh, heq, fun x hx => ⟨x.isCopy, ?_, ?_⟩⟩
  · have hpos := x.isCopy.hopLimit_pos
    have hhop := x.isCopy.hopLimit
    omega
  · rcases hfresh _ hx x rfl with hwaits | ⟨e, he, physical, link, b, ll, rfl, hreceived⟩
    · exact .inl hwaits
    · exact .inr ⟨physical, link, b, ll, he, hreceived⟩

end

/-- A packet of several hops with two octets. -/
def sampleTsb : Pdu SampleMessage where
  basic := { version := 1, nextHeader := .common, hopLimit := 5, lifetime := ⟨.oneSecond, 10⟩ }
  common := { nextHeader := .btpB, headerType := .tsbMultiHop, payload := 2, maximumHopLimit := 5 }
  extended := .tsb {}

/-- The next such packet, secured. -/
def sampleSecuredTsb : ByteBuffer :=
  ({ sampleTsb.basic with nextHeader := .secured } : BasicHeader).serialize ++
    ([2] ++ (sampleTsb.common.serialize ++ ((HeaderVariant.tsb { sequenceNumber := 1 }).serialize ++ [7, 8])))

/-- Both are forwarded with a hop less, the secured one without payload. -/
theorem forwarded_copies_tsb :
    (∃ fresh, ((sampleRouter {}).run sampleSurroundings
        [.indicate [] [] (sampleTsb.serialize ++ [7, 8, 9]) sampleLink,
          .indicate [] [] sampleSecuredTsb sampleLink]).outputs =
        (sampleRouter {}).outputs ++ fresh ∧ ∀ x, .handed x ∈ fresh → x.pdu.basic.hopLimit.toNat + 1 =
          x.origin.pdu.basic.hopLimit.toNat) ∧
      ((sampleRouter {}).run sampleSurroundings
        [.indicate [] [] (sampleTsb.serialize ++ [7, 8, 9]) sampleLink,
          .indicate [] [] sampleSecuredTsb sampleLink]).outputs.map
        (fun | .handed x => some (x.pdu.basic.hopLimit, x.pdu.secured.isSome, x.packet.upper) | _ => none) =
        [some (4, false, [7, 8]), none, some (4, true, []), none] := by
  refine ⟨?_, by decide +kernel⟩
  obtain ⟨fresh, heq, hfresh⟩ := forwarded_copies sampleSurroundings (sampleRouter {})
    [.indicate [] [] (sampleTsb.serialize ++ [7, 8, 9]) sampleLink, .indicate [] [] sampleSecuredTsb sampleLink]
  exact ⟨fresh, heq, fun x hx => (hfresh x hx).1.hopLimit⟩

end Router

end VanetzaIdf.Geonet.Wire
