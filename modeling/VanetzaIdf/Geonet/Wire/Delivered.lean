/-
# What reception delivers

For a packet that is not secured: the boundary that is set is inside the packet,
the announced octets after the headers are passed up, a packet that is too short
leaves nothing but the cleaning up, and octets after the announced ones make no
difference. The argument follows the parser through the octets (`At`,
`indicate_cases`). Under strict handling a packet that the security entity does
not vouch for leaves the router as it is (`strict_ignores`).
-/
import VanetzaIdf.Geonet.Wire.Traced

namespace VanetzaIdf.Geonet.Wire

open Lib Decoder List

/-! ### The parser in the octets -/

namespace Parser

/-- What is left are the octets after those counted. -/
structure At (b : ByteBuffer) (p : Parser) : Prop where
  le : p.readBytes ≤ b.length
  input : p.input = b.drop p.readBytes

variable {α : Type} {b : ByteBuffer} {p : Parser}
  {d : Decoder Unit α} {n : ℕ} {write : α → ByteBuffer} {p₁ : Parser} {basic : BasicHeader}
  {common : CommonHeader} {extended : HeaderVariant}

theorem At.parse (h : p.At b) (hsized : Sized n d) (hyields : Yields [] d write) :
    (∃ a, (p.parse d n).1 = some a ∧ (p.parse d n).2.At b ∧ (p.parse d n).2.readBytes = p.readBytes + n) ∨
    ((p.parse d n).1 = none ∧ (p.parse d n).2.readBytes = p.readBytes) := by
  have hlen := h.le
  rcases parse_cases hsized hyields p with ⟨a, hle, heq, -⟩ | ⟨-, heq⟩
  · rw [h.input, length_drop] at hle
    refine .inl ⟨a, by rw [heq], ?_, by rw [heq]⟩
    rw [heq]
    exact ⟨by show p.readBytes + n ≤ b.length; omega, by show p.input.drop n = _; rw [h.input, drop_drop]⟩
  · exact .inr ⟨by rw [heq], by rw [heq]⟩

theorem At.read (h : p.At b) (hsized : Sized n d)
    (hyields : Yields [] d write) {a : α} (hp : p.parse d n = (some a, p₁)) : p₁.At b := by
  rcases h.parse hsized hyields with ⟨a', -, hat, -⟩ | ⟨hnone, -⟩
  · rwa [hp] at hat
  · rw [hp] at hnone
    cases hnone

theorem At.parseBasic (h : p.At b) (hp : p.parseBasic = (some basic, p₁)) : p₁.At b :=
  h.read BasicHeader.fixed.sized BasicHeader.fixed.yields hp

theorem At.parseCommon (h : p.At b) (hp : p.parseCommon = (some common, p₁)) : p₁.At b :=
  h.read CommonHeader.fixed.sized CommonHeader.fixed.yields hp

theorem At.parseExtended (h : p.At b) (ht : HeaderType) :
    (p.parseExtended ht).2.readBytes ≤ b.length := by
  unfold Parser.parseExtended
  split
  · rename_i d n hd
    have hspec := extendedFormat_spec hd
    rcases h.parse hspec.sized hspec.yields with ⟨a, -, hat, -⟩ | ⟨-, hread⟩
    · exact hat.le
    · rw [hread]
      exact h.le
  · exact h.le

theorem at_start (b : ByteBuffer) : ({ input := b } : Parser).At b := ⟨Nat.zero_le _, rfl⟩

theorem parseHeaders_eq_some {p₃ : Parser} (h : p.parseHeaders = (some (basic, common, extended), p₃)) :
    ∃ p₁ p₂, p.parseBasic = (some basic, p₁) ∧ p₁.parseCommon = (some common, p₂) ∧
      p₂.parseExtended common.headerType = (some extended, p₃) := by
  unfold parseHeaders at h
  split at h
  · cases h
  · rename_i basic' p₁ hbasic
    split at h
    · cases h
    · rename_i common' p₂ hcommon
      split at h
      · cases h
      · rename_i extended' p₃' hextended
        cases h
        exact ⟨p₁, p₂, hbasic, hcommon, hextended⟩

theorem parseExtended_eq_some {ht : HeaderType} {x : HeaderVariant} {p' : Parser}
    (h : p.parseExtended ht = (some x, p')) :
    p.input = x.serialize ++ p'.input ∧ p'.readBytes = p.readBytes + x.length ∧ x.SelectedBy ht ∧ x.withRawDcc = x := by
  unfold Parser.parseExtended at h
  split at h
  · rename_i d n hd
    obtain ⟨hinput, hread⟩ := parse_eq_some (extendedFormat_spec hd).yields h
    unfold Parser.parse at h
    split at h
    · rename_i x' rest st hx
      cases h
      obtain ⟨hsel, hraw⟩ := extendedFormat_gives hd hx
      rw [((extendedFormat_spec hd).reads x hsel).1]
      exact ⟨hinput, hread, hsel, hraw⟩
    · cases h
  · cases h

/-- **Accepted headers.** They write the octets before what is left, as many
as were counted. -/
theorem parseHeaders_accepts {M : Type} [SecuredCodec M]
    (h : ({ input := b } : Parser).parseHeaders = (some (basic, common, extended), p)) :
    b = (⟨basic, common, extended, none⟩ : Pdu M).serialize ++ p.input ∧
      p.readBytes = (⟨basic, common, extended, none⟩ : Pdu M).getLength ∧
      extended.SelectedBy common.headerType ∧ extended.withRawDcc = extended := by
  obtain ⟨p₁, p₂, hbasic, hcommon, hextended⟩ := parseHeaders_eq_some h
  obtain ⟨hinput₁, hread₁⟩ := parse_eq_some BasicHeader.fixed.yields hbasic
  obtain ⟨hinput₂, hread₂⟩ := parse_eq_some CommonHeader.fixed.yields hcommon
  obtain ⟨hinput₃, hread₃, hsel, hraw⟩ := parseExtended_eq_some hextended
  refine ⟨?_, ?_, hsel, hraw⟩
  · rw [Pdu.serialize_unsecured rfl, append_assoc, append_assoc, ← hinput₃, ← hinput₂]
    exact hinput₁
  · rw [hread₃, hread₂, hread₁]
    show 0 + 4 + 8 + extended.length = 4 + (8 + extended.length)
    omega

theorem parseHeaders_append
    (h : ({ input := b } : Parser).parseHeaders = (some (basic, common, extended), p)) (rest : ByteBuffer) :
    ({ input := b.take p.readBytes ++ rest } : Parser).parseHeaders =
      (some (basic, common, extended), { input := rest, readBytes := p.readBytes }) := by
  obtain ⟨hb, hread, hsel, hraw⟩ := parseHeaders_accepts (M := Empty) h
  have hlen : (⟨basic, common, extended, none⟩ : Pdu Empty).serialize.length = _ := Pdu.length_serialize rfl
  rw [hread, hb, take_left' hlen, parseHeaders_serialize rfl hsel, hraw]

end Parser

/-! ### The packet without what follows it -/

def finished (physical link b : ByteBuffer) (parsed payload : ℕ) : CohesivePacket :=
  ⟨physical ++ link ++ b, CohesivePacket.finishedEnds physical link b parsed payload⟩

theorem duplicate_finished {b : ByteBuffer} {parsed : ℕ} (h : parsed ≤ b.length) (physical link : ByteBuffer)
    (payload : ℕ) :
    (finished physical link b parsed payload).duplicate = CohesivePacket.finishedLayers physical link b
      parsed payload :=
  CohesivePacket.layers_finished h (CohesivePacket.finish_received physical link b h payload)

theorem finishedLayers_append (physical link : ByteBuffer) {b : ByteBuffer} {parsed payload : ℕ}
    (h : parsed + payload ≤ b.length) (trailing : ByteBuffer) :
    CohesivePacket.finishedLayers physical link (b.take (parsed + payload) ++ trailing) parsed payload =
      CohesivePacket.finishedLayers physical link b parsed payload := by
  have hparsed : (b.take parsed).length = parsed := length_take_of_le (by omega)
  have hpayload : ((b.drop parsed).take payload).length = payload :=
    length_take_of_le (by rw [length_drop]; omega)
  rw [take_add, append_assoc]
  funext l
  cases l with
  | network => exact take_left' hparsed
  | transport =>
    show ((b.take parsed ++ _).drop parsed).take payload = (b.drop parsed).take payload
    rw [drop_left' hparsed, take_left' hpayload]
  | _ => rfl

theorem unmarked {M : Type} {basic : BasicHeader} (hnext : basic.nextHeader = .common) :
    (none : Option M).isSome ↔ basic.nextHeader = .secured := by
  rw [hnext]
  exact iff_of_false Bool.false_ne_true (by decide)

/-- What of an output is there for the layers above. -/
def Output.seen {M R : Type} : Output M R → Output M R ⊕ (DataIndication R × DownPacket)
  | .passUp indication packet => .inr (indication, packet.duplicate)
  | x => .inl x

/-- No boundary is set outside the octets, and what is passed up are the
announced octets after the headers. -/
def Output.Delivers {M R : Type} (b : ByteBuffer) : Output M R → Prop
  | .aborted => False
  | .passUp _ packet => ∃ basic common extended p,
      ({ input := b } : Parser).parseHeaders = (some (basic, common, extended), p) ∧
      p.readBytes + common.payload.toNat ≤ b.length ∧
      packet.duplicate.upper = (b.drop p.readBytes).take common.payload.toNat
  | _ => True

theorem Pending.from_true {M : Type} (p : Pending M) : p.From fun _ => True := by
  cases p <;> exact True.intro

namespace Router

variable {M E R κ : Type}

/-- The same state, and the same outputs as far as layers above see them. -/
def Alike (r r' : Router M E R κ) : Prop :=
  ({ r with outputs := [] } : Router M E R κ) = { r' with outputs := [] } ∧ r.outputs.map Output.seen =
    r'.outputs.map Output.seen

variable (r : Router M E R κ)

theorem Alike.refl : r.Alike r := ⟨rfl, rfl⟩

theorem alike_passUp (indication : DataIndication R) {p q : CohesivePacket} (h : p.duplicate = q.duplicate) :
    (r.passUp indication p).Alike (r.passUp indication q) := by
  unfold Router.passUp
  split_ifs
  · refine ⟨rfl, ?_⟩
    show (r.outputs ++ [_]).map Output.seen = (r.outputs ++ [_]).map Output.seen
    rw [map_append, map_append]
    show _ ++ [Sum.inr (indication, p.duplicate)] = _ ++ [Sum.inr (indication, q.duplicate)]
    rw [h]
  · exact Alike.refl r

theorem alike_passUpIf (x : Bool × Router M E R κ) (indication : DataIndication R) {p q : CohesivePacket}
    (h : p.duplicate = q.duplicate) : (passUpIf p indication x).Alike (passUpIf q indication x) := by
  unfold passUpIf
  split_ifs
  · exact alike_passUp x.2 indication h
  · exact Alike.refl x.2

/-- The entity may have changed, and a packet may have been dropped. -/
def Ignored (r r' : Router M E R κ) : Prop :=
  ∃ entity fresh, r' = { r with securityEntity := entity, outputs := r.outputs ++ fresh } ∧ ∀ x ∈ fresh, ∃ reason, x =
    .dropped reason

theorem ignored_drop (reason : PacketDropReason) : r.Ignored (r.drop reason) :=
  ⟨r.securityEntity, [.dropped reason], rfl, fun _ hx => ⟨reason, mem_singleton.mp hx⟩⟩

theorem traced_self (O : Output M R → Prop) (r : Router M E R κ) : r.Traced r.outputs (fun _ => True) O where
  outputs := ⟨[], (append_nil _).symm, fun _ hx => absurd hx not_mem_nil⟩
  bc p _ := Pending.from_true p
  uc p _ := Pending.from_true p
  cbf _ _ := True.intro

theorem admits_delivers (b : ByteBuffer) : Admits (fun _ => True) (Output.Delivers (M := M) (R := R) b) :=
  ⟨fun _ _ => True.intro, fun _ _ => True.intro, fun _ => True.intro⟩

/-! ### Packets that are not secured -/

section

variable [SecuredCodec M] [CbfCounter κ]

theorem cleanUp_locationTable (env : Environment) (r : Router M E R κ) :
    (r.cleanUp env).locationTable = r.locationTable.dropExpired r.now :=
  (forwards_flushBroadcastForwardingBuffer env (admits_delivers []) (traced_self _ _)).table

theorem alike_visitExtended (env : Environment) (r : Router M E R κ) (rx : Reception M) (report : Option R)
    {p q : CohesivePacket} (h : p.duplicate = q.duplicate) :
    (r.visitExtended env rx report p).Alike (r.visitExtended env rx report q) := by
  unfold visitExtended
  split
  · exact alike_passUpIf _ _ h
  · exact alike_passUpIf _ _ h
  · exact Alike.refl _
  · split
    · exact Alike.refl _
    · exact alike_passUpIf _ _ h

def reception (physical link b : ByteBuffer) (parsed : ℕ) (basic : BasicHeader) (common : CommonHeader)
    (extended : HeaderVariant) (hnext : basic.nextHeader = .common) (ll : LinkLayer) : Reception M where
  pdu := ⟨basic, common, extended, none⟩
  packetSize := parsed + common.payload.toNat
  packet := CohesivePacket.finishedLayers physical link b parsed common.payload.toNat
  linkLayer := ll
  marked := unmarked hnext

variable [Decapsulation E M R] {env : Environment} {r : Router M E R κ} {physical link b : ByteBuffer} {ll : LinkLayer}
  {basic : BasicHeader} {common : CommonHeader} {extended : HeaderVariant} {p : Parser}

theorem indicate_unsecured (hoff : r.mib.itsGnSecurity = false)
    (hbasic : ({ input := b } : Parser).parseBasic = (some basic, p))
    (hnext : basic.nextHeader = .common) :
    r.indicate env physical link b ll =
      if basic.version.toNat ≠ r.mib.itsGnProtocolVersion then r.drop .itsProtocolVersion
      else r.indicateCommon env (.deserialize (.received physical link b) p) basic none (unmarked hnext) none ll := by
  have hsec : basic.nextHeader ≠ .secured := by
    rw [hnext]
    decide
  unfold Router.indicate indicateBasic
  rw [CohesivePacket.layer_received_network]
  simp only [hbasic]
  by_cases hversion : basic.version.toNat ≠ r.mib.itsGnProtocolVersion
  · rw [if_pos hversion, if_pos hversion]
  · rw [if_neg hversion, if_neg hversion, dif_neg hsec, if_pos hnext, if_pos (by simp [hoff])]

omit [Decapsulation E M R] in
theorem indicateExtended_eq (hat : p.At b) (hnext : basic.nextHeader = .common) :
    r.indicateExtended env (.deserialize (.received physical link b) p) basic none (unmarked hnext) none common ll =
      match p.parseExtended common.headerType with
      | (none, _) => r.drop .parseExtendedHeader
      | (some extended, p') =>
        if b.length < p'.readBytes + common.payload.toNat then r.drop .payloadSize
        else
          r.visitExtended env (reception physical link b p'.readBytes basic common extended hnext ll) none
            (finished physical link b p'.readBytes common.payload.toNat) := by
  have hle := hat.parseExtended common.headerType
  have hfinish := CohesivePacket.finish_received physical link b hle common.payload.toNat
  obtain ⟨hsize, hwhole⟩ := CohesivePacket.size_finished hle hfinish
  have hlayers := CohesivePacket.layers_finished hle hfinish
  unfold indicateExtended
  dsimp only [IndicationContext.parser, IndicationContext.withParser, IndicationContext.finish]
  rw [hfinish]
  dsimp only
  rw [hsize, hwhole, hlayers]
  clear hfinish hsize hwhole hlayers
  revert hle
  generalize p.parseExtended common.headerType = x
  obtain ⟨_ | extended, p'⟩ := x
  · exact fun _ => rfl
  · intro hle
    dsimp only at hle ⊢
    by_cases hshort : b.length < p'.readBytes + common.payload.toNat
    · rw [if_pos hshort, if_pos (by omega)]
    · have hmin : min common.payload.toNat (b.length - p'.readBytes) = common.payload.toNat := by omega
      rw [if_neg hshort, if_neg (by omega), hmin]
      rfl

variable (env r physical link ll) in
/-- **What an indication comes to.** A packet that is not complete is dropped,
perhaps after cleaning up; otherwise its extended header is processed. -/
theorem indicate_cases (hoff : r.mib.itsGnSecurity = false)
    (hbasic : ({ input := b } : Parser).parseBasic = (some basic, p))
    (hnext : basic.nextHeader = .common) :
    (∃ reason, r.indicate env physical link b ll = r.drop reason ∨
      r.indicate env physical link b ll = (r.cleanUp env).drop reason) ∨
    ∃ common extended p', ({ input := b } : Parser).parseHeaders = (some (basic, common, extended), p') ∧
      p'.readBytes + common.payload.toNat ≤ b.length ∧
      r.indicate env physical link b ll =
        (r.cleanUp env).visitExtended env (reception physical link b p'.readBytes basic common extended hnext ll) none
          (finished physical link b p'.readBytes common.payload.toNat) := by
  have hat := (Parser.at_start b).parseBasic hbasic
  rw [indicate_unsecured hoff hbasic hnext]
  split_ifs with hversion
  · exact .inl ⟨_, .inl rfl⟩
  unfold indicateCommon
  dsimp only [IndicationContext.parser]
  split
  · exact .inl ⟨_, .inl rfl⟩
  · rename_i common p₂ hcommon
    split_ifs with hhops
    · exact .inl ⟨_, .inl rfl⟩
    · dsimp only [IndicationContext.withParser]
      rw [indicateExtended_eq (hat.parseCommon hcommon) hnext]
      split
      · exact .inl ⟨_, .inr rfl⟩
      · rename_i extended p₃ hextended
        split_ifs with hshort
        · exact .inl ⟨_, .inr rfl⟩
        · exact .inr ⟨common, extended, p₃, Parser.parseHeaders_of hbasic hcommon hextended, by omega, rfl⟩

theorem indicate_complete (hoff : r.mib.itsGnSecurity = false)
    (hheaders : ({ input := b } : Parser).parseHeaders = (some (basic, common, extended), p))
    (hnext : basic.nextHeader = .common) (hlen : p.readBytes + common.payload.toNat ≤ b.length) :
    r.indicate env physical link b ll =
      if basic.version.toNat ≠ r.mib.itsGnProtocolVersion then r.drop .itsProtocolVersion
      else if common.maximumHopLimit < basic.hopLimit then r.drop .hopLimit
      else
        (r.cleanUp env).visitExtended env (reception physical link b p.readBytes basic common extended hnext ll) none
          (finished physical link b p.readBytes common.payload.toNat) := by
  obtain ⟨p₁, p₂, hbasic, hcommon, hextended⟩ := Parser.parseHeaders_eq_some hheaders
  have hat := (Parser.at_start b).parseBasic hbasic
  rw [indicate_unsecured hoff hbasic hnext]
  unfold indicateCommon
  dsimp only [IndicationContext.parser]
  rw [hcommon]
  dsimp only [IndicationContext.withParser]
  rw [indicateExtended_eq (hat.parseCommon hcommon) hnext, hextended]
  dsimp only
  rw [if_neg (by omega : ¬ b.length < p.readBytes + common.payload.toNat)]

theorem indicate_delivers (hoff : r.mib.itsGnSecurity = false)
    (hbasic : ({ input := b } : Parser).parseBasic = (some basic, p))
    (hnext : basic.nextHeader = .common) :
    ∃ fresh, (r.indicate env physical link b ll).outputs = r.outputs ++ fresh ∧ ∀ x ∈ fresh, Output.Delivers b x := by
  have htraced := traced_self (Output.Delivers b) r
  have hclosed : Closed env _ _ (Traced (E := E) (κ := κ) r.outputs _ _) := closed_traced env (admits_delivers b)
  have hclean := hclosed.cleanUp (admits_delivers b) htraced
  rcases indicate_cases env r physical link ll hoff hbasic hnext with ⟨reason, heq | heq⟩ | ⟨common, extended, p',
    hheaders, hlen, heq⟩ <;> rw [heq]
  · exact ((forwards_output (x := .dropped reason) True.intro).traced htraced).outputs
  · exact ((forwards_output (x := .dropped reason) True.intro).traced hclean).outputs
  · refine (hclosed.visitExtended (admits_delivers b) hclean True.intro (fun _ => ?_) True.intro).outputs
    refine ⟨basic, common, extended, p', hheaders, hlen, ?_⟩
    rw [duplicate_finished (by omega)]
    exact append_nil _

theorem indicate_trailing (hoff : r.mib.itsGnSecurity = false)
    (hheaders : ({ input := b } : Parser).parseHeaders = (some (basic, common, extended), p))
    (hnext : basic.nextHeader = .common) (hlen : p.readBytes + common.payload.toNat ≤ b.length)
    (trailing : ByteBuffer) :
    (r.indicate env physical link (b.take (p.readBytes + common.payload.toNat) ++ trailing) ll).Alike
      (r.indicate env physical link b ll) := by
  have hsplit : b.take (p.readBytes + common.payload.toNat) ++ trailing =
      b.take p.readBytes ++ ((b.drop p.readBytes).take common.payload.toNat ++ trailing) := by
    rw [take_add, append_assoc]
  have hheaders' := Parser.parseHeaders_append hheaders ((b.drop p.readBytes).take common.payload.toNat ++ trailing)
  have hlayers := finishedLayers_append physical link hlen trailing
  rw [← hsplit] at hheaders'
  have hlen' : p.readBytes + common.payload.toNat ≤
    (b.take (p.readBytes + common.payload.toNat) ++ trailing).length := by
    rw [length_append, length_take]
    omega
  rw [indicate_complete hoff hheaders hnext hlen, indicate_complete hoff hheaders' hnext hlen']
  split_ifs
  · exact Alike.refl _
  · exact Alike.refl _
  · have hrx : reception (M := M) physical link (b.take (p.readBytes + common.payload.toNat) ++ trailing)
      p.readBytes basic common
        extended hnext ll = reception physical link b p.readBytes basic common extended hnext ll := by
      unfold reception
      rw [hlayers]
    rw [hrx]
    apply alike_visitExtended
    rw [duplicate_finished (Nat.le_of_add_right_le hlen), duplicate_finished (Nat.le_of_add_right_le hlen'), hlayers]

variable (env r physical link ll) in
/-- **Reception delivers exactly the announced payload** of an unsecured packet. Octets are
counted and bounded inside of it, a packet that is too short is dropped, and trailing octets make
no difference. -/
theorem reception_delivers (hoff : r.mib.itsGnSecurity = false)
    (hbasic : ({ input := b } : Parser).parseBasic = (some basic, p)) (hnext : basic.nextHeader = .common) :
    (∀ common p', p.parseCommon = (some common, p') → (p'.parseExtended common.headerType).2.readBytes ≤ b.length) ∧
    (∃ fresh, (r.indicate env physical link b ll).outputs = r.outputs ++ fresh ∧ ∀ x ∈ fresh, Output.Delivers b x) ∧
    ((∀ common extended p', ({ input := b } : Parser).parseHeaders = (some (basic, common, extended), p') →
        b.length < p'.readBytes + common.payload.toNat) →
      ∃ reason, r.indicate env physical link b ll = r.drop reason ∨
        r.indicate env physical link b ll = (r.cleanUp env).drop reason) ∧
    (r.cleanUp env).locationTable = r.locationTable.dropExpired r.now ∧
    (∀ common extended p', ({ input := b } : Parser).parseHeaders = (some (basic, common, extended), p') →
      p'.readBytes + common.payload.toNat ≤ b.length → ∀ trailing,
      (r.indicate env physical link (b.take (p'.readBytes + common.payload.toNat) ++ trailing) ll).Alike
        (r.indicate env physical link b ll)) := by
  refine ⟨fun common p' hcommon => ?_, indicate_delivers hoff hbasic hnext, fun hshort => ?_,
    cleanUp_locationTable env r,
    fun common extended p' hheaders hlen trailing => indicate_trailing hoff hheaders hnext hlen trailing⟩
  · exact (((Parser.at_start b).parseBasic hbasic).parseCommon hcommon).parseExtended common.headerType
  · rcases indicate_cases env r physical link ll hoff hbasic hnext with
      hdropped | ⟨common, extended, p', hheaders, hlen, -⟩
    · exact hdropped
    · have := hshort common extended p' hheaders
      omega

/-! ### Strict handling -/

/-- A secured packet for which the security entity reports success. -/
def Authenticated (r : Router M E R κ) (b : ByteBuffer) : Prop :=
  ∃ basic p message p' entity, ({ input := b } : Parser).parseBasic = (some basic, p) ∧ basic.nextHeader = .secured ∧
    p.parseSecured (M := M) = (some message, p') ∧ r.securityEntity = some entity ∧
    (Decapsulation.decapsulatePacket (R := R) entity message).1.isSuccessful

theorem indicateSecured_ignored (hstrict : r.mib.itsGnSnDecapResultHandling = .strict)
    (hsec : basic.nextHeader = .secured)
    (hfail : ∀ message p' entity, p.parseSecured (M := M) = (some message, p') → r.securityEntity = some entity →
      ¬ (Decapsulation.decapsulatePacket (R := R) entity message).1.isSuccessful) :
    r.Ignored (r.indicateSecured env (.received physical link b) p basic hsec ll) := by
  unfold indicateSecured
  split
  · exact ignored_drop r _
  · rename_i message p' hmessage
    split
    · exact ignored_drop r _
    · rename_i entity hentity
      have hnot : ¬ ((Decapsulation.decapsulatePacket (R := R) entity message).1.isSuccessful ||
          decide (r.mib.itsGnSnDecapResultHandling = .nonStrict)) := by
        rw [hstrict]
        simpa using hfail message p' entity hmessage hentity
      dsimp only
      rw [if_neg hnot]
      exact ⟨some _, [.dropped .decapUnsuccessfulStrict], rfl, fun _ hx => ⟨_, mem_singleton.mp hx⟩⟩

/-- **Strict handling.** Octets that are not a secured packet for which the entity reports success
change nothing but the entity, and are dropped. -/
theorem strict_ignores (hon : r.mib.itsGnSecurity = true) (hstrict : r.mib.itsGnSnDecapResultHandling = .strict)
    (hauth : ¬ r.Authenticated b) : r.Ignored (r.indicate env physical link b ll) := by
  unfold Router.indicate indicateBasic
  rw [CohesivePacket.layer_received_network]
  split
  · exact ignored_drop r _
  · rename_i basic p hbasic
    split_ifs with hversion hsec hcommon hhandling
    · exact ignored_drop r _
    · exact indicateSecured_ignored hstrict hsec fun message p' entity hmessage hentity hsuccess =>
        hauth ⟨basic, p, message, p', entity, hbasic, hsec, hmessage, hentity, hsuccess⟩
    · exact absurd hhandling (by simp [hon, hstrict])
    · exact ignored_drop r _
    · exact ⟨r.securityEntity, [], by rw [append_nil], fun _ hx => absurd hx not_mem_nil⟩

end

/-- A packet of one hop that announces two octets. -/
def sampleShb : Pdu SampleMessage where
  basic := { version := 1, nextHeader := .common, hopLimit := 1 }
  common := { nextHeader := .btpB, headerType := .tsbSingleHop, payload := 2, maximumHopLimit := 1 }
  extended := .shb {}

/-- Three octets follow the headers, and two of them are passed up. -/
theorem reception_delivers_shb :
    (∃ fresh, ((sampleRouter {}).indicate sampleSurroundings [] [] (sampleShb.serialize ++ [7, 8, 9])
      sampleLink).outputs =
        (sampleRouter {}).outputs ++ fresh ∧ ∀ x ∈ fresh, Output.Delivers (sampleShb.serialize ++ [7, 8, 9]) x) ∧
      ((sampleRouter {}).indicate sampleSurroundings [] [] (sampleShb.serialize ++ [7, 8, 9]) sampleLink).outputs.map
        (fun | .passUp _ packet => packet.duplicate.upper | _ => []) = [[7, 8]] := by
  have hbasic : ({ input := sampleShb.serialize ++ [7, 8, 9] } : Parser).parseBasic = (some sampleShb.basic, _) :=
    Parser.parse_reads (BasicHeader.fixed.reads _) _ _ rfl 4
  exact ⟨(reception_delivers sampleSurroundings (sampleRouter {}) [] [] sampleLink rfl hbasic rfl).2.1, by
    decide +kernel⟩

/-- The entity rejects a message that does not start with two. -/
theorem strict_ignores_rejected :
    (sampleRouter { itsGnSecurity := true }).Ignored ((sampleRouter { itsGnSecurity := true }).indicate
      sampleSurroundings [] []
      (({ version := 1, nextHeader := .secured } : BasicHeader).serialize ++ [1, 7]) sampleLink) := by
  refine strict_ignores rfl rfl ?_
  rintro ⟨basic, p, message, p', entity, hbasic, -, hmessage, -, hsuccess⟩
  have hparsed := Parser.parse_reads (BasicHeader.fixed.reads { version := 1, nextHeader := .secured })
    { input := _ } [1, 7] rfl 4
  cases hbasic.symm.trans hparsed
  cases hmessage
  exact Bool.false_ne_true hsuccess

end Router

end VanetzaIdf.Geonet.Wire
