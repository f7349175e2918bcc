/-
# Reception

`Router::indicate` and the contexts of `indication_context.cpp`, from the octets
to the extended header. The headers of a secured packet come from the plaintext;
one that is not octets makes the cast fail. Packets that a simulation indicates
as objects are left out. The router runs in a machine in which anything else may
happen between two packets.
-/
import VanetzaIdf.Geonet.Wire.Router

namespace VanetzaIdf.Geonet.Wire

open Lib

/-- `DecapConfirm`: the report with identifiers and permissions, whether it is
successful, and the plaintext if it is octets. -/
structure DecapConfirm (R : Type) where
  report : R
  isSuccessful : Bool
  plaintextPayload : Option ByteBuffer

/-- `security::SecurityEntity`, as far as the router receives. -/
class Decapsulation (E M R : Type) where
  decapsulatePacket : E → M → DecapConfirm R × E

/-- `IndicationContext`: the packet with its parser, and for a plaintext the
context of the secured packet around it. -/
inductive IndicationContext
  | deserialize (packet : CohesivePacket) (parser : Parser)
  | securedDeserialize (parent : CohesivePacket) (parentParser : Parser) (packet : CohesivePacket) (parser : Parser)

namespace IndicationContext

def parser : IndicationContext → Parser
  | deserialize _ parser => parser
  | securedDeserialize _ _ _ parser => parser

def withParser (parser : Parser) : IndicationContext → IndicationContext
  | deserialize packet _ => deserialize packet parser
  | securedDeserialize parent parentParser packet _ => securedDeserialize parent parentParser packet parser

/-- `finish`; a plaintext is not trimmed. -/
def finish (payload : ℕ) : IndicationContext → Option CohesivePacket
  | deserialize packet parser => packet.finish parser.readBytes payload
  | securedDeserialize parent parentParser packet parser => do
    let packet ← packet.setBoundary .network parser.readBytes
    let _ ← parent.finish parentParser.readBytes payload
    return packet

end IndicationContext

def NextHeaderCommon.upperProtocol (h : NextHeaderCommon) : UpperProtocol :=
  if h = .btpA then .btpA else if h = .btpB then .btpB else if h = .ipv6 then .ipv6 else .unknown

namespace Router

variable {M E R κ : Type}

def drop (r : Router M E R κ) (reason : PacketDropReason) : Router M E R κ := r.output (.dropped reason)

def passUp (r : Router M E R κ) (indication : DataIndication R) (packet : CohesivePacket) : Router M E R κ :=
  if r.transportHandlers indication.upperProtocol then r.output (.passUp indication packet) else r

/-- What the visitor of `indicate_extended` fills in of the indication. -/
def indication (pdu : Pdu M) (report : Option R) (transportType : TransportType) (destination : Option Area)
    (sourcePosition : LongPositionVector) : DataIndication R where
  upperProtocol := NextHeaderCommon.upperProtocol pdu.common.nextHeader
  transportType := transportType
  destination := destination
  sourcePosition := .ofLong sourcePosition
  security := report
  trafficClass := pdu.common.trafficClass
  remainingPacketLifetime := pdu.basic.lifetime
  remainingHopLimit := pdu.basic.hopLimit

/-- Passes the packet up if the extended header says so. -/
def passUpIf (packet : CohesivePacket) (indication : DataIndication R) (x : Bool × Router M E R κ) : Router M E R κ :=
  if x.1 then x.2.passUp indication packet else x.2

section Indication

variable [SecuredCodec M] [CbfCounter κ]

/-- The visitor of `indicate_extended`. -/
def visitExtended (env : Environment) (r : Router M E R κ) (rx : Reception M) (report : Option R)
    (packet : CohesivePacket) :
    Router M E R κ :=
  match hext : rx.pdu.extended with
  | .shb shb => passUpIf packet (indication rx.pdu report .shb none shb.sourcePosition) (r.processShb env rx shb)
  | .tsb tsb => passUpIf packet (indication rx.pdu report .tsb none tsb.sourcePosition) (r.processTsb env rx tsb)
  | .beacon beacon => (r.processBeacon env rx beacon).2
  | .gbc gbc =>
    match harea : gbc.destination rx.pdu.common.headerType with
    | none => r.output .threw
    | some area =>
      passUpIf packet (indication rx.pdu report .gbc (some area) gbc.sourcePosition)
        (r.processGbc env rx gbc hext area harea)

def indicateExtended (env : Environment) (r : Router M E R κ) (ctx : IndicationContext) (basic : BasicHeader)
    (secured : Option M) (hmarked : secured.isSome ↔ basic.nextHeader = .secured) (report : Option R)
    (common : CommonHeader) (ll : LinkLayer) : Router M E R κ :=
  let x := ctx.parser.parseExtended common.headerType
  match (ctx.withParser x.2).finish common.payload.toNat with
  | none => r.output .aborted
  | some packet =>
    match x.1 with
    | none => r.drop .parseExtendedHeader
    | some extended =>
      if common.payload.toNat ≠ packet.size .transport .application then r.drop .payloadSize
      else
        r.visitExtended env
          { pdu := ⟨basic, common, extended, secured⟩
            packetSize := packet.size .network .application
            packet := packet.duplicate
            linkLayer := ll
            marked := hmarked }
          report packet

/-- The location table without expired entries and the broadcast buffer
flushed, before the extended header is looked at. -/
def cleanUp (env : Environment) (r : Router M E R κ) : Router M E R κ :=
  (r.withTable fun t => t.dropExpired r.now).flushBroadcastForwardingBuffer env

def indicateCommon (env : Environment) (r : Router M E R κ) (ctx : IndicationContext) (basic : BasicHeader)
    (secured : Option M) (hmarked : secured.isSome ↔ basic.nextHeader = .secured) (report : Option R)
    (ll : LinkLayer) : Router M E R κ :=
  match ctx.parser.parseCommon with
  | (none, _) => r.drop .parseCommonHeader
  | (some common, parser) =>
    if common.maximumHopLimit < basic.hopLimit then r.drop .hopLimit
    else (r.cleanUp env).indicateExtended env (ctx.withParser parser) basic secured hmarked report common ll

variable [Decapsulation E M R]

/-- `indicate_secured`. A plaintext that is not octets ends in an exception;
`empty()` of the payload variant is never true. -/
def indicateSecured (env : Environment) (r : Router M E R κ) (packet : CohesivePacket) (parser : Parser)
    (basic : BasicHeader) (hmarked : basic.nextHeader = .secured) (ll : LinkLayer) : Router M E R κ :=
  match parser.parseSecured (M := M) with
  | (none, _) => r.drop .parseSecuredHeader
  | (some message, parser) =>
    match r.securityEntity with
    | none => r.drop .securityEntityMissing
    | some entity =>
      let confirm : DecapConfirm R × E := Decapsulation.decapsulatePacket entity message
      let r := { r with securityEntity := some confirm.2 }
      if confirm.1.isSuccessful || r.mib.itsGnSnDecapResultHandling = .nonStrict then
        match confirm.1.plaintextPayload with
        | some plaintext =>
          r.indicateCommon env
            (.securedDeserialize packet parser (.ofNetwork plaintext) { input := plaintext })
            basic (some message) (by simp [hmarked]) (some confirm.1.report) ll
        | none =>
          -- `finish` of the secured packet comes before the cast
          match packet.finish parser.readBytes 0 with
          | none => r.output .aborted
          | some _ => r.output .threw
      else r.drop .decapUnsuccessfulStrict

def indicateBasic (env : Environment) (r : Router M E R κ) (packet : CohesivePacket) (ll : LinkLayer) :
    Router M E R κ :=
  match ({ input := packet.layer .network } : Parser).parseBasic with
  | (none, _) => r.drop .parseBasicHeader
  | (some basic, parser) =>
    if basic.version.toNat ≠ r.mib.itsGnProtocolVersion then r.drop .itsProtocolVersion
    else if hsec : basic.nextHeader = .secured then r.indicateSecured env packet parser basic hsec ll
    else if basic.nextHeader = .common then
      if !r.mib.itsGnSecurity || r.mib.itsGnSnDecapResultHandling = .nonStrict then
        r.indicateCommon env (.deserialize packet parser) basic none (by simp [hsec]) none ll
      else r.drop .decapUnsuccessfulStrict
    else r

/-- `indicate` of a packet that the link layer made of these octets. -/
def indicate (env : Environment) (r : Router M E R κ) (physical link b : ByteBuffer) (ll : LinkLayer) :
    Router M E R κ :=
  r.indicateBasic env (.received physical link b) ll

/-! ### Runs -/

inductive Event (E : Type)
  | indicate (physical link b : ByteBuffer) (linkLayer : LinkLayer)
  /-- The runtime runs the next callback that is due. -/
  | fire
  | outside (what : Outside)
  /-- A request of this station: the packet is processed, or buffered. -/
  | submit (p : PendingPacket)
  | flushForwardingBuffers
  | setLocalPositionVector (v : LongPositionVector)
  | setSecurityEntity (entity : Option E)
  | setTransportHandler (protocol : UpperProtocol) (present : Bool)

def step (env : Environment) (r : Router M E R κ) : Event E → Router M E R κ
  | .indicate physical link b ll => r.indicate env physical link b ll
  | .fire =>
    let s := r.cbfBuffer.step .fire
    s.1.packets.foldl processContended { r with cbfBuffer := s.2 }
  | .outside what => { r with cbfBuffer := (r.cbfBuffer.step (.outside what)).2 }
  | .submit p => r.process env (.own p)
  | .flushForwardingBuffers => (r.flushBroadcastForwardingBuffer env).flushUnicastForwardingBuffer env
  | .setLocalPositionVector v => { r with localPositionVector := v }
  | .setSecurityEntity entity => { r with securityEntity := entity }
  | .setTransportHandler protocol present =>
    { r with transportHandlers := Function.update r.transportHandlers protocol present }

def run (env : Environment) (r : Router M E R κ) (es : List (Event E)) : Router M E R κ := es.foldl (step env) r

end Indication

end Router

/-! ### A station to run with -/

/-- A message that is its octets: the plaintext follows the first one. -/
structure SampleMessage where
  octets : ByteBuffer
deriving DecidableEq

instance : SecuredCodec SampleMessage where
  serialize m := m.octets
  getSize m := m.octets.length
  deserializeV2 b := some (⟨b⟩, b.length, [])
  deserializeV3 _ := none

/-- Accepts messages that start with two. -/
instance : Decapsulation Unit SampleMessage Unit where
  decapsulatePacket _ m := (⟨(), m.octets.head? = some 2, some m.octets.tail⟩, ())

def sampleSurroundings : Environment := { sampleEnvironment with acos := fun _ => 0, allocator :=
  CbfPacketBuffer.sampleAllocator }

/-- A station with a handler for BTP-B, and with a security entity. -/
def sampleRouter (mib : Mib) : Router SampleMessage Unit Unit CbfCounterContending :=
  let r : Router SampleMessage Unit Unit CbfCounterContending := .init mib { now := 0 } {}
  { r with transportHandlers := fun p => p = .btpB, securityEntity := some () }

def sampleLink : LinkLayer := ⟨Vector.replicate 6 2, Vector.replicate 6 0xff⟩

end VanetzaIdf.Geonet.Wire
