/-
# The header policy

`Ts103097SignHeaderPolicy` of `ports/esp_idf/src/sign_header_policy.cpp`. A CAM
carries the certificate once a second or when a peer has asked for it, else the
digest; with it go the digests this station does not know, and a CA certificate
that a peer has asked for. `PeerRequestTracker` is the bounded queue of requests.
-/
import VanetzaIdf.V3.Trust

namespace VanetzaIdf.V3

/-! ### Requests -/

/-- `PeerRequestTracker`, the queue without its index. -/
structure PeerRequestTracker where
  limit : ℕ := 16
  fifo : List HashedId3 := []
deriving DecidableEq, Repr

namespace PeerRequestTracker

variable (t : PeerRequestTracker)

def isPending (id : HashedId3) : Bool := t.fifo.contains id

/-- `add_request`: the first request makes room when the queue is full. -/
def addRequest (id : HashedId3) : PeerRequestTracker :=
  if t.isPending id then t
  else { t with fifo := (if t.limit ≤ t.fifo.length then t.fifo.tail else t.fifo) ++ [id] }

def discardRequest (id : HashedId3) : PeerRequestTracker := { t with fifo := t.fifo.erase id }

/-- `all`: takes every request out. -/
def all : List HashedId3 × PeerRequestTracker := (t.fifo, { t with fifo := [] })

theorem addRequest_of_pending {t : PeerRequestTracker} {id : HashedId3} (h : t.isPending id = true) :
    t.addRequest id = t := by
  rw [addRequest, if_pos h]

theorem discardRequest_of_not_pending {t : PeerRequestTracker} {id : HashedId3} (h : t.isPending id = false) :
    t.discardRequest id = t := by
  have hid : id ∉ t.fifo := by simpa [isPending] using h
  rw [discardRequest, List.erase_of_not_mem hid]

end PeerRequestTracker

/-! ### The policy -/

structure HeaderPolicy where
  camLastCertificate : Option TimePoint := none
  camCertificateRequested : Bool := false
  incomingRequests : PeerRequestTracker := {}
  /-- Certificates unknown to this station. -/
  outgoingRequests : PeerRequestTracker := {}
  vamLastCertificate : Option TimePoint := none
  newCamSigner : Bool := false
  genericLastCertificate : ItsAid → Option TimePoint := fun _ => none
  /-- The own certificate the timers refer to. -/
  signerDigest : Option HashedId8 := none

/-- `security::SignRequest`; of the context only what selects the profile. -/
structure SignRequest where
  plainMessage : ByteBuffer
  itsAid : ItsAid
  contextInformation : ByteBuffer := []
  selfSigned : Bool := false
deriving DecidableEq, Repr

/-- A ticket of the certificate pool, which takes only certificates that have a
digest. -/
structure OwnTicket (P : Platform) where
  certificate : Certificate
  key : PrivateKey
  digest : HashedId8
  digest_eq : certificate.calculateDigest P = some digest

/-- What `prepare_header` writes into the message. -/
structure Prepared where
  signer : SignerIdentifier
  headerInfo : HeaderInfo
deriving DecidableEq, Repr

/-- `context::vam_cluster`. -/
def vamCluster : ByteBuffer := [0x01]

/-- `elapsed`: never, or at least the interval ago. -/
def elapsed (last : Option TimePoint) (now : TimePoint) (interval : Duration) : Bool :=
  last.all fun t => decide (interval ≤ now - t)

def halfSecond : Duration := 500000

/-- `v3::build_location`: coordinates out of range are unknown. -/
def buildLocation (fix : PositionFix) : TwoDLocation where
  latitude := if -900000000 ≤ fix.latitude ∧ fix.latitude ≤ 900000000 then fix.latitude else 900000001
  longitude := if -1799999999 ≤ fix.longitude ∧ fix.longitude ≤ 1800000000 then fix.longitude else 1800000001

/-- `v2::convert_time64`: microseconds in 64 bits. -/
def convertTime64 (tp : TimePoint) : UInt64 := UInt64.ofNat (tp % 2 ^ 64).toNat

/-- The authority a peer asked for: requests are taken out until one names an
authority. -/
def answerRequest (P : Platform) (authorities : List Certificate) : List HashedId3 → Option Certificate × List HashedId3
  | [] => (none, [])
  | requested :: rest =>
    match authorities.find? fun a => (a.calculateDigest P).any (truncate · == requested) with
    | some authority => (some authority, rest)
    | none => answerRequest P authorities rest

namespace HeaderPolicy

variable (p : HeaderPolicy)

def requestUnrecognizedCertificate (id : HashedId8) : HeaderPolicy :=
  { p with outgoingRequests := p.outgoingRequests.addRequest (truncate id) }

def requestCertificate : HeaderPolicy := { p with camCertificateRequested := true }

def enqueueP2pRequest (id : HashedId3) : HeaderPolicy :=
  { p with incomingRequests := p.incomingRequests.addRequest id }

def discardP2pRequest (id : HashedId3) : HeaderPolicy :=
  { p with incomingRequests := p.incomingRequests.discardRequest id }

def reportNewCamSigner : HeaderPolicy := { p with newCamSigner := true }

def resetAfterIdentifierChange : HeaderPolicy :=
  { p with
    camLastCertificate := none
    camCertificateRequested := false
    vamLastCertificate := none
    genericLastCertificate := fun _ => none }

variable {P : Platform}

/-- The start of `cam`: a peer has asked for the own certificate. -/
def noticeOwnRequest (own : HashedId8) : HeaderPolicy :=
  if p.incomingRequests.isPending (truncate own) then
    { p with
      camCertificateRequested := true
      incomingRequests := p.incomingRequests.discardRequest (truncate own) }
  else p

def cam (authorities : List Certificate) (ticket : OwnTicket P) (now : TimePoint)
    (header : HeaderInfo) : Prepared × HeaderPolicy :=
  let p := p.noticeOwnRequest ticket.digest
  let fullCertificate := p.camCertificateRequested || elapsed p.camLastCertificate now (seconds 1)
  let (requests, outgoing) := p.outgoingRequests.all
  let header := { header with inlineP2pcdRequest := if requests.isEmpty then none else some requests }
  if fullCertificate then
    (⟨.certificate [ticket.certificate], header⟩,
      { p with camLastCertificate := some now, camCertificateRequested := false, outgoingRequests := outgoing })
  else
    let (requested, incoming) := answerRequest P authorities p.incomingRequests.fifo
    (⟨.digest ticket.digest, { header with requestedCertificate := requested }⟩,
      { p with outgoingRequests := outgoing, incomingRequests := { p.incomingRequests with fifo := incoming } })

def denm (ticket : OwnTicket P) (position : PositionFix) (header : HeaderInfo) :
    Prepared × HeaderPolicy :=
  (⟨.certificate [ticket.certificate], { header with generationLocation := some (buildLocation position) }⟩, p)

def vam (request : SignRequest) (ticket : OwnTicket P) (now : TimePoint) (header : HeaderInfo) :
    Prepared × HeaderPolicy :=
  let attach :=
    if request.contextInformation = vamCluster then elapsed p.vamLastCertificate now halfSecond
    else p.newCamSigner || elapsed p.vamLastCertificate now (seconds 1)
  if attach then
    (⟨.certificate [ticket.certificate], header⟩, { p with vamLastCertificate := some now, newCamSigner := false })
  else (⟨.digest ticket.digest, header⟩, p)

def generic (aid : ItsAid) (ticket : OwnTicket P) (now : TimePoint) (header : HeaderInfo) :
    Prepared × HeaderPolicy :=
  if elapsed (p.genericLastCertificate aid) now (seconds 1) then
    (⟨.certificate [ticket.certificate], header⟩,
      { p with genericLastCertificate := Function.update p.genericLastCertificate aid (some now) })
  else (⟨.digest ticket.digest, header⟩, p)

/-- Another own certificate than before restarts the timers. -/
def noticeTicket (digest : HashedId8) : HeaderPolicy :=
  if p.signerDigest = some digest then p else { p.resetAfterIdentifierChange with signerDigest := some digest }

def prepareHeader (authorities : List Certificate) (ticket : OwnTicket P) (now : TimePoint)
    (position : PositionFix) (request : SignRequest) : Prepared × HeaderPolicy :=
  let header : HeaderInfo := { psid := request.itsAid, generationTime := some (convertTime64 now) }
  let p := p.noticeTicket ticket.digest
  if request.selfSigned then (⟨.self, header⟩, p)
  else if request.itsAid = Aid.CA then p.cam authorities ticket now header
  else if request.itsAid = Aid.DEN then p.denm ticket position header
  else if request.itsAid = Aid.VRU then p.vam request ticket now header
  else p.generic request.itsAid ticket now header

end HeaderPolicy
end VanetzaIdf.V3
