/-
# Trust lists and revocation lists

The lists of a root CA, as `ports/esp_idf/src/pki.cpp` reads them (`parse_rca_ctl`,
`parse_crl`) and applies them to a trust configuration (`apply`). `Codec` is the
OER decoder of both layers of a message; where an encoder throws, the answer is
`none`. Access points, which nothing reads, are left out.
-/
import VanetzaIdf.V3.Message
import VanetzaIdf.V3.Trust

namespace VanetzaIdf

open List Option

namespace Aid

def CRL : ItsAid := 622
def CTL : ItsAid := 624

end Aid

namespace V3.Pki

/-! ### The messages -/

/-- `CtlEntry`: what a trust list adds. -/
inductive CtlEntry
  | nothing
  | rca
  | ea (eaCertificate : Certificate)
  | aa (aaCertificate : Certificate)
  | dc (url : ByteBuffer) (cert : List ByteBuffer)
  | tlm
deriving DecidableEq, Repr

inductive CtlDelete
  | nothing
  | cert (id : ByteBuffer)
  | dc (url : ByteBuffer)
deriving DecidableEq, Repr

inductive CtlCommand
  | nothing
  | add (entry : CtlEntry)
  | delete (entry : CtlDelete)
deriving DecidableEq, Repr

structure CtlFormat where
  version : ℤ
  nextUpdate : ℕ
  isFullCtl : Bool
  ctlSequence : ℤ
  ctlCommands : List CtlCommand
deriving DecidableEq, Repr

structure ToBeSignedCrl where
  version : ℤ
  thisUpdate : ℕ
  nextUpdate : ℕ
  entries : List ByteBuffer
deriving DecidableEq, Repr

/-- `EtsiTs102941DataContent`; the enrolment and authorization messages and
the other lists are one alternative. -/
inductive EtsiTs102941DataContent
  | nothing
  | certificateRevocationList (crl : ToBeSignedCrl)
  | certificateTrustListRca (ctl : CtlFormat)
  | other
deriving DecidableEq, Repr

structure EtsiTs102941Data where
  version : ℤ
  content : EtsiTs102941DataContent
deriving DecidableEq, Repr

structure Codec where
  decodeSecuredData : ByteBuffer → Option SecuredMessage
  /-- `asn1c_oer_wrapper::decode`. -/
  decodeManagement : ByteBuffer → Option EtsiTs102941Data

/-! ### Reading a list -/

def getHashedId8 (source : ByteBuffer) : Option HashedId8 :=
  if h : source.toArray.size = 8 then some ⟨source.toArray, h⟩ else none

/-- `SecuredMessage::payload`: empty if the message has none. -/
def payloadOctets (signed : SignedData) : ByteBuffer :=
  ((signed.tbsData.payload.bind (·.data)).map Prod.snd).getD []

variable (P : Platform) (codec : Codec) (message : ByteBuffer) (rca : Certificate)

/-- `open_list`: the octets signed by the root for this service. -/
def openList (psid : ItsAid) : Option ByteBuffer := do
  let data ← codec.decodeSecuredData message
  let signed ← data.signedData
  guard (data.protocolVersion = 3)
  guard (data.itsAid = psid ∧ data.generationTime.isSome ∧ signed.hashId = .sha256)
  guard (rca.validForApplication psid)
  -- the signer is the root's certificate, octet for octet
  let signer ← signed.signer.inlineCertificate
  let inlineCert ← P.encodeCertificate signer
  let encoded ← P.encodeCertificate rca
  guard (inlineCert = encoded)
  let signature ← signed.signature.toEcdsa
  let key ← rca.getPublicKey
  let digest ← calculateMessageHash P .sha256 signed.tbsData rca
  guard (P.verifyDigest key digest signature)
  return payloadOctets signed

/-- `TrustListEntries::DistributionCentre`. -/
structure DistributionCentre where
  url : ByteBuffer
  certificates : List HashedId8
deriving DecidableEq, Repr

structure RcaTrustList where
  sequence : UInt8 := 0
  nextUpdate : UInt32 := 0
  full : Bool := true
  ea : List Certificate := []
  aa : List Certificate := []
  dc : List DistributionCentre := []
  deleted : List HashedId8 := []
  deletedDc : List ByteBuffer := []
deriving DecidableEq, Repr

structure RevocationList where
  thisUpdate : UInt32 := 0
  nextUpdate : UInt32 := 0
  revoked : List HashedId8 := []
deriving DecidableEq, Repr

def issuedByRca (rcaDigest : HashedId8) (certificate : Certificate) : Bool :=
  certificate.issuerDigest == some rcaDigest && certificate.isCaCertificate &&
    verifyCertificateSignature P certificate (some rca) == some true

def readCommand (rcaDigest : HashedId8) (list : RcaTrustList) : CtlCommand → Option RcaTrustList
  | .add (.ea certificate) =>
    if issuedByRca P rca rcaDigest certificate then some { list with ea := list.ea ++ [certificate] } else none
  | .add (.aa certificate) =>
    if issuedByRca P rca rcaDigest certificate then some { list with aa := list.aa ++ [certificate] } else none
  | .add (.dc url cert) => do
    let certificates ← cert.mapM getHashedId8
    return { list with dc := list.dc ++ [{ url, certificates }] }
  -- no root or trust list manager
  | .add _ => none
  | .delete entry =>
    if list.full then none
    else
      match entry with
      | .cert id => do
        let digest ← getHashedId8 id
        return { list with deleted := list.deleted ++ [digest] }
      | .dc url => some { list with deletedDc := list.deletedDc ++ [url] }
      | .nothing => none
  | .nothing => none

/-- The loop over the commands. -/
def readCommands (rca : Certificate) (rcaDigest : HashedId8) : RcaTrustList → List CtlCommand → Option RcaTrustList
  | list, [] => some list
  | list, command :: commands => do
    let list' ← readCommand P rca rcaDigest list command
    readCommands rca rcaDigest list' commands

def parseRcaCtl : Option RcaTrustList := do
  let octets ← openList P codec message rca Aid.CTL
  let mgmt ← codec.decodeManagement octets
  guard (mgmt.version = 1)
  match mgmt.content with
  | .certificateTrustListRca ctl => do
    guard (ctl.version = 1 ∧ 0 ≤ ctl.ctlSequence ∧ ctl.ctlSequence ≤ 255)
    let rcaDigest ← rca.calculateDigest P
    readCommands P rca rcaDigest
      { sequence := UInt8.ofInt ctl.ctlSequence, nextUpdate := UInt32.ofNat ctl.nextUpdate, full := ctl.isFullCtl }
      ctl.ctlCommands
  | _ => none

def parseCrl : Option RevocationList := do
  let octets ← openList P codec message rca Aid.CRL
  let mgmt ← codec.decodeManagement octets
  guard (mgmt.version = 1)
  match mgmt.content with
  | .certificateRevocationList crl => do
    guard (crl.version = 1)
    let revoked ← crl.entries.mapM getHashedId8
    return { thisUpdate := UInt32.ofNat crl.thisUpdate, nextUpdate := UInt32.ofNat crl.nextUpdate, revoked }
  | _ => none

/-! ### Applying a list -/

section Apply

variable {P}

/-- One entry of `apply`: the number added so far and the configuration. -/
def addEntry (acc : ℕ × TrustConfiguration P) (certificate : Certificate) : ℕ × TrustConfiguration P :=
  let answer := acc.2.addAuthority certificate
  (if answer.1 = .accepted then acc.1 + 1 else acc.1, answer.2)

def applyTrustList (list : RcaTrustList) (trust : TrustConfiguration P) : ℕ × TrustConfiguration P :=
  list.aa.foldl addEntry (list.ea.foldl addEntry (0, trust))

def applyRevocationList (list : RevocationList) (rca : Certificate) (trust : TrustConfiguration P) :
    ℕ × TrustConfiguration P :=
  match rca.calculateDigest P with
  | some issuer =>
    (list.revoked.length, list.revoked.foldl (fun t id => t.revoke issuer id) (trust.clearRevocations issuer))
  | none => (0, trust)

end Apply

/-! ### What an accepted trust list holds -/

section Parse

variable {P codec}

/-- The list that the loop has read so far: every authority is the root's, and
a full list deletes nothing. -/
structure RcaTrustList.Issued (P : Platform) (rca : Certificate) (rcaDigest : HashedId8)
    (list : RcaTrustList) : Prop where
  issued : ∀ c ∈ list.ea ++ list.aa, issuedByRca P rca rcaDigest c = true
  deleted : list.full = true → list.deleted = []

variable {rca : Certificate} {rcaDigest : HashedId8} {list list' : RcaTrustList}

theorem readCommand_issued {command : CtlCommand} (hl : list.Issued P rca rcaDigest)
    (h : readCommand P rca rcaDigest list command = some list') : list'.Issued P rca rcaDigest := by
  match command with
  | .nothing => simp [readCommand] at h
  | .add .nothing => simp [readCommand] at h
  | .add .rca => simp [readCommand] at h
  | .add .tlm => simp [readCommand] at h
  | .add (.ea c) =>
    obtain ⟨hc, rfl⟩ : issuedByRca P rca rcaDigest c = true ∧ _ = list' := by simpa [readCommand] using h
    refine ⟨fun b hb => ?_, hl.deleted⟩
    simp only [append_assoc, mem_append, mem_singleton] at hb
    rcases hb with hb | rfl | hb
    · exact hl.issued b (mem_append_left _ hb)
    · exact hc
    · exact hl.issued b (mem_append_right _ hb)
  | .add (.aa c) =>
    obtain ⟨hc, rfl⟩ : issuedByRca P rca rcaDigest c = true ∧ _ = list' := by simpa [readCommand] using h
    refine ⟨fun b hb => ?_, hl.deleted⟩
    rw [← append_assoc, mem_append, mem_singleton] at hb
    rcases hb with hb | rfl
    · exact hl.issued b hb
    · exact hc
  | .add (.dc url cert) =>
    obtain ⟨ids, -, h⟩ := bind_eq_some_iff.mp h
    obtain rfl := some.inj h
    exact ⟨hl.issued, hl.deleted⟩
  | .delete entry =>
    by_cases hfull : list.full = true
    · simp [readCommand, hfull] at h
    · have hpart : ∀ {l : RcaTrustList}, l.full = list.full → l.full = true → l.deleted = [] :=
        fun hl' ht => absurd (hl' ▸ ht) hfull
      cases entry with
      | nothing => simp [readCommand] at h
      | cert id =>
        rw [readCommand, if_neg hfull] at h
        obtain ⟨digest, -, h⟩ := bind_eq_some_iff.mp h
        obtain rfl := some.inj h
        exact ⟨hl.issued, hpart rfl⟩
      | dc url =>
        rw [readCommand, if_neg hfull] at h
        obtain rfl := some.inj h
        exact ⟨hl.issued, hpart rfl⟩

theorem readCommands_issued {commands : List CtlCommand} (hl : list.Issued P rca rcaDigest)
    (h : readCommands P rca rcaDigest list commands = some list') : list'.Issued P rca rcaDigest := by
  induction commands generalizing list with
  | nil => exact some.inj h ▸ hl
  | cons command commands ih =>
    obtain ⟨mid, hmid, hrest⟩ := bind_eq_some_iff.mp h
    exact ih (readCommand_issued hl hmid) hrest

theorem parseRcaCtl_issued {message : ByteBuffer} (h : parseRcaCtl P codec message rca = some list) :
    ∃ d, rca.calculateDigest P = some d ∧ list.Issued P rca d := by
  obtain ⟨octets, -, h⟩ := bind_eq_some_iff.mp h
  obtain ⟨mgmt, -, h⟩ := bind_eq_some_iff.mp h
  obtain ⟨-, -, h⟩ := bind_eq_some_iff.mp h
  split at h
  · obtain ⟨-, -, h⟩ := bind_eq_some_iff.mp h
    obtain ⟨d, hd, h⟩ := bind_eq_some_iff.mp h
    exact ⟨d, hd, readCommands_issued ⟨by simp, fun _ => rfl⟩ h⟩
  · simp at h

end Parse

/-! ### What applying a list does -/

section Effect

variable {P} {t : TrustConfiguration P} {c : Certificate} {d : HashedId8}

/-- An authority below a root. -/
def MayAdd (c : Certificate) : Prop := c.issuerIsSelf = false ∧ c.isCaCertificate = true

theorem addAuthority_frame (t : TrustConfiguration P) (c : Certificate) :
    (t.addAuthority c).2.roots = t.roots ∧ (t.addAuthority c).2.revocations = t.revocations := by
  unfold TrustConfiguration.addAuthority
  split_ifs
  · split
    · split_ifs <;> exact ⟨rfl, rfl⟩
    · exact ⟨rfl, rfl⟩
  · exact ⟨rfl, rfl⟩

theorem addAuthority_authorities (t : TrustConfiguration P) (c : Certificate) :
    ∃ added, (t.addAuthority c).2.authorities = t.authorities ++ added ∧ ∀ b ∈ added, b = c := by
  unfold TrustConfiguration.addAuthority
  split_ifs
  · split
    · split_ifs
      · exact ⟨[], by simp, by simp⟩
      · exact ⟨[c], rfl, by simp⟩
    · exact ⟨[], by simp, by simp⟩
  · exact ⟨[], by simp, by simp⟩

theorem addAuthority_issuers (hc : MayAdd c) (d : HashedId8) :
    (t.addAuthority c).2.issuers d = (t.issuers d).or (if c.calculateDigest P = some d then some c else none) := by
  unfold MayAdd at hc
  rw [TrustConfiguration.addAuthority, dif_pos hc]
  split
  case h_2 hd => simp [hd]
  case h_1 e he =>
    by_cases hk : (t.issuers e).isSome
    · rw [if_pos hk]
      by_cases hed : e = d
      · subst hed
        rw [or_of_isSome hk]
      · simp [he, hed]
    · rw [if_neg hk]
      show Function.update t.issuers e (some c) d = _
      by_cases hed : e = d
      · subst hed
        rw [Function.update_self, if_pos he, not_isSome_iff_eq_none.mp hk, none_or]
      · rw [Function.update_of_ne (Ne.symm hed)]
        simp [he, hed]

def RcaTrustList.announced (P : Platform) (list : RcaTrustList) (d : HashedId8) : Option Certificate :=
  (list.ea ++ list.aa).find? fun c => c.calculateDigest P == some d

variable (cs : List Certificate) (acc : ℕ × TrustConfiguration P)

theorem foldl_addEntry_frame :
    (cs.foldl addEntry acc).2.roots = acc.2.roots ∧ (cs.foldl addEntry acc).2.revocations = acc.2.revocations := by
  induction cs generalizing acc with
  | nil => exact ⟨rfl, rfl⟩
  | cons c cs ih =>
    obtain ⟨hr, hv⟩ := ih (addEntry acc c)
    obtain ⟨hr', hv'⟩ := addAuthority_frame acc.2 c
    exact ⟨hr.trans hr', hv.trans hv'⟩

theorem foldl_addEntry_authorities :
    ∃ added, (cs.foldl addEntry acc).2.authorities = acc.2.authorities ++ added ∧ ∀ b ∈ added, b ∈ cs := by
  induction cs generalizing acc with
  | nil => exact ⟨[], by simp, by simp⟩
  | cons c cs ih =>
    obtain ⟨first, hfirst, hc⟩ := addAuthority_authorities acc.2 c
    obtain ⟨rest, hrest, hcs⟩ := ih (addEntry acc c)
    refine ⟨first ++ rest, ?_, fun b hb => ?_⟩
    · rw [foldl_cons, hrest, ← append_assoc, ← hfirst]
      rfl
    · rcases mem_append.mp hb with hb | hb
      · exact hc b hb ▸ mem_cons_self
      · exact mem_cons_of_mem _ (hcs b hb)

theorem foldl_addEntry_issuers {cs : List Certificate} (hcs : ∀ c ∈ cs, MayAdd c) (acc : ℕ × TrustConfiguration P)
    (d : HashedId8) :
    (cs.foldl addEntry acc).2.issuers d =
      (acc.2.issuers d).or (cs.find? fun c => c.calculateDigest P == some d) := by
  induction cs generalizing acc with
  | nil => simp
  | cons c cs ih =>
    have hc := hcs c mem_cons_self
    have ih' := ih (fun b hb => hcs b (mem_cons_of_mem _ hb)) (addEntry acc c)
    have hadd : (addEntry acc c).2.issuers d = _ := addAuthority_issuers hc d
    rw [foldl_cons, ih', hadd, Option.or_assoc]
    split_ifs with hd
    · rw [List.find?_cons_of_pos (by simp [hd]), some_or]
    · rw [List.find?_cons_of_neg (by simp [hd]), none_or]

theorem applyTrustList_frame (list : RcaTrustList) (t : TrustConfiguration P) :
    (applyTrustList list t).2.roots = t.roots ∧ (applyTrustList list t).2.revocations = t.revocations := by
  rw [applyTrustList, ← foldl_append]
  exact foldl_addEntry_frame _ _

theorem applyTrustList_authorities (list : RcaTrustList) (t : TrustConfiguration P) :
    ∃ added, (applyTrustList list t).2.authorities = t.authorities ++ added ∧ ∀ b ∈ added, b ∈ list.ea ++ list.aa := by
  rw [applyTrustList, ← foldl_append]
  exact foldl_addEntry_authorities _ _

variable {list : RcaTrustList} {rca : Certificate} {rcaDigest : HashedId8}

theorem applyTrustList_issuers (h : ∀ c ∈ list.ea ++ list.aa, MayAdd c) (d : HashedId8) :
    (applyTrustList list t).2.issuers d = (t.issuers d).or (list.announced P d) := by
  rw [applyTrustList, ← foldl_append]
  exact foldl_addEntry_issuers h _ d

theorem RcaTrustList.Issued.mayAdd (h : list.Issued P rca rcaDigest) : ∀ c ∈ list.ea ++ list.aa, MayAdd c := by
  intro c hc
  have hi := h.issued c hc
  simp only [issuedByRca, Bool.and_eq_true, beq_iff_eq] at hi
  refine ⟨?_, hi.1.2⟩
  unfold Certificate.issuerIsSelf
  cases hs : c.issuer with
  | self algorithm => simp [Certificate.issuerDigest, hs] at hi
  | _ => rfl

theorem RcaTrustList.Issued.issuerDigest
    (h : list.Issued P rca rcaDigest) (hc : c ∈ list.ea ++ list.aa) : c.issuerDigest = some rcaDigest := by
  have hi := h.issued c hc
  simp only [issuedByRca, Bool.and_eq_true, beq_iff_eq] at hi
  exact hi.1.1

/-! ### Revocations -/

theorem foldl_revoke_revocations (ids : List HashedId8) (t : TrustConfiguration P) (issuer e : HashedId8) :
    (ids.foldl (fun t id => t.revoke issuer id) t).revocations e =
      if e = issuer then ids.foldl (fun l id => l.insert id) (t.revocations issuer) else t.revocations e := by
  induction ids generalizing t with
  | nil => by_cases he : e = issuer <;> simp [he]
  | cons id ids ih =>
    rw [foldl_cons, ih, foldl_cons]
    by_cases he : e = issuer <;> simp [he, TrustConfiguration.revoke]

theorem mem_foldl_insert (ids l : List HashedId8) (c : HashedId8) :
    c ∈ ids.foldl (fun l id => l.insert id) l ↔ c ∈ l ∨ c ∈ ids := by
  induction ids generalizing l with
  | nil => simp
  | cons id ids ih =>
    rw [foldl_cons, ih, mem_insert_iff, mem_cons]
    tauto

theorem applyRevocationList_revoked {list : RevocationList} {issuer : HashedId8}
    (hd : rca.calculateDigest P = some issuer) (c : HashedId8) :
    (applyRevocationList list rca t).2.isRevoked issuer c = true ↔ c ∈ list.revoked := by
  have hr := foldl_revoke_revocations list.revoked (t.clearRevocations issuer) issuer issuer
  rw [if_pos rfl] at hr
  simp only [applyRevocationList, hd]
  rw [TrustConfiguration.isRevoked, contains_iff_mem, hr, mem_foldl_insert]
  simp [TrustConfiguration.clearRevocations]

theorem applyRevocationList_other {list : RevocationList} {e : HashedId8}
    (he : rca.calculateDigest P ≠ some e) : (applyRevocationList list rca t).2.revocations e = t.revocations e := by
  cases hd : rca.calculateDigest P with
  | none => simp [applyRevocationList, hd]
  | some issuer =>
    have hne : e ≠ issuer := fun h => he (h ▸ hd)
    have hr := foldl_revoke_revocations list.revoked (t.clearRevocations issuer) issuer e
    rw [if_neg hne] at hr
    simp only [applyRevocationList, hd]
    rw [hr]
    exact Function.update_of_ne hne _ _

end Effect
end V3.Pki
end VanetzaIdf
