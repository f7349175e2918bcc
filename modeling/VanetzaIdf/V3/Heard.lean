/-
# Signed here, accepted there

What one station signs another one accepts (`signed_accepted`), whatever either of
them did before. What is left to the receiver is to trust the ticket, to know it
if the message carries its digest only, and a clock that is close enough.
-/
import VanetzaIdf.V3.Replay

namespace VanetzaIdf.V3

open Option

variable {P : Platform} {ticket : OwnTicket P} {request : SignRequest} {now : TimePoint} {x : Prepared}

/-- A header that the profile of its service asks for, with the certificate or
the digest as signer. -/
structure Prepared.Profiled (request : SignRequest) (ticket : OwnTicket P) (now : TimePoint) (x : Prepared) : Prop where
  psid : x.headerInfo.psid = request.itsAid
  generationTime : x.headerInfo.generationTime = some (convertTime64 now)
  plain : x.headerInfo.expiryTime = none ∧ x.headerInfo.encryptionKey = none ∧ x.headerInfo.p2pcdLearningRequest =
    none ∧
    x.headerInfo.missingCrlIdentifier = none
  cam : request.itsAid = Aid.CA → x.headerInfo.generationLocation = none
  denm : request.itsAid = Aid.DEN → x.headerInfo.generationLocation.isSome ∧ x.signer =
    .certificate [ticket.certificate]
  signer : x.signer = .certificate [ticket.certificate] ∨ x.signer = .digest ticket.digest

theorem HeaderPolicy.prepareHeader_profiled (hself : request.selfSigned = false) (p : HeaderPolicy)
    (authorities : List Certificate) (ticket : OwnTicket P) (now : TimePoint) (position : PositionFix) :
    (p.prepareHeader authorities ticket now position request).1.Profiled request ticket now := by
  have hservices : Aid.CA ≠ Aid.DEN := by decide
  unfold prepareHeader cam denm vam generic
  dsimp only
  rw [if_neg (by simp [hself])]
  split_ifs
  all_goals constructor <;> simp_all

theorem Prepared.Profiled.checkProfile (h : x.Profiled request ticket now) {data : SignedData}
    (htbs : data.tbsData = SecurityEntity.toBeSigned request x) (hsigner : data.signer = x.signer)
    (hfits : data.hashFits = true) (haid : request.itsAid < 2 ^ 32) :
    V3.checkProfile ⟨3, .signedData data⟩ = .success ∧ SecuredMessage.itsAid ⟨3, .signedData data⟩ = request.itsAid ∧
      SecuredMessage.generationTime ⟨3, .signedData data⟩ = some (convertTime64 now) := by
  obtain ⟨hpsid, htime, ⟨hexpiry, hkey, hlearning, hcrl⟩, hcam, hdenm, hx⟩ := h
  have hinfo : data.tbsData.headerInfo = x.headerInfo := congrArg ToBeSignedData.headerInfo htbs
  have hpayload : data.tbsData.payload.any SignedDataPayload.wellFormed = true := by rw [htbs]; rfl
  have hitsAid : SecuredMessage.itsAid ⟨3, .signedData data⟩ = request.itsAid := by
    show data.tbsData.headerInfo.psid % 2 ^ 32 = request.itsAid
    rw [hinfo, hpsid, Nat.mod_eq_of_lt haid]
  have hservice : data.fitsService request.itsAid = true := by
    unfold SignedData.fitsService
    rw [hinfo, hsigner]
    grind
  refine ⟨?_, hitsAid, (congrArg HeaderInfo.generationTime hinfo).trans htime⟩
  unfold V3.checkProfile
  rw [hitsAid]
  grind [SecuredMessage.signedData]

namespace SecurityEntity

variable {s s' t u : SecurityEntity P} {m : SecuredMessage} {data : SignedData} {digest : ByteBuffer}
  {signature : EcdsaSignature}
  {key : PublicKey}

/-- What is signed with the key verifies under the certificate. -/
def KeyPair (ticket : OwnTicket P) : Prop := ∀ digest signature, P.signDigest ticket.key digest = some signature →
  signature.type = ticket.certificate.getVerificationKeyType ∧
    ∃ key, ticket.certificate.getPublicKey = some key ∧ P.verifyDigest key digest signature = true

/-- What the sign service puts into a message. -/
structure Carries (s : SecurityEntity P) (ticket : OwnTicket P) (request : SignRequest) (data : SignedData)
    (digest : ByteBuffer)
    (sig : EcdsaSignature) : Prop where
  hashId : data.hashId = specifiedHashAlgorithm ticket.certificate.getVerificationKeyType
  tbsData : data.tbsData = toBeSigned request (s.prepare ticket request).1
  signer : data.signer = (s.prepare ticket request).1.signer
  signature : data.signature = ofEcdsa sig
  hashed : calculateMessageHash P data.hashId data.tbsData ticket.certificate = some digest
  signed : P.signDigest ticket.key digest = some sig

theorem encapsulatePacket_ok (hown : s.own = some ticket) (h : s.encapsulatePacket request = (.ok m, s')) :
    ∃ data digest signature, m = ⟨3, .signedData data⟩ ∧ Carries s ticket request data digest signature := by
  have hsigned : signedMessage ticket request (s.prepare ticket request).1 = some m := by
    unfold encapsulatePacket concludeSigning sign at h
    rw [hown] at h
    cases hm : signedMessage ticket request (s.prepare ticket request).1 <;> grind
  obtain ⟨digest, hdigest, hrest⟩ := bind_eq_some_iff.mp hsigned
  obtain ⟨signature, hsignature, hm⟩ := bind_eq_some_iff.mp hrest
  exact ⟨_, digest, signature, (some.inj hm).symm, rfl, rfl, rfl, rfl, hdigest, hsignature⟩

theorem Carries.ecdsa (h : Carries s ticket request data digest signature)
    (hkey : ticket.certificate.getPublicKey = some key)
    (htype : signature.type = ticket.certificate.getVerificationKeyType) :
    data.signature.toEcdsa = some signature ∧ data.hashFits = true := by
  unfold SignedData.hashFits
  rw [h.signature, h.hashId]
  obtain ⟨type, r, sig⟩ := signature
  obtain rfl : type = _ := htype
  unfold Certificate.getPublicKey at hkey
  unfold Certificate.getVerificationKeyType
  split at hkey
  all_goals first | exact ⟨rfl, rfl⟩ | cases hkey

/-- What is reported on a message that verifies under the ticket. -/
def confirmOf (ticket : OwnTicket P) (aid : ItsAid) : VerifyConfirm where
  report := .success
  itsAid := aid
  permissions := ticket.certificate.getAppPermissions aid
  certificateId := some ticket.digest

theorem verifySigned_confirms {r : Receiver P} {aid : ItsAid}
    (hsigner : data.signer = .certificate [ticket.certificate] ∨
      data.signer = .digest ticket.digest ∧ r.cache.lookup ticket.digest = some ticket.certificate)
    (hvalid : r.verifier.chain.verdict ticket.certificate aid = some .valid)
    (hkey : ticket.certificate.getPublicKey = some key)
    (hdigest : calculateMessageHash P data.hashId data.tbsData ticket.certificate = some digest)
    (hsignature : data.signature.toEcdsa = some signature) (hverify : P.verifyDigest key digest signature = true) :
    (r.verifySigned data aid).1 = some (confirmOf ticket aid) := by
  have hfound : data.signer.certificateId P = some ticket.digest ∧
      (r.distribute data aid).signingCertificate data = some ticket.certificate := by
    unfold Receiver.signingCertificate CertificateCache.lookup
    rw [(Receiver.distribute_frame _ _ _).2]
    rcases hsigner with h | ⟨h, hknown⟩
    · rw [h]
      exact ⟨ticket.digest_eq, rfl⟩
    · rw [h]
      exact ⟨rfl, hknown⟩
  rw [Receiver.verifySigned_of_verifies hfound.2 ⟨hvalid, key, digest, signature, hkey, hdigest, hsignature, hverify⟩,
    hfound.1]
  rfl

theorem conclude_new (confirm : VerifyConfirm) {id : HashedId8} {generation : UInt64}
    (hreport : confirm.report = .success)
    (hid : confirm.certificateId = some id) (htimely : t.timely generation = true)
    (hnew : (id, generation) ∉ t.accepted) :
    (t.conclude confirm (some generation)).1 = confirm := by
  unfold conclude checkReplay
  simp only [if_pos hreport, filter_some, if_pos htimely, hid, if_neg hnew]
  split_ifs <;> rfl

/-- **What one station signs another accepts**, if after what the receiver learns of it the ticket
is valid there, the generation time is timely and new, and a ticket that is named by its digest is
known. -/
theorem signed_accepted (request : SignRequest) (t u : SecurityEntity P) (hown : s.own = some ticket)
    (hsigned : s.encapsulatePacket request = (.ok m, s')) (hself : request.selfSigned = false)
    (haid : request.itsAid < 2 ^ 32)
    (hpair : KeyPair ticket) (hdata : m.signedData = some data) (hlearn : t.learn data = some u)
    (hvalid : u.receiver.verifier.chain.verdict ticket.certificate request.itsAid = some .valid)
    (hknown : data.signer = .digest ticket.digest → t.receiver.cache.lookup ticket.digest = some ticket.certificate)
    (htimely : t.timely (convertTime64 s.now) = true) (hnew : (ticket.digest, convertTime64 s.now) ∉ t.accepted) :
    data.tbsData.payload = some { data := some (3, request.plainMessage) } ∧
      (t.decapsulatePacket (.v3 m)).1 = confirmOf ticket request.itsAid := by
  obtain ⟨data', digest, signature, rfl, hc⟩ := encapsulatePacket_ok hown hsigned
  obtain rfl : data' = data := some.inj hdata
  refine ⟨congrArg ToBeSignedData.payload hc.tbsData, ?_⟩
  obtain ⟨htype, key, hkey, hverify⟩ := hpair digest signature hc.signed
  obtain ⟨hecdsa, hfits⟩ := hc.ecdsa hkey htype
  have hprofiled : (s.prepare ticket request).1.Profiled request ticket s.now :=
    s.receiver.policy.prepareHeader_profiled hself _ ticket _ _
  obtain ⟨hprofile, hitsAid, hgeneration⟩ := hprofiled.checkProfile hc.tbsData hc.signer hfits haid
  obtain ⟨hpolicy, hnow, hacc, hcache⟩ := learn_frame hlearn
  have hverified : (u.receiver.verifySigned data' request.itsAid).1 = some (confirmOf ticket request.itsAid) := by
    refine verifySigned_confirms ?_ hvalid hkey hc.hashed hecdsa hverify
    refine (hc.signer ▸ hprofiled.signer).imp_right fun h => ⟨h, ?_⟩
    rw [hcache]
    exact hknown h
  -- verification leaves clock and policy alone
  obtain ⟨hbase, hver⟩ := u.receiver.verifySigned_frame data' request.itsAid
  have hsame : SamePolicy t { u with receiver := (u.receiver.verifySigned data' request.itsAid).2 } :=
    SamePolicy.trans ⟨hpolicy, hnow⟩ ⟨hver, congrArg CertificateValidator.now hbase⟩
  rw [timely, ← hsame.verification, ← hsame.now] at htimely
  rw [decapsulatePacket, verify_of_profile hprofile rfl, hlearn, elim_some, verifyData, hitsAid, hverified, hgeneration]
  exact conclude_new (confirmOf ticket request.itsAid) rfl rfl htimely (hacc ▸ hnew)

/-- A station that signs with the ticket of the sample verifier. -/
def sampleSigner : SecurityEntity markedPlatform :=
  { sampleEntity {} with own := some ⟨circleTicket, ⟨.nistP256, []⟩, Vector.replicate 8 3, rfl⟩ }

/-- Its first CAM, which carries the certificate. -/
theorem signed_accepted_cam : ∃ m, (sampleSigner.encapsulatePacket ⟨[7], Aid.CA, [], false⟩).1 = .ok m ∧
    ((sampleEntity {}).decapsulatePacket (.v3 m)).1.report = .success := by
  refine ⟨_, rfl, congrArg VerifyConfirm.report (signed_accepted ⟨[7], Aid.CA, [], false⟩ (sampleEntity {})
    (sampleEntity {})
    (show sampleSigner.own = _ from rfl) rfl rfl (by decide) ?_ rfl rfl (by decide +kernel) ?_ (by decide +kernel)
      (by decide)).2⟩
  · rintro _ _ ⟨⟩
    exact ⟨rfl, _, rfl, rfl⟩
  · rintro ⟨⟩

end SecurityEntity
end VanetzaIdf.V3
