/-
# Lists applied one after another

A revocation list replaces what its root had revoked before, whichever is newer:
the revocations are those of the newest list as long as lists come in the order
of `this_update` (`revocation_current`, `revocation_rolled_back`).

A trust list only adds, and its delete commands are not carried out: the lists
take effect as long as none deletes an authority that an earlier one added
(`trust_lists_complete`, `deleted_authority_found`).
-/
import VanetzaIdf.Lib.Machine
import VanetzaIdf.Pki.Lists
import VanetzaIdf.V3.ChainValidator

namespace VanetzaIdf.V3.Pki

open Lib Option

variable {P : Platform} (codec : Codec)

/-! ### Messages that come in -/

/-- A list message that a station takes for one of this root. -/
inductive ListMessage
  | ctl (rca : Certificate) (message : ByteBuffer)
  | crl (rca : Certificate) (message : ByteBuffer)

/-- What was applied: nothing if the message was not accepted. -/
inductive Applied
  | nothing
  | ctl (list : RcaTrustList)
  | crl (issuer : HashedId8) (list : RevocationList)

/-- Parse and, if the message is accepted, apply. -/
def receiveList (trust : TrustConfiguration P) : ListMessage → Applied × TrustConfiguration P
  | .ctl rca message =>
    match parseRcaCtl P codec message rca with
    | some list => (.ctl list, (applyTrustList list trust).2)
    | none => (.nothing, trust)
  | .crl rca message =>
    match parseCrl P codec message rca, rca.calculateDigest P with
    | some list, some issuer => (.crl issuer list, (applyRevocationList list rca trust).2)
    | _, _ => (.nothing, trust)

def Applied.crlOf (root : HashedId8) : Applied → Option RevocationList
  | .crl issuer list => if issuer = root then some list else none
  | _ => none

def appliedCrls (root : HashedId8) : TrustConfiguration P → List ListMessage → List RevocationList :=
  history (receiveList codec) fun _ applied => applied.crlOf root

/-- A revocation list of this root. -/
def ListMessage.IsCrlOf (P : Platform) (e : ListMessage) (root : HashedId8) : Prop :=
  ∃ rca message, e = .crl rca message ∧ rca.calculateDigest P = some root

/-! ### Revocations -/

section Revocations

variable {codec} {t : TrustConfiguration P} {e : ListMessage} {root : HashedId8}

theorem receiveList_cases (codec : Codec) (t : TrustConfiguration P) (e : ListMessage) (root : HashedId8) :
    (∃ list, (receiveList codec t e).1.crlOf root = some list ∧ e.IsCrlOf P root ∧
      ∀ c, (receiveList codec t e).2.isRevoked root c = true ↔ c ∈ list.revoked) ∨
    (receiveList codec t e).1.crlOf root = none ∧ (receiveList codec t e).2.revocations root = t.revocations root := by
  cases e with
  | ctl rca message =>
    right
    simp only [receiveList]
    cases parseRcaCtl P codec message rca with
    | none => exact ⟨rfl, rfl⟩
    | some list => exact ⟨rfl, congrFun (applyTrustList_frame list t).2 root⟩
  | crl rca message =>
    simp only [receiveList]
    cases parseCrl P codec message rca with
    | none => exact .inr ⟨rfl, rfl⟩
    | some list =>
      cases hd : rca.calculateDigest P with
      | none => exact .inr ⟨rfl, rfl⟩
      | some issuer =>
        by_cases hroot : issuer = root
        · subst hroot
          exact .inl ⟨list, if_pos rfl, ⟨rca, message, rfl, hd⟩, applyRevocationList_revoked hd⟩
        · refine .inr ⟨if_neg hroot, applyRevocationList_other ?_⟩
          rw [hd]
          exact fun h => hroot (some.inj h)

theorem receiveList_other (h : ¬ e.IsCrlOf P root) :
    (receiveList codec t e).2.revocations root = t.revocations root := by
  rcases receiveList_cases codec t e root with ⟨-, -, hcrl, -⟩ | ⟨-, hsame⟩
  · exact absurd hcrl h
  · exact hsame

/-- Revoked is what the last list says. -/
def LastApplied (root : HashedId8) (t : TrustConfiguration P) (applied : List RevocationList) : Prop :=
  ∀ l, applied.getLast? = some l → ∀ c, t.isRevoked root c = true ↔ c ∈ l.revoked

theorem revoked_last (codec : Codec) (t₀ : TrustConfiguration P) (es : List ListMessage) (root : HashedId8) :
    LastApplied root (final (receiveList codec) t₀ es) (appliedCrls codec root t₀ es) := by
  have hrun := history_invariant (receiveList codec) (f := fun _ applied => applied.crlOf root) (A := fun _ => True)
    (I := LastApplied root) ?_ es t₀ [] (fun l hl => by simp at hl) (fun _ _ => trivial)
  · exact hrun
  · intro t acc e hlast _
    rcases receiveList_cases codec t e root with ⟨list, hout, -, hrev⟩ | ⟨hout, hsame⟩
    · intro l hl
      rw [hout, toList_some, List.getLast?_concat] at hl
      exact some.inj hl ▸ hrev
    · intro l hl c
      rw [hout, toList_none, List.append_nil] at hl
      rw [← hlast l hl c, TrustConfiguration.isRevoked, TrustConfiguration.isRevoked, hsame]

theorem thisUpdate_le_getLast {lists : List RevocationList} {l last : RevocationList}
    (hasc : lists.Pairwise fun a b => a.thisUpdate ≤ b.thisUpdate) (hl : l ∈ lists)
    (hlast : lists.getLast? = some last) :
    l.thisUpdate ≤ last.thisUpdate := by
  obtain ⟨init, rfl⟩ := List.getLast?_eq_some_iff.mp hlast
  rcases List.mem_append.mp hl with hl | hl
  · exact (List.pairwise_append.mp hasc).2.2 l hl last List.mem_cons_self
  · rw [List.mem_singleton.mp hl]
    exact UInt32.le_refl _

/-- **Revocations are current while the lists come in order** of their `this_update`. A message
does not touch the revocations of any other root. -/
theorem revocation_current (codec : Codec) (t₀ : TrustConfiguration P) (es : List ListMessage) (root : HashedId8)
    (newest : RevocationList)
    (hdistinct : ∀ l ∈ appliedCrls codec root t₀ es, ∀ l' ∈ appliedCrls codec root t₀ es,
      l.thisUpdate = l'.thisUpdate → l = l')
    (hascending : (appliedCrls codec root t₀ es).Pairwise fun l l' => l.thisUpdate ≤ l'.thisUpdate)
    (hmem : newest ∈ appliedCrls codec root t₀ es)
    (hnewest : ∀ l ∈ appliedCrls codec root t₀ es, l.thisUpdate ≤ newest.thisUpdate) :
    (∀ c, (final (receiveList codec) t₀ es).isRevoked root c = true ↔ c ∈ newest.revoked) ∧
      ∀ e other, ¬ e.IsCrlOf P other →
        (receiveList codec (final (receiveList codec) t₀ es) e).2.revocations other =
          (final (receiveList codec) t₀ es).revocations other := by
  refine ⟨?_, fun e other h => receiveList_other h⟩
  obtain ⟨last, hlast⟩ : ∃ last, (appliedCrls codec root t₀ es).getLast? = some last :=
    ⟨_, List.getLast?_eq_getLast_of_ne_nil (List.ne_nil_of_mem hmem)⟩
  have hlastmem := List.mem_of_getLast? hlast
  have hle := thisUpdate_le_getLast hascending hmem hlast
  have hge := hnewest last hlastmem
  have heq : newest = last := hdistinct newest hmem last hlastmem (UInt32.le_antisymm hle hge)
  rw [heq]
  exact revoked_last codec t₀ es root last hlast

end Revocations

/-! ### A root that signs lists -/

/-- A root that may sign lists of both kinds. -/
def sampleRca : Certificate :=
  { sampleRoot none with
    toBeSigned := { (sampleRoot none).toBeSigned with appPermissions := some [⟨Aid.CRL, none⟩, ⟨Aid.CTL, none⟩] } }

/-- The octets are the number of the list that the message holds. -/
def sampleCodec (psid : ItsAid) (lists : List EtsiTs102941DataContent) : Codec where
  decodeSecuredData octets := some {
    protocolVersion := 3
    content := .signedData {
      hashId := .sha256
      tbsData := { payload := some { data := some (3, octets) }, headerInfo := { psid, generationTime := some 0 } }
      signer := .certificate [sampleRca]
      signature := .ecdsaNistP256Signature (.xOnly []) [] } }
  decodeManagement octets := (lists[(octets.headD 0).toNat]?).map fun content => ⟨1, content⟩

/-- The root's empty list, and a later one that revokes a certificate. -/
def sampleCrls : Codec :=
  sampleCodec Aid.CRL [.certificateRevocationList ⟨1, 10, 20, []⟩,
    .certificateRevocationList ⟨1, 11, 21, [List.replicate 8 3]⟩]

theorem revocation_current_two :
    (∀ c, (final (receiveList sampleCrls) ({} : TrustConfiguration markedPlatform)
      [.crl sampleRca [0], .crl sampleRca [1]]).isRevoked (Vector.replicate 8 1) c = true ↔
        c ∈ [(Vector.replicate 8 3 : HashedId8)]) ∧
      ∀ e other, ¬ e.IsCrlOf markedPlatform other →
        (receiveList sampleCrls (final (receiveList sampleCrls) ({} : TrustConfiguration markedPlatform)
          [.crl sampleRca [0], .crl sampleRca [1]]) e).2.revocations other =
        (final (receiveList sampleCrls) ({} : TrustConfiguration markedPlatform)
          [.crl sampleRca [0], .crl sampleRca [1]]).revocations other :=
  revocation_current sampleCrls {} [.crl sampleRca [0], .crl sampleRca [1]] (Vector.replicate 8 1)
    ⟨11, 21, [Vector.replicate 8 3]⟩ (by decide +kernel) (by decide +kernel) (by decide +kernel) (by decide +kernel)

/-- **A replayed list takes revocations back.** The later list revokes a
certificate; the earlier one, applied again, clears it. -/
theorem revocation_rolled_back :
    ¬ ∀ (P : Platform) (codec : Codec) (t₀ : TrustConfiguration P) (es : List ListMessage) (root : HashedId8)
      (newest : RevocationList),
      (∀ l ∈ appliedCrls codec root t₀ es, ∀ l' ∈ appliedCrls codec root t₀ es, l.thisUpdate = l'.thisUpdate → l = l') →
      newest ∈ appliedCrls codec root t₀ es → (∀ l ∈ appliedCrls codec root t₀ es, l.thisUpdate ≤ newest.thisUpdate) →
      ∀ c, (final (receiveList codec) t₀ es).isRevoked root c = true ↔ c ∈ newest.revoked := by
  intro h
  have hback := h markedPlatform sampleCrls {} [.crl sampleRca [0], .crl sampleRca [1], .crl sampleRca [0]]
    (Vector.replicate 8 1) ⟨11, 21, [Vector.replicate 8 3]⟩ (by decide +kernel) (by decide +kernel)
    (by decide +kernel) (Vector.replicate 8 3)
  exact absurd hback (by decide +kernel)

/-! ### Trust lists -/

section TrustLists

variable {codec} {rca : Certificate} {lists : List RcaTrustList} {t t₀ : TrustConfiguration P} {d : HashedId8}

def applyAll (t : TrustConfiguration P) (lists : List RcaTrustList) : TrustConfiguration P :=
  final (fun t list => applyTrustList list t) t lists

/-- All were parsed from messages of the root. -/
def Accepted (P : Platform) (codec : Codec) (rca : Certificate) (lists : List RcaTrustList) : Prop :=
  ∀ l ∈ lists, ∃ message, parseRcaCtl P codec message rca = some l

/-- Some list announces the digest, and no later delta list deletes it. -/
def InEffect (P : Platform) (lists : List RcaTrustList) (d : HashedId8) : Prop :=
  ∃ earlier l later, lists = earlier ++ l :: later ∧ (l.announced P d).isSome = true ∧
    ∀ l' ∈ later, l'.full = false → d ∉ l'.deleted

/-- What the list deletes, and was not known before all lists, is not found,
or the list adds it again. -/
def DeletesUnknown (t₀ t : TrustConfiguration P) (list : RcaTrustList) : Prop :=
  ∀ d ∈ list.deleted, t₀.issuers d = none → (t.issuers d).isSome = true → (list.announced P d).isSome = true

theorem applyAll_snoc (t : TrustConfiguration P) (lists : List RcaTrustList) (l : RcaTrustList) :
    applyAll t (lists ++ [l]) = (applyTrustList l (applyAll t lists)).2 :=
  final_snoc _ t lists l

variable {l : RcaTrustList}

theorem Accepted.init (h : Accepted P codec rca (lists ++ [l])) : Accepted P codec rca lists :=
  fun l' hl' => h l' (List.mem_append_left _ hl')

theorem Accepted.last (h : Accepted P codec rca (lists ++ [l])) :
    ∃ e, rca.calculateDigest P = some e ∧ l.Issued P rca e := by
  obtain ⟨message, hm⟩ := h l (by simp)
  exact parseRcaCtl_issued hm

theorem inEffect_snoc :
    InEffect P (lists ++ [l]) d ↔
      (l.announced P d).isSome = true ∨ InEffect P lists d ∧ (l.full = false → d ∉ l.deleted) := by
  constructor
  · rintro ⟨earlier, m, later, heq, hm, hlater⟩
    rcases List.eq_nil_or_concat' later with rfl | ⟨later', l', rfl⟩
    · obtain ⟨-, rfl⟩ := List.append_singleton_inj.mp heq
      exact .inl hm
    · rw [← List.cons_append, ← List.append_assoc] at heq
      obtain ⟨heq', rfl⟩ := List.append_singleton_inj.mp heq
      refine .inr ⟨⟨earlier, m, later', heq', hm, fun l'' hl'' => hlater l'' ?_⟩, hlater l ?_⟩
      · exact List.mem_append_left _ hl''
      · simp
  · rintro (hl | ⟨⟨earlier, m, later, rfl, hm, hlater⟩, hl⟩)
    · exact ⟨lists, l, [], rfl, hl, by simp⟩
    · refine ⟨earlier, m, later ++ [l], by simp, hm, fun l' hl' => ?_⟩
      rcases List.mem_append.mp hl' with hl' | hl'
      · exact hlater l' hl'
      · rw [List.mem_singleton.mp hl']
        exact hl

/-- The effect of trust lists of one root on what was there before. -/
structure Extends (rca : Certificate) (t₀ t : TrustConfiguration P) : Prop where
  roots : t.roots = t₀.roots
  revocations : t.revocations = t₀.revocations
  /-- Authorities that were known are found as before. -/
  known : ∀ d c, t₀.issuers d = some c → t.issuers d = some c
  /-- Authorities of other roots are found if they were. -/
  others : ∀ d c, c.issuerDigest ≠ rca.calculateDigest P → t.issuers d = some c → t₀.issuers d = some c
  listed : ∃ added, t.authorities = t₀.authorities ++ added ∧ ∀ c ∈ added, c.issuerDigest = rca.calculateDigest P

theorem applyAll_extends (h : Accepted P codec rca lists) : Extends rca t₀ (applyAll t₀ lists) := by
  induction lists using List.reverseRecOn with
  | nil => exact ⟨rfl, rfl, fun _ _ h => h, fun _ _ _ h => h, [], by simp [applyAll, final], by simp⟩
  | append_singleton lists l ih =>
    have hext := ih h.init
    obtain ⟨e, he, hissued⟩ := h.last
    obtain ⟨hroots, hrev⟩ := applyTrustList_frame l (applyAll t₀ lists)
    have hiss := applyTrustList_issuers (t := applyAll t₀ lists) hissued.mayAdd
    rw [applyAll_snoc]
    refine ⟨hroots.trans hext.roots, hrev.trans hext.revocations, fun d c hc => ?_, fun d c hc hd => ?_, ?_⟩
    · rw [hiss, hext.known d c hc, some_or]
    · rw [hiss] at hd
      rcases or_eq_some_iff.mp hd with hd | ⟨-, hd⟩
      · exact hext.others d c hc hd
      · rw [he] at hc
        exact absurd (hissued.issuerDigest (List.mem_of_find?_eq_some hd)) hc
    · obtain ⟨added, hadded, hroot⟩ := hext.listed
      obtain ⟨new, hnew, hmem⟩ := applyTrustList_authorities l (applyAll t₀ lists)
      refine ⟨added ++ new, by rw [hnew, hadded, List.append_assoc], List.forall_mem_append.mpr ⟨hroot, fun c hc => ?_⟩⟩
      rw [he]
      exact hissued.issuerDigest (hmem c hc)

/-- **Trust lists take effect while they delete nothing that was added:** an authority that was
unknown is found exactly if some list announced it and no later one deletes it. -/
theorem trust_lists_complete (codec : Codec) (t₀ : TrustConfiguration P) (rca : Certificate) (lists : List RcaTrustList)
    (haccepted : Accepted P codec rca lists)
    (hdelete : Along (fun t list => applyTrustList list t) (DeletesUnknown t₀) t₀ lists) :
    (∀ d, t₀.issuers d = none → (((applyAll t₀ lists).issuers d).isSome = true ↔ InEffect P lists d)) ∧
      Extends rca t₀ (applyAll t₀ lists) := by
  refine ⟨fun d hd => ?_, applyAll_extends haccepted⟩
  induction lists using List.reverseRecOn with
  | nil => simp [applyAll, final, hd, InEffect]
  | append_singleton lists l ih =>
    obtain ⟨hinit, hlast⟩ := (along_append _).mp hdelete
    have ih' := ih haccepted.init hinit
    have hkeep : DeletesUnknown t₀ (applyAll t₀ lists) l := hlast.1
    obtain ⟨e, -, hissued⟩ := haccepted.last
    rw [applyAll_snoc, applyTrustList_issuers hissued.mayAdd, inEffect_snoc, isSome_or, Bool.or_eq_true, ih']
    by_cases hann : (l.announced P d).isSome = true
    · simp [hann]
    · -- the list does not announce the digest, so it must not delete it either
      have hdel : InEffect P lists d → d ∉ l.deleted := fun hin hmem => hann (hkeep d hmem hd (ih'.mpr hin))
      constructor
      · rintro (hin | hann')
        · exact .inr ⟨hin, fun _ => hdel hin⟩
        · exact absurd hann' hann
      · rintro (hann' | ⟨hin, -⟩)
        · exact absurd hann' hann
        · exact .inl hin

end TrustLists

/-- The root's full list with one authority, a delta that deletes it, and one
that deletes a certificate no list has. -/
def sampleCtls : Codec :=
  sampleCodec Aid.CTL [.certificateTrustListRca ⟨1, 20, true, 1, [.add (.ea (sampleAuthority ⟨0, .years, 1⟩ none))]⟩,
    .certificateTrustListRca ⟨1, 30, false, 2, [.delete (.cert (List.replicate 8 2))]⟩,
    .certificateTrustListRca ⟨1, 30, false, 2, [.delete (.cert (List.replicate 8 9))]⟩]

def sampleFull : RcaTrustList := { sequence := 1, nextUpdate := 20, ea := [sampleAuthority ⟨0, .years, 1⟩ none] }

def sampleDelta (mark : UInt8) : RcaTrustList :=
  { sequence := 2, nextUpdate := 30, full := false, deleted := [Vector.replicate 8 mark] }

/-- The full list, and the delta that deletes what is unknown. -/
theorem trust_lists_complete_two :
    (∀ d, ({} : TrustConfiguration markedPlatform).issuers d = none →
      (((applyAll ({} : TrustConfiguration markedPlatform) [sampleFull, sampleDelta 9]).issuers d).isSome = true ↔
        InEffect markedPlatform [sampleFull, sampleDelta 9] d)) ∧
      Extends sampleRca {} (applyAll ({} : TrustConfiguration markedPlatform) [sampleFull, sampleDelta 9]) := by
  refine trust_lists_complete sampleCtls {} sampleRca _ (fun l hl => ?_) ⟨fun d hd => ?_, fun d hd _ hs => ?_, trivial⟩
  · rcases List.mem_pair.mp hl with rfl | rfl
    · exact ⟨[0], by decide +kernel⟩
    · exact ⟨[2], by decide +kernel⟩
  · simp [sampleFull] at hd
  · obtain rfl : d = Vector.replicate 8 9 := by simpa [sampleDelta] using hd
    exact absurd hs (by decide +kernel)

/-- **A deleted authority is found.** The root announces an authority and
deletes it with the next list; the lookup finds it still. -/
theorem deleted_authority_found :
    ¬ ∀ (P : Platform) (codec : Codec) (t₀ : TrustConfiguration P) (rca : Certificate) (lists : List RcaTrustList),
      Accepted P codec rca lists → (lists.Pairwise fun l l' => l.sequence < l'.sequence) →
      ∀ d, t₀.issuers d = none → (((applyAll t₀ lists).issuers d).isSome = true ↔ InEffect P lists d) := by
  intro h
  have hiff := h markedPlatform sampleCtls {} sampleRca [sampleFull, sampleDelta 2] (fun l hl => ?_) (by decide +kernel)
    (Vector.replicate 8 2) rfl
  · have hfound := hiff.mp (by decide +kernel)
    -- the delta is the last list and announces nothing, and it deletes the digest
    rw [← List.singleton_append, inEffect_snoc] at hfound
    rcases hfound with hann | ⟨-, hdel⟩
    · exact absurd hann (by decide +kernel)
    · exact hdel rfl (by decide +kernel)
  · rcases List.mem_pair.mp hl with rfl | rfl
    · exact ⟨[0], by decide +kernel⟩
    · exact ⟨[1], by decide +kernel⟩

end VanetzaIdf.V3.Pki
