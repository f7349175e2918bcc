/-
# Own tickets

The pool, and the entity that the router of a station signs with, keep of a
certificate only what the pool reads of it, and of the sign service only what each
call comes to. Here they meet the certificates and the sign service themselves:
what the pool takes is an `OwnTicket` (`ownTicket_of_add`), and both models of
`encapsulate_packet` answer alike and count alike (`encapsulatePacket_refines`).
-/
import VanetzaIdf.V3.SecurityEntity

namespace VanetzaIdf.V3

/-- The CHOICE, without what is chosen. -/
def IssuerIdentifier.kind : IssuerIdentifier → VanetzaIdf.IssuerIdentifier
  | nothing => .nothing
  | sha256AndDigest _ => .sha256AndDigest
  | self _ => .self
  | sha384AndDigest _ => .sha384AndDigest

variable {P : Platform}

/-- What the pool reads of a certificate; the `id` is among the octets of `rest`. -/
def Certificate.read (P : Platform) (id : CertificateId) (c : Certificate) : VanetzaIdf.Certificate where
  issuer := c.issuer.kind
  id := id
  certIssuePermissions := c.toBeSigned.certIssuePermissions.isSome
  appPermissions := c.toBeSigned.appPermissions.isSome
  keyType := c.getVerificationKeyType
  publicKey := c.getPublicKey.isSome
  digest := c.calculateDigest P
  validity := c.toBeSigned.validityPeriod

def OwnTicket.read (id : CertificateId) (t : OwnTicket P) : Ticket := ⟨t.certificate.read P id, t.key, t.digest⟩

variable {c : Certificate} {id : CertificateId}

theorem isAtCertificate_read : (c.read P id).isAtCertificate = c.isAtCertificate :=
  congrArg (· && c.toBeSigned.appPermissions.isSome) (Option.not_isSome _)

theorem isAuthorizationTicket_read :
    (c.read P id).isAuthorizationTicket = (c.issuerDigest.isSome && c.isAtCertificate && decide (id = .none)) := by
  unfold VanetzaIdf.Certificate.isAuthorizationTicket
  rw [isAtCertificate_read]
  unfold Certificate.read Certificate.issuerDigest
  rcases c.issuer with _ | _ | _ | _ <;> rfl

/-- **The pool takes own tickets only**, of messages, not self-signed, and with the key that belongs
to them. -/
theorem ownTicket_of_add {p p' : CertificatePool} {key : PrivateKey} {probe : Bool}
    (h : p.add (c.read P id) key probe = (.accepted, p')) :
    ∃ t : OwnTicket P, t.certificate = c ∧ t.key = key ∧ p' = { p with tickets := p.tickets ++ [t.read id] } ∧
      c.issuerDigest.isSome ∧ c.isAtCertificate ∧ c.getPublicKey.isSome ∧ key.type = c.getVerificationKeyType := by
  unfold CertificatePool.add at h
  rw [isAuthorizationTicket_read] at h
  split at h
  · cases h
  rename_i hticket
  split at h
  · cases h
  rename_i hkey
  split at h
  · cases h
  rename_i digest hdigest
  split_ifs at h with hpublic hknown hprobe
  · cases h
  · cases h
  · cases h
  rw [Bool.not_eq_true, Bool.not_eq_false', Bool.and_eq_true, Bool.and_eq_true] at hticket
  have hkeyed : (c.read P id).publicKey = true := by simpa using hpublic
  exact ⟨⟨c, key, digest, hdigest⟩, rfl, rfl, (Prod.ext_iff.mp h).2.symm, hticket.1.1, hticket.1.2, hkeyed,
    not_not.mp fun hne => hkey (.inr (.inl hne))⟩

/-- What a call of the sign service comes to, with the size of a message. -/
def outcome (size : SecuredMessage → ℕ) :
    Option (Except SecurityEntity.SignConfirmError SecuredMessage) → Security.SignOutcome
  | some (.ok m) => .signed (size m)
  | some (.error _) => .notValid
  | none => .exception

namespace SecurityEntity

/-- The two entities sign with the same ticket, and have counted the same. -/
structure Refines (s : SecurityEntity P) (e : Security.Entity) : Prop where
  pool : e.pool.Wf
  own : ∃ id, e.pool.current = s.own.map (·.read id)
  changePending : e.changePending = s.changePending
  stats : e.stats = s.stats.toStatistics

variable {s : SecurityEntity P} {e : Security.Entity}

theorem Refines.isEmpty_iff (h : s.Refines e) : e.pool.tickets.isEmpty = true ↔ s.own = none := by
  obtain ⟨id, hown⟩ := h.own
  rw [← Option.map_eq_none_iff (f := OwnTicket.read id), ← hown, List.isEmpty_iff]
  refine ⟨fun hnil => by rw [CertificatePool.current, hnil]; rfl, fun hnone => ?_⟩
  by_contra hne
  exact absurd (h.pool.lt hne) (Nat.not_lt.mpr (List.getElem?_eq_none_iff.mp hnone))

/-- **The models of signing agree**, if the next verdict is what the sign service comes to. -/
theorem encapsulatePacket_refines (h : s.Refines e) (size : SecuredMessage → ℕ) (q : Geonet.SignRequest)
    (request : SignRequest)
    (hverdict : ∀ t, s.own = some t → e.verdicts e.calls = outcome size (s.sign t request).1) :
    (e.encapsulatePacket q).1 = (s.encapsulatePacket request).1.toOption.bind
        (fun m => s.own.map fun t => ⟨q, t.digest, size m⟩) ∧
      (s.encapsulatePacket request).2.Refines (e.encapsulatePacket q).2 := by
  have hempty := h.isEmpty_iff
  obtain ⟨hwf, ⟨id, hown⟩, hpending, hstats⟩ := h
  unfold Security.Entity.encapsulatePacket encapsulatePacket
  rcases s with ⟨receiver, accepted, stats, _ | t, pending⟩
  · rw [if_pos (hempty.mpr rfl)]
    exact ⟨rfl, hwf, ⟨id, hown⟩, hpending, by rw [hstats]⟩
  · rw [if_neg (hempty.not.mpr nofun), hpending]
    dsimp only
    split_ifs
    · exact ⟨rfl, hwf, ⟨id, hown⟩, rfl, by rw [hstats]⟩
    · rw [hown, hverdict t rfl]
      unfold concludeSigning
      rcases hsigned : (sign _ t request).1 with _ | _ | m
      · exact ⟨rfl, hwf, ⟨id, hown⟩, rfl, by rw [hstats]; rfl⟩
      · exact ⟨rfl, hwf, ⟨id, hown⟩, rfl, by rw [hstats]; rfl⟩
      · exact ⟨rfl, hwf, ⟨id, hown⟩, rfl, by rw [hstats]; rfl⟩

end SecurityEntity

end VanetzaIdf.V3
