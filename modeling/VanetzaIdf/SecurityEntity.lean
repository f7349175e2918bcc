/-
# The security entity, as it signs

`SecurityEntity::encapsulate_packet` of `ports/esp_idf/src/security.cpp`: it
refuses without a ticket and during an identifier change, else the sign service
signs with the current ticket. `verdicts` holds what the validator and the backend
answer to each call. `Entity` keeps what it reads of the pool and of the identity
manager, which own it.
-/
import VanetzaIdf.CertificatePool
import VanetzaIdf.Geonet.Packet

namespace VanetzaIdf.Security

open Geonet

/-- The counters of `SecurityEntity::Statistics` for SN-ENCAP. -/
structure Statistics where
  signedMessages : UInt32 := 0
  refusedNoTicket : UInt32 := 0
  refusedChangePending : UInt32 := 0
  refusedPermission : UInt32 := 0
  failed : UInt32 := 0
deriving DecidableEq, Repr

/-- The requests that were not signed, modulo `2 ^ 32`. -/
def Statistics.refusals (s : Statistics) : UInt32 :=
  s.refusedNoTicket + s.refusedChangePending + s.refusedPermission + s.failed

/-- What the sign service comes to: a message of some size, a verdict other
than Valid, or an exception. -/
inductive SignOutcome
  | signed (size : ℕ)
  | notValid
  | exception
deriving DecidableEq, Repr

structure Entity where
  pool : CertificatePool
  changePending : Bool
  verdicts : ℕ → SignOutcome
  calls : ℕ := 0
  stats : Statistics := {}

def Entity.encapsulatePacket (e : Entity) (q : SignRequest) : Option SecuredMessage × Entity :=
  if e.pool.tickets.isEmpty then
    (none, { e with stats := { e.stats with refusedNoTicket := e.stats.refusedNoTicket + 1 } })
  else if e.changePending then
    (none, { e with stats := { e.stats with refusedChangePending := e.stats.refusedChangePending + 1 } })
  else
    match e.pool.current, e.verdicts e.calls with
    | some t, .signed size =>
      (some ⟨q, t.digest, size⟩,
        { e with calls := e.calls + 1, stats := { e.stats with signedMessages := e.stats.signedMessages + 1 } })
    | some _, .notValid =>
      (none, { e with
        calls := e.calls + 1, stats := { e.stats with refusedPermission := e.stats.refusedPermission + 1 } })
    | _, _ => (none, { e with calls := e.calls + 1, stats := { e.stats with failed := e.stats.failed + 1 } })

instance : SecurityEntity Entity := ⟨Entity.encapsulatePacket⟩

namespace Entity

/-- Why nothing is signed: there is no ticket, an identifier change is under
way, or the sign service does not come to a message. -/
def Unable (e : Entity) : Prop :=
  e.pool.tickets = [] ∨ e.changePending = true ∨ e.pool.current = none ∨ ∀ size, e.verdicts e.calls ≠ .signed size

theorem encapsulatePacket_frame (e : Entity) (q : SignRequest) :
    (e.encapsulatePacket q).2.pool = e.pool ∧ (e.encapsulatePacket q).2.changePending = e.changePending ∧
      (e.encapsulatePacket q).2.verdicts = e.verdicts := by
  unfold encapsulatePacket
  split_ifs
  · exact ⟨rfl, rfl, rfl⟩
  · exact ⟨rfl, rfl, rfl⟩
  · split <;> exact ⟨rfl, rfl, rfl⟩

variable {e : Entity} {q : SignRequest} {m : SecuredMessage}

theorem encapsulatePacket_some (h : (e.encapsulatePacket q).1 = some m) :
    e.changePending = false ∧ m.request = q ∧ ∃ t, e.pool.current = some t ∧ m.signer = t.digest := by
  unfold encapsulatePacket at h
  split_ifs at h with h1 h2
  split at h
  · rename_i t size ht hv
    obtain rfl := Option.some.inj h
    exact ⟨by simpa using h2, rfl, t, ht, rfl⟩
  · simp at h
  · simp at h

theorem encapsulatePacket_eq_none : (e.encapsulatePacket q).1 = none ↔ e.Unable := by
  unfold encapsulatePacket Unable
  by_cases h1 : e.pool.tickets.isEmpty = true
  · simp [List.isEmpty_iff.mp h1]
  · have h1' : e.pool.tickets ≠ [] := fun h => h1 (by simp [h])
    by_cases h2 : e.changePending = true
    · simp [h1, h2]
    · rw [if_neg h1, if_neg h2]
      cases hc : e.pool.current <;> cases hv : e.verdicts e.calls <;> simp [h1', h2]

theorem refusals_of_some (h : (e.encapsulatePacket q).1 = some m) :
    (e.encapsulatePacket q).2.stats.refusals = e.stats.refusals := by
  unfold encapsulatePacket at h ⊢
  split_ifs at h ⊢
  split at h
  · rfl
  · simp at h
  · simp at h

theorem encapsulatePacket_none (h : (e.encapsulatePacket q).1 = none) :
    (e.encapsulatePacket q).2.stats.refusals = e.stats.refusals + 1 := by
  unfold encapsulatePacket at h ⊢
  by_cases h1 : e.pool.tickets.isEmpty = true
  · rw [if_pos h1]
    simp only [Statistics.refusals]
    ac_rfl
  · rw [if_neg h1] at h ⊢
    by_cases h2 : e.changePending = true
    · rw [if_pos h2]
      simp only [Statistics.refusals]
      ac_rfl
    · rw [if_neg h2] at h ⊢
      split at h
      · simp at h
      · simp only [Statistics.refusals]
        ac_rfl
      · simp only [Statistics.refusals]
        ac_rfl

end Entity

/-- An entity with two tickets, whose chains are valid. -/
def sampleEntity (changePending : Bool) : Entity where
  pool := samplePool .years
  changePending := changePending
  verdicts _ := .signed 100

end VanetzaIdf.Security
