/-
# The pool of authorization tickets

`CertificatePool` of `ports/esp_idf/src/security.cpp`: the station's tickets in
the order they were added, and the index of the one in use. Of a certificate
only what the pool asks of it is kept.

Every operation keeps `CertificatePool.Wf`: the index addresses a ticket unless
the pool is empty, and digests are distinct (`pool_in_order`).
-/
import VanetzaIdf.Basic
import VanetzaIdf.Runtime
import Mathlib.Data.List.Nodup
import Mathlib.Data.List.Range

namespace VanetzaIdf

/-! ### Certificates -/

/-- The CHOICE of a `Duration` in a validity period. -/
inductive DurationUnit
  | nothing | microseconds | milliseconds | seconds | minutes | hours | sixtyHours | years
deriving DecidableEq, Repr

/-- `ValidityPeriod`: a `Time32` and a `Duration` with its `Uint16` value. -/
structure ValidityPeriod where
  start : UInt32
  unit : DurationUnit
  value : UInt16
deriving DecidableEq, Repr

variable (v : ValidityPeriod)

/-- The length `valid_at_timepoint` gives the period; a year is 31556952 s. -/
def ValidityPeriod.length : Duration :=
  match v.unit with
  | .nothing => 0
  | .microseconds => v.value.toNat
  | .milliseconds => v.value.toNat * 1000
  | .seconds => VanetzaIdf.seconds v.value.toNat
  | .minutes => VanetzaIdf.seconds (v.value.toNat * 60)
  | .hours => VanetzaIdf.seconds (v.value.toNat * 3600)
  | .sixtyHours => VanetzaIdf.seconds (60 * 3600 * v.value.toNat)
  | .years => VanetzaIdf.seconds (31556952 * v.value.toNat)

def ValidityPeriod.validAtTimepoint (tp : TimePoint) : Bool :=
  let start := VanetzaIdf.seconds v.start.toNat
  decide (start ≤ tp ∧ tp < start + v.length)

/-- The whole seconds `get_start_and_end_validity` adds; a year is 365 days. -/
def ValidityPeriod.wholeSeconds : ℕ :=
  match v.unit with
  | .nothing => 0
  | .microseconds => v.value.toNat / 1000000
  | .milliseconds => v.value.toNat / 1000
  | .seconds => v.value.toNat
  | .minutes => v.value.toNat * 60
  | .hours => v.value.toNat * 60 * 60
  | .sixtyHours => v.value.toNat * 60 * 60 * 60
  | .years => v.value.toNat * 60 * 60 * 24 * 365

/-- `get_start_and_end_validity().end_validity`, a `Time32`. -/
def ValidityPeriod.endValidity : ℕ := (v.start.toNat + v.wholeSeconds) % 2 ^ 32

/-- `v2::convert_time32`: whole seconds, towards zero, in 32 bits. -/
def convertTime32 (tp : TimePoint) : ℕ := (tp.tdiv 1000000 % 2 ^ 32).toNat

inductive KeyType
  | unspecified | nistP256 | brainpoolP256r1 | brainpoolP384r1
deriving DecidableEq, Repr

/-- `key_length`: octets of a private key. -/
def KeyType.keyLength : KeyType → ℕ
  | .nistP256 | .brainpoolP256r1 => 32
  | .brainpoolP384r1 => 48
  | .unspecified => 0

inductive IssuerIdentifier
  | nothing | sha256AndDigest | self | sha384AndDigest | sm3AndDigest
deriving DecidableEq, Repr

inductive CertificateId
  | nothing | linkageData | name | binaryId | none
deriving DecidableEq, Repr

/-- What the pool reads of a certificate. `publicKey` says whether
`v3::get_public_key` finds a key. -/
structure Certificate where
  issuer : IssuerIdentifier
  id : CertificateId
  certIssuePermissions : Bool
  appPermissions : Bool
  keyType : KeyType
  publicKey : Bool
  digest : Option HashedId8
  validity : ValidityPeriod
deriving DecidableEq, Repr

def Certificate.isAtCertificate (c : Certificate) : Bool := !c.certIssuePermissions && c.appPermissions

def Certificate.isAuthorizationTicket (c : Certificate) : Bool :=
  (c.issuer = .sha256AndDigest || c.issuer = .sha384AndDigest) && c.isAtCertificate && c.id = .none

structure PrivateKey where
  type : KeyType
  key : ByteBuffer
deriving DecidableEq, Repr

/-! ### The pool -/

/-- `CertificatePool::Ticket`. -/
structure Ticket where
  certificate : Certificate
  key : PrivateKey
  digest : HashedId8
deriving DecidableEq, Repr

structure CertificatePool where
  tickets : List Ticket := []
  currentIndex : ℕ := 0
deriving DecidableEq, Repr

namespace CertificatePool

/-- `current`: the ticket in use, none when the pool is empty. -/
def current (p : CertificatePool) : Option Ticket := p.tickets[p.currentIndex]?

/-- `IdentityManager::Impl::current`: the digest of the ticket in use. -/
def identifier (p : CertificatePool) : Identifier := (p.current.map (·.digest)).getD Identifier.none

/-- `add`; `probe` is whether the key signed a digest that the certificate's
public key verified. -/
def add (p : CertificatePool) (certificate : Certificate) (key : PrivateKey) (probe : Bool) :
    Result × CertificatePool :=
  if !certificate.isAuthorizationTicket then (.invalidArgument, p)
  else if certificate.keyType = .unspecified ∨ key.type ≠ certificate.keyType ∨
      key.key.length ≠ certificate.keyType.keyLength then (.invalidArgument, p)
  else
    match certificate.digest with
    | none => (.invalidArgument, p)
    | some digest =>
      if !certificate.publicKey then (.invalidArgument, p)
      else if p.tickets.any (·.digest == digest) then (.invalidArgument, p)
      else if !probe then (.invalidArgument, p)
      else (.accepted, { p with tickets := p.tickets ++ [⟨certificate, key, digest⟩] })

/-- `next_valid`: the next other ticket valid at `now`, round robin. -/
def nextValid (p : CertificatePool) (now : TimePoint) : Option Ticket :=
  if p.tickets.length < 2 then none
  else
    (List.range' 1 (p.tickets.length - 1)).findSome? fun step =>
      p.tickets[(p.currentIndex + step) % p.tickets.length]?.filter
        (·.certificate.validity.validAtTimepoint now)

/-- `select`: makes the ticket with this digest current. -/
def select (p : CertificatePool) (digest : HashedId8) : Result × CertificatePool :=
  match p.tickets.findIdx? (·.digest == digest) with
  | some i => (.accepted, { p with currentIndex := i })
  | none => (.invalidArgument, p)

/-- `prune` drops the ticket it finds at index `i`: it is not the current one
and has ended. -/
def Dropped (time32 i cur : ℕ) (t : Ticket) : Prop := i ≠ cur ∧ t.certificate.validity.endValidity < time32

instance (time32 i cur : ℕ) (t : Ticket) : Decidable (Dropped time32 i cur t) :=
  inferInstanceAs (Decidable (_ ∧ _))

/-- The loop of `prune` from index `i` on: the tickets it keeps, the index of the current one, how
many it dropped. -/
def pruneFrom (time32 : ℕ) : ℕ → ℕ → List Ticket → List Ticket × ℕ × ℕ
  | _, cur, [] => ([], cur, 0)
  | i, cur, t :: ts =>
    if Dropped time32 i cur t then
      let r := pruneFrom time32 i (if i < cur then cur - 1 else cur) ts
      (r.1, r.2.1, r.2.2 + 1)
    else
      let r := pruneFrom time32 (i + 1) cur ts
      (t :: r.1, r.2.1, r.2.2)

/-- `prune`: drops the tickets that ended before `now`, never the current one. -/
def prune (p : CertificatePool) (now : TimePoint) : ℕ × CertificatePool :=
  let r := pruneFrom (convertTime32 now) 0 p.currentIndex p.tickets
  (r.2.2, ⟨r.1, r.2.1⟩)

/-- The index addresses a ticket unless there is none, and no two tickets
share a digest. -/
structure Wf (p : CertificatePool) : Prop where
  index : p.currentIndex ≤ p.tickets.length - 1
  digests : (p.tickets.map (·.digest)).Nodup

theorem Wf.empty : Wf {} := ⟨Nat.zero_le _, List.nodup_nil⟩

variable {p : CertificatePool} {t : Ticket} {now : TimePoint} {time32 i cur : ℕ}

theorem Wf.lt (h : p.Wf) (hn : p.tickets ≠ []) : p.currentIndex < p.tickets.length := by
  have := List.length_pos_of_ne_nil hn
  have := h.index
  omega

theorem current_eq_none (h : p.Wf) : p.current = none ↔ p.tickets = [] := by
  constructor
  · intro hc
    by_contra hn
    have := List.getElem?_eq_none_iff.mp hc
    have := h.lt hn
    omega
  · intro hn
    simp [current, hn]

/-! ### add -/

theorem add_cases (p : CertificatePool) (c : Certificate) (k : PrivateKey) (probe : Bool) :
    (p.add c k probe).2 = p ∨ ∃ t : Ticket, (∀ u ∈ p.tickets, u.digest ≠ t.digest) ∧
      (p.add c k probe).2 = { p with tickets := p.tickets ++ [t] } := by
  unfold add
  by_cases h1 : (!c.isAuthorizationTicket) = true
  · exact .inl (by rw [if_pos h1])
  rw [if_neg h1]
  by_cases h2 : c.keyType = .unspecified ∨ k.type ≠ c.keyType ∨ k.key.length ≠ c.keyType.keyLength
  · exact .inl (by rw [if_pos h2])
  rw [if_neg h2]
  cases c.digest with
  | none => exact .inl rfl
  | some d =>
    dsimp only
    by_cases h3 : (!c.publicKey) = true
    · exact .inl (by rw [if_pos h3])
    rw [if_neg h3]
    by_cases h4 : p.tickets.any (·.digest == d) = true
    · exact .inl (by rw [if_pos h4])
    rw [if_neg h4]
    by_cases h5 : (!probe) = true
    · exact .inl (by rw [if_pos h5])
    refine .inr ⟨⟨c, k, d⟩, fun u hu hd => h4 ?_, by rw [if_neg h5]⟩
    exact List.any_eq_true.mpr ⟨u, hu, by simpa using hd⟩

theorem Wf.add (h : p.Wf) (c : Certificate) (k : PrivateKey) (probe : Bool) : (p.add c k probe).2.Wf := by
  rcases p.add_cases c k probe with he | ⟨t, ht, he⟩
  · rwa [he]
  · rw [he]
    refine ⟨?_, ?_⟩
    · have := h.index
      simp only [List.length_append, List.length_singleton]
      omega
    · rw [List.map_append, List.nodup_append]
      refine ⟨h.digests, by simp, ?_⟩
      intro a ha b hb hab
      obtain ⟨u, hu, rfl⟩ := List.mem_map.mp ha
      simp only [List.map_cons, List.map_nil, List.mem_singleton] at hb
      exact ht u hu (hab.trans hb)

theorem current_add (h : p.Wf) (hn : p.tickets ≠ []) (c : Certificate) (k : PrivateKey)
    (probe : Bool) : (p.add c k probe).2.current = p.current := by
  rcases p.add_cases c k probe with he | ⟨t, -, he⟩
  · rw [he]
  · rw [he]
    exact List.getElem?_append_left (h.lt hn)

theorem mem_add (ht : t ∈ p.tickets) (c : Certificate) (k : PrivateKey)
    (probe : Bool) : t ∈ (p.add c k probe).2.tickets := by
  rcases p.add_cases c k probe with he | ⟨u, -, he⟩
  · rwa [he]
  · rw [he]
    exact List.mem_append_left _ ht

/-! ### next_valid and select -/

theorem nextValid_spec (h : p.nextValid now = some t) :
    t ∈ p.tickets ∧ t.certificate.validity.validAtTimepoint now = true ∧ 2 ≤ p.tickets.length := by
  unfold nextValid at h
  split_ifs at h with h2
  obtain ⟨step, -, hs⟩ := List.exists_of_findSome?_eq_some h
  obtain ⟨hm, hv⟩ := Option.filter_eq_some_iff.mp hs
  exact ⟨List.mem_of_getElem? hm, hv, by omega⟩

theorem nextValid_ne (hw : p.Wf) (h : p.nextValid now = some t) : p.identifier ≠ t.digest := by
  unfold nextValid at h
  split_ifs at h with h2
  obtain ⟨step, hstep, hs⟩ := List.exists_of_findSome?_eq_some h
  obtain ⟨hm, -⟩ := Option.filter_eq_some_iff.mp hs
  obtain ⟨h1, h3⟩ : 1 ≤ step ∧ step < p.tickets.length := by
    have := List.mem_range'_1.mp hstep
    omega
  have hlt := hw.lt (List.ne_nil_of_length_pos (by omega))
  have hne : (p.currentIndex + step) % p.tickets.length ≠ p.currentIndex := by
    by_cases hle : p.currentIndex + step < p.tickets.length
    · rw [Nat.mod_eq_of_lt hle]
      omega
    · rw [Nat.mod_eq_sub_mod (by omega), Nat.mod_eq_of_lt (by omega)]
      omega
  obtain ⟨hi, rfl⟩ := List.getElem?_eq_some_iff.mp hm
  have hcur : p.identifier = p.tickets[p.currentIndex].digest := by
    simp [identifier, current, List.getElem?_eq_getElem hlt]
  rw [hcur]
  intro he
  have hinj := (List.nodup_iff_injective_get.mp hw.digests)
  have := @hinj ⟨p.currentIndex, by simpa using hlt⟩ ⟨(p.currentIndex + step) % p.tickets.length, by simpa using hi⟩
    (by simpa using he)
  exact hne (Fin.mk.inj_iff.mp this).symm

theorem current_ne_none (hw : p.Wf) (hn : p.tickets ≠ []) : p.current ≠ none :=
  fun h => hn ((current_eq_none hw).mp h)

theorem select_cases (p : CertificatePool) (d : HashedId8) :
    (∃ i t, p.tickets[i]? = some t ∧ t.digest = d ∧ p.select d = (.accepted, { p with currentIndex := i })) ∨
      (∀ t ∈ p.tickets, t.digest ≠ d) ∧ p.select d = (.invalidArgument, p) := by
  unfold select
  cases hf : p.tickets.findIdx? (·.digest == d) with
  | none =>
    refine .inr ⟨fun t ht => ?_, rfl⟩
    simpa using List.findIdx?_eq_none_iff.mp hf t ht
  | some i =>
    obtain ⟨hi, hd, -⟩ := List.findIdx?_eq_some_iff_getElem.mp hf
    exact .inl ⟨i, p.tickets[i], List.getElem?_eq_getElem hi, by simpa using hd, rfl⟩

theorem Wf.select (h : p.Wf) (d : HashedId8) : (p.select d).2.Wf := by
  rcases p.select_cases d with ⟨i, t, hi, -, he⟩ | ⟨-, he⟩
  · rw [he]
    obtain ⟨hl, -⟩ := List.getElem?_eq_some_iff.mp hi
    refine ⟨?_, h.digests⟩
    show i ≤ p.tickets.length - 1
    omega
  · rwa [he]

@[simp] theorem select_tickets (p : CertificatePool) (d : HashedId8) : (p.select d).2.tickets = p.tickets := by
  rcases p.select_cases d with ⟨i, t, -, -, he⟩ | ⟨-, he⟩ <;> rw [he]

theorem identifier_select {d : HashedId8} (h : ∃ t ∈ p.tickets, t.digest = d) : (p.select d).2.identifier = d := by
  rcases p.select_cases d with ⟨i, t, hi, hd, he⟩ | ⟨hn, -⟩
  · rw [he]
    simp only [identifier, current, hi, Option.map_some, Option.getD_some, hd]
  · obtain ⟨t, ht, hd⟩ := h
    exact absurd hd (hn t ht)

/-! ### prune -/

theorem pruneFrom_sublist (time32 i cur : ℕ) (ts : List Ticket) : (pruneFrom time32 i cur ts).1.Sublist ts := by
  fun_induction pruneFrom with
  | case1 => exact .slnil
  | case2 i cur t ts hd r ih => exact ih.cons _
  | case3 i cur t ts hd r ih => exact ih.cons_cons _

theorem pruneFrom_passed (time32 : ℕ) {i cur : ℕ} (ts : List Ticket) (h : cur < i) :
    (pruneFrom time32 i cur ts).2.1 = cur := by
  fun_induction pruneFrom with
  | case1 => rfl
  | case2 i cur t ts hd r ih =>
    have hcur : (if i < cur then cur - 1 else cur) = cur := if_neg (by omega)
    exact (ih (by rwa [hcur])).trans hcur
  | case3 i cur t ts hd r ih => exact ih (by omega)

theorem pruneFrom_current (time32 : ℕ) {i cur : ℕ} (ts : List Ticket) (h : i ≤ cur) (h' : cur < i + ts.length) :
    i ≤ (pruneFrom time32 i cur ts).2.1 ∧
      (pruneFrom time32 i cur ts).1[(pruneFrom time32 i cur ts).2.1 - i]? = ts[cur - i]? := by
  fun_induction pruneFrom with
  | case1 =>
    simp only [List.length_nil] at h'
    omega
  | case2 i cur t ts hd r ih =>
    -- a dropped ticket before the current one: the index moves down with it
    simp only [List.length_cons] at h'
    have hlt : i < cur := lt_of_le_of_ne h hd.1
    obtain ⟨h1, h2⟩ := ih (by rw [if_pos hlt]; omega) (by rw [if_pos hlt]; omega)
    refine ⟨h1, h2.trans ?_⟩
    rw [if_pos hlt, show cur - i = cur - 1 - i + 1 by omega, List.getElem?_cons_succ]
  | case3 i cur t ts hd r ih =>
    simp only [List.length_cons] at h'
    rcases Nat.eq_or_lt_of_le h with rfl | hc
    · have hpassed : r.2.1 = i := pruneFrom_passed time32 ts (by omega)
      rw [hpassed]
      exact ⟨le_rfl, by simp⟩
    · obtain ⟨h1, h2⟩ : i + 1 ≤ r.2.1 ∧ r.1[r.2.1 - (i + 1)]? = _ := ih (by omega) (by omega)
      refine ⟨Nat.le_of_succ_le h1, ?_⟩
      show (t :: r.1)[r.2.1 - i]? = _
      rw [show r.2.1 - i = r.2.1 - (i + 1) + 1 by omega, show cur - i = cur - (i + 1) + 1 by omega,
        List.getElem?_cons_succ, List.getElem?_cons_succ, h2]

theorem pruneFrom_keeps (time32 i cur : ℕ) {ts : List Ticket} {t : Ticket} (ht : t ∈ ts)
    (he : time32 ≤ t.certificate.validity.endValidity) : t ∈ (pruneFrom time32 i cur ts).1 := by
  fun_induction pruneFrom with
  | case1 => exact ht
  | case2 i cur u ts hd r ih =>
    rcases List.mem_cons.mp ht with rfl | ht
    · exact absurd hd.2 (by omega)
    · exact ih ht
  | case3 i cur u ts hd r ih =>
    rcases List.mem_cons.mp ht with rfl | ht
    · exact List.mem_cons_self
    · exact List.mem_cons_of_mem _ (ih ht)

theorem prune_sublist (p : CertificatePool) (now : TimePoint) : (p.prune now).2.tickets.Sublist p.tickets :=
  pruneFrom_sublist _ _ _ _

theorem current_prune (h : p.Wf) (now : TimePoint) : (p.prune now).2.current = p.current := by
  by_cases hn : p.tickets = []
  · simp [current, prune, hn, pruneFrom]
  · have hlt := h.lt hn
    have hc := (pruneFrom_current (convertTime32 now) p.tickets (Nat.zero_le p.currentIndex) (by omega)).2
    simpa [current, prune] using hc

theorem Wf.prune (h : p.Wf) (now : TimePoint) : (p.prune now).2.Wf := by
  refine ⟨?_, h.digests.sublist ((p.prune_sublist now).map _)⟩
  by_cases hn : p.tickets = []
  · have := h.index
    simp only [hn, List.length_nil] at this
    simp [CertificatePool.prune, hn, pruneFrom]
    omega
  · have hc := current_prune h now
    have hs : p.current ≠ none := fun hc => hn ((current_eq_none h).mp hc)
    rw [← hc] at hs
    have : ¬ (p.prune now).2.tickets.length ≤ (p.prune now).2.currentIndex :=
      fun hle => hs (List.getElem?_eq_none_iff.mpr hle)
    omega

theorem prune_ne_nil (h : p.Wf) (now : TimePoint) (hn : p.tickets ≠ []) : (p.prune now).2.tickets ≠ [] := by
  intro he
  have hc := (current_eq_none (h.prune now)).mpr he
  rw [current_prune h] at hc
  exact hn ((current_eq_none h).mp hc)

theorem mem_prune (ht : t ∈ p.tickets)
    (he : convertTime32 now ≤ t.certificate.validity.endValidity) : t ∈ (p.prune now).2.tickets :=
  pruneFrom_keeps _ _ _ ht he

theorem pruneFrom_length (time32 i cur : ℕ) (ts : List Ticket) :
    (pruneFrom time32 i cur ts).1.length + (pruneFrom time32 i cur ts).2.2 = ts.length := by
  fun_induction pruneFrom with
  | case1 => rfl
  | case2 i cur t ts hd r ih => exact congrArg (· + 1) ih
  | case3 i cur t ts hd r ih =>
    rw [List.length_cons, List.length_cons, ← ih]
    exact Nat.add_right_comm _ _ _

/-! ### Runs -/

theorem exists_step {i cur n : ℕ} (hi : i < n) (hcur : cur < n) (hne : i ≠ cur) :
    ∃ step ∈ List.range' 1 (n - 1), (cur + step) % n = i := by
  by_cases hlt : cur < i
  · refine ⟨i - cur, List.mem_range'_1.mpr (by omega), ?_⟩
    rw [Nat.add_sub_cancel' hlt.le, Nat.mod_eq_of_lt hi]
  · refine ⟨i + n - cur, List.mem_range'_1.mpr (by omega), ?_⟩
    rw [Nat.add_sub_cancel' (by omega), Nat.add_mod_right, Nat.mod_eq_of_lt hi]

theorem nextValid_eq_none_iff (h : p.Wf) (now : TimePoint) :
    p.nextValid now = none ↔
      ∀ t ∈ p.tickets, t.certificate.validity.validAtTimepoint now = true → p.current = some t := by
  constructor
  · intro hnone t ht hvalid
    by_contra hother
    obtain ⟨i, hi, rfl⟩ := List.getElem_of_mem ht
    have hcur := h.lt (List.ne_nil_of_mem ht)
    have hne : i ≠ p.currentIndex := by
      rintro rfl
      exact hother (List.getElem?_eq_getElem hi)
    obtain ⟨step, hstep, hindex⟩ := exists_step hi hcur hne
    unfold nextValid at hnone
    rw [if_neg (by omega)] at hnone
    have hskipped := List.findSome?_eq_none_iff.mp hnone step hstep
    rw [hindex, List.getElem?_eq_getElem hi, Option.filter_some, if_pos hvalid] at hskipped
    cases hskipped
  · intro hall
    cases hnext : p.nextValid now with
    | none => rfl
    | some t =>
      obtain ⟨ht, hvalid, -⟩ := nextValid_spec hnext
      have hne := nextValid_ne h hnext
      simp [identifier, hall t ht hvalid] at hne

inductive Event
  | add (certificate : Certificate) (key : PrivateKey) (probe : Bool)
  | select (digest : HashedId8)
  | prune (now : TimePoint)

def apply (p : CertificatePool) : Event → CertificatePool
  | .add certificate key probe => (p.add certificate key probe).2
  | .select digest => (p.select digest).2
  | .prune now => (p.prune now).2

theorem Wf.run (h : p.Wf) (es : List Event) : (es.foldl apply p).Wf := by
  induction es generalizing p with
  | nil => exact h
  | cons e es ih =>
    refine ih ?_
    cases e with
    | add certificate key probe => exact h.add certificate key probe
    | select digest => exact h.select digest
    | prune now => exact h.prune now

/-- **The pool stays in order** over every run of `add`, `select` and `prune`, and `next_valid`
finds another valid ticket if there is one. -/
theorem pool_in_order (es : List Event) :
    let p := es.foldl apply {}
    (p.tickets ≠ [] → p.currentIndex < p.tickets.length) ∧ (p.tickets.map (·.digest)).Nodup ∧
    (∀ t, p.current = some t →
      (∀ certificate key probe, (p.add certificate key probe).2.current = some t) ∧
        ∀ now, (p.prune now).2.current = some t ∧ t ∈ (p.prune now).2.tickets) ∧
    (∀ now, (p.prune now).2.tickets.Sublist p.tickets ∧
      (p.prune now).2.tickets.length + (p.prune now).1 = p.tickets.length) ∧
    ∀ now, (∀ t, p.nextValid now = some t → t ∈ p.tickets ∧ t.certificate.validity.validAtTimepoint now = true ∧
        ∀ u, p.current = some u → u.digest ≠ t.digest) ∧
      (p.nextValid now = none ↔
        ∀ t ∈ p.tickets, t.certificate.validity.validAtTimepoint now = true → p.current = some t) := by
  intro p
  have h : p.Wf := Wf.empty.run es
  refine ⟨h.lt, h.digests, fun t ht => ⟨fun certificate key probe => ?_, fun now => ⟨?_, ?_⟩⟩,
    fun now => ⟨p.prune_sublist now, pruneFrom_length _ _ _ _⟩, fun now =>
      ⟨fun t ht => ?_, nextValid_eq_none_iff h now⟩⟩
  · have hne : p.tickets ≠ [] := List.ne_nil_of_mem (List.mem_of_getElem? ht)
    rw [current_add h hne, ht]
  · rw [current_prune h, ht]
  · rw [← current_prune h now] at ht
    exact List.mem_of_getElem? ht
  · obtain ⟨hmem, hvalid, -⟩ := nextValid_spec ht
    refine ⟨hmem, hvalid, fun u hu heq => nextValid_ne h ht ?_⟩
    simp [identifier, hu, heq]

end CertificatePool

/-! ### A pool for runs that are computed -/

/-- The certificate of a ticket whose digest is eight times `n`, valid from
2004 on. -/
def sampleCertificate (n : UInt8) (unit : DurationUnit) : Certificate where
  issuer := .sha256AndDigest
  id := .none
  certIssuePermissions := false
  appPermissions := true
  keyType := .nistP256
  publicKey := true
  digest := some (Vector.replicate 8 n)
  validity := ⟨0, unit, 1⟩

def sampleKey : PrivateKey := ⟨.nistP256, List.replicate 32 0⟩

/-- A pool with a ticket valid for a year in use and another one. -/
def samplePool (unit : DurationUnit) : CertificatePool :=
  ((({} : CertificatePool).add (sampleCertificate 1 .years) sampleKey true).2.add
    (sampleCertificate 2 unit) sampleKey true).2

theorem samplePool_wf (unit : DurationUnit) : (samplePool unit).Wf :=
  (CertificatePool.Wf.empty.add _ _ _).add _ _ _

end VanetzaIdf
