/-
# The certificate cache

`security/v2/certificate_cache.cpp`: a multimap from digests to certificates and a
heap of expiry times. A lookup drops what has expired and renews what it finds; an
insertion makes such a lookup, and stores nothing if that finds the same signed
part.

So what is found is said by the times of these calls alone (`KeptUntil`,
`Accounted`), and an insertion keeps a certificate alive that only has the same
digest (`collision_keeps_alive`). SHA-256 and the order of the heap among equal
times are parameters.
-/
import Mathlib.Data.Fintype.BigOperators
import Mathlib.Data.Fintype.Pigeonhole
import Mathlib.Data.List.Chain
import VanetzaIdf.Lib.Expiring
import VanetzaIdf.Lib.Machine
import VanetzaIdf.Runtime
import VanetzaIdf.V2.Certificate

namespace VanetzaIdf.V2

open List hiding Vector

open Lib

/-- `SubjectType`, an octet; of its values those that are cached. -/
abbrev SubjectType := UInt8

namespace SubjectType
@[match_pattern] def authorizationTicket : SubjectType := 1
@[match_pattern] def authorizationAuthority : SubjectType := 2
end SubjectType

/-! ### Digests of certificates -/

namespace Certificate

def convertForSigning (cert : Certificate) : ByteBuffer :=
  [2] ++ (cert.signerInfo.serialize ++ (cert.subjectInfo.serialize ++
    (serializeList SubjectAttribute.getSize SubjectAttribute.serialize cert.subjectAttributes ++
      serializeList ValidityRestriction.getSize ValidityRestriction.serialize cert.validityRestriction)))

/-- The `canonical_visitor` of `calculate_hash`. -/
def canonicalPoint : EccPoint → EccPoint
  | .xCoordinateOnly x => .xCoordinateOnly x
  | .compressedLsbY0 x => .xCoordinateOnly x
  | .compressedLsbY1 x => .xCoordinateOnly x
  | .uncompressed x _ => .xCoordinateOnly x

/-- `calculate_hash`: the last octets of the digest of the canonical encoding. -/
def calculateHash (sha256 : ByteBuffer → Vector UInt8 32) (cert : Certificate) : HashedId8 :=
  let canonical := { cert with signature := { cert.signature with r := canonicalPoint cert.signature.r } }
  let digest := sha256 canonical.serialize
  Vector.ofFn fun i : Fin 8 => digest.get ⟨24 + i, by omega⟩

def subjectType (cert : Certificate) : SubjectType := cert.subjectInfo.subjectType

end Certificate

/-! ### The cache -/

/-- `m_certificates` and `m_expiries`; an iterator is known by a number. -/
abbrev CertificateCache := Expiring ℕ (HashedId8 × Certificate) TimePoint

abbrev CacheItem := Lib.Item ℕ (HashedId8 × Certificate)

abbrev CacheEntry := Lib.Entry ℕ (HashedId8 × Certificate) TimePoint

namespace CertificateCache

variable (type : SubjectType)

def lifetime : Duration :=
  if type = .authorizationTicket then seconds 2
  else if type = .authorizationAuthority then seconds 3600
  else 0

def refresh (now : TimePoint) (handle : ℕ) (d : Duration) (s : CertificateCache) : CertificateCache :=
  s.setTime (now + d) handle

/-- One round of the loop of `lookup`. -/
def visit (now : TimePoint) (type : SubjectType) (r : List Certificate × CertificateCache)
    (x : CacheItem) : List Certificate × CertificateCache :=
  let cert := x.value.2
  if cert.subjectType ≠ type then r
  else
    (r.1 ++ [cert],
      if cert.subjectType = .authorizationTicket then refresh now x.handle (seconds 2) r.2
      else if cert.subjectType = .authorizationAuthority then refresh now x.handle (seconds 3600) r.2
      else r.2)

section Calls

variable (sha256 : ByteBuffer → Vector UInt8 32) (top : Top ℕ TimePoint) (now : TimePoint)

def lookup (id : HashedId8) (type : SubjectType) (s : CertificateCache) : List Certificate × CertificateCache :=
  let s := s.dropExpired top now
  (s.items.filter fun x => x.value.1 = id).foldl (visit now type) ([], s)

def insert (cert : Certificate) (s : CertificateCache) : CertificateCache :=
  let id := cert.calculateHash sha256
  let r := lookup top now id cert.subjectType s
  if r.1.any fun found => cert.convertForSigning = found.convertForSigning then r.2
  else if 0 < lifetime cert.subjectType then r.2.push r.2.next (id, cert) (now + lifetime cert.subjectType)
  else r.2

end Calls

inductive Call
  | insert (cert : Certificate)
  | lookup (id : HashedId8) (type : SubjectType)

variable (sha256 : ByteBuffer → Vector UInt8 32)

def step (top : Top ℕ TimePoint) (s : CertificateCache) :
    TimePoint × Call → List Certificate × CertificateCache
  | (now, .insert cert) => ([], insert sha256 top now cert s)
  | (now, .lookup id type) => lookup top now id type s

/-! ### What a lookup finds -/

def matching (id : HashedId8) (type : SubjectType) (v : HashedId8 × Certificate) : Bool :=
  v.1 = id && v.2.subjectType = type

/-- The types that `insert` stores. -/
def Cacheable : Prop := type = .authorizationTicket ∨ type = .authorizationAuthority

instance (type : SubjectType) : Decidable (Cacheable type) := inferInstanceAs (Decidable (_ ∨ _))

theorem lifetime_pos_iff : 0 < lifetime type ↔ Cacheable type := by
  unfold lifetime Cacheable
  by_cases hticket : type = .authorizationTicket
  · simp [hticket, seconds]
  · by_cases hauthority : type = .authorizationAuthority
    · simp [hauthority, seconds, SubjectType.authorizationTicket, SubjectType.authorizationAuthority]
    · simp [hticket, hauthority]

variable (now : TimePoint) (id : HashedId8)

theorem visit_of_eq {type : SubjectType} (htype : Cacheable type) (r : List Certificate × CertificateCache)
    {x : CacheItem} (hx : x.value.2.subjectType = type) :
    visit now type r x = (r.1 ++ [x.value.2], r.2.setTime (now + lifetime type) x.handle) := by
  subst hx
  unfold visit lifetime
  by_cases hticket : x.value.2.subjectType = .authorizationTicket
  · simp [hticket, refresh]
  · have hauthority : x.value.2.subjectType = .authorizationAuthority := htype.resolve_left hticket
    simp [hauthority, SubjectType.authorizationTicket, SubjectType.authorizationAuthority, refresh]

theorem foldl_visit {type : SubjectType} (htype : Cacheable type)
    (xs : List CacheItem) (r : List Certificate × CertificateCache) :
    xs.foldl (visit now type) r =
      (r.1 ++ (xs.filter fun x => x.value.2.subjectType = type).map (·.value.2),
        r.2.setTimes (now + lifetime type) ((xs.filter fun x => x.value.2.subjectType = type).map (·.handle))) := by
  induction xs generalizing r with
  | nil => simp [Expiring.setTimes]
  | cons x xs ih =>
    rw [foldl_cons, ih]
    by_cases hx : x.value.2.subjectType = type
    · rw [visit_of_eq now htype r hx]
      simp [hx, Expiring.setTimes]
    · simp [visit, hx]

theorem foldl_visit_of_none {type : SubjectType} (xs : List CacheItem)
    (hxs : ∀ x ∈ xs, x.value.2.subjectType ≠ type) (r : List Certificate × CertificateCache) :
    xs.foldl (visit now type) r = r := by
  induction xs with
  | nil => rfl
  | cons x xs ih =>
    have hx : visit now type r x = r := by simp [visit, hxs x mem_cons_self]
    rw [foldl_cons, hx]
    exact ih fun y hy => hxs y (mem_cons_of_mem _ hy)

def alive (now : TimePoint) (s : CertificateCache) : List CacheEntry :=
  s.entries.filter fun e => ¬ e.time < now

theorem mem_alive {now : TimePoint} {s : CertificateCache} {e : CacheEntry} :
    e ∈ alive now s ↔ e ∈ s.entries ∧ now ≤ e.time := by
  simp [alive]

def renew (now : TimePoint) (id : HashedId8) (type : SubjectType) (e : CacheEntry) : CacheEntry :=
  if matching id type e.value then { e with time := now + lifetime type } else e

@[simp] theorem value_renew (e : CacheEntry) : (renew now id type e).value = e.value := by
  unfold renew
  by_cases h : matching id type e.value <;> simp [h]

@[simp] theorem ref_renew (e : CacheEntry) : (renew now id type e).ref = e.ref := by
  unfold renew
  by_cases h : matching id type e.value <;> simp [h]

section Lookup

variable (top : Top ℕ TimePoint) (now : TimePoint) (id : HashedId8) (type : SubjectType) {s : CertificateCache}

theorem matching_items (s : CertificateCache) :
    ((s.items.filter fun x => x.value.1 = id).filter fun x => x.value.2.subjectType = type) =
      s.items.filter fun x => matching id type x.value := by
  rw [filter_filter]
  apply filter_congr
  intro x _
  exact Bool.and_comm _ _

theorem lookup_of_not_cacheable (h : s.Linked) (hc : ∀ e ∈ s.entries, Cacheable e.value.2.subjectType)
    (htype : ¬ Cacheable type) : lookup top now id type s = ([], s.dropExpired top now) ∧
      ∀ x ∈ (s.dropExpired top now).items, matching id type x.value = false := by
  have hnone : ∀ x ∈ (s.dropExpired top now).items, x.value.2.subjectType ≠ type := by
    intro x hx heq
    have hmem : (⟨x.ref, x.value, (s.dropExpired top now).timeOf x.handle⟩ : CacheEntry) ∈ alive now s := by
      rw [alive, ← h.entries_dropExpired top now]
      exact mem_map_of_mem (f := fun x => (⟨x.ref, x.value, _⟩ : CacheEntry)) hx
    have hcache := hc _ (mem_alive.mp hmem).1
    rw [heq] at hcache
    exact htype hcache
  constructor
  · exact foldl_visit_of_none now _ (fun x hx => hnone x (mem_of_mem_filter hx)) _
  · intro x hx
    simp [matching, hnone x hx]

/-- **What a lookup does.** It drops what has expired, and returns and renews what matches. -/
theorem lookup_spec (h : s.Linked) (hc : ∀ e ∈ s.entries, Cacheable e.value.2.subjectType) :
    (lookup top now id type s).1 = ((alive now s).filter fun e => matching id type e.value).map (·.value.2) ∧
      (lookup top now id type s).2.entries = (alive now s).map (renew now id type) ∧
      (lookup top now id type s).2.Linked ∧ (lookup top now id type s).2.next = s.next := by
  have hd : (s.dropExpired top now).Linked := h.dropExpired top now
  have hentries : (s.dropExpired top now).entries = alive now s := h.entries_dropExpired top now
  have hnext : (s.dropExpired top now).next = s.next := Expiring.next_dropLoop top now _ s
  have hfound : ((alive now s).filter fun e => matching id type e.value).map (·.value.2) =
      ((s.dropExpired top now).items.filter fun x => matching id type x.value).map (·.value.2) := by
    rw [← hentries]
    unfold Expiring.entries
    rw [filter_map, map_map]
    rfl
  by_cases htype : Cacheable type
  · have hloop : lookup top now id type s = _ := foldl_visit now htype _ _
    rw [matching_items] at hloop
    rw [hloop, hfound, ← hentries]
    refine ⟨nil_append _, ?_, hd.setTimes _ _, ?_⟩
    · exact hd.entries_setTimes _ (matching id type)
    · rw [Expiring.next_setTimes, hnext]
  · obtain ⟨hloop, hmatch⟩ := lookup_of_not_cacheable top now id type h hc htype
    rw [hloop, hfound]
    refine ⟨?_, ?_, hd, hnext⟩
    · rw [filter_eq_nil_iff.mpr]
      · rfl
      · intro x hx
        simp [hmatch x hx]
    · rw [← hentries]
      show _ = (List.map _ _).map _
      rw [map_map]
      apply map_congr_left
      intro x hx
      simp [renew, hmatch x hx]

end Lookup

/-! ### The times of the calls -/

section History

variable (sha256 : ByteBuffer → Vector UInt8 32)

/-- The digest and type that a call looks up; an insertion makes a lookup too. -/
def Call.target : Call → HashedId8 × SubjectType
  | .insert cert => (cert.calculateHash sha256, cert.subjectType)
  | .lookup id type => (id, type)

def touchTimes (key : HashedId8 × SubjectType) (calls : List (TimePoint × Call)) : List TimePoint :=
  (calls.filter fun p => p.2.target sha256 = key).map (·.1)

def key (cert : Certificate) : HashedId8 × SubjectType := (cert.calculateHash sha256, cert.subjectType)

/-- From an insertion of the certificate on, there is no gap in the lookups that is
longer than the lifetime. -/
def Begun (calls : List (TimePoint × Call)) (cert : Certificate) : Prop :=
  ∃ before t₀ after, calls = before ++ (t₀, .insert cert) :: after ∧
    List.IsChain (fun a b => b ≤ a + lifetime cert.subjectType) (t₀ :: touchTimes sha256 (key sha256 cert) after)

/-- From an insertion of the certificate on, and up to now, there is no gap in the
lookups that is longer than the lifetime. -/
def KeptUntil (calls : List (TimePoint × Call)) (now : TimePoint) (cert : Certificate) : Prop :=
  ∃ before t₀ after, calls = before ++ (t₀, .insert cert) :: after ∧
    List.IsChain (fun a b => b ≤ a + lifetime cert.subjectType)
      (t₀ :: (touchTimes sha256 (key sha256 cert) after ++ [now]))

variable {sha256} {calls : List (TimePoint × Call)} {now : TimePoint} {cert : Certificate}

theorem touchTimes_append (k : HashedId8 × SubjectType) (l l' : List (TimePoint × Call)) :
    touchTimes sha256 k (l ++ l') = touchTimes sha256 k l ++ touchTimes sha256 k l' := by
  simp [touchTimes]

theorem touchTimes_insert (after : List (TimePoint × Call)) (t₀ : TimePoint) :
    touchTimes sha256 (key sha256 cert) ((t₀, .insert cert) :: after) = t₀ ::
      touchTimes sha256 (key sha256 cert) after := by
  simp [touchTimes, Call.target, key]

variable {call : Call} {k : HashedId8 × SubjectType}

theorem getLast_touchTimes_of_eq (h : call.target sha256 = k) :
    (touchTimes sha256 k (calls ++ [(now, call)])).getLast? = some now := by
  rw [touchTimes_append]
  simp [touchTimes, h]

theorem touchTimes_of_ne (h : call.target sha256 ≠ k) :
    touchTimes sha256 k (calls ++ [(now, call)]) = touchTimes sha256 k calls := by
  rw [touchTimes_append]
  simp [touchTimes, h]

theorem getLast_of_split {before after : List (TimePoint × Call)} {t₀ : TimePoint}
    (h : calls = before ++ (t₀, .insert cert) :: after) :
    (touchTimes sha256 (key sha256 cert) calls).getLast? =
    (t₀ :: touchTimes sha256 (key sha256 cert) after).getLast? := by
  rw [h, touchTimes_append, touchTimes_insert, List.getLast?_append_cons]

theorem isChain_concat {R : TimePoint → TimePoint → Prop} {l : List TimePoint} {t : TimePoint} :
    List.IsChain R (l ++ [t]) ↔ List.IsChain R l ∧ ∀ last ∈ l.getLast?, R last t := by
  simp [isChain_append]

theorem keptUntil_iff : KeptUntil sha256 calls now cert ↔ Begun sha256 calls cert ∧
    ∀ last ∈ (touchTimes sha256 (key sha256 cert) calls).getLast?, now ≤ last + lifetime cert.subjectType := by
  constructor
  · rintro ⟨before, t₀, after, hcalls, hchain⟩
    rw [← cons_append, isChain_concat] at hchain
    refine ⟨⟨before, t₀, after, hcalls, hchain.1⟩, ?_⟩
    rw [getLast_of_split hcalls]
    exact hchain.2
  · rintro ⟨⟨before, t₀, after, hcalls, hchain⟩, hlast⟩
    refine ⟨before, t₀, after, hcalls, ?_⟩
    rw [← cons_append, isChain_concat]
    rw [getLast_of_split hcalls] at hlast
    exact ⟨hchain, hlast⟩

theorem begun_insert : Begun sha256 (calls ++ [(now, .insert cert)]) cert :=
  ⟨calls, now, [], rfl, isChain_singleton _⟩

theorem Begun.snoc (h : Begun sha256 calls cert)
    (htouch : call.target sha256 = key sha256 cert → KeptUntil sha256 calls now cert) :
    Begun sha256 (calls ++ [(now, call)]) cert := by
  by_cases hcall : call.target sha256 = key sha256 cert
  · obtain ⟨before, t₀, after, hcalls, hchain⟩ := htouch hcall
    refine ⟨before, t₀, after ++ [(now, call)], by rw [hcalls]; simp, ?_⟩
    rw [touchTimes_append]
    simpa [touchTimes, hcall] using hchain
  · obtain ⟨before, t₀, after, hcalls, hchain⟩ := h
    refine ⟨before, t₀, after ++ [(now, call)], by rw [hcalls]; simp, ?_⟩
    rwa [touchTimes_of_ne hcall]

theorem begun_snoc_cases (h : Begun sha256 (calls ++ [(now, call)]) cert) :
    call = .insert cert ∨
      Begun sha256 calls cert ∧ (call.target sha256 = key sha256 cert → KeptUntil sha256 calls now cert) := by
  obtain ⟨before, t₀, after, hcalls, hchain⟩ := h
  cases after using List.reverseRecOn with
  | nil =>
    have hlast := (append_inj' hcalls rfl).2
    simp only [List.cons.injEq, Prod.mk.injEq, and_true] at hlast
    exact .inl hlast.2
  | append_singleton after p =>
    rw [← cons_append, ← append_assoc] at hcalls
    obtain ⟨hsplit, hp⟩ := append_inj' hcalls rfl
    obtain rfl : (now, call) = p := by simpa using hp
    refine .inr ⟨⟨before, t₀, after, hsplit, ?_⟩, ?_⟩
    · rw [touchTimes_append, ← cons_append] at hchain
      exact hchain.left_of_append
    · intro hcall
      refine ⟨before, t₀, after, hsplit, ?_⟩
      rw [touchTimes_append] at hchain
      simpa [touchTimes, hcall] using hchain

end History

/-! ### The entries and the calls -/

section Accounted

variable (sha256 : ByteBuffer → Vector UInt8 32)

/-- An entry is of a certificate that has stayed, and lasts from the last lookup on. -/
structure Kept (calls : List (TimePoint × Call)) (e : CacheEntry) : Prop where
  id : e.value.1 = e.value.2.calculateHash sha256
  cacheable : Cacheable e.value.2.subjectType
  begun : Begun sha256 calls e.value.2
  time : ∃ last, (touchTimes sha256 (key sha256 e.value.2) calls).getLast? = some last ∧
    e.time = last + lifetime e.value.2.subjectType

def identity (cert : Certificate) : (HashedId8 × SubjectType) × ByteBuffer := (key sha256 cert, cert.convertForSigning)

/-- The cache is what the calls have left, up to signatures. -/
structure Accounted (calls : List (TimePoint × Call)) (s : CertificateCache) : Prop where
  linked : s.Linked
  iterators : ∀ e ∈ s.entries, e.ref < s.next
  distinct : (s.entries.map fun e => identity sha256 e.value.2).Nodup
  kept : ∀ e ∈ s.entries, Kept sha256 calls e
  stored : ∀ cert t, Cacheable cert.subjectType → (∀ p ∈ calls, p.1 ≤ t) → KeptUntil sha256 calls t cert →
    ∃ e ∈ s.entries, identity sha256 e.value.2 = identity sha256 cert

variable {sha256} {calls : List (TimePoint × Call)} {now : TimePoint} {s : CertificateCache}

theorem Accounted.empty : Accounted sha256 [] {} where
  linked := Expiring.Linked.empty
  iterators := nofun
  distinct := nodup_nil
  kept := nofun
  stored cert t _ _ h := by
    obtain ⟨before, t₀, after, hcalls, _⟩ := h
    simp at hcalls

variable {e : CacheEntry} {cert : Certificate} {call : Call}

theorem Kept.keptUntil (h : Kept sha256 calls e) (ht : now ≤ e.time) : KeptUntil sha256 calls now e.value.2 := by
  obtain ⟨last, hlast, htime⟩ := h.time
  refine keptUntil_iff.mpr ⟨h.begun, ?_⟩
  intro last' hlast'
  obtain rfl : last = last' := Option.some.inj (hlast.symm.trans hlast')
  rwa [← htime]

theorem Kept.le_time (h : Kept sha256 calls e)
    (hkey : key sha256 e.value.2 = key sha256 cert) (hkept : KeptUntil sha256 calls now cert) : now ≤ e.time := by
  obtain ⟨last, hlast, htime⟩ := h.time
  have htype : e.value.2.subjectType = cert.subjectType := congrArg Prod.snd hkey
  rw [hkey] at hlast
  rw [htime, htype]
  exact (keptUntil_iff.mp hkept).2 last hlast

theorem matching_iff (h : Kept sha256 calls e) (id : HashedId8)
    (type : SubjectType) : matching id type e.value = true ↔ (id, type) = key sha256 e.value.2 := by
  simp only [matching, key, Bool.and_eq_true, decide_eq_true_eq, Prod.mk.injEq, h.id]
  exact and_congr eq_comm eq_comm

theorem Kept.renew (h : Kept sha256 calls e) (ht : now ≤ e.time) (call : Call) : Kept sha256 (calls ++ [(now, call)])
      (renew now (call.target sha256).1 (call.target sha256).2 e) where
  id := by simpa using h.id
  cacheable := by simpa using h.cacheable
  begun := by simpa using h.begun.snoc fun _ => h.keptUntil ht
  time := by
    rw [value_renew]
    by_cases hcall : call.target sha256 = key sha256 e.value.2
    · refine ⟨now, getLast_touchTimes_of_eq hcall, ?_⟩
      have htype : (call.target sha256).2 = e.value.2.subjectType := congrArg Prod.snd hcall
      have hm : matching (call.target sha256).1 (call.target sha256).2 e.value = true := (matching_iff h _ _).mpr hcall
      rw [CertificateCache.renew, if_pos hm, htype]
    · obtain ⟨last, hlast, htime⟩ := h.time
      have hm : ¬ matching (call.target sha256).1 (call.target sha256).2 e.value = true :=
        fun hm => hcall ((matching_iff h _ _).mp hm)
      refine ⟨last, by rwa [touchTimes_of_ne hcall], ?_⟩
      rw [CertificateCache.renew, if_neg hm]
      exact htime

theorem keptUntil_snoc_cases {t : TimePoint} (ht : now ≤ t)
    (h : KeptUntil sha256 (calls ++ [(now, call)]) t cert) : call = .insert cert ∨ KeptUntil sha256 calls now cert := by
  obtain ⟨hbegun, hlast⟩ := keptUntil_iff.mp h
  rcases begun_snoc_cases hbegun with hinsert | ⟨hbegun, htouch⟩
  · exact .inl hinsert
  · by_cases hcall : call.target sha256 = key sha256 cert
    · exact .inr (htouch hcall)
    · rw [touchTimes_of_ne hcall] at hlast
      exact .inr (keptUntil_iff.mpr ⟨hbegun, fun last hl => ht.trans (hlast last hl)⟩)

variable (sha256) in
/-- As `Accounted` after the call, but what it inserts may still be missing. -/
structure Renewed (calls : List (TimePoint × Call)) (now : TimePoint) (call : Call) (s : CertificateCache) : Prop where
  linked : s.Linked
  iterators : ∀ e ∈ s.entries, e.ref < s.next
  distinct : (s.entries.map fun e => identity sha256 e.value.2).Nodup
  kept : ∀ e ∈ s.entries, Kept sha256 (calls ++ [(now, call)]) e
  stored : ∀ cert t, Cacheable cert.subjectType → now ≤ t → KeptUntil sha256 (calls ++ [(now, call)]) t cert →
    call = .insert cert ∨ ∃ e ∈ s.entries, identity sha256 e.value.2 = identity sha256 cert

theorem Accounted.renewed (h : Accounted sha256 calls s) (hnow : ∀ p ∈ calls, p.1 ≤ now) (call : Call)
    (top : Top ℕ TimePoint) :
    Renewed sha256 calls now call (lookup top now (call.target sha256).1 (call.target sha256).2 s).2 := by
  obtain ⟨_, hentries, hlinked, hnext⟩ := lookup_spec top now (call.target sha256).1 (call.target sha256).2 h.linked
    fun e he => (h.kept e he).cacheable
  constructor
  · exact hlinked
  · rw [hentries, forall_mem_map]
    intro e he
    rw [ref_renew, hnext]
    exact h.iterators e (mem_alive.mp he).1
  · have hsame : ((fun e : CacheEntry => identity sha256 e.value.2) ∘
        renew now (call.target sha256).1 (call.target sha256).2) = fun e => identity sha256 e.value.2 := by
      funext e
      simp
    rw [hentries, map_map, hsame]
    exact h.distinct.sublist (filter_sublist.map _)
  · rw [hentries, forall_mem_map]
    intro e he
    obtain ⟨he, ht⟩ := mem_alive.mp he
    exact (h.kept e he).renew ht call
  · intro cert t hcache ht hkept
    rcases keptUntil_snoc_cases ht hkept with hinsert | hkept
    · exact .inl hinsert
    · obtain ⟨e, he, hid⟩ := h.stored cert now hcache hnow hkept
      have halive : e ∈ alive now s := mem_alive.mpr ⟨he, (h.kept e he).le_time (congrArg Prod.fst hid) hkept⟩
      rw [hentries]
      exact .inr ⟨_, mem_map_of_mem halive, by simpa using hid⟩

theorem Accounted.any_lookup_iff (h : Accounted sha256 calls s) (top : Top ℕ TimePoint) (now : TimePoint)
    (cert : Certificate) :
    ((lookup top now (cert.calculateHash sha256) cert.subjectType s).1.any
        fun found => cert.convertForSigning = found.convertForSigning) = true ↔
      ∃ e ∈ (lookup top now (cert.calculateHash sha256) cert.subjectType s).2.entries,
        identity sha256 e.value.2 = identity sha256 cert := by
  obtain ⟨hfound, hentries, _, _⟩ :=
    lookup_spec top now (cert.calculateHash sha256) cert.subjectType h.linked fun e he => (h.kept e he).cacheable
  rw [hfound, hentries]
  simp only [any_eq_true, mem_map, mem_filter, decide_eq_true_eq]
  constructor
  · rintro ⟨_, ⟨e, ⟨he, hm⟩, rfl⟩, hsigning⟩
    have hkey := (matching_iff (h.kept e (mem_alive.mp he).1) _ _).mp hm
    exact ⟨_, ⟨e, he, rfl⟩, by rw [value_renew]; exact Prod.ext hkey.symm hsigning.symm⟩
  · rintro ⟨_, ⟨e, he, rfl⟩, hid⟩
    rw [value_renew] at hid
    have hm := (matching_iff (h.kept e (mem_alive.mp he).1) _ _).mpr (congrArg Prod.fst hid).symm
    exact ⟨_, ⟨e, ⟨he, hm⟩, rfl⟩, (congrArg Prod.snd hid).symm⟩

theorem Renewed.accounted (h : Renewed sha256 calls now call s)
    (hcall : ∀ cert, call = .insert cert → Cacheable cert.subjectType →
      ∃ e ∈ s.entries, identity sha256 e.value.2 = identity sha256 cert) :
    Accounted sha256 (calls ++ [(now, call)]) s where
  linked := h.linked
  iterators := h.iterators
  distinct := h.distinct
  kept := h.kept
  stored cert t hcache ht hkept := by
    rcases h.stored cert t hcache (ht (now, call) (by simp)) hkept with hinsert | he
    · exact hcall cert hinsert hcache
    · exact he

theorem Renewed.push (h : Renewed sha256 calls now (.insert cert) s) (hcache : Cacheable cert.subjectType)
    (hnew : ∀ e ∈ s.entries, identity sha256 e.value.2 ≠ identity sha256 cert) :
    Accounted sha256 (calls ++ [(now, .insert cert)])
      (s.push s.next (cert.calculateHash sha256, cert) (now + lifetime cert.subjectType)) := by
  have hentries := h.linked.entries_push s.next (cert.calculateHash sha256, cert) (now + lifetime cert.subjectType)
  have hrefs : ∀ x ∈ s.items, x.ref ≠ s.next := by
    intro x hx
    have hlt := h.iterators _ (mem_map_of_mem (f := fun x => (⟨x.ref, x.value, s.timeOf x.handle⟩ : CacheEntry)) hx)
    exact Nat.ne_of_lt hlt
  constructor
  · exact h.linked.push hrefs _ _
  · rw [hentries, forall_mem_append, forall_mem_singleton]
    exact ⟨fun e he => Nat.lt_succ_of_lt (h.iterators e he), Nat.lt_succ_self _⟩
  · rw [hentries, map_append, map_singleton, nodup_append]
    refine ⟨h.distinct, nodup_singleton _, ?_⟩
    intro a ha b hb
    obtain ⟨e, he, rfl⟩ := mem_map.mp ha
    rw [mem_singleton.mp hb]
    exact hnew e he
  · rw [hentries, forall_mem_append, forall_mem_singleton]
    exact ⟨h.kept, rfl, hcache, begun_insert, now, getLast_touchTimes_of_eq rfl, rfl⟩
  · intro cert' t hcache' ht hkept
    rw [hentries]
    rcases h.stored cert' t hcache' (ht (now, .insert cert) (by simp)) hkept with hinsert | ⟨e, he, hid⟩
    · cases hinsert
      exact ⟨_, mem_append_right _ (mem_singleton_self _), rfl⟩
    · exact ⟨e, mem_append_left _ he, hid⟩

theorem Accounted.inserted (h : Accounted sha256 calls s) (hnow : ∀ p ∈ calls, p.1 ≤ now) (cert : Certificate)
    (top : Top ℕ TimePoint) : Accounted sha256 (calls ++ [(now, .insert cert)]) (insert sha256 top now cert s) := by
  have hlookup := h.renewed hnow (.insert cert) top
  have hthere := h.any_lookup_iff top now cert
  unfold insert
  by_cases hany : ((lookup top now (cert.calculateHash sha256) cert.subjectType s).1.any
      fun found => cert.convertForSigning = found.convertForSigning) = true
  · simp only [hany, if_true]
    apply hlookup.accounted
    rintro _ ⟨⟩ _
    exact hthere.mp hany
  · simp only [hany, Bool.false_eq_true, if_false]
    split_ifs with hpos
    · apply hlookup.push ((lifetime_pos_iff _).mp hpos)
      intro e he hid
      exact hany (hthere.mpr ⟨e, he, hid⟩)
    · apply hlookup.accounted
      rintro _ ⟨⟩ hcache
      exact absurd ((lifetime_pos_iff _).mpr hcache) hpos

theorem Accounted.step (h : Accounted sha256 calls s) (call : Call) (hnow : ∀ p ∈ calls, p.1 ≤ now)
    (top : Top ℕ TimePoint) :
    Accounted sha256 (calls ++ [(now, call)]) (step sha256 top s (now, call)).2 := by
  cases call with
  | insert cert => exact h.inserted hnow cert top
  | lookup id type =>
    apply (h.renewed hnow (.lookup id type) top).accounted
    rintro _ ⟨⟩

variable (sha256) in
theorem Accounted.run (top : Top ℕ TimePoint) (calls : List (TimePoint × Call))
    (hclock : (calls.map (·.1)).Pairwise (· ≤ ·)) :
    Accounted sha256 calls (final (CertificateCache.step sha256 top) {} calls) := by
  refine final_induction (CertificateCache.step sha256 top)
    (I := fun calls s => (calls.map (·.1)).Pairwise (· ≤ ·) → Accounted sha256 calls s) (fun _ => Accounted.empty)
      ?_ calls hclock
  rintro calls ⟨now, call⟩ ih hclock
  rw [map_append, pairwise_append] at hclock
  refine (ih hclock.1).step call ?_ top
  intro p hp
  exact hclock.2.2 p.1 (mem_map_of_mem hp) now (by simp)

/-! ### Lookups -/

section Found

variable {id : HashedId8} {type : SubjectType} {cert : Certificate} (top : Top ℕ TimePoint)
  (h : Accounted sha256 calls s)

include h

theorem Accounted.mem_found : cert ∈ (lookup top now id type s).1 ↔
    ∃ e ∈ s.entries, now ≤ e.time ∧ matching id type e.value = true ∧ e.value.2 = cert := by
  have hfound := (lookup_spec top now id type h.linked fun e he => (h.kept e he).cacheable).1
  rw [hfound]
  simp only [mem_map, mem_filter, mem_alive, and_assoc]

theorem Accounted.found_kept (hcert : cert ∈ (lookup top now id type s).1) :
    (id, type) = key sha256 cert ∧ Cacheable type ∧ KeptUntil sha256 calls now cert := by
  obtain ⟨e, he, ht, hm, rfl⟩ := (h.mem_found top).mp hcert
  have hkey := (matching_iff (h.kept e he) id type).mp hm
  have htype : type = e.value.2.subjectType := congrArg Prod.snd hkey
  have hcache : Cacheable type := by
    rw [htype]
    exact (h.kept e he).cacheable
  exact ⟨hkey, hcache, (h.kept e he).keptUntil ht⟩

theorem Accounted.found_of_kept (hnow : ∀ p ∈ calls, p.1 ≤ now) (hkey : (id, type) = key sha256 cert)
    (hcache : Cacheable type)
    (hkept : KeptUntil sha256 calls now cert) :
    ∃ found ∈ (lookup top now id type s).1, found.convertForSigning = cert.convertForSigning := by
  have htype : type = cert.subjectType := congrArg Prod.snd hkey
  obtain ⟨e, he, hid⟩ := h.stored cert now (htype ▸ hcache) hnow hkept
  have hsame : key sha256 e.value.2 = key sha256 cert := congrArg Prod.fst hid
  have hm : matching id type e.value = true := (matching_iff (h.kept e he) id type).mpr (hkey.trans hsame.symm)
  exact ⟨e.value.2, (h.mem_found top).mpr ⟨e, he, (h.kept e he).le_time hsame hkept, hm, rfl⟩, congrArg Prod.snd hid⟩

theorem Accounted.found_nodup : ((lookup top now id type s).1.map (·.convertForSigning)).Nodup := by
  have hfound := (lookup_spec top now id type h.linked fun e he => (h.kept e he).cacheable).1
  rw [hfound, map_map]
  have hsub : ((alive now s).filter fun e => matching id type e.value).Sublist s.entries :=
    filter_sublist.trans filter_sublist
  -- among entries of one digest and type, what is signed tells them apart
  refine List.Nodup.map_on ?_ ((List.Nodup.of_map _ h.distinct).sublist hsub)
  intro e he e' he' hsigning
  obtain ⟨he, hm⟩ := mem_filter.mp he
  obtain ⟨he', hm'⟩ := mem_filter.mp he'
  have hmem := (mem_alive.mp he).1
  have hmem' := (mem_alive.mp he').1
  have hkey := (matching_iff (h.kept e hmem) id type).mp hm
  have hkey' := (matching_iff (h.kept e' hmem') id type).mp hm'
  exact inj_on_of_nodup_map h.distinct hmem hmem' (Prod.ext (hkey.symm.trans hkey') hsigning)

end Found

end Accounted

/-- **A lookup finds what was kept by the calls:** the certificates that were inserted, and looked
up since without a gap longer than their lifetime. An insertion counts as a lookup. -/
theorem lookup_touch_history (sha256 : ByteBuffer → Vector UInt8 32) (top : Top ℕ TimePoint)
    (calls : List (TimePoint × Call)) (now : TimePoint) (hclock : (calls.map (·.1) ++ [now]).Pairwise (· ≤ ·))
    (id : HashedId8) (type : SubjectType) :
    (final (step sha256 top) {} calls).Linked ∧
      ((lookup top now id type (final (step sha256 top) {} calls)).1.map (·.convertForSigning)).Nodup ∧
      (∀ cert ∈ (lookup top now id type (final (step sha256 top) {} calls)).1,
        (id, type) = key sha256 cert ∧ Cacheable type ∧ KeptUntil sha256 calls now cert) ∧
      ∀ cert, (id, type) = key sha256 cert → Cacheable type → KeptUntil sha256 calls now cert →
        ∃ found ∈ (lookup top now id type (final (step sha256 top) {} calls)).1,
          found.convertForSigning = cert.convertForSigning := by
  rw [pairwise_append] at hclock
  have hnow : ∀ p ∈ calls, p.1 ≤ now := fun p hp => hclock.2.2 p.1 (mem_map_of_mem hp) now (by simp)
  have h := Accounted.run sha256 top calls hclock.1
  exact ⟨h.linked, h.found_nodup top, fun cert hcert => h.found_kept top hcert,
    fun cert hkey hcache hkept => h.found_of_kept top hnow hkey hcache hkept⟩

def ticketNamed (name : ByteBuffer) : Certificate where
  signerInfo := .self
  subjectInfo := ⟨SubjectType.authorizationTicket, name⟩
  subjectAttributes := []
  validityRestriction := []
  signature := ⟨.xCoordinateOnly (Vector.replicate 32 0), Vector.replicate 32 0⟩

theorem lookup_touch_history_renewed :
    ∃ found ∈ (lookup (Top.first ℕ TimePoint) (seconds 3) (Vector.replicate 8 0) .authorizationTicket
        (final (step (fun _ => Vector.replicate 32 0) (Top.first ℕ TimePoint)) {}
          [(0, .insert (ticketNamed [])), (seconds 1, .lookup (Vector.replicate 8 0) .authorizationTicket)])).1,
      found.convertForSigning = (ticketNamed []).convertForSigning := by
  have hclock : (([(0, .insert (ticketNamed [])), (seconds 1, .lookup (Vector.replicate 8 0) .authorizationTicket)] :
      List (TimePoint × Call)).map (·.1) ++ [seconds 3]).Pairwise (· ≤ ·) := by decide
  have hkept : KeptUntil (fun _ => Vector.replicate 32 0)
      [(0, .insert (ticketNamed [])), (seconds 1, .lookup (Vector.replicate 8 0) .authorizationTicket)] (seconds 3)
      (ticketNamed []) := ⟨[], 0, _, rfl, by decide⟩
  exact (lookup_touch_history _ (Top.first ℕ TimePoint) _ (seconds 3) hclock (Vector.replicate 8 0)
    .authorizationTicket).2.2.2
    (ticketNamed []) (by decide) (by decide) hkept

/-! ### Collisions -/

theorem convertForSigning_ticketNamed_inj {name name' : ByteBuffer} (hlength : name.length = name'.length)
    (h : (ticketNamed name).convertForSigning = (ticketNamed name').convertForSigning) : name = name' := by
  simpa [Certificate.convertForSigning, ticketNamed, SubjectInfo.serialize, hlength] using h

theorem exists_collision : ∃ cert cert' : Certificate,
    cert.subjectType = .authorizationTicket ∧ key sha256 cert = key sha256 cert' ∧
      cert.convertForSigning ≠ cert'.convertForSigning := by
  let name (f : Fin 9 → Fin 256) : ByteBuffer := List.ofFn fun i => UInt8.ofFin (f i)
  let digest (f : Fin 9 → Fin 256) (i : Fin 8) : Fin 256 := (((ticketNamed (name f)).calculateHash sha256).get i).toFin
  have hcard : Fintype.card (Fin 8 → Fin 256) < Fintype.card (Fin 9 → Fin 256) := by simp
  obtain ⟨f, g, hne, heq⟩ := Fintype.exists_ne_map_eq_of_card_lt digest hcard
  refine ⟨ticketNamed (name f), ticketNamed (name g), rfl, ?_, ?_⟩
  · have hhash : (ticketNamed (name f)).calculateHash sha256 = (ticketNamed (name g)).calculateHash sha256 := by
      apply Vector.ext
      intro i hi
      exact UInt8.toFin_inj.mp (congrFun heq ⟨i, hi⟩)
    exact Prod.ext hhash rfl
  · intro h
    apply hne
    have hname := convertForSigning_ticketNamed_inj (by simp [name]) h
    funext i
    exact congrArg UInt8.toFin (congrFun (ofFn_injective hname) i)

/-- Whatever the digest, there are two tickets such that the first is found three
seconds after it was inserted, without any lookup, because the other was inserted. -/
theorem collision_keeps_alive : ¬ ∃ (sha256 : ByteBuffer → Vector UInt8 32) (top : Top ℕ TimePoint),
    ∀ cert cert' : Certificate, cert.subjectType = .authorizationTicket → key sha256 cert = key sha256 cert' →
      cert.convertForSigning ≠ cert'.convertForSigning →
      cert ∉ (lookup top (seconds 3) (cert.calculateHash sha256) .authorizationTicket
        (final (step sha256 top) {} [(0, .insert cert), (seconds 1, .insert cert')])).1 := by
  rintro ⟨sha256, top, h⟩
  obtain ⟨cert, cert', htype, hkey, hne⟩ := exists_collision sha256
  apply h cert cert' htype hkey hne
  have hrun := Accounted.run sha256 top [(0, .insert cert), (seconds 1, .insert cert')] (by simp [seconds])
  have hlifetime : lifetime cert.subjectType = seconds 2 := by rw [htype]; rfl
  have hkept : KeptUntil sha256 [(0, .insert cert), (seconds 1, .insert cert')] (seconds 3) cert := by
    refine ⟨[], 0, _, rfl, ?_⟩
    have htimes : touchTimes sha256 (key sha256 cert) [(seconds 1, .insert cert')] = [seconds 1] := by
      rw [hkey]
      exact touchTimes_insert [] (seconds 1)
    rw [htimes, hlifetime]
    decide
  have hkey' : (cert.calculateHash sha256, SubjectType.authorizationTicket) = key sha256 cert := by rw [← htype]; rfl
  obtain ⟨found, hfound, hsigning⟩ := hrun.found_of_kept top (by simp [seconds]) hkey' (.inl rfl) hkept
  -- only these two were inserted
  obtain ⟨_, _, before, t₀, after, hcalls, _⟩ := hrun.found_kept top hfound
  have hmem : (t₀, Call.insert found) ∈ [(0, Call.insert cert), (seconds 1, .insert cert')] := by
    rw [hcalls]
    simp
  simp only [mem_cons, Prod.mk.injEq, Call.insert.injEq, not_mem_nil, or_false] at hmem
  rcases hmem with ⟨_, rfl⟩ | ⟨_, rfl⟩
  · exact hfound
  · exact absurd hsigning.symm hne

end CertificateCache
end VanetzaIdf.V2
