/-
# Expired entries of a soft-state map

`soft_state_map.hpp` as it is stored (`HeapMap`), which stands for the map of
`LocationTable.lean` (`step_toMap`).

An expired entry is hidden until `drop_expired`, but `get_value` and `refresh`
bring it back. If they are not called for such a key (`Settled`), it cannot be
told when entries are dropped (`collection_unobservable`). What a caller does
through a reference is part of the event.
-/
import Mathlib.Data.Multiset.Basic
import VanetzaIdf.Geonet.Wire.LocationTable
import VanetzaIdf.Lib.Expiring
import VanetzaIdf.Lib.Machine

namespace VanetzaIdf.Geonet.Wire

open Lib List

variable {κ α : Type}

/-! ### The map with its heap -/

/-- `SoftStateMap` with `m_map` and `m_heap`. -/
structure HeapMap (κ α : Type) where
  lifetime : Duration
  store : Expiring κ α TimePoint := {}

namespace HeapMap

variable (m : HeapMap κ α) (now : TimePoint)

/-- `is_expired(*data->handle)`. -/
def isExpired (x : Item κ α) : Bool := decide (m.store.timeOf x.handle < now)

def refreshHandle (handle : ℕ) : HeapMap κ α := { m with store := m.store.setTime (now + m.lifetime) handle }

/-- What a visitor of `map` does to the values it is shown. -/
def visit (f : κ → α → α) : HeapMap κ α :=
  { m with store := m.store.mapValues fun e => if e.time < now then e.value else f e.ref e.value }

variable [DecidableEq κ] (key : κ)

def getDataPtr : Option (Item κ α) := m.store.items.find? (·.ref = key)

def getValuePtr : Option α := ((m.getDataPtr key).filter fun x => !m.isExpired now x).map (·.value)

def hasValue : Bool := (m.getValuePtr now key).isSome

def getData (create : α) : HeapMap κ α :=
  match m.getDataPtr key with
  | none => { m with store := m.store.push key create (now + m.lifetime) }
  | some x => if m.isExpired now x then m.refreshHandle now x.handle else m

def refresh (create : α) : HeapMap κ α :=
  match m.getDataPtr key with
  | some x => m.refreshHandle now x.handle
  | none => m.getData now key create

def dataValue (create : α) : α := ((m.getDataPtr key).map (·.value)).getD create

/-- The value of this key changed, through a reference to it. -/
def modify (f : α → α) : HeapMap κ α :=
  { m with store := m.store.mapValues fun e => if e.ref = key then f e.value else e.value }

def dropExpired (top : Top κ TimePoint) : HeapMap κ α := { m with store := m.store.dropExpired top now }

/-- `map`: the entries that have not expired. -/
def range : List (κ × α) := (m.store.items.filter fun x => !m.isExpired now x).map fun x => (x.ref, x.value)

def toMap : SoftStateMap κ α where
  lifetime := m.lifetime
  entries := m.store.entries.map fun e => ⟨e.ref, e.time, e.value⟩

end HeapMap

/-! ### Runs -/

/-- A call, with what the caller then does through the reference, or time that passes. -/
inductive SoftEvent (κ α : Type) where
  | getValue (key : κ) (f : α → α)
  | getValuePtr (key : κ) (f : α → α)
  | hasValue (key : κ)
  | refresh (key : κ) (f : α → α)
  | dropExpired
  | map (f : κ → α → α)
  | elapse (d : ℕ)

inductive SoftAnswer (κ α : Type) where
  | value (v : α)
  | pointer (v : Option α)
  | flag (b : Bool)
  | range (r : Multiset (κ × α))
  | nothing
deriving DecidableEq

structure Clocked (μ : Type) where
  now : TimePoint
  map : μ

namespace HeapMap

variable [DecidableEq κ] (create : TimePoint → α) (top : Top κ TimePoint)

def step (s : Clocked (HeapMap κ α)) : SoftEvent κ α → SoftAnswer κ α × Clocked (HeapMap κ α)
  | .getValue key f =>
    (.value (s.map.dataValue key (create s.now)),
    { s with map := (s.map.getData s.now key (create s.now)).modify key f })
  | .getValuePtr key f =>
    (.pointer (s.map.getValuePtr s.now key),
    { s with map := if s.map.hasValue s.now key then s.map.modify key f else s.map })
  | .hasValue key => (.flag (s.map.hasValue s.now key), s)
  | .refresh key f =>
    (.value (s.map.dataValue key (create s.now)),
    { s with map := (s.map.refresh s.now key (create s.now)).modify key f })
  | .dropExpired => (.nothing, { s with map := s.map.dropExpired s.now top })
  | .map f => (.range (s.map.range s.now), { s with map := s.map.visit s.now f })
  | .elapse d => (.nothing, { s with now := s.now + d })

end HeapMap

namespace SoftStateMap

variable (m : SoftStateMap κ α) (now : TimePoint)

theorem eq_of_entries {m m' : SoftStateMap κ α} (hl : m.lifetime = m'.lifetime) (he : m.entries = m'.entries) :
    m = m' := by
  cases m
  cases m'
  cases hl
  cases he
  rfl

def visit (f : κ → α → α) : SoftStateMap κ α :=
  { m with entries := m.entries.map fun x => { x with value := if x.expiry < now then x.value else f x.key x.value } }

def range : List (κ × α) := (m.entries.filter fun x => !isExpired now x).map fun x => (x.key, x.value)

variable [DecidableEq κ]

def dataValue (key : κ) (create : α) : α := ((m.getDataPtr key).map (·.value)).getD create

def step (create : TimePoint → α) (s : Clocked (SoftStateMap κ α)) :
    SoftEvent κ α → SoftAnswer κ α × Clocked (SoftStateMap κ α)
  | .getValue key f =>
    (.value (s.map.dataValue key (create s.now)),
    { s with map := (s.map.getData s.now key (create s.now)).modify key f })
  | .getValuePtr key f =>
    (.pointer (s.map.getValuePtr s.now key),
    { s with map := if s.map.hasValue s.now key then s.map.modify key f else s.map })
  | .hasValue key => (.flag (s.map.hasValue s.now key), s)
  | .refresh key f =>
    (.value (s.map.dataValue key (create s.now)),
    { s with map := (s.map.refresh s.now key (create s.now)).modify key f })
  | .dropExpired => (.nothing, { s with map := s.map.dropExpired s.now })
  | .map f => (.range (s.map.range s.now), { s with map := s.map.visit s.now f })
  | .elapse d => (.nothing, { s with now := s.now + d })

end SoftStateMap

/-! ### The heap refines the list -/

namespace HeapMap

variable {m : HeapMap κ α} (now : TimePoint)

def data (m : HeapMap κ α) (x : Item κ α) : SoftState κ α := ⟨x.ref, m.store.timeOf x.handle, x.value⟩

theorem toMap_entries : m.toMap.entries = m.store.items.map m.data := by
  show (m.store.items.map _).map _ = _
  rw [map_map]
  rfl

theorem range_toMap : m.toMap.range now = m.range now := by
  unfold SoftStateMap.range
  rw [toMap_entries, filter_map, map_map]
  rfl

theorem toMap_visit (f : κ → α → α) : (m.visit now f).toMap = m.toMap.visit now f := by
  have hentries : (m.visit now f).toMap.entries = (m.toMap.visit now f).entries := by
    show (m.store.mapValues _).entries.map _ = (m.store.entries.map _).map _
    rw [Expiring.entries_mapValues, map_map, map_map]
    rfl
  exact SoftStateMap.eq_of_entries rfl hentries

variable [DecidableEq κ] (key : κ)

theorem getDataPtr_toMap : m.toMap.getDataPtr key = (m.getDataPtr key).map m.data := by
  unfold SoftStateMap.getDataPtr
  rw [toMap_entries, List.find?_map]
  rfl

theorem dataValue_toMap (create : α) : m.toMap.dataValue key create = m.dataValue key create := by
  unfold SoftStateMap.dataValue
  rw [getDataPtr_toMap, Option.map_map]
  rfl

theorem getValuePtr_toMap : m.toMap.getValuePtr now key = m.getValuePtr now key := by
  unfold SoftStateMap.getValuePtr getValuePtr
  rw [getDataPtr_toMap]
  cases m.getDataPtr key with
  | none => rfl
  | some x =>
    show ((some (m.data x)).filter _).map _ = ((some x).filter _).map _
    rw [Option.filter_some, Option.filter_some]
    show Option.map _ (if (!m.isExpired now x) = true then _ else _) = _
    split_ifs <;> rfl

theorem toMap_modify (f : α → α) : (m.modify key f).toMap = m.toMap.modify key f := by
  have hentries : (m.modify key f).toMap.entries = (m.toMap.modify key f).entries := by
    show (m.store.mapValues _).entries.map _ = (m.store.entries.map _).map _
    rw [Expiring.entries_mapValues, map_map, map_map]
    apply map_congr_left
    intro e _
    by_cases he : e.ref = key <;> simp [he]
  exact SoftStateMap.eq_of_entries rfl hentries

variable (h : m.store.Linked)

include h

theorem toMap_refreshHandle {x : Item κ α} (hx : m.getDataPtr key = some x) :
    (m.refreshHandle now x.handle).toMap = m.toMap.modifyData key fun y => { y with expiry := now + m.lifetime } := by
  have href : x.ref = key := by simpa using List.find?_some hx
  have hentries : (m.refreshHandle now x.handle).toMap.entries =
      (m.toMap.modifyData key fun y => { y with expiry := now + m.lifetime }).entries := by
    show (m.store.setTime _ _).entries.map _ = (m.store.entries.map _).map _
    rw [h.entries_setTime _ (mem_of_find?_eq_some hx), map_map, map_map]
    apply map_congr_left
    intro e _
    by_cases he : e.ref = key <;> simp [he, href]
  exact SoftStateMap.eq_of_entries rfl hentries

theorem toMap_getData (create : α) : (m.getData now key create).toMap = m.toMap.getData now key create := by
  unfold getData SoftStateMap.getData
  rw [getDataPtr_toMap]
  cases hx : m.getDataPtr key with
  | none =>
    refine SoftStateMap.eq_of_entries rfl ?_
    show (m.store.push _ _ _).entries.map _ = _
    rw [h.entries_push, map_append]
    rfl
  | some x =>
    show toMap (if m.isExpired now x = true then _ else _) = if m.isExpired now x = true then _ else _
    split_ifs
    · rw [toMap_refreshHandle now key h hx]
      rfl
    · rfl

theorem toMap_refresh (create : α) : (m.refresh now key create).toMap = m.toMap.refresh now key create := by
  unfold refresh SoftStateMap.refresh
  rw [getDataPtr_toMap]
  cases hx : m.getDataPtr key with
  | none => exact toMap_getData now key h create
  | some x => exact toMap_refreshHandle now key h hx

theorem toMap_dropExpired (top : Top κ TimePoint) : (m.dropExpired now top).toMap = m.toMap.dropExpired now := by
  refine SoftStateMap.eq_of_entries rfl ?_
  show (m.store.dropExpired top now).entries.map _ = (m.store.entries.map _).filter _
  rw [h.entries_dropExpired, filter_map]
  congr 1
  apply filter_congr
  intro e _
  exact decide_not

/-! ### The links are kept -/

theorem linked_getData (create : α) : (m.getData now key create).store.Linked := by
  unfold getData
  cases hx : m.getDataPtr key with
  | none =>
    apply h.push
    intro x hmem
    simpa using List.find?_eq_none.mp hx x hmem
  | some x =>
    show Expiring.Linked (store (if m.isExpired now x = true then _ else _))
    split_ifs
    · exact h.setTime _ _
    · exact h

theorem linked_refresh (create : α) : (m.refresh now key create).store.Linked := by
  unfold refresh
  cases hx : m.getDataPtr key with
  | none => exact linked_getData now key h create
  | some x => exact h.setTime _ _

theorem linked_modify (f : α → α) : (m.modify key f).store.Linked :=
  h.mapValues fun e => if e.ref = key then f e.value else e.value

omit [DecidableEq κ] in
theorem linked_visit (f : κ → α → α) : (m.visit now f).store.Linked :=
  h.mapValues fun e => if e.time < now then e.value else f e.ref e.value

omit h

def clockedMap (s : Clocked (HeapMap κ α)) : Clocked (SoftStateMap κ α) := ⟨s.now, s.map.toMap⟩

variable (create : TimePoint → α) (top : Top κ TimePoint) {s : Clocked (HeapMap κ α)}

theorem linked_step (h : s.map.store.Linked) (e : SoftEvent κ α) : (step create top s e).2.map.store.Linked := by
  cases e with
  | getValue key f => exact linked_modify key (linked_getData s.now key h _) f
  | getValuePtr key f =>
    show Expiring.Linked (store (if s.map.hasValue s.now key = true then _ else _))
    split_ifs
    · exact linked_modify key h f
    · exact h
  | hasValue | elapse => exact h
  | refresh key f => exact linked_modify key (linked_refresh s.now key h _) f
  | dropExpired => exact h.dropExpired top s.now
  | map f => exact linked_visit s.now h f

/-- **The heap refines the list.** A step on the map with its heap answers as the
step on the map it stands for, and leads to what that leads to. -/
theorem step_toMap (h : s.map.store.Linked) (e : SoftEvent κ α) :
    (step create top s e).1 = (SoftStateMap.step create (clockedMap s) e).1 ∧
      clockedMap (step create top s e).2 = (SoftStateMap.step create (clockedMap s) e).2 := by
  cases e with
  | getValue key f =>
    constructor
    · exact congrArg _ (dataValue_toMap key _).symm
    · show Clocked.mk s.now (((s.map.getData _ _ _).modify _ _).toMap) = _
      rw [toMap_modify, toMap_getData s.now key h]
      rfl
  | getValuePtr key f =>
    have hptr := getValuePtr_toMap (m := s.map) s.now key
    constructor
    · exact congrArg _ hptr.symm
    · have hhas : s.map.toMap.hasValue s.now key = s.map.hasValue s.now key := congrArg Option.isSome hptr
      show Clocked.mk s.now (toMap (if s.map.hasValue s.now key = true then _ else _)) =
        Clocked.mk s.now (if s.map.toMap.hasValue s.now key = true then _ else _)
      rw [hhas]
      split_ifs
      · rw [toMap_modify]
        rfl
      · rfl
  | hasValue key =>
    have hptr := getValuePtr_toMap (m := s.map) s.now key
    exact ⟨congrArg (fun v => SoftAnswer.flag (Option.isSome v)) hptr.symm, rfl⟩
  | refresh key f =>
    constructor
    · exact congrArg _ (dataValue_toMap key _).symm
    · show Clocked.mk s.now (((s.map.refresh _ _ _).modify _ _).toMap) = _
      rw [toMap_modify, toMap_refresh s.now key h]
      rfl
  | dropExpired =>
    refine ⟨rfl, ?_⟩
    show Clocked.mk s.now ((s.map.dropExpired _ _).toMap) = _
    rw [toMap_dropExpired s.now h]
    rfl
  | map f =>
    constructor
    · exact congrArg (fun r => SoftAnswer.range (Multiset.ofList r)) (range_toMap s.now).symm
    · show Clocked.mk s.now ((s.map.visit _ _).toMap) = _
      rw [toMap_visit]
      rfl
  | elapse d => exact ⟨rfl, rfl⟩

end HeapMap

/-! ### Expired entries do not show -/

namespace SoftStateMap

variable [DecidableEq κ] {create : TimePoint → α} {K : List κ} {s t : Clocked (SoftStateMap κ α)}

/-- `t` is `s` without the entries of the keys `K`, all of which have expired. -/
structure Hides (K : List κ) (s t : Clocked (SoftStateMap κ α)) : Prop where
  now : t.now = s.now
  lifetime : t.map.lifetime = s.map.lifetime
  rest : t.map.entries = s.map.entries.filter fun x => x.key ∉ K
  expired : ∀ k ∈ K, ∃ x ∈ s.map.entries, x.key = k ∧ isExpired s.now x = true
  keys : (s.map.entries.map (·.key)).Nodup

/-- The event does not bring back an entry that has expired. -/
def Settled (s : Clocked (SoftStateMap κ α)) : SoftEvent κ α → Prop
  | .getValue key _ | .refresh key _ => ∀ x, s.map.getDataPtr key = some x → isExpired s.now x = false
  | _ => True

theorem getDataPtr_eq_some {m : SoftStateMap κ α} (hkeys : (m.entries.map (·.key)).Nodup) {x : SoftState κ α}
    (hx : x ∈ m.entries) : m.getDataPtr x.key = some x :=
  find?_of_nodup_map hkeys hx

namespace Hides

variable (h : Hides K s t)

include h

variable {key : κ}

theorem data_of_mem (hk : key ∈ K) : ∃ x, s.map.getDataPtr key = some x ∧ isExpired s.now x = true := by
  obtain ⟨x, hx, rfl, hexpired⟩ := h.expired key hk
  exact ⟨x, getDataPtr_eq_some h.keys hx, hexpired⟩

theorem not_mem_of_live {x : SoftState κ α} (hx : x ∈ s.map.entries) (hlive : isExpired s.now x = false) :
    x.key ∉ K := by
  intro hk
  obtain ⟨y, hy, hexpired⟩ := h.data_of_mem hk
  rw [getDataPtr_eq_some h.keys hx] at hy
  cases hy
  rw [hlive] at hexpired
  cases hexpired

theorem getDataPtr_eq (hk : key ∉ K) : t.map.getDataPtr key = s.map.getDataPtr key := by
  unfold getDataPtr
  rw [h.rest, List.find?_filter]
  congr 1
  funext x
  by_cases hx : x.key = key
  · simp [hx, hk]
  · simp [hx]

theorem getDataPtr_eq_none (hk : key ∈ K) : t.map.getDataPtr key = none := by
  unfold getDataPtr
  rw [h.rest, List.find?_filter, List.find?_eq_none]
  intro x _
  by_cases hx : x.key = key
  · simp [hx, hk]
  · simp [hx]

theorem getValuePtr_eq (key : κ) : t.map.getValuePtr t.now key = s.map.getValuePtr s.now key := by
  unfold getValuePtr
  rw [h.now]
  by_cases hk : key ∈ K
  · obtain ⟨x, hx, hexpired⟩ := h.data_of_mem hk
    rw [h.getDataPtr_eq_none hk, hx]
    simp [Option.filter, hexpired]
  · rw [h.getDataPtr_eq hk]

theorem live_eq : (t.map.entries.filter fun x => !isExpired t.now x) = s.map.entries.filter fun x =>
    !isExpired s.now x := by
  rw [h.rest, filter_filter, h.now]
  apply filter_congr
  intro x hx
  cases hexpired : isExpired s.now x with
  | true => rfl
  | false => simp [h.not_mem_of_live hx hexpired]

theorem map {g : SoftState κ α → SoftState κ α} (hkey : ∀ x, (g x).key = x.key)
    (hg : ∀ x ∈ s.map.entries, x.key ∈ K → isExpired s.now x = true → isExpired s.now (g x) = true) :
    Hides K { s with map := { s.map with entries := s.map.entries.map g } }
      { t with map := { t.map with entries := t.map.entries.map g } } where
  now := h.now
  lifetime := h.lifetime
  rest := by
    show t.map.entries.map g = (s.map.entries.map g).filter _
    rw [h.rest, filter_map]
    simp [Function.comp_def, hkey]
  expired k hk := by
    obtain ⟨x, hx, rfl, hexpired⟩ := h.expired k hk
    exact ⟨g x, mem_map_of_mem hx, hkey x, hg x hx hk hexpired⟩
  keys := by
    show ((s.map.entries.map g).map _).Nodup
    rw [map_map]
    simpa [Function.comp_def, hkey] using h.keys

theorem append {x : SoftState κ α} (hx : s.map.getDataPtr x.key = none) :
    Hides K { s with map := { s.map with entries := s.map.entries ++ [x] } }
      { t with map := { t.map with entries := t.map.entries ++ [x] } } where
  now := h.now
  lifetime := h.lifetime
  rest := by
    have hk : x.key ∉ K := by
      intro hk
      obtain ⟨y, hy, _⟩ := h.data_of_mem hk
      rw [hx] at hy
      cases hy
    show t.map.entries ++ [x] = (s.map.entries ++ [x]).filter _
    rw [h.rest, filter_append]
    simp [hk]
  expired k hk := by
    obtain ⟨y, hy, hkey, hexpired⟩ := h.expired k hk
    exact ⟨y, mem_append_left _ hy, hkey, hexpired⟩
  keys := by
    have hnew : ∀ y ∈ s.map.entries, y.key ≠ x.key := fun y hy => by simpa using List.find?_eq_none.mp hx y hy
    simpa [nodup_append] using ⟨h.keys, hnew⟩

theorem modify (key : κ) (f : α → α) :
    Hides K { s with map := s.map.modify key f } { t with map := t.map.modify key f } := by
  apply h.map
  · intro x
    by_cases hx : x.key = key <;> simp [hx]
  · intro x _ _ hexpired
    by_cases hx : x.key = key
    · simpa [hx, isExpired] using hexpired
    · simpa [hx] using hexpired

theorem visit (f : κ → α → α) :
    Hides K { s with map := s.map.visit s.now f } { t with map := t.map.visit t.now f } := by
  obtain ⟨_, m⟩ := t
  obtain rfl := h.now
  exact h.map (g := fun x => { x with value := if x.expiry < s.now then x.value else f x.key x.value })
    (fun _ => rfl) fun _ _ _ hexpired => hexpired

theorem not_mem_of_settled (hsettled : ∀ x, s.map.getDataPtr key = some x → isExpired s.now x = false) :
    key ∉ K := by
  intro hk
  obtain ⟨x, hx, hexpired⟩ := h.data_of_mem hk
  rw [hsettled x hx] at hexpired
  cases hexpired

theorem dataValue_eq (hk : key ∉ K) (create : α) : t.map.dataValue key create = s.map.dataValue key create := by
  unfold dataValue
  rw [h.getDataPtr_eq hk]

theorem getData (hsettled : ∀ x, s.map.getDataPtr key = some x → isExpired s.now x = false) (create : α) :
    Hides K { s with map := s.map.getData s.now key create } { t with map := t.map.getData t.now key create } := by
  obtain ⟨_, m⟩ := t
  obtain rfl := h.now
  have hptr : m.getDataPtr key = _ := h.getDataPtr_eq (h.not_mem_of_settled hsettled)
  have hlifetime : m.lifetime = _ := h.lifetime
  unfold SoftStateMap.getData
  rw [hptr]
  cases hx : s.map.getDataPtr key with
  | none =>
    have hexpiry : s.now + m.lifetime = s.now + s.map.lifetime := by rw [hlifetime]
    have hnext := h.append (x := ⟨key, s.now + s.map.lifetime, create⟩) hx
    rwa [← hexpiry] at hnext ⊢
  | some x =>
    simp only [hsettled x hx, Bool.false_eq_true, if_false]
    exact h

theorem refresh (hsettled : ∀ x, s.map.getDataPtr key = some x → isExpired s.now x = false) (create : α) :
    Hides K { s with map := s.map.refresh s.now key create } { t with map := t.map.refresh t.now key create } := by
  obtain ⟨_, m⟩ := t
  obtain rfl := h.now
  have hk := h.not_mem_of_settled hsettled
  have hptr : m.getDataPtr key = _ := h.getDataPtr_eq hk
  have hlifetime : m.lifetime = _ := h.lifetime
  unfold SoftStateMap.refresh
  rw [hptr]
  cases hx : s.map.getDataPtr key with
  | none => exact h.getData hsettled create
  | some x =>
    simp only [hlifetime]
    apply h.map
    · intro y
      by_cases hy : y.key = key <;> simp [hy]
    · intro y _ hyK hexpired
      have hy : y.key ≠ key := fun heq => hk (heq ▸ hyK)
      simpa [hy] using hexpired

theorem dropExpired : Hides [] { s with map := s.map.dropExpired s.now } { t with map := t.map.dropExpired t.now } where
  now := h.now
  lifetime := h.lifetime
  rest := by
    show t.map.entries.filter _ = (s.map.entries.filter _).filter _
    rw [h.live_eq]
    simp
  expired := nofun
  keys := h.keys.sublist (filter_sublist.map _)

theorem dropExpired_right : Hides ((s.map.entries.filter fun x => isExpired s.now x).map (·.key)) s
    { t with map := t.map.dropExpired t.now } where
  now := h.now
  lifetime := h.lifetime
  rest := by
    show t.map.entries.filter _ = _
    rw [h.live_eq]
    apply filter_congr
    intro x hx
    have hiff : x.key ∈ (s.map.entries.filter fun x => isExpired s.now x).map (·.key) ↔ isExpired s.now x = true := by
      rw [mem_map]
      constructor
      · rintro ⟨y, hy, hkey⟩
        obtain ⟨hy, hexpired⟩ := mem_filter.mp hy
        rwa [inj_on_of_nodup_map h.keys hy hx hkey] at hexpired
      · intro hexpired
        exact ⟨x, mem_filter.mpr ⟨hx, hexpired⟩, rfl⟩
    simp only [hiff]
    cases isExpired s.now x <;> rfl
  expired k hk := by
    obtain ⟨x, hx, rfl⟩ := mem_map.mp hk
    obtain ⟨hx, hexpired⟩ := mem_filter.mp hx
    exact ⟨x, hx, rfl, hexpired⟩
  keys := h.keys

theorem elapse (d : ℕ) : Hides K { s with now := s.now + d } { t with now := t.now + d } where
  now := by rw [h.now]
  lifetime := h.lifetime
  rest := h.rest
  expired k hk := by
    obtain ⟨x, hx, hkey, hexpired⟩ := h.expired k hk
    have hlt : x.expiry < s.now := of_decide_eq_true hexpired
    exact ⟨x, hx, hkey, decide_eq_true (lt_add_of_lt_of_nonneg hlt (Int.natCast_nonneg d))⟩
  keys := h.keys

theorem step (create : TimePoint → α) {e : SoftEvent κ α} (he : Settled s e) :
    (SoftStateMap.step create s e).1 = (SoftStateMap.step create t e).1 ∧
      ∃ K', Hides K' (SoftStateMap.step create s e).2 (SoftStateMap.step create t e).2 := by
  obtain ⟨_, m⟩ := t
  obtain rfl := h.now
  cases e with
  | getValue key f =>
    have hvalue := h.dataValue_eq (h.not_mem_of_settled he) (create s.now)
    exact ⟨congrArg SoftAnswer.value hvalue.symm, K, (h.getData he (create s.now)).modify key f⟩
  | getValuePtr key f =>
    have hptr : m.getValuePtr s.now key = _ := h.getValuePtr_eq key
    have hhas : m.hasValue s.now key = s.map.hasValue s.now key := congrArg Option.isSome hptr
    constructor
    · exact congrArg SoftAnswer.pointer hptr.symm
    · refine ⟨K, ?_⟩
      show Hides K { s with map := if s.map.hasValue s.now key = true then _ else _ }
        { now := s.now, map := if m.hasValue s.now key = true then _ else _ }
      rw [hhas]
      split_ifs
      · exact h.modify key f
      · exact h
  | hasValue key => exact ⟨congrArg (fun v => SoftAnswer.flag (Option.isSome v)) (h.getValuePtr_eq key).symm, K, h⟩
  | refresh key f =>
    have hvalue := h.dataValue_eq (h.not_mem_of_settled he) (create s.now)
    exact ⟨congrArg SoftAnswer.value hvalue.symm, K, (h.refresh he (create s.now)).modify key f⟩
  | dropExpired => exact ⟨rfl, [], h.dropExpired⟩
  | map f =>
    constructor
    · have hrange : m.range s.now = s.map.range s.now := congrArg (List.map fun x : SoftState κ α => (x.key, x.value))
        h.live_eq
      exact congrArg (fun r => SoftAnswer.range (Multiset.ofList r)) hrange.symm
    · exact ⟨K, h.visit f⟩
  | elapse d => exact ⟨rfl, K, h.elapse d⟩

end Hides

end SoftStateMap

/-! ### When expired entries are dropped -/

namespace HeapMap

variable [DecidableEq κ] (create : TimePoint → α) (top : Top κ TimePoint)

/-- No `get_value` or `refresh` for a key whose entry has expired and is still stored. -/
def Settled (s : Clocked (HeapMap κ α)) : SoftEvent κ α → Prop
  | .getValue key _ | .refresh key _ => ∀ x ∈ s.map.getDataPtr key, s.map.isExpired s.now x = false
  | _ => True

instance (s : Clocked (HeapMap κ α)) (e : SoftEvent κ α) : Decidable (Settled s e) := by
  cases e <;> unfold Settled <;> infer_instance

/-- A value that is not there, or has expired, is a new one. -/
def AnswersAfresh (s : Clocked (HeapMap κ α)) : SoftEvent κ α → Prop
  | .getValue key f =>
    s.map.hasValue s.now key = false → (step create top s (.getValue key f)).1 = .value (create s.now)
  | .refresh key f =>
    s.map.hasValue s.now key = false → (step create top s (.refresh key f)).1 = .value (create s.now)
  | _ => True

variable {s : Clocked (HeapMap κ α)}

theorem settled_toMap {e : SoftEvent κ α} (h : Settled s e) : SoftStateMap.Settled (clockedMap s) e := by
  have hdata : ∀ key, (∀ x ∈ s.map.getDataPtr key, s.map.isExpired s.now x = false) →
      ∀ y, s.map.toMap.getDataPtr key = some y → SoftStateMap.isExpired s.now y = false := by
    intro key hkey y hy
    rw [getDataPtr_toMap] at hy
    obtain ⟨x, hx, rfl⟩ := Option.map_eq_some_iff.mp hy
    exact hkey x hx
  cases e with
  | getValue key | refresh key => exact hdata key h
  | getValuePtr | hasValue | dropExpired | map | elapse => trivial

theorem dataValue_of_settled {key : κ} (h : ∀ x ∈ s.map.getDataPtr key, s.map.isExpired s.now x = false)
    (hnone : s.map.hasValue s.now key = false) (v : α) : s.map.dataValue key v = v := by
  cases hx : s.map.getDataPtr key with
  | none =>
    unfold dataValue
    rw [hx]
    rfl
  | some x =>
    have hhas : s.map.hasValue s.now key = true := by
      unfold hasValue getValuePtr
      rw [hx]
      simp [Option.filter, h x hx]
    rw [hnone] at hhas
    cases hhas

theorem answersAfresh_of_settled (e : SoftEvent κ α) (h : Settled s e) : AnswersAfresh create top s e := by
  cases e with
  | getValue | refresh => exact fun hnone => congrArg SoftAnswer.value (dataValue_of_settled h hnone _)
  | getValuePtr | hasValue | dropExpired | map | elapse => trivial

/-- Maps whose heaps are in order, one without some expired entries of the other. -/
def Alike (s t : Clocked (HeapMap κ α)) : Prop :=
  s.map.store.Linked ∧ t.map.store.Linked ∧ ∃ K, SoftStateMap.Hides K (clockedMap s) (clockedMap t)

theorem Alike.step {s t : Clocked (HeapMap κ α)} {e : SoftEvent κ α} (h : Alike s t) (he : Settled s e) :
    (HeapMap.step create top s e).1 = (HeapMap.step create top t e).1 ∧
      Alike (HeapMap.step create top s e).2 (HeapMap.step create top t e).2 := by
  obtain ⟨hs, ht, K, hK⟩ := h
  obtain ⟨hsout, hsmap⟩ := step_toMap create top hs e
  obtain ⟨htout, htmap⟩ := step_toMap create top ht e
  obtain ⟨hout, K', hK'⟩ := hK.step create (settled_toMap he)
  rw [← hsmap, ← htmap] at hK'
  exact ⟨hsout.trans (hout.trans htout.symm), linked_step create top hs e, linked_step create top ht e, K', hK'⟩

theorem Alike.dropExpired {s t : Clocked (HeapMap κ α)} (h : Alike s t) :
    Alike s (HeapMap.step create top t .dropExpired).2 := by
  obtain ⟨hs, ht, K, hK⟩ := h
  obtain ⟨_, htmap⟩ := step_toMap create top ht .dropExpired
  have hnext : SoftStateMap.Hides _ (clockedMap s) (SoftStateMap.step create (clockedMap t) .dropExpired).2 :=
    hK.dropExpired_right
  rw [← htmap] at hnext
  exact ⟨hs, linked_step create top ht .dropExpired, _, hnext⟩

theorem Alike.init (now : TimePoint) (lifetime : Duration) :
    Alike (⟨now, { lifetime }⟩ : Clocked (HeapMap κ α)) ⟨now, { lifetime }⟩ :=
  ⟨Expiring.Linked.empty, Expiring.Linked.empty, [], rfl, rfl, rfl, nofun, nodup_nil⟩

/-- **It cannot be told when expired entries are dropped**, if none is brought back: calls of
`drop_expired` slipped in anywhere change no answer. -/
theorem collection_unobservable (now : TimePoint) (lifetime : Duration) (l : List (SoftEvent κ α × Bool))
    (hextra : ∀ p ∈ l, p.2 = true → p.1 = .dropExpired)
    (hl : Along (step create top) Settled ⟨now, { lifetime }⟩ (common l)) :
    outputs (step create top) ⟨now, { lifetime }⟩ (common l) = observed (step create top) ⟨now, { lifetime }⟩ l ∧
      Along (step create top) (AnswersAfresh create top) ⟨now, { lifetime }⟩ (common l) := by
  constructor
  · refine outputs_common_of_along (step create top) (C := Settled) (X := (· = .dropExpired)) (R := Alike)
      (fun h he => h.step create top he) ?_ (Alike.init now lifetime) hl hextra
    rintro s t _ h rfl
    exact h.dropExpired create top
  · exact along_mono (step create top) (fun _ e he => answersAfresh_of_settled create top e he) hl

/-- A value is changed, expires, is dropped and created again, with a drop slipped in before. -/
def sampleRun : List (SoftEvent Bool ℕ × Bool) :=
  [(.getValue true (· + 1), false), (.elapse 2, false), (.dropExpired, true), (.hasValue true, false),
    (.dropExpired, false),
    (.refresh true id, false)]

theorem collection_unobservable_sample :
    Along (step (fun _ => 0) (Top.first Bool TimePoint)) Settled ⟨0, { lifetime := 1 }⟩ (common sampleRun) ∧
      outputs (step (fun _ => 0) (Top.first Bool TimePoint)) ⟨0, { lifetime := 1 }⟩ (common sampleRun) =
        observed (step (fun _ => 0) (Top.first Bool TimePoint)) ⟨0, { lifetime := 1 }⟩ sampleRun := by
  have hl : Along (step (fun _ => 0) (Top.first Bool TimePoint)) Settled ⟨0, { lifetime := 1 }⟩ (common sampleRun) := by
    decide
  have hextra : ∀ p ∈ sampleRun, p.2 = true → p.1 = .dropExpired := by simp [sampleRun]
  exact ⟨hl, (collection_unobservable (fun _ => 0) (Top.first Bool TimePoint) 0 1 sampleRun hextra hl).1⟩

end HeapMap

/-! ### Counters that fade, and positions -/

structure CbfCounterFading where
  counters : SoftStateMap CbfPacketIdentifier ℕ

instance : CbfCounter CbfCounterFading where
  add now c id := ⟨((c.counters.refresh now id 0).modify id (· + 1)).dropExpired now⟩
  remove _ c _ := c
  increment now c id := ⟨(c.counters.getData now id 0).modify id (· + 1)⟩
  counter now c id := (c.counters.getValuePtr now id).getD 0

/-- A station's position, and what it sends after its clock was set back. -/
def samplePosition : LongPositionVector := { timestamp := 10, latitude := 1 }

def samplePositionLater : LongPositionVector := { timestamp := 5, latitude := 2 }

/-- A value that has expired is returned and goes on from where it was; it is otherwise if expired
entries are dropped first. -/
theorem expired_entry_revived :
    (outputs (HeapMap.step (fun _ => 0) (Top.first Bool TimePoint)) ⟨0, { lifetime := 1 }⟩
        (common [(.getValue true (· + 1), false), (.elapse 2, false), (.dropExpired, true),
          (.getValue true id, false)]) =
          [.value 0, .nothing, .value 1] ∧
      observed (HeapMap.step (fun _ => 0) (Top.first Bool TimePoint)) ⟨0, { lifetime := 1 }⟩
        [(.getValue true (· + 1), false), (.elapse 2, false), (.dropExpired, true), (.getValue true id, false)] =
          [.value 0, .nothing, .value 0]) ∧
    (let id : CbfPacketIdentifier := ⟨{}, 0⟩
      let c : CbfCounterFading := CbfCounter.add 0 ⟨{ lifetime := 1 }⟩ id
      CbfCounter.counter 2 c id = 0 ∧ CbfCounter.counter 2 (CbfCounter.add 2 c id) id = 2 ∧
        CbfCounter.counter 2 (CbfCounter.add 2 (CbfCounterFading.mk (c.counters.dropExpired 2)) id) id = 1) ∧
    (let t := LocationTable.update { lifetime := 1 } 0 samplePosition
      let key := samplePosition.gnAddr.mid
      LocationTable.getPosition t 2 key = none ∧
        LocationTable.getPosition (LocationTable.update t 2 samplePositionLater) 2 key = some samplePosition ∧
        LocationTable.getPosition (LocationTable.update (t.dropExpired 2) 2 samplePositionLater) 2 key =
          some samplePositionLater) := by
  refine ⟨⟨by decide, by decide⟩, ⟨by decide, by decide, by decide⟩, ?_, ?_, ?_⟩
  · decide
  · decide
  · decide

end VanetzaIdf.Geonet.Wire
