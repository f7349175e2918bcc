/-
# CbrAggregator

The aggregation of channel busy ratios of `geonet/cbr_aggregator.cpp`: the mean
and the two largest of the fresh ratios of neighbours, exact rationals here. They
are a function of the multiset of these (`aggregation_ignores_order`).
-/
import Mathlib.Algebra.Order.BigOperators.Group.Multiset
import Mathlib.Tactic.Positivity
import VanetzaIdf.Dcc.GradualStateMachine
import VanetzaIdf.Geonet.Wire.LocationTable
import VanetzaIdf.Lib.Largest

namespace VanetzaIdf

/-- `ChannelLoad()`. -/
instance : OrderBot UnitInterval where
  bot := .clamp 0
  bot_le x := x.nonneg

theorem UnitInterval.clamp_of_mem {v : ℚ} (h0 : 0 ≤ v) (h1 : v ≤ 1) : (UnitInterval.clamp v).value = v := by
  simp [UnitInterval.clamp, not_lt.mpr h0, not_lt.mpr h1]

namespace Geonet.Wire

open Dcc (ChannelLoad)
open Lib List

def DccMcoField.localCbr (f : DccMcoField) : ChannelLoad := .clamp (f.cbrL0Hop.toNat / 255)

def DccMcoField.neighbourCbr (f : DccMcoField) : ChannelLoad := .clamp (f.cbrL1Hop.toNat / 255)

/-! ### One collection of ratios -/

structure CbrAggregatorUnit where
  n : ℕ := 0
  average : ChannelLoad := ⊥
  maximum : ChannelLoad × ChannelLoad := (⊥, ⊥)

namespace CbrAggregatorUnit

/-- `operator+=`. -/
def add (u : CbrAggregatorUnit) (cbr : ChannelLoad) : CbrAggregatorUnit where
  average := .clamp ((u.average.value * u.n + cbr.value) / (u.n + 1))
  n := u.n + 1
  maximum := keepTwo u.maximum cbr

/-- `operator()`. -/
def result (u : CbrAggregatorUnit) (target : ChannelLoad) : ChannelLoad :=
  if target < u.average then u.maximum.1 else u.maximum.2

end CbrAggregatorUnit

/-! ### The aggregator -/

structure CbrAggregator where
  /-- The local measurements: the last one and the one before. -/
  localCbr : ChannelLoad × ChannelLoad := (⊥, ⊥)
  oneHopCbr : ChannelLoad := ⊥
  twoHopCbr : ChannelLoad := ⊥
  globalCbr : ChannelLoad := ⊥

/-- What the visitor takes of an entry: the ratios of one and two hops, if they are fresh. -/
def LocationTableEntry.freshLoads (lifetime : UInt32) (e : LocationTableEntry) : Option (ChannelLoad × ChannelLoad) :=
  (e.locTexG5.filter fun x => !isBefore x.localUpdate lifetime).map fun x => (x.dccMco.localCbr, x.dccMco.neighbourCbr)

def LocationTable.freshLoads (t : LocationTable) (now : TimePoint) (lifetime : UInt32) :
    List (ChannelLoad × ChannelLoad) :=
  (t.values now).filterMap (LocationTableEntry.freshLoads lifetime)

namespace CbrAggregator

/-- `aggregate`, with the fresh ratios that the visitor comes upon. -/
def aggregateLoads (a : CbrAggregator) (measured : ChannelLoad) (loads : List (ChannelLoad × ChannelLoad))
    (target : ChannelLoad) : CbrAggregator :=
  let oneHop := loads.foldl (fun u x => u.add x.1) ({} : CbrAggregatorUnit)
  let twoHop := loads.foldl (fun u x => u.add x.2) ({} : CbrAggregatorUnit)
  { localCbr := (measured, a.localCbr.1)
    oneHopCbr := oneHop.result target
    twoHopCbr := twoHop.result target
    globalCbr := max (max a.localCbr.1 (oneHop.result target)) (twoHop.result target) }

def aggregate (a : CbrAggregator) (measured : ChannelLoad) (t : LocationTable) (now : TimePoint) (lifetime : UInt32)
    (target : ChannelLoad) : CbrAggregator :=
  a.aggregateLoads measured (t.freshLoads now lifetime) target

end CbrAggregator

/-! ### By the multiset of ratios -/

/-- The arithmetic mean; nothing has the mean zero. -/
def mean (s : Multiset ChannelLoad) : ℚ := (s.map (·.value)).sum / s.card

/-- The largest ratio if the mean exceeds the target, else the second largest. -/
def aggregated (target : ChannelLoad) (s : Multiset ChannelLoad) : ChannelLoad :=
  if target.value < mean s then nthLargest 0 s else nthLargest 1 s

theorem mean_mem (s : Multiset ChannelLoad) : 0 ≤ mean s ∧ mean s ≤ 1 := by
  have hcard : (0 : ℚ) ≤ s.card := Nat.cast_nonneg _
  have hnonneg : 0 ≤ (s.map (·.value)).sum := by
    refine Multiset.sum_nonneg fun v hv => ?_
    obtain ⟨c, -, rfl⟩ := Multiset.mem_map.mp hv
    exact c.nonneg
  have hle : (s.map (·.value)).sum ≤ s.card := by
    have h := Multiset.sum_le_card_nsmul (s.map (·.value)) 1 fun v hv => by
      obtain ⟨c, -, rfl⟩ := Multiset.mem_map.mp hv
      exact c.le_one
    simpa using h
  exact ⟨div_nonneg hnonneg hcard, div_le_one_of_le₀ hle hcard⟩

theorem foldl_add (l : List ChannelLoad) :
    let u := l.foldl CbrAggregatorUnit.add {}
    u.n = l.length ∧ u.average.value = mean l ∧ u.maximum = l.foldl keepTwo (⊥, ⊥) := by
  induction l using List.reverseRecOn with
  | nil => exact ⟨rfl, by decide +kernel, rfl⟩
  | append_singleton l c ih =>
    obtain ⟨hn, haverage, hmaximum⟩ := ih
    simp only [foldl_append, foldl_cons, foldl_nil]
    have hmean : (mean l * l.length + c.value) / (l.length + 1) =
      mean ((l ++ [c] : List ChannelLoad) : Multiset ChannelLoad) := by
      unfold mean
      rcases Nat.eq_zero_or_pos l.length with hzero | hpos
      · obtain rfl := length_eq_zero_iff.mp hzero
        simp
      · have hne : (l.length : ℚ) ≠ 0 := by positivity
        simp [div_mul_cancel₀ _ hne]
    obtain ⟨h0, h1⟩ := mean_mem ((l ++ [c] : List ChannelLoad) : Multiset ChannelLoad)
    refine ⟨by simp [CbrAggregatorUnit.add, hn], ?_, by rw [← hmaximum]; rfl⟩
    show (UnitInterval.clamp _).value = _
    rw [hn, haverage, hmean, UnitInterval.clamp_of_mem h0 h1]

theorem result_eq (l : List ChannelLoad) (target : ChannelLoad) :
    (l.foldl CbrAggregatorUnit.add {}).result target = aggregated target l := by
  obtain ⟨-, haverage, hmaximum⟩ := foldl_add l
  unfold CbrAggregatorUnit.result aggregated
  rw [hmaximum, foldl_keepTwo]
  have hexceeds : target < (l.foldl CbrAggregatorUnit.add {}).average ↔ target.value < mean l := by
    rw [← haverage]
    exact Iff.rfl
  simp only [hexceeds]

/-- **Aggregation ignores the order** of the fresh ratios, and the global value is at least those
of one and two hops and the previous local measurement. -/
theorem aggregation_ignores_order (a : CbrAggregator) (measured target : ChannelLoad) :
    (∀ loads, (a.aggregateLoads measured loads target).oneHopCbr = aggregated target (loads.map Prod.fst) ∧
      (a.aggregateLoads measured loads target).twoHopCbr = aggregated target (loads.map Prod.snd) ∧
      (∀ c ∈ [a.localCbr.1, (a.aggregateLoads measured loads target).oneHopCbr,
        (a.aggregateLoads measured loads target).twoHopCbr], c ≤ (a.aggregateLoads measured loads target).globalCbr) ∧
      ∀ loads', loads'.Perm loads → a.aggregateLoads measured loads' target = a.aggregateLoads measured loads target) ∧
    ∀ (t : LocationTable) (now : TimePoint) (lifetime : UInt32),
      a.aggregate measured t now lifetime target = a.aggregateLoads measured (t.freshLoads now lifetime) target := by
  have hone : ∀ loads, (a.aggregateLoads measured loads target).oneHopCbr = aggregated target (loads.map Prod.fst) := by
    intro loads
    rw [← result_eq, foldl_map]
    rfl
  have htwo : ∀ loads, (a.aggregateLoads measured loads target).twoHopCbr = aggregated target (loads.map Prod.snd) := by
    intro loads
    rw [← result_eq, foldl_map]
    rfl
  refine ⟨fun loads => ⟨hone loads, htwo loads, ?_, ?_⟩, fun t now lifetime => rfl⟩
  · intro c hc
    have hglobal : (a.aggregateLoads measured loads target).globalCbr =
        max (max a.localCbr.1 (a.aggregateLoads measured loads target).oneHopCbr)
          (a.aggregateLoads measured loads target).twoHopCbr := rfl
    rw [hglobal]
    simp only [mem_cons, not_mem_nil, or_false] at hc
    rcases hc with rfl | rfl | rfl
    · exact le_max_of_le_left (le_max_left _ _)
    · exact le_max_of_le_left (le_max_right _ _)
    · exact le_max_right _ _
  · intro loads' hperm
    have hone' : (a.aggregateLoads measured loads' target).oneHopCbr =
      (a.aggregateLoads measured loads target).oneHopCbr := by
      rw [hone, hone, Multiset.coe_eq_coe.mpr (hperm.map Prod.fst)]
    have htwo' : (a.aggregateLoads measured loads' target).twoHopCbr =
      (a.aggregateLoads measured loads target).twoHopCbr := by
      rw [htwo, htwo, Multiset.coe_eq_coe.mpr (hperm.map Prod.snd)]
    -- the global value is made of the other two and of what was measured before
    simp only [CbrAggregator.aggregateLoads] at hone' htwo' ⊢
    rw [hone', htwo']

end Geonet.Wire
end VanetzaIdf
