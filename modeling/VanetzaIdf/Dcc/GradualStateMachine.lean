/-
# GradualStateMachine

The reactive transmit rate control of `dcc/gradual_state_machine.cpp`. A channel
load belongs to the last state that starts at it or below (`fitting`), and
`update` moves the current state one step towards it, so that with a constant
load it is reached (`converges`).
-/
import VanetzaIdf.Dcc.LimericBudget
import Mathlib.Data.Nat.Dist
import Mathlib.Logic.Function.Iterate

namespace VanetzaIdf.Dcc

open List

abbrev ChannelLoad := UnitInterval

structure GradualState where
  lowerLimit : ChannelLoad
  offTime : Duration
deriving DecidableEq, Repr

/-- `StateContainer`: a set ordered by the lower limits. -/
structure StateContainer where
  states : List GradualState
  sorted : states.Pairwise (·.lowerLimit < ·.lowerLimit)
deriving DecidableEq

/-- `GradualStateMachine`; the iterator `m_current` is the index of a state. -/
structure GradualStateMachine extends StateContainer where
  current : Fin states.length

namespace GradualStateMachine

/-- The constructor, with `repair` for a set without states. -/
def construct (c : StateContainer) : GradualStateMachine :=
  if h : c.states = [] then ⟨⟨[⟨.clamp 0, 0⟩], pairwise_singleton _ _⟩, ⟨0, Nat.zero_lt_one⟩⟩
  else ⟨c, ⟨0, length_pos_iff.mpr h⟩⟩

/-- `*m_current`. -/
def currentState (m : GradualStateMachine) : GradualState := m.states.get m.current

def transmissionInterval (m : GradualStateMachine) : Duration := m.currentState.offTime

def update (cbr : ChannelLoad) (m : GradualStateMachine) : GradualStateMachine :=
  if cbr < m.currentState.lowerLimit then
    if m.current.val ≠ 0 then { m with current := ⟨m.current - 1, (Nat.sub_le _ _).trans_lt m.current.isLt⟩ } else m
  else if h : m.current + 1 < m.states.length then
    if ¬ cbr < (m.states.get ⟨m.current + 1, h⟩).lowerLimit then { m with current := ⟨m.current + 1, h⟩ } else m
  else m

/-! ### The state of a channel load -/

/-- How many states start at the channel load or below. -/
def fitting (states : List GradualState) (c : ChannelLoad) : ℕ := (states.takeWhile (·.lowerLimit ≤ c)).length

theorem lowerLimit_le_iff {states : List GradualState} (hsorted : states.Pairwise (·.lowerLimit < ·.lowerLimit))
    (c : ChannelLoad) (i : Fin states.length) : (states.get i).lowerLimit ≤ c ↔ i.val < fitting states c := by
  induction states with
  | nil => exact i.elim0
  | cons s states ih =>
    obtain ⟨hs, hrest⟩ := pairwise_cons.mp hsorted
    by_cases hle : s.lowerLimit ≤ c
    · have hfitting : fitting (s :: states) c = fitting states c + 1 := by simp [fitting, hle]
      rw [hfitting]
      refine Fin.cases ?_ (fun j => ?_) i
      · exact iff_of_true hle (Nat.succ_pos _)
      · exact (ih hrest j).trans (Nat.succ_lt_succ_iff).symm
    · have hfitting : fitting (s :: states) c = 0 := by simp [fitting, hle]
      rw [hfitting]
      refine iff_of_false (fun h => hle ?_) (Nat.not_lt_zero _)
      refine Fin.cases (fun h => h) (fun j h => ?_) i h
      have hlt : s.lowerLimit < (states.get j).lowerLimit := hs _ (get_mem _ _)
      exact hlt.le.trans h

/-- The state for the channel load: the one with the greatest lower limit not
above it, and the first if there is none. -/
structure IsFor (states : List GradualState) (c : ChannelLoad) (i : Fin states.length) : Prop where
  greatest : (∃ s ∈ states, s.lowerLimit ≤ c) →
    (states.get i).lowerLimit ≤ c ∧ ∀ s ∈ states, s.lowerLimit ≤ c → s.lowerLimit ≤ (states.get i).lowerLimit
  first : (∀ s ∈ states, c < s.lowerLimit) → i.val = 0

theorem fitting_le (states : List GradualState) (c : ChannelLoad) : fitting states c ≤ states.length :=
  ( takeWhile_prefix _).length_le

theorem isFor_fitting {states : List GradualState} (hsorted : states.Pairwise (·.lowerLimit < ·.lowerLimit))
    (c : ChannelLoad) {i : Fin states.length} (hi : i.val = fitting states c - 1) : IsFor states c i where
  greatest := by
    rintro ⟨s, hs, hle⟩
    obtain ⟨j, rfl⟩ := get_of_mem hs
    have hj := (lowerLimit_le_iff hsorted c j).mp hle
    have hin : i.val < fitting states c := by omega
    refine ⟨(lowerLimit_le_iff hsorted c i).mpr hin, fun t ht htc => ?_⟩
    obtain ⟨k, rfl⟩ := get_of_mem ht
    have hk := (lowerLimit_le_iff hsorted c k).mp htc
    rcases (show k.val ≤ i.val by omega).eq_or_lt with heq | hlt
    · rw [Fin.ext heq]
    · exact (pairwise_iff_getElem.mp hsorted k i k.isLt i.isLt hlt).le
  first := by
    intro hnone
    have hzero : fitting states c = 0 := by
      by_contra hne
      have hpos : 0 < states.length := by
        have := fitting_le states c
        omega
      have hle := (lowerLimit_le_iff hsorted c ⟨0, hpos⟩).mpr (by show 0 < _; omega)
      exact absurd hle (not_le.mpr (hnone _ (get_mem _ _)))
    omega

/-! ### Convergence -/

def toward (i j : ℕ) : ℕ := if i < j then j - 1 else if j < i then j + 1 else j

theorem dist_toward (i j : ℕ) : Nat.dist (toward i j) i = Nat.dist j i - 1 := by
  unfold toward Nat.dist
  split_ifs <;> omega

variable (c : ChannelLoad) (m : GradualStateMachine) (k : ℕ)

@[simp] theorem states_update : (m.update c).states = m.states := by
  unfold update
  split_ifs <;> rfl

theorem current_update : (m.update c).current.val = toward (fitting m.states c - 1) m.current := by
  have hlt := m.current.isLt
  have hmax := fitting_le m.states c
  have hcurrent : m.currentState.lowerLimit ≤ c ↔ m.current.val < fitting m.states c :=
    lowerLimit_le_iff m.sorted c m.current
  unfold update toward
  by_cases hbelow : c < m.currentState.lowerLimit
  · have hnot := mt hcurrent.mpr (not_le.mpr hbelow)
    rw [if_pos hbelow]
    by_cases hzero : m.current.val = 0
    · rw [if_neg (not_not.mpr hzero), if_neg (by omega), if_neg (by omega)]
    · rw [if_pos hzero, if_pos (by omega)]
  · have hin := hcurrent.mp (not_lt.mp hbelow)
    rw [if_neg hbelow, if_neg (by omega)]
    by_cases hup : m.current + 1 < m.states.length
    · have hnext := lowerLimit_le_iff m.sorted c ⟨m.current + 1, hup⟩
      rw [dif_pos hup]
      by_cases hreached : c < (m.states.get ⟨m.current + 1, hup⟩).lowerLimit
      · have hstop := mt hnext.mpr (not_le.mpr hreached)
        rw [if_neg (not_not.mpr hreached), if_neg (by simp only at hstop; omega)]
      · have hgo := hnext.mp (not_lt.mp hreached)
        rw [if_pos hreached, if_pos (by simp only at hgo; omega)]
    · rw [dif_neg hup, if_neg (by omega)]

theorem states_iterate : ((update c)^[k] m).states = m.states := by
  induction k with
  | zero => rfl
  | succ k ih => rw [Function.iterate_succ_apply', states_update, ih]

theorem current_iterate_succ :
    ((update c)^[k + 1] m).current.val = toward (fitting m.states c - 1) ((update c)^[k] m).current := by
  rw [Function.iterate_succ_apply', current_update]
  exact congrArg (fun states => toward (fitting states c - 1) _) (states_iterate c m k)

theorem dist_iterate :
    Nat.dist ((update c)^[k] m).current (fitting m.states c - 1) = Nat.dist m.current (fitting m.states c - 1) - k := by
  induction k with
  | zero => rfl
  | succ k ih =>
    rw [current_iterate_succ, dist_toward, ih]
    omega

/-- **The machine converges.** With a constant load it takes fewer updates than there are states
to the one for the load, and stays there. -/
theorem converges (m : GradualStateMachine) (c : ChannelLoad) :
    ∃ i : Fin m.states.length, IsFor m.states c i ∧ Nat.dist m.current i ≤ m.states.length - 1 ∧
      ∀ k, ((update c)^[k] m).states = m.states ∧
        (Nat.dist m.current i ≤ k → ((update c)^[k] m).current.val = i) ∧
        (k < Nat.dist m.current i →
          Nat.dist ((update c)^[k + 1] m).current ((update c)^[k] m).current = 1 ∧
          Nat.dist ((update c)^[k + 1] m).current i + 1 = Nat.dist ((update c)^[k] m).current i) := by
  have hlt := m.current.isLt
  have hmax := fitting_le m.states c
  let i : Fin m.states.length := ⟨fitting m.states c - 1, by omega⟩
  have hdist : ∀ k, Nat.dist ((update c)^[k] m).current i = Nat.dist m.current i - k := dist_iterate c m
  refine ⟨i, isFor_fitting m.sorted c rfl, ?_, fun k => ⟨states_iterate c m k, fun hk => ?_, fun hk => ?_⟩⟩
  · have hi := i.isLt
    unfold Nat.dist
    omega
  · exact Nat.eq_of_dist_eq_zero (by rw [hdist]; omega)
  · have hnow := hdist k
    have hnext := hdist (k + 1)
    have hmove : ((update c)^[k + 1] m).current.val = toward i ((update c)^[k] m).current := current_iterate_succ c m k
    refine ⟨?_, by omega⟩
    rw [hmove]
    unfold toward Nat.dist at *
    split_ifs <;> omega

def etsiStates1ms : StateContainer where
  states := [⟨.clamp 0, 100000⟩, ⟨.clamp (3 / 10), 200000⟩, ⟨.clamp (2 / 5), 400000⟩, ⟨.clamp (1 / 2), 500000⟩,
    ⟨.clamp (3 / 5), 1000000⟩]
  sorted := by decide +kernel

-- from the first state to the third, which starts at 0.4
example : ((update (.clamp (9 / 20)))^[2] (construct etsiStates1ms)).transmissionInterval = 400000 := by decide +kernel

end GradualStateMachine
end VanetzaIdf.Dcc
