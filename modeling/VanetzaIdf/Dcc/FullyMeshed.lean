/-
# FullyMeshedStateMachine

The transmit rate control of `dcc/fully_meshed_state_machine.cpp`. It goes up by
the least of the last 10 channel loads and down by the greatest of the last 50.

More load never means more traffic (`interval_mono`): two machines stay in step
(`Below`), as the loads they remember are in order and so are their states.
Loads are exact rationals.
-/
import VanetzaIdf.Dcc.GradualStateMachine
import VanetzaIdf.Lib.CircularBuffer
import Mathlib.Tactic.IntervalCases

namespace VanetzaIdf.Dcc

open Lib List

/-- `N_samples_up`: one second of samples, each 100 ms. -/
def nSamplesUp : ℕ := 10

def nSamplesDown : ℕ := 50

def ndlMinChannelLoad : ℚ := 19 / 100

def ndlMaxChannelLoad : ℚ := 59 / 100

/-- `Active::update`: the channel loads at which the substates end. -/
def activeChannelLoads : List ℚ := [27 / 100, 35 / 100, 43 / 100, 51 / 100, 59 / 100]

/-- `sc_substates`. -/
def substates : ℕ := 5

/-- `std::upper_bound`, as the distance from the beginning. -/
def upperBound (loads : List ℚ) (x : ℚ) : ℕ := (loads.takeWhile (· ≤ x)).length

/-- `Active::update`. -/
def activeSubstate (minCl maxCl : ℚ) : ℕ :=
  min (substates - 1) (max (upperBound activeChannelLoads minCl) (upperBound activeChannelLoads maxCl))

/-- `tx_intervals`, in milliseconds. -/
def txIntervals : List Duration := [100, 180, 260, 340, 420]

/-- `Active::transmission_interval`. -/
def txInterval (substate : ℕ) : Duration := txIntervals.getD (min (txIntervals.length - 1) substate) 0 * 1000

/-- Where `m_state` points to. -/
inductive FullyMeshedState
  | relaxed | active | restrictive
deriving DecidableEq, Repr

def FullyMeshedState.rank : FullyMeshedState → ℕ
  | .relaxed => 0
  | .active => 1
  | .restrictive => 2

structure FullyMeshedStateMachine where
  state : FullyMeshedState := .relaxed
  /-- `m_substate` of `m_active`. -/
  substate : ℕ := 0
  /-- `m_channel_loads`; the source adds at the front. -/
  channelLoads : CircularBuffer ChannelLoad := .empty (max nSamplesUp nSamplesDown)

namespace FullyMeshedStateMachine

variable (m : FullyMeshedStateMachine)

def samples : List ChannelLoad := m.channelLoads.contents.reverse

/-- One round of the loop of `min_channel_load`; `none` is infinity. -/
def lesser (minCl : Option ℚ) (sample : ChannelLoad) : Option ℚ :=
  if ∀ x ∈ minCl, sample.value < x then some sample.value else minCl

def minChannelLoad : ℚ := ((m.samples.take nSamplesUp).foldl lesser none).getD 0

/-- One round of the loop of `max_channel_load`. -/
def greater (maxCl : ℚ) (sample : ChannelLoad) : ℚ := if maxCl < sample.value then sample.value else maxCl

def maxChannelLoad : ℚ := (m.samples.take nSamplesDown).foldl greater 0

/-- `m_state = &m_active` with `m_active.update`. -/
def activate : FullyMeshedStateMachine :=
  { m with state := .active, substate := activeSubstate m.minChannelLoad m.maxChannelLoad }

/-- The transition of `update`, after the new load has been added. -/
def transition : FullyMeshedStateMachine :=
  match m.state with
  | .relaxed => if ndlMinChannelLoad ≤ m.minChannelLoad then m.activate else m
  | .restrictive => if m.maxChannelLoad < ndlMaxChannelLoad then m.activate else m
  | .active =>
    if m.maxChannelLoad < ndlMinChannelLoad then { m with state := .relaxed }
    else if ndlMaxChannelLoad ≤ m.minChannelLoad then { m with state := .restrictive }
    else m.activate

def update (cl : ChannelLoad) : FullyMeshedStateMachine :=
  transition { m with channelLoads := m.channelLoads.pushBack cl }

def transmissionInterval : Duration :=
  match m.state with
  | .relaxed => 60 * 1000
  | .active => txInterval m.substate
  | .restrictive => 460 * 1000

/-! ### The windows -/

section Windows

variable {l l' : List ChannelLoad}

theorem lesser_of_lt {x : ℚ} {sample : ChannelLoad} (h : sample.value < x) :
    lesser (some x) sample = some sample.value := by
  simp [lesser, h]

theorem lesser_none (sample : ChannelLoad) : lesser none sample = some sample.value := by simp [lesser]

theorem lesser_some (x : ℚ) (sample : ChannelLoad) : lesser (some x) sample = some (min sample.value x) := by
  by_cases h : sample.value < x
  · rw [lesser_of_lt h, min_eq_left h.le]
  · simp [lesser, h, min_eq_right (not_lt.mp h)]

theorem greater_eq (x : ℚ) (sample : ChannelLoad) : greater x sample = max x sample.value := by
  unfold greater
  split_ifs with h
  · rw [max_eq_right h.le]
  · rw [max_eq_left (not_lt.mp h)]

theorem foldl_lesser_mono (h : List.Forall₂ (· ≤ ·) l l') :
    Option.Rel (· ≤ ·) (l.foldl lesser none) (l'.foldl lesser none) := by
  refine rel_foldl (P := Option.Rel (· ≤ ·)) (R := (· ≤ ·)) ?_ Option.Rel.none h
  rintro _ _ (⟨hxy⟩ | _) c d hcd
  · rw [lesser_some, lesser_some]
    exact .some (min_le_min hcd hxy)
  · rw [lesser_none, lesser_none]
    exact .some hcd

theorem foldl_greater_mono (h : List.Forall₂ (· ≤ ·) l l') : l.foldl greater 0 ≤ l'.foldl greater 0 := by
  refine rel_foldl (R := (· ≤ ·)) (P := (· ≤ ·)) ?_ le_rfl h
  intro x y hxy c d hcd
  rw [greater_eq, greater_eq]
  exact max_le_max hxy hcd

theorem foldl_lesser_le (l : List ChannelLoad) (x : ℚ) : ∃ y ≤ x, l.foldl lesser (some x) = some y := by
  induction l generalizing x with
  | nil => exact ⟨x, le_rfl, rfl⟩
  | cons c l ih =>
    obtain ⟨y, hy, heq⟩ := ih (min c.value x)
    exact ⟨y, hy.trans (min_le_right _ _), by rw [foldl_cons, lesser_some, heq]⟩

theorem le_foldl_greater (l : List ChannelLoad) (x : ℚ) : x ≤ l.foldl greater x := by
  induction l generalizing x with
  | nil => exact le_rfl
  | cons c l ih =>
    rw [foldl_cons, greater_eq]
    exact (le_max_left _ _).trans (ih _)

end Windows

theorem minChannelLoad_le_maxChannelLoad (m : FullyMeshedStateMachine) (h : m.samples ≠ []) :
    m.minChannelLoad ≤ m.maxChannelLoad := by
  obtain ⟨newest, rest, hsamples⟩ := exists_cons_of_ne_nil h
  have hmin : m.minChannelLoad ≤ newest.value := by
    obtain ⟨y, hy, heq⟩ := foldl_lesser_le (rest.take 9) newest.value
    unfold minChannelLoad
    rw [hsamples]
    show (((newest :: rest.take 9).foldl lesser none).getD 0 : ℚ) ≤ _
    rw [foldl_cons, lesser_none, heq]
    exact hy
  have hmax : newest.value ≤ m.maxChannelLoad := by
    unfold maxChannelLoad
    rw [hsamples]
    show _ ≤ (newest :: rest.take 49).foldl greater 0
    rw [foldl_cons, greater_eq]
    exact (le_max_right _ _).trans (le_foldl_greater _ _)
  exact hmin.trans hmax

/-! ### The next state -/

/-- The state after `state`, by the least and the greatest load of the windows. -/
def next (state : FullyMeshedState) (minCl maxCl : ℚ) : FullyMeshedState :=
  match state with
  | .relaxed => if ndlMinChannelLoad ≤ minCl then .active else .relaxed
  | .restrictive => if maxCl < ndlMaxChannelLoad then .active else .restrictive
  | .active =>
    if maxCl < ndlMinChannelLoad then .relaxed else if ndlMaxChannelLoad ≤ minCl then .restrictive else .active

theorem state_transition (m : FullyMeshedStateMachine) :
    m.transition.state = next m.state m.minChannelLoad m.maxChannelLoad := by
  unfold transition next activate
  cases hstate : m.state with
  | relaxed | restrictive => split_ifs <;> first | rfl | exact hstate
  | active => split_ifs <;> rfl

theorem substate_transition (m : FullyMeshedStateMachine) (h : m.transition.state = .active) :
    m.transition.substate = activeSubstate m.minChannelLoad m.maxChannelLoad := by
  unfold transition at h ⊢
  cases hstate : m.state with
  | relaxed | restrictive =>
    simp only [hstate] at h ⊢
    split_ifs at h ⊢
    · rfl
    · rw [hstate] at h
      cases h
  | active =>
    simp only [hstate] at h ⊢
    split_ifs at h ⊢
    rfl

theorem channelLoads_transition (m : FullyMeshedStateMachine) : m.transition.channelLoads = m.channelLoads := by
  unfold transition activate
  cases m.state <;> dsimp only <;> split_ifs <;> rfl

/-- **A lower state stays lower.** The loads of one machine may push it up or
keep it from falling only if those of the other do. -/
theorem rank_next_mono {s t : FullyMeshedState} {a b c d : ℚ} (hst : s.rank ≤ t.rank) (hac : a ≤ c) (hbd : b ≤ d)
    (hcd : c ≤ d) : (next s a b).rank ≤ (next t c d).rank := by
  have hthresholds : ndlMinChannelLoad < ndlMaxChannelLoad := by norm_num [ndlMinChannelLoad, ndlMaxChannelLoad]
  cases s with
  | relaxed =>
    by_cases hup : ndlMinChannelLoad ≤ a
    · have hhigh : ¬ d < ndlMinChannelLoad := not_lt.mpr (hup.trans (hac.trans hcd))
      cases t with
      | relaxed => simp [next, hup, hup.trans hac]
      | active =>
        simp only [next, if_pos hup, if_neg hhigh]
        split_ifs <;> decide
      | restrictive =>
        simp only [next, if_pos hup]
        split_ifs <;> decide
    · simp [next, hup, FullyMeshedState.rank]
  | active =>
    by_cases hdown : b < ndlMinChannelLoad
    · simp [next, hdown, FullyMeshedState.rank]
    · have hstay : ¬ d < ndlMinChannelLoad := not_lt.mpr ((not_lt.mp hdown).trans hbd)
      by_cases hup : ndlMaxChannelLoad ≤ a
      · have hup' : ndlMaxChannelLoad ≤ c := hup.trans hac
        cases t with
        | relaxed => exact absurd hst (by decide)
        | active => simp [next, hdown, hup, hstay, hup']
        | restrictive => simp [next, hdown, hup, not_lt.mpr (hup'.trans hcd)]
      · cases t with
        | relaxed => exact absurd hst (by decide)
        | active =>
          simp only [next, if_neg hdown, if_neg hup, if_neg hstay]
          split_ifs <;> decide
        | restrictive =>
          simp only [next, if_neg hdown, if_neg hup]
          split_ifs <;> decide
  | restrictive =>
    cases t with
    | relaxed | active => exact absurd hst (by decide)
    | restrictive =>
      by_cases hdown : b < ndlMaxChannelLoad
      · simp only [next, if_pos hdown]
        split_ifs <;> decide
      · simp [next, hdown, not_lt.mpr ((not_lt.mp hdown).trans hbd)]

theorem upperBound_mono (loads : List ℚ) {x y : ℚ} (h : x ≤ y) : upperBound loads x ≤ upperBound loads y := by
  unfold upperBound
  induction loads with
  | nil => exact le_rfl
  | cons a loads ih =>
    by_cases hx : a ≤ x
    · simpa [hx, hx.trans h] using ih
    · simp [hx]

theorem activeSubstate_mono {a b c d : ℚ} (hac : a ≤ c) (hbd : b ≤ d) : activeSubstate a b ≤ activeSubstate c d :=
  min_le_min le_rfl (max_le_max (upperBound_mono _ hac) (upperBound_mono _ hbd))

theorem txInterval_bounds (i : ℕ) : 100 * 1000 ≤ txInterval i ∧ txInterval i ≤ 420 * 1000 := by
  have hle : min (txIntervals.length - 1) i ≤ 4 := min_le_left _ _
  unfold txInterval
  generalize min (txIntervals.length - 1) i = j at hle ⊢
  interval_cases j <;> decide

theorem txInterval_mono {i j : ℕ} (h : i ≤ j) : txInterval i ≤ txInterval j := by
  have hj : min (txIntervals.length - 1) j ≤ 4 := min_le_left _ _
  have hij : min (txIntervals.length - 1) i ≤ min (txIntervals.length - 1) j := min_le_min le_rfl h
  unfold txInterval
  generalize min (txIntervals.length - 1) i = a at hij ⊢
  generalize min (txIntervals.length - 1) j = b at hij hj ⊢
  interval_cases b <;> interval_cases a <;> decide

/-! ### Two machines in step -/

/-- The first machine has seen smaller loads, and is in a lower state. -/
structure Below (m n : FullyMeshedStateMachine) : Prop where
  capacity : m.channelLoads.capacity = n.channelLoads.capacity
  room : 0 < m.channelLoads.capacity
  loads : List.Forall₂ (· ≤ ·) m.channelLoads.contents n.channelLoads.contents
  state : m.state.rank ≤ n.state.rank
  substate : m.state = .active → n.state = .active → m.substate ≤ n.substate

namespace Below

variable {m n : FullyMeshedStateMachine}

theorem samples (h : Below m n) : List.Forall₂ (· ≤ ·) m.samples n.samples := rel_reverse h.loads

theorem minChannelLoad_le (h : Below m n) : m.minChannelLoad ≤ n.minChannelLoad := by
  have hrel := foldl_lesser_mono (forall₂_take nSamplesUp h.samples)
  unfold FullyMeshedStateMachine.minChannelLoad
  generalize (m.samples.take nSamplesUp).foldl lesser none = x at hrel ⊢
  generalize (n.samples.take nSamplesUp).foldl lesser none = y at hrel ⊢
  cases hrel with
  | some hle => exact hle
  | none => exact le_rfl

theorem maxChannelLoad_le (h : Below m n) : m.maxChannelLoad ≤ n.maxChannelLoad :=
  foldl_greater_mono (forall₂_take nSamplesDown h.samples)

theorem transition (h : Below m n) (hsome : n.samples ≠ []) : Below m.transition n.transition where
  capacity := by rw [channelLoads_transition, channelLoads_transition, h.capacity]
  room := by rw [channelLoads_transition]; exact h.room
  loads := by rw [channelLoads_transition, channelLoads_transition]; exact h.loads
  state := by
    rw [state_transition, state_transition]
    exact rank_next_mono h.state h.minChannelLoad_le h.maxChannelLoad_le (n.minChannelLoad_le_maxChannelLoad hsome)
  substate hm hn := by
    rw [substate_transition m hm, substate_transition n hn]
    exact activeSubstate_mono h.minChannelLoad_le h.maxChannelLoad_le

theorem pushBack (h : Below m n) {c d : ChannelLoad} (hcd : c ≤ d) :
    Below { m with channelLoads := m.channelLoads.pushBack c }
      { n with channelLoads := n.channelLoads.pushBack d } where
  capacity := by simpa using h.capacity
  room := by simpa using h.room
  loads := by
    dsimp only
    rw [CircularBuffer.pushBack_contents _ h.room, CircularBuffer.pushBack_contents _ (h.capacity ▸ h.room),
      ← h.capacity]
    exact rel_append (forall₂_makeRoom h.loads) (.cons hcd .nil)
  state := h.state
  substate := h.substate

theorem update (h : Below m n) {c d : ChannelLoad} (hcd : c ≤ d) : Below (m.update c) (n.update d) := by
  refine (h.pushBack hcd).transition ?_
  unfold FullyMeshedStateMachine.samples
  rw [CircularBuffer.pushBack_contents _ (h.capacity ▸ h.room)]
  simp

theorem interval_le (h : Below m n) : m.transmissionInterval ≤ n.transmissionInterval := by
  have hstate := h.state
  have hsubstate := h.substate
  unfold transmissionInterval
  cases hm : m.state with
  | relaxed =>
    cases n.state with
    | relaxed => exact le_rfl
    | active => exact (show (60 * 1000 : ℤ) ≤ 100 * 1000 by decide).trans (txInterval_bounds n.substate).1
    | restrictive => exact (show (60 * 1000 : ℤ) ≤ 460 * 1000 by decide)
  | active =>
    cases hn : n.state with
    | relaxed =>
      rw [hm, hn] at hstate
      exact absurd hstate (by decide)
    | active => exact txInterval_mono (hsubstate hm hn)
    | restrictive => exact (txInterval_bounds m.substate).2.trans (show (420 * 1000 : ℤ) ≤ 460 * 1000 by decide)
  | restrictive =>
    cases hn : n.state with
    | relaxed | active =>
      rw [hm, hn] at hstate
      exact absurd hstate (by decide)
    | restrictive => exact le_rfl

end Below

def run (loads : List ChannelLoad) : FullyMeshedStateMachine := loads.foldl update {}

/-- **More load never means more traffic.** -/
theorem interval_mono {cs ds : List ChannelLoad} (h : List.Forall₂ (· ≤ ·) cs ds) (k : ℕ) :
    (run (cs.take k)).transmissionInterval ≤ (run (ds.take k)).transmissionInterval := by
  have hstart : Below {} {} := ⟨rfl, by decide, .nil, le_rfl, fun _ _ => le_rfl⟩
  have hrun : Below (run (cs.take k)) (run (ds.take k)) :=
    rel_foldl (P := Below) (R := (· ≤ ·)) (fun _ _ hb _ _ hcd => hb.update hcd) hstart (forall₂_take k h)
  exact hrun.interval_le

/-- Both windows are full of 0.6; then the one ramps down to 0.1 and the other to
0.4. -/
theorem interval_mono_ramp :
    let cs : List ChannelLoad := List.replicate 50 (.clamp (3 / 5)) ++ List.replicate 55 (.clamp (1 / 10))
    let ds : List ChannelLoad := List.replicate 50 (.clamp (3 / 5)) ++ List.replicate 55 (.clamp (2 / 5))
    (run (cs.take 50)).transmissionInterval = 460000 ∧ (run (cs.take 105)).transmissionInterval = 60000 ∧
      (run (ds.take 105)).transmissionInterval = 260000 ∧
      (run (cs.take 105)).transmissionInterval ≤ (run (ds.take 105)).transmissionInterval := by
  intro cs ds
  have hle : List.Forall₂ (· ≤ ·) cs ds := by decide +kernel
  exact ⟨by decide +kernel, by decide +kernel, by decide +kernel, interval_mono hle 105⟩

end FullyMeshedStateMachine
end VanetzaIdf.Dcc
