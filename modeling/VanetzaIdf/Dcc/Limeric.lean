/-
# Limeric

The adaptive approach of `dcc/limeric.cpp`: the duty cycle is evaluated every
second CBR interval, and the next evaluation is scheduled for the multiple of
this period that is nearest to one period from now. No multiple is evaluated
twice (`update_grid`), and stations that measure the same loads come to the same
duty cycle (`duty_cycles_converge`). Doubles are rounded after each operation.
-/
import VanetzaIdf.Dcc.AccessStack
import Mathlib.Algebra.Order.Group.MinMax
import Mathlib.Data.List.Chain

namespace VanetzaIdf

open Lib List

namespace UnitInterval

variable (R : Rounding)

/-- The result of one operation; where the source does not clamp it is in range anyway. -/
def rounded (x : ℚ) : UnitInterval := clamp (R.round x)

def complement (u : UnitInterval) : UnitInterval := rounded R (1 - u.value)

/-- `mean` of two. -/
def mean (u v : UnitInterval) : UnitInterval := rounded R (1 / 2 * R.round (u.value + v.value))

end UnitInterval

namespace Dcc.Limeric

/-- `Limeric::Parameters`. -/
structure Parameters where
  alpha : UnitInterval := .clamp (16 / 1000)
  beta : UnitInterval := .clamp (12 / 10000)
  deltaMax : UnitInterval := .clamp (3 / 100)
  deltaMin : UnitInterval := .clamp (6 / 10000)
  gPlusMax : ℚ := 5 / 10000
  gMinusMax : ℚ := -25 / 100000
  cbrTarget : UnitInterval := .clamp (68 / 100)
  cbrInterval : Duration := 100000
deriving DecidableEq

structure DualAlphaParameters where
  alternateAlpha : UnitInterval := .clamp (1 / 10)
  threshold : UnitInterval := .clamp (1 / 100000)
deriving DecidableEq

/-- `Limeric` with its parameters and the runtime. -/
structure Timed extends Limeric where
  runtime : SharedRuntime
  params : Parameters
  dualAlpha : Option DualAlphaParameters := none

namespace Timed

variable (R : Rounding) (l : Timed)

def averageCbr : UnitInterval :=
  if l.cbr.full then
    .rounded R ((UnitInterval.rounded R (1 / 2 * (mean R l.cbr.contents).value)).value +
      (UnitInterval.rounded R (1 / 2 * l.channelLoad.value)).value)
  else l.channelLoad

/-- `delta` for one value of alpha, within its limits. -/
def delta (alpha : UnitInterval) : UnitInterval :=
  let cbrDelta := R.round (l.params.cbrTarget.value - l.channelLoad.value)
  let step := R.round (l.params.beta.value * cbrDelta)
  let offset := if 0 < cbrDelta then min step l.params.gPlusMax else max step l.params.gMinusMax
  min (max (.rounded R ((UnitInterval.rounded R ((alpha.complement R).value * l.dutyCycle.value)).value + offset))
    l.params.deltaMin) l.params.deltaMax

def calculateDutyCycle : UnitInterval :=
  let delta := l.delta R l.params.alpha
  match l.dualAlpha with
  | some dual =>
    if dual.threshold < .rounded R (l.dutyCycle.value - delta.value) then l.delta R dual.alternateAlpha else delta
  | none => delta

/-- The time `schedule` chooses. -/
def nextUpdate (now cbrInterval : ℤ) : ℤ :=
  let schedulingInterval := 2 * cbrInterval
  let tp := now + schedulingInterval
  let schedulingBias := tp.tmod schedulingInterval
  if cbrInterval < schedulingBias then tp + (schedulingInterval - schedulingBias)
  else if 0 < schedulingBias then tp - schedulingBias
  else tp

/-- `schedule`, without a scope. -/
def schedule : Timed :=
  { l with runtime := l.runtime.schedule (nextUpdate l.runtime.now l.params.cbrInterval) .self none }

def calculate : Timed :=
  let averaged := { l with channelLoad := l.averageCbr R }
  { averaged with dutyCycle := averaged.calculateDutyCycle R }.schedule

def construct (runtime : SharedRuntime) (params : Parameters) : Timed :=
  schedule { runtime, params, dutyCycle := .mean R params.deltaMax params.deltaMin }

/-! ### Runs -/

/-- An evaluation: the time it was scheduled for and the time it was served at. -/
structure Evaluation where
  tp : TimePoint
  now : TimePoint
deriving DecidableEq, Repr

inductive Event
  | updateCbr (cbr : UnitInterval)
  | configureDualAlpha (params : Option DualAlphaParameters)
  | outside (what : Outside)
  | serve

/-- One event; to serve a callback of this component evaluates the duty cycle. -/
def step : Event → Option Evaluation × Timed
  | .updateCbr cbr => (none, { l with toLimeric := l.updateCbr R cbr })
  | .configureDualAlpha params => (none, { l with dualAlpha := params })
  | .outside what => (none, { l with runtime := l.runtime.outside what })
  | .serve =>
    match l.runtime.pop with
    | none => (none, l)
    | some (c, runtime) =>
      if c.callback = .self then (some ⟨c.deadline, runtime.now⟩, calculate R { l with runtime })
      else (none, { l with runtime })

def evaluations (es : List Event) : List Evaluation := history (step R) (fun _ e => e) l es

/-! ### The grid -/

variable {c now : ℤ}

theorem nextUpdate_spec (hc : 0 < c) (h0 : 0 ≤ now) :
    2 * c ∣ nextUpdate now c ∧ now + c ≤ nextUpdate now c ∧ nextUpdate now c < now + 3 * c := by
  have hbias : (now + 2 * c).tmod (2 * c) = (now + 2 * c) % (2 * c) := Int.tmod_eq_emod_of_nonneg (by omega)
  have hlow : 0 ≤ (now + 2 * c) % (2 * c) := Int.emod_nonneg _ (by omega)
  have hhigh : (now + 2 * c) % (2 * c) < 2 * c := Int.emod_lt_of_pos _ (by omega)
  have hdvd : 2 * c ∣ now + 2 * c - (now + 2 * c) % (2 * c) := Int.dvd_self_sub_emod
  unfold nextUpdate
  dsimp only
  rw [hbias]
  generalize (now + 2 * c) % (2 * c) = bias at *
  split_ifs with hlate hearly
  · refine ⟨?_, by omega, by omega⟩
    have hnext := hdvd.add (dvd_refl (2 * c))
    rwa [sub_add_eq_add_sub, add_sub_assoc] at hnext
  · exact ⟨hdvd, by omega, by omega⟩
  · obtain rfl : bias = 0 := by omega
    rw [sub_zero] at hdvd
    exact ⟨hdvd, by omega, by omega⟩

theorem nextUpdate_of_dvd (hc : 0 < c) (h : 2 * c ∣ now) : nextUpdate now c = now + 2 * c := by
  have hbias : (now + 2 * c).tmod (2 * c) = 0 := Int.tmod_eq_zero_of_dvd (h.add (dvd_refl _))
  unfold nextUpdate
  dsimp only
  rw [hbias, if_neg (by omega), if_neg (lt_irrefl _)]

def own (rt : SharedRuntime) : List (ScheduledCallback Party Party) := rt.queue.filter (·.callback = .self)

theorem own_schedule {rt : SharedRuntime} (h : own rt = []) (tp : TimePoint) :
    own (rt.schedule tp .self none) = [⟨tp, .self, none⟩] := by
  refine perm_singleton.mp (((ManualRuntime.enqueue_perm _ rt.queue).filter _).trans ?_)
  rw [filter_cons_of_pos (by simp)]
  exact h ▸ .refl _

theorem own_outside {rt : SharedRuntime} {tp : TimePoint} (h : own rt = [⟨tp, .self, none⟩]) (what : Outside) :
    own (rt.outside what) = [⟨tp, .self, none⟩] := by
  cases what with
  | advance elapsed => exact h
  | schedule deadline number scope =>
    refine perm_singleton.mp (((ManualRuntime.enqueue_perm _ rt.queue).filter _).trans ?_)
    rw [filter_cons_of_neg (by simp)]
    exact h ▸ .refl _
  | cancel number =>
    show (rt.queue.filter _).filter _ = _
    rw [filter_comm]
    exact (congrArg _ h).trans (filter_cons_of_pos (by simp))

/-- An evaluation is for a later time than the one before, and for the next
one of the grid if that was served on time. -/
def Follows (c : Duration) (e e' : Evaluation) : Prop := e.tp < e'.tp ∧ (e.now = e.tp → e'.tp = e.tp + 2 * c)

/-- One callback waits, for a time on the grid that follows the evaluations. -/
structure OnGrid (c : Duration) (l : Timed) (done : List Evaluation) : Prop where
  interval : l.params.cbrInterval = c
  nonneg : 0 ≤ l.runtime.now
  pending : ∃ tp : TimePoint, own l.runtime = [⟨tp, .self, none⟩] ∧ 2 * c ∣ tp ∧
    ∀ now, (done ++ [Evaluation.mk tp now]).IsChain (Follows c)
  dvd : ∀ e ∈ done, 2 * c ∣ e.tp

variable {R l} {done : List Evaluation}

theorem OnGrid.quiet {l' : Timed} (h : OnGrid c l done) (hparams : l'.params = l.params)
    (hnow : l.runtime.now ≤ l'.runtime.now)
    (hown : ∀ tp, own l.runtime = [⟨tp, .self, none⟩] → own l'.runtime = [⟨tp, .self, none⟩]) :
    OnGrid c l' (done ++ []) := by
  obtain ⟨tp, htp, hpending⟩ := h.pending
  rw [append_nil]
  exact ⟨hparams ▸ h.interval, h.nonneg.trans hnow, ⟨tp, hown tp htp, hpending⟩, h.dvd⟩

theorem OnGrid.served {tp : TimePoint} (hc : 0 < c) (hinterval : l.params.cbrInterval = c) (h0 : 0 ≤ l.runtime.now)
    (hown : own l.runtime = []) (hdue : tp ≤ l.runtime.now) (htp : 2 * c ∣ tp)
    (hchain : (done ++ [Evaluation.mk tp l.runtime.now]).IsChain (Follows c)) (hdvd : ∀ e ∈ done, 2 * c ∣ e.tp) :
    OnGrid c (l.calculate R) (done ++ [⟨tp, l.runtime.now⟩]) := by
  obtain ⟨hnext, hlow, -⟩ := nextUpdate_spec hc h0
  refine ⟨hinterval, h0, ⟨nextUpdate l.runtime.now l.params.cbrInterval, own_schedule hown _, hinterval ▸ hnext,
    fun now => ?_⟩, ?_⟩
  · rw [append_assoc]
    refine isChain_append_cons_cons.mpr ⟨hchain, ⟨?_, fun hontime => ?_⟩, List.IsChain.singleton _⟩
    · rw [hinterval]
      exact lt_of_le_of_lt hdue ((lt_add_of_pos_right _ hc).trans_le hlow)
    · show nextUpdate l.runtime.now l.params.cbrInterval = tp + 2 * c
      have hontime : l.runtime.now = tp := hontime
      rw [hinterval, hontime, nextUpdate_of_dvd hc htp]
  · intro e he
    rcases mem_append.mp he with he | he
    · exact hdvd e he
    · rw [mem_singleton.mp he]
      exact htp

theorem OnGrid.step (hc : 0 < c) (h : OnGrid c l done) (e : Event) :
    OnGrid c (l.step R e).2 (done ++ (l.step R e).1.toList) := by
  cases e with
  | updateCbr cbr | configureDualAlpha params => exact h.quiet rfl le_rfl fun _ => id
  | outside what =>
    refine h.quiet rfl ?_ fun tp htp => own_outside htp what
    cases what with
    | advance elapsed => exact le_add_of_nonneg_right (Int.natCast_nonneg elapsed)
    | schedule | cancel => exact le_rfl
  | serve =>
    obtain ⟨tp, hown, hdvd, hchain⟩ := h.pending
    unfold Timed.step
    cases hpop : l.runtime.pop with
    | none => exact h.quiet rfl le_rfl fun _ => id
    | some popped =>
      obtain ⟨cb, rt⟩ := popped
      obtain ⟨hqueue, hdue, hnow⟩ := ManualRuntime.pop_some hpop
      rw [own, hqueue] at hown
      dsimp only
      split_ifs with hself
      · rw [filter_cons_of_pos (by simpa using hself), List.cons.injEq] at hown
        obtain ⟨rfl, hnone⟩ := hown
        exact OnGrid.served (l := { l with runtime := rt }) hc h.interval (hnow ▸ h.nonneg) hnone (hnow ▸ hdue)
          hdvd (hchain _) h.dvd
      · refine h.quiet rfl hnow.ge fun tp' htp' => ?_
        rw [own, hqueue, filter_cons_of_neg (by simpa using hself)] at htp'
        exact htp'

theorem onGrid_construct {runtime : SharedRuntime} {params : Parameters} (hc : 0 < params.cbrInterval)
    (h0 : 0 ≤ runtime.now)
    (hown : own runtime = []) : OnGrid params.cbrInterval (construct R runtime params) [] :=
  ⟨rfl, h0, ⟨_, own_schedule hown _, (nextUpdate_spec hc h0).1, fun _ => List.IsChain.singleton _⟩,
    fun _ he => nomatch he⟩

/-- **The grid of updates.** -/
theorem update_grid (hc : 0 < c) :
    (∀ now : TimePoint, 0 ≤ now →
      2 * c ∣ nextUpdate now c ∧ now + c ≤ nextUpdate now c ∧ nextUpdate now c < now + 3 * c) ∧
    ∀ (R : Rounding) (runtime : SharedRuntime) (params : Parameters) (es : List Event), params.cbrInterval = c →
      0 ≤ runtime.now → (∀ cb ∈ runtime.queue, cb.callback ≠ .self) →
      (∀ e ∈ evaluations R (construct R runtime params) es, 2 * c ∣ e.tp) ∧
      (evaluations R (construct R runtime params) es).IsChain (Follows c) ∧
      (evaluations R (construct R runtime params) es).Pairwise (·.tp < ·.tp) := by
  refine ⟨fun now h0 => nextUpdate_spec hc h0, fun R runtime params es hparams h0 hqueue => ?_⟩
  subst hparams
  have hown : own runtime = [] := by simpa [own] using hqueue
  have hrun := history_invariant (Timed.step R) (f := fun _ e => e) (A := fun _ => True) (fun _ _ e h _ => h.step hc e)
    es _ []
    (onGrid_construct (R := R) hc h0 hown) fun _ _ => trivial
  obtain ⟨tp, -, -, hchain⟩ := hrun.pending
  have hfollows := (hchain 0).left_of_append
  have htimes : ((evaluations R (construct R runtime params) es).map Evaluation.tp).IsChain (· < ·) :=
    (isChain_map _).mpr (hfollows.imp fun _ _ h => h.1)
  exact ⟨hrun.dvd, hfollows, pairwise_map.mp htimes.pairwise⟩

/-- Two updates on time, then a late one. -/
def sampleEvents : List Event :=
  [.outside (.advance 150000), .serve, .outside (.advance 200000), .serve, .outside (.advance 550000), .serve]

theorem update_grid_sample :
    (2 * 100000 ∣ nextUpdate 150000 100000 ∧ nextUpdate 150000 100000 < 150000 + 3 * 100000) ∧
      (evaluations .none (construct .none ⟨50000, []⟩ {}) sampleEvents).Pairwise (·.tp < ·.tp) ∧
      evaluations .none (construct .none ⟨50000, []⟩ {}) sampleEvents =
        [⟨200000, 200000⟩, ⟨400000, 400000⟩, ⟨600000, 950000⟩] := by
  obtain ⟨hnext, hrun⟩ := update_grid (c := 100000) (by decide)
  obtain ⟨hdvd, -, hlt⟩ := hnext 150000 (by decide)
  have h := hrun .none ⟨50000, []⟩ {} sampleEvents rfl (by decide) fun _ hcb => nomatch hcb
  exact ⟨⟨hdvd, hlt⟩, h.2.2, by decide +kernel⟩

/-! ### Convergence -/

theorem clamp_value (v : ℚ) : (UnitInterval.clamp v).value = max (min v 1) 0 := by
  unfold UnitInterval.clamp
  grind

theorem abs_limit_sub_le (x y : ℚ) (low high : UnitInterval) :
    |(min (max (.clamp x) low) high).value - (min (max (.clamp y) low) high).value| ≤ |x - y| := by
  have hvalue : Monotone UnitInterval.value := fun _ _ h => h
  have hmin (a b c : ℚ) : |min a c - min b c| ≤ |a - b| := by simpa using abs_min_sub_min_le_max a c b c
  rw [hvalue.map_min, hvalue.map_min, hvalue.map_max, hvalue.map_max, clamp_value, clamp_value]
  calc _ ≤ |max (max (min x 1) 0) low.value - max (max (min y 1) 0) low.value| := hmin _ _ _
    _ ≤ |max (min x 1) 0 - max (min y 1) 0| := abs_max_sub_max_le_abs _ _ _
    _ ≤ |min x 1 - min y 1| := abs_max_sub_max_le_abs _ _ _
    _ ≤ |x - y| := hmin _ _ _

theorem delta_contracts (l : Timed) (d alpha : UnitInterval) :
    |(l.delta .none alpha).value - (delta .none { l with dutyCycle := d } alpha).value| ≤
      (1 - alpha.value) * |l.dutyCycle.value - d.value| := by
  have hscaled : ∀ u : UnitInterval, (UnitInterval.rounded .none ((alpha.complement .none).value * u.value)).value =
      (1 - alpha.value) * u.value := by
    intro u
    have hcomplement : (alpha.complement .none).value = 1 - alpha.value := by
      refine (clamp_value _).trans ?_
      show max (min (1 - alpha.value) 1) 0 = 1 - alpha.value
      rw [min_eq_left (sub_le_self 1 alpha.nonneg), max_eq_left (sub_nonneg.mpr alpha.le_one)]
    refine (clamp_value _).trans ?_
    show max (min ((alpha.complement .none).value * u.value) 1) 0 = _
    rw [min_eq_left (mul_le_one₀ (UnitInterval.le_one _) u.nonneg u.le_one),
      max_eq_left (mul_nonneg (UnitInterval.nonneg _) u.nonneg), hcomplement]
  refine (abs_limit_sub_le _ _ _ _).trans ?_
  show |((UnitInterval.rounded .none _).value + _) - ((UnitInterval.rounded .none _).value + _)| ≤ _
  rw [hscaled, hscaled, add_sub_add_right_eq_sub, ← mul_sub, abs_mul, abs_of_nonneg (sub_nonneg.mpr alpha.le_one)]

theorem step_contracts (hdual : l.dualAlpha = none) (d : UnitInterval) (e : Event)
    (he : ∀ p, e ≠ .configureDualAlpha (some p)) :
    (l.step .none e).2.params = l.params ∧ (l.step .none e).2.dualAlpha = none ∧
      ∃ d', step .none { l with dutyCycle := d } e = ((l.step .none e).1, { (l.step .none e).2 with dutyCycle := d' }) ∧
        |(l.step .none e).2.dutyCycle.value - d'.value| ≤
          (1 - l.params.alpha.value) ^ (l.step .none e).1.toList.length * |l.dutyCycle.value - d.value| := by
  have hquiet : |l.dutyCycle.value - d.value| ≤ (1 - l.params.alpha.value) ^ 0 * |l.dutyCycle.value - d.value| := by
    rw [pow_zero, one_mul]
  cases e with
  | updateCbr cbr => exact ⟨rfl, hdual, d, rfl, hquiet⟩
  | outside what => exact ⟨rfl, hdual, d, rfl, hquiet⟩
  | configureDualAlpha params =>
    cases params with
    | some p => exact absurd rfl (he p)
    | none => exact ⟨rfl, rfl, d, rfl, hquiet⟩
  | serve =>
    unfold Timed.step
    cases hpop : l.runtime.pop with
    | none => exact ⟨rfl, hdual, d, rfl, hquiet⟩
    | some popped =>
      obtain ⟨cb, rt⟩ := popped
      dsimp only
      split_ifs with hself
      · refine ⟨rfl, hdual, _, rfl, ?_⟩
        have h := delta_contracts { l with runtime := rt, channelLoad := l.averageCbr .none } d l.params.alpha
        show |(calculateDutyCycle _ _).value - (calculateDutyCycle _ _).value| ≤ _
        simp only [calculateDutyCycle, hdual]
        show _ ≤ (1 - l.params.alpha.value) ^ 1 * _
        rw [pow_one]
        exact h
      · exact ⟨rfl, hdual, d, rfl, hquiet⟩

/-- **Stations converge.** But for rounding: stations that measure the same loads
evaluate at the same times, and each evaluation brings their duty cycles closer
by the factor `1 - alpha` at least. -/
theorem duty_cycles_converge : ∀ (es : List Event) (l : Timed) (d : UnitInterval), l.dualAlpha = none →
    (∀ e ∈ es, ∀ p, e ≠ .configureDualAlpha (some p)) →
    evaluations .none { l with dutyCycle := d } es = evaluations .none l es ∧
      |(final (step .none) l es).dutyCycle.value - (final (step .none) { l with dutyCycle := d } es).dutyCycle.value| ≤
        (1 - l.params.alpha.value) ^ (evaluations .none l es).length * |l.dutyCycle.value - d.value|
  | [], l, d, _, _ => ⟨rfl, by simp [evaluations, history, final]⟩
  | e :: es, l, d, hdual, hes => by
    obtain ⟨hparams, hdual', d', heq, hle⟩ := step_contracts hdual d e (hes e mem_cons_self)
    obtain ⟨hsame, hrest⟩ := duty_cycles_converge es (l.step .none e).2 d' hdual' fun e' he' =>
      hes e' (mem_cons_of_mem _ he')
    have hevaluations : ∀ l : Timed, evaluations .none l (e :: es) = (l.step .none e).1.toList ++
      evaluations .none (l.step .none e).2 es :=
      fun _ => rfl
    rw [hevaluations, hevaluations, final, final, heq]
    refine ⟨congrArg _ hsame, hrest.trans ?_⟩
    have hnonneg : 0 ≤ 1 - l.params.alpha.value := sub_nonneg.mpr l.params.alpha.le_one
    calc _ ≤ (1 - l.params.alpha.value) ^ (evaluations .none (l.step .none e).2 es).length *
          ((1 - l.params.alpha.value) ^ (l.step .none e).1.toList.length * |l.dutyCycle.value - d.value|) := by
          rw [hparams]
          exact mul_le_mul_of_nonneg_left hle (pow_nonneg hnonneg _)
      _ = _ := by rw [length_append, pow_add, ← mul_assoc, mul_comm (_ ^ _) (_ ^ _)]

/-- Three evaluations of a station that starts at zero. -/
theorem duty_cycles_converge_sample :
    |(final (step .none) (construct .none ⟨50000, []⟩ {}) sampleEvents).dutyCycle.value -
      (final (step .none) { construct .none ⟨50000, []⟩ {} with dutyCycle := .clamp 0 } sampleEvents).dutyCycle.value| ≤
      (984 / 1000) ^ 3 * (153 / 10000) := by
  have hplain : ∀ e ∈ sampleEvents, ∀ p, e ≠ .configureDualAlpha (some p) := by simp [sampleEvents]
  refine (duty_cycles_converge sampleEvents (construct .none ⟨50000, []⟩ {}) (.clamp 0) rfl hplain).2.trans_eq ?_
  decide +kernel

end Timed
end Dcc.Limeric
end VanetzaIdf
