/-
# AccessStack

The access profile with congestion control, `ports/esp_idf/src/access.cpp`. A
request is refused while the gate of the budget is closed, and only what the
backend accepts closes the gate again. The duty cycle that `Limeric` permits is
any number of the unit interval, and the backend answers as it likes.
-/
import VanetzaIdf.Lib.CircularBuffer
import VanetzaIdf.Dcc.FlowControl
import VanetzaIdf.Dcc.LimericBudget

namespace VanetzaIdf.Dcc

open Lib List

/-! ### Airtime -/

namespace DataRateG5

def bytesPerSecond (r : DataRateG5) : ℕ := r.kbps * 1000 / 8

/-- `data_length`: service bits, tail bits and padding, in 32-bit integers. -/
def dataLength (r : DataRateG5) (psdu : ℕ) : ℕ :=
  let body := (16 + 6 + psdu * 8) % 2 ^ 32
  let padding := body % r.codedBitsPerSymbol
  let padding := if 0 < padding then r.codedBitsPerSymbol - padding else padding
  (body + padding) % 2 ^ 32 / 8

end DataRateG5

/-- The rates by modulation and coding scheme. -/
def g5Rates : List DataRateG5 :=
  [⟨3000, 48⟩, ⟨4500, 48⟩, ⟨6000, 96⟩, ⟨9000, 96⟩, ⟨12000, 192⟩, ⟨18000, 192⟩, ⟨24000, 288⟩, ⟨27000, 288⟩]

/-- `Transmission::channel_occupancy`: preamble, signal and data. -/
def Transmission.channelOccupancy (R : Rounding) (tx : Transmission) : Duration :=
  let rate := tx.dataRate.getD g5_6Mbps
  let bytes := rate.dataLength (tx.bodyLength + 2 + 34)
  let secondsPerByte := R.round (1 / rate.bytesPerSecond)
  let dataDuration := R.round (bytes * secondsPerByte)
  32 + 8 + Units.truncate (R.round (dataDuration * 1000000))

/-- `AlDataRequest` without addresses, channel and transceiver, which nothing here
reads. The power is `none` if it is not a finite number. -/
structure AlDataRequest where
  priority : UInt8 := 0
  transmitPowerDbm : Option ℚ := some 0
  mcs : UInt8 := 2
  bandwidthMhz : UInt16 := 10
  data : ByteBuffer
deriving DecidableEq, Repr

namespace AlDataRequest

def validate (r : AlDataRequest) (maximum : ℕ) : Result :=
  if r.data = [] ∨ maximum < r.data.length ∨ 7 < r.priority ∨ r.transmitPowerDbm = none ∨ r.bandwidthMhz = 0 then
    .invalidArgument
  else .accepted

def airtime (R : Rounding) (r : AlDataRequest) : Duration :=
  Transmission.channelOccupancy R ⟨.dp2, g5Rates[r.mcs.toNat]?, r.data.length⟩

end AlDataRequest

/-! ### The stack -/

def maxTon : Duration := 4000

/-- `Limeric`: the last two reported channel loads, the load computed from
them, and the permitted duty cycle. -/
structure Limeric where
  cbr : CircularBuffer UnitInterval := .empty 2
  channelLoad : UnitInterval := .clamp 0
  dutyCycle : UnitInterval

/-- `mean` of a range. -/
def mean (R : Rounding) (loads : List UnitInterval) : UnitInterval :=
  let sum := loads.foldl (fun sum load => R.round (sum + load.value)) 0
  .clamp (if 1 < loads.length then R.round (sum / loads.length) else sum)

def Limeric.updateCbr (R : Rounding) (l : Limeric) (load : UnitInterval) : Limeric :=
  let cbr := l.cbr.pushBack load
  { l with cbr := cbr, channelLoad := if l.cbr.full then l.channelLoad else mean R cbr.contents }

/-- `AccessStack` with `enable_dcc`, and the clock of its runtime. -/
structure AccessStack where
  maximumGnpdu : ℕ
  now : TimePoint
  limeric : Limeric
  budget : LimericBudget

namespace AccessStack

variable (R : Rounding)

def enableDcc (maximumGnpdu : ℕ) (now : TimePoint) (dutyCycle : UnitInterval) : AccessStack :=
  ⟨maximumGnpdu, now, { dutyCycle := dutyCycle }, (LimericBudget.construct R now dutyCycle).1⟩

inductive Event
  | advance (d : ℕ)
  | request (r : AlDataRequest) (backend : Result)
  | reportChannelLoad (load : UnitInterval)
  | dutyCycleChange (dutyCycle : UnitInterval)

/-- The result of a request: when, and whether the backend was asked. -/
structure Answer where
  result : Result
  time : TimePoint
  asked : Bool
deriving DecidableEq, Repr

def request (s : AccessStack) (r : AlDataRequest) (backend : Result) : Answer × AccessStack :=
  if r.validate s.maximumGnpdu ≠ .accepted then (⟨r.validate s.maximumGnpdu, s.now, false⟩, s)
  else if r.airtime R ≤ 0 ∨ maxTon < r.airtime R then (⟨.invalidArgument, s.now, false⟩, s)
  else if 0 < (s.budget.delay s.now).1 then (⟨.resourceLimit, s.now, false⟩, s)
  else if backend = .accepted then
    (⟨backend, s.now, true⟩, { s with budget := s.budget.notify R s.now (r.airtime R) s.limeric.dutyCycle })
  else (⟨backend, s.now, true⟩, s)

def step (s : AccessStack) : Event → Option Answer × AccessStack
  | .advance d => (none, { s with now := s.now + d })
  | .request r backend =>
    let (answer, s') := s.request R r backend
    (some answer, s')
  | .reportChannelLoad load => (none, { s with limeric := s.limeric.updateCbr R load })
  | .dutyCycleChange dutyCycle =>
    (none, { s with limeric := { s.limeric with dutyCycle := dutyCycle }, budget :=
      (s.budget.update R s.now dutyCycle).1 })

/-- When an answer says that a request was accepted. -/
def Answer.acceptedAt (a : Answer) : Option TimePoint := if a.result = .accepted then some a.time else none

def accepted (s : AccessStack) (es : List Event) : List TimePoint :=
  history (step R) (fun _ answer => answer.bind Answer.acceptedAt) s es

/-! ### Spacing -/

variable {R} {s s' : AccessStack} {times : List TimePoint}

theorem request_open {r : AlDataRequest} (backend : Result) (hvalid : r.validate s.maximumGnpdu = .accepted)
    (hpos : 0 < r.airtime R) (hmax : r.airtime R ≤ maxTon) (hopen : s.budget.opening ≤ s.now) :
    (s.request R r backend).1 = ⟨backend, s.now, true⟩ := by
  have hair : ¬ (r.airtime R ≤ 0 ∨ maxTon < r.airtime R) := not_or.mpr ⟨not_le.mpr hpos, not_lt.mpr hmax⟩
  have hgate : ¬ 0 < (s.budget.delay s.now).1 := by
    rw [LimericBudget.delay_pos_iff]
    exact not_lt.mpr hopen
  rw [request, if_neg (not_not.mpr hvalid), if_neg hair, if_neg hgate]
  split_ifs <;> rfl

theorem request_cases (s : AccessStack) (r : AlDataRequest) (backend : Result) :
    ((s.request R r backend).1.result ≠ .accepted ∧ (s.request R r backend).2 = s) ∨
    (s.budget.opening ≤ s.now ∧ (s.request R r backend).1 = ⟨.accepted, s.now, true⟩ ∧
      (s.request R r backend).2.budget.txStart = s.now) := by
  unfold request
  split_ifs with hvalid hair hgate hbackend
  · exact .inl ⟨hvalid, rfl⟩
  · exact .inl ⟨nofun, rfl⟩
  · exact .inl ⟨nofun, rfl⟩
  · rw [LimericBudget.delay_pos_iff, not_lt] at hgate
    exact .inr ⟨hgate, by rw [hbackend], rfl⟩
  · exact .inl ⟨hbackend, rfl⟩

/-- The accepted requests are spaced, and the last one is the transmission
that the budget knows. -/
structure Spaced (s : AccessStack) (times : List TimePoint) : Prop where
  spaced : times.Pairwise fun t t' => t + minInterval ≤ t'
  past : ∀ t ∈ times, t ≤ s.budget.txStart
  last : times = [] ∨ times.getLast? = some s.budget.txStart

theorem Spaced.of_txStart (h : Spaced s times) (heq : s'.budget.txStart = s.budget.txStart) : Spaced s' times :=
  ⟨h.spaced, by rw [heq]; exact h.past, by rw [heq]; exact h.last⟩

theorem Spaced.opening_le {t : TimePoint} (h : Spaced s times) (hlast : times.getLast? = some t)
    (htime : t + seconds 1 ≤ s.now) :
    s.budget.opening ≤ s.now := by
  have hstart : t = s.budget.txStart := by
    rcases h.last with rfl | hsome
    · cases hlast
    · exact Option.some.inj (hlast.symm.trans hsome)
  have hhigh : s.budget.interval.length ≤ seconds 1 := s.budget.interval.length_le
  rw [LimericBudget.opening, ← hstart]
  linarith

theorem Spaced.accept (h : Spaced s times) (hopen : s.budget.opening ≤ s.now)
    (hstart : s'.budget.txStart = s.now) : Spaced s' (times ++ [s.now]) := by
  have hlow := s.budget.interval.le_length
  have hstep : ∀ t ∈ times, t + minInterval ≤ s.now := by
    intro t ht
    have hpast := h.past t ht
    unfold LimericBudget.opening at hopen
    linarith
  have hmin : 0 ≤ minInterval := by decide
  refine ⟨?_, ?_, .inr ?_⟩
  · rw [pairwise_append]
    refine ⟨h.spaced, pairwise_singleton _ _, fun t ht t' ht' => ?_⟩
    rw [mem_singleton.mp ht']
    exact hstep t ht
  · intro t ht
    rw [hstart]
    rcases mem_append.mp ht with ht | ht
    · linarith [hstep t ht]
    · exact (mem_singleton.mp ht).le
  · rw [hstart, List.getLast?_concat]

theorem Spaced.step (h : Spaced s times) (e : Event) :
    Spaced (s.step R e).2 (times ++ ((s.step R e).1.bind Answer.acceptedAt).toList) := by
  cases e with
  | advance | reportChannelLoad => exact (append_nil times).symm ▸ h.of_txStart rfl
  | dutyCycleChange dutyCycle =>
    exact (append_nil times).symm ▸ h.of_txStart (LimericBudget.update_txStart R _ _ _)
  | request r backend =>
    show Spaced (s.request R r backend).2 (times ++ ((s.request R r backend).1.acceptedAt).toList)
    obtain ⟨hrefused, hsame⟩ | ⟨hopen, hanswer, hstart⟩ := s.request_cases (R := R) r backend
    · rw [hsame, Answer.acceptedAt, if_neg hrefused]
      simpa using h
    · rw [hanswer]
      exact h.accept hopen hstart

theorem spaced_run (maximum : ℕ) (now : TimePoint) (dutyCycle : UnitInterval) (es : List Event) :
    Spaced (final (step R) (enableDcc R maximum now dutyCycle) es)
      (accepted R (enableDcc R maximum now dutyCycle) es) := by
  have hinit : Spaced (enableDcc R maximum now dutyCycle) [] := ⟨List.Pairwise.nil, nofun, .inl rfl⟩
  exact along_history_invariant (step R) (C := fun _ _ => True) (I := Spaced) (fun s acc e h _ => h.step e) es _ []
    hinit (along_of_forall (step R) _ fun _ _ => trivial)

/-- **Spacing.** Accepted requests are at least 25 ms apart, and the gate does
not refuse a request one second after the last accepted one: the answer is
that of the backend. -/
theorem access_spacing (R : Rounding) (maximum : ℕ) (now : TimePoint) (dutyCycle : UnitInterval) (es : List Event) :
    (accepted R (enableDcc R maximum now dutyCycle) es).Pairwise (fun t t' => t + 25000 ≤ t') ∧
    ∀ (t : TimePoint) (r : AlDataRequest) (backend : Result),
      (accepted R (enableDcc R maximum now dutyCycle) es).getLast? = some t →
      t + seconds 1 ≤ (final (step R) (enableDcc R maximum now dutyCycle) es).now →
      r.validate (final (step R) (enableDcc R maximum now dutyCycle) es).maximumGnpdu = .accepted →
      0 < r.airtime R → r.airtime R ≤ maxTon →
      ((final (step R) (enableDcc R maximum now dutyCycle) es).request R r backend).1 =
        ⟨backend, (final (step R) (enableDcc R maximum now dutyCycle) es).now, true⟩ := by
  have hrun := spaced_run (R := R) maximum now dutyCycle es
  refine ⟨hrun.spaced, ?_⟩
  intro t r backend hlast htime hvalid hpos hmax
  exact request_open backend hvalid hpos hmax (hrun.opening_le hlast htime)

/-- The backend may be out of memory one second later. -/
theorem access_resource_limit :
    ¬ ∀ (R : Rounding) (maximum : ℕ) (now : TimePoint) (dutyCycle : UnitInterval) (es : List Event) (t : TimePoint)
      (r : AlDataRequest) (backend : Result), 0 < dutyCycle.value →
      (accepted R (enableDcc R maximum now dutyCycle) es).getLast? = some t →
      t + seconds 1 ≤ (final (step R) (enableDcc R maximum now dutyCycle) es).now →
      r.validate (final (step R) (enableDcc R maximum now dutyCycle) es).maximumGnpdu = .accepted →
      0 < r.airtime R → r.airtime R ≤ maxTon →
      ((final (step R) (enableDcc R maximum now dutyCycle) es).request R r backend).1.result ≠ .resourceLimit := by
  intro h
  let r : AlDataRequest := { data := [1, 2, 3] }
  refine h .none 4096 0 ⟨1 / 100, by norm_num, by norm_num⟩ [.request r .accepted, .advance 1000000] 0 r .resourceLimit
    (by norm_num) (by decide +kernel) (by decide +kernel) (by decide +kernel) (by decide +kernel) (by decide +kernel) ?_
  decide +kernel

end AccessStack
end VanetzaIdf.Dcc
