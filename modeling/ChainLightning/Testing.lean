/-
The A/B testing framework (testing/src/framework.rs): a test that goes
through measured phases with cooldowns in between, samples metrics, and
files a scored result for each measured phase.

Scores and metrics are taken in an ordered field `K`. Instants and
durations are nanoseconds, and every reading of the clock is an input.
-/
import ChainLightning.Config

namespace ChainLightning

/-- Test phase tracking. -/
inductive TestPhase where
  | baseline
  | variantA
  | variantB
  | cooldown
  | complete
  deriving DecidableEq, Repr

/-- What metric defines success. -/
inductive SuccessMetric (K : Type*) where
  | maxThroughput
  | minLatencyP50
  | minLatencyP99
  | minPacketLoss
  | weightedScore (throughputWeight latencyWeight lossWeight : K)

/-- Configuration for a single A/B test. -/
structure TestConfig (K : Type*) where
  parameterPath : String
  baselineValue : ParameterValue
  variantAValue : ParameterValue
  variantBValue : Option ParameterValue
  phaseDuration : Nat
  cooldownDuration : Nat
  minSamples : Nat
  successMetric : SuccessMetric K

/-- A metrics snapshot, as far as the framework reads it. -/
structure MetricsSample (K : Type*) where
  latencyAvgMs : K
  throughputDownMbps : K
  throughputUpMbps : K
  lossRatio : K
  reorderRatio : K
  cpuUsagePercent : K

/-- Summary statistics. -/
structure MetricsSummary (K : Type*) where
  sampleCount : Nat
  avgThroughputDownMbps : K
  avgThroughputUpMbps : K
  maxThroughputDownMbps : K
  maxThroughputUpMbps : K
  avgLatencyMs : K
  maxLatencyMs : K
  avgLossRatio : K
  avgReorderRatio : K
  avgCpuPercent : K

/-- Result of a single test phase. -/
structure PhaseResult (K : Type*) where
  phase : TestPhase
  parameterValue : ParameterValue
  duration : Nat
  samples : Nat
  metricsSummary : MetricsSummary K
  score : K

/-- Complete test result. -/
structure TestResult (K : Type*) where
  config : TestConfig K
  phases : List (PhaseResult K)
  winner : Option String
  confidence : K
  recommendation : String

/-- What the standard library computes from a float: its square root and
its text with so many decimals. The last one is the text of a parameter
value. -/
structure FloatLib (K : Type*) where
  sqrt : K → K
  fixed : Nat → K → String
  debug : ParameterValue → String

/-- The name of a phase in a result. -/
def TestPhase.name : TestPhase → String
  | .baseline => "Baseline"
  | .variantA => "Variant A"
  | .variantB => "Variant B"
  | _ => "Unknown"

/-- A/B test runner. -/
structure ABTest (K : Type*) where
  config : TestConfig K
  currentPhase : TestPhase
  phaseStart : Nat
  phaseMetrics : List (MetricsSample K)
  results : List (PhaseResult K)

namespace ABTest

variable {K : Type*}

/-- `ABTest::new`. -/
def new (config : TestConfig K) (now : Nat) : ABTest K where
  config := config
  currentPhase := .baseline
  phaseStart := now
  phaseMetrics := []
  results := []

/-- `current_parameter_value`. -/
def currentParameterValue (t : ABTest K) : ParameterValue :=
  match t.currentPhase with
  | .baseline => t.config.baselineValue
  | .variantA => t.config.variantAValue
  | .variantB => t.config.variantBValue.getD t.config.baselineValue
  | _ => t.config.baselineValue

/-- `record_metrics`. -/
def recordMetrics (metrics : MetricsSample K) (t : ABTest K) : ABTest K :=
  if t.currentPhase ≠ .cooldown ∧ t.currentPhase ≠ .complete then
    { t with phaseMetrics := t.phaseMetrics ++ [metrics] }
  else t

/-- The time that the current phase takes is over. -/
def due (read : Nat) (t : ABTest K) : Bool :=
  (if t.currentPhase = .cooldown then t.config.cooldownDuration
    else t.config.phaseDuration) ≤ read - t.phaseStart

/-- The phase behind the current one, with so many results filed. -/
def nextPhase (filed : Nat) (t : ABTest K) : TestPhase :=
  match t.currentPhase with
  | .baseline => .cooldown
  | .cooldown =>
      if filed = 1 then .variantA
      else if filed = 2 then .variantB
      else .complete
  | .variantA =>
      if t.config.variantBValue.isSome then .cooldown else .complete
  | .variantB | .complete => .complete

variable [Field K] [LinearOrder K]

/-- The average of some values, 0 of none. -/
def average (values : List K) : K :=
  if values.isEmpty then 0 else values.sum / (values.length : K)

/-- `summarize_metrics`: latencies and throughputs count where they are
positive, ratios always. -/
def summarizeMetrics (t : ABTest K) : MetricsSummary K :=
  let positive (f : MetricsSample K → K) :=
    (t.phaseMetrics.map f).filter (· > 0)
  let all (f : MetricsSample K → K) := t.phaseMetrics.map f
  { sampleCount := t.phaseMetrics.length
    avgThroughputDownMbps := average (positive (·.throughputDownMbps))
    avgThroughputUpMbps := average (positive (·.throughputUpMbps))
    maxThroughputDownMbps :=
      (positive (·.throughputDownMbps)).foldl max 0
    maxThroughputUpMbps := (positive (·.throughputUpMbps)).foldl max 0
    avgLatencyMs := average (positive (·.latencyAvgMs))
    maxLatencyMs := (positive (·.latencyAvgMs)).foldl max 0
    avgLossRatio := average (all (·.lossRatio))
    avgReorderRatio := average (all (·.reorderRatio))
    avgCpuPercent := average (all (·.cpuUsagePercent)) }

/-- `calculate_score`. -/
def calculateScore (summary : MetricsSummary K) (t : ABTest K) : K :=
  match t.config.successMetric with
  | .maxThroughput => summary.avgThroughputDownMbps
  | .minLatencyP50 =>
      if summary.avgLatencyMs > 0 then 1000 / summary.avgLatencyMs else 0
  | .minLatencyP99 =>
      -- the maximum stands in for p99
      if summary.maxLatencyMs > 0 then 1000 / summary.maxLatencyMs else 0
  | .minPacketLoss => 1 - summary.avgLossRatio
  | .weightedScore throughputWeight latencyWeight lossWeight =>
      let throughputScore := summary.avgThroughputDownMbps / 100
      let latencyScore :=
        if summary.avgLatencyMs > 0 then 10 / summary.avgLatencyMs else 0
      let lossScore := 1 - summary.avgLossRatio
      throughputScore * throughputWeight + latencyScore * latencyWeight
        + lossScore * lossWeight

/-- The result of the current phase, as read at its end. -/
def phaseResult (read : Nat) (t : ABTest K) : PhaseResult K :=
  let summary := t.summarizeMetrics
  { phase := t.currentPhase
    parameterValue := t.currentParameterValue
    duration := read - t.phaseStart
    samples := t.phaseMetrics.length
    metricsSummary := summary
    score := t.calculateScore summary }

/-- `advance_phase`: a measured phase with samples files its result. -/
def advancePhase (read now : Nat) (t : ABTest K) : ABTest K :=
  let results :=
    if t.currentPhase ≠ .cooldown ∧ !t.phaseMetrics.isEmpty then
      t.results ++ [t.phaseResult read]
    else t.results
  { t with
    results
    phaseMetrics := []
    phaseStart := now
    currentPhase := t.nextPhase results.length }

/-- The loop of `determine_winner`: the first phase with the best score.
Every score is above the infinity that the loop starts from. -/
def bestPhase (phases : List (PhaseResult K)) : Option (PhaseResult K) :=
  phases.foldl (fun best phase =>
    if phase.phase = .cooldown then best
    else match best with
      | none => some phase
      | some winner =>
          if phase.score > winner.score then some phase else best) none

/-- `determine_winner`. -/
def determineWinner (lib : FloatLib K) (r : TestResult K) : TestResult K :=
  if r.phases.length < 2 then { r with
    winner := none
    confidence := 0
    recommendation := "Insufficient data" }
  else match bestPhase r.phases with
    | none => r
    | some winner =>
        let phaseName := winner.phase.name
        let scores :=
          (r.phases.filter (·.phase ≠ .cooldown)).map PhaseResult.score
        let mean := scores.sum / (scores.length : K)
        let variance := (scores.map fun s => (s - mean) ^ 2).sum
          / (scores.length : K)
        let stdDev := lib.sqrt variance
        let winnerDistance :=
          max (winner.score - mean) (-(winner.score - mean))
        let confidence :=
          if stdDev > 0 then min (winnerDistance / stdDev) 1
          else if winner.score > mean then 1
          else 0
        let score := lib.fixed 2 winner.score
        let percent := lib.fixed 0 (confidence * 100)
        let path := r.config.parameterPath
        let value := lib.debug winner.parameterValue
        { r with
          confidence
          winner := some phaseName
          recommendation :=
            s!"{phaseName} wins with score {score} "
              ++ s!"(confidence: {percent}%). Set {path} = {value}" }

/-- `result`. -/
def result (lib : FloatLib K) (t : ABTest K) : TestResult K :=
  determineWinner lib
    { config := t.config
      phases := t.results
      winner := none
      confidence := 0
      recommendation := "" }

/-- `tick`: whether the test is complete, behind an advance if the phase
is over. The clock is read up to three times. -/
def tick (read filed now : Nat) (t : ABTest K) : Bool × ABTest K :=
  let t := if t.due read then t.advancePhase filed now else t
  (t.currentPhase = .complete, t)

end ABTest

-- ================================================================= calls

/-- The calls that change a test, with their clock readings. -/
inductive ABTestOp (K : Type*) where
  | recordMetrics (metrics : MetricsSample K)
  | tick (read filed now : Nat)

variable {K : Type*} [Field K] [LinearOrder K]

/-- One call. -/
def ABTestOp.apply : ABTestOp K → ABTest K → ABTest K
  | .recordMetrics metrics, t => t.recordMetrics metrics
  | .tick read filed now, t => (t.tick read filed now).2

/-- The test behind some calls. -/
def ABTest.after (ops : List (ABTestOp K)) (t : ABTest K) : ABTest K :=
  ops.foldl (fun t op => op.apply t) t

/-- The phases that a test goes through, from the current one on. -/
def ABTest.phases : List (ABTestOp K) → ABTest K → List TestPhase
  | [], t => [t.currentPhase]
  | op :: ops, t =>
      if (op.apply t).currentPhase = t.currentPhase then
        phases ops (op.apply t)
      else t.currentPhase :: phases ops (op.apply t)

end ChainLightning
