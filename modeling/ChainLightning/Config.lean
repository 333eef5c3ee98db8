/-
Configuration records and their validation (common/src/config.rs).

The fractions of the rate controller are finite doubles and are rationals
here; the fields that `validate` compares, and the multiplier the
aggregator scales with, may be any double a file can hold, so they are
`Double`s. A default is the double nearest to its decimal, except for the
fractions that rates are multiplied with, whose products are exact.
-/
import ChainLightning.Lib.Double

namespace ChainLightning

open Binary64

structure FlowClassifierConfig where
  singleLinkThreshold : Double
  multiLinkThreshold : Double
  monitorDurationMs : UInt64
  flowWindowMs : UInt64
  flowExpiryMs : UInt64

structure ChunkAggregatorConfig where
  minChunkSize : Nat
  maxChunkSize : Nat
  bdpMultiplier : Double
  aggregationTimeoutMs : UInt64

/-- Configuration for a single link tier. -/
structure LinkTierConfig where
  linkId : Nat
  priority : Nat
  capacityDownBps : UInt64
  capacityUpBps : UInt64
  utilizationThreshold : Double
  realtimeEligible : Bool
  linkType : String

structure LinkSchedulerConfig where
  syncIntervalMs : UInt64
  maxSendDelayMs : UInt64
  enableSync : Bool
  strategy : String
  linkTiers : List LinkTierConfig
  flowAffinity : Bool
  flowAffinityTimeoutSecs : UInt64

structure AnnouncerConfig where
  enabled : String
  lookaheadCount : Nat
  safetyMarginUs : UInt64

structure ReceiverConfig where
  reorderTimeoutMs : UInt64
  maxBufferChunks : Nat
  immediateForward : Bool

structure StatsConfig where
  ewmaAlpha : Double
  probeIntervalMs : UInt64
  bandwidthWindowMs : UInt64

structure TestingConfig where
  abTestingEnabled : Bool
  metricsIntervalMs : UInt64
  logMetrics : Bool
  metricsLogPath : String

structure LoggingConfig where
  debugEnabled : Bool
  logScheduler : Bool
  logFlows : Bool
  logChunks : Bool
  logStats : Bool
  logRtt : Bool
  logFilePath : String
  logRotationMb : UInt64

structure RealtimeConfig where
  realtimeUdpPorts : List UInt16
  realtimeTcpPorts : List UInt16
  maxRealtimePacketSize : Nat
  forceAdslOnly : Bool

/-- Adaptive rate control configuration, with the TAPA parameters. -/
structure RateControlConfig where
  enabled : Bool
  probeIntervalMs : UInt64
  minRateFraction : ℚ
  maxRateChangeFraction : ℚ
  congestionThreshold : ℚ
  congestionReduction : ℚ
  growthFactor : ℚ
  lossMinPackets : UInt64
  lossThreshold : UInt8
  lossDownThreshold : UInt8
  downTimeoutMs : UInt64
  probeRecoveryCount : UInt32
  rttEwmaAlpha : ℚ
  rttVarAlpha : ℚ
  tapaEnabled : Bool
  tapaIdleThreshold : ℚ
  tapaHeavyThreshold : ℚ
  tapaMinConfidence : ℚ
  tapaLossThresholdMultiplier : UInt8
  tapaAcceleratedRecovery : Bool
  tapaRecoveryDecay : ℚ
  tapaCrossLinkCheck : Bool

/-- `RateControlConfig::default`. -/
def RateControlConfig.default : RateControlConfig where
  enabled := true
  probeIntervalMs := 200
  minRateFraction := 10 / 100
  maxRateChangeFraction := 10 / 100
  congestionThreshold := 125 / 1000
  congestionReduction := 875 / 1000
  growthFactor := 10 / 100
  lossMinPackets := 1000
  lossThreshold := 5
  lossDownThreshold := 200
  downTimeoutMs := 5000
  probeRecoveryCount := 3
  rttEwmaAlpha := 125 / 1000
  rttVarAlpha := 25 / 100
  tapaEnabled := true
  tapaIdleThreshold := rnd (20 / 100)
  tapaHeavyThreshold := rnd (70 / 100)
  tapaMinConfidence := rnd (10 / 100)
  tapaLossThresholdMultiplier := 4
  tapaAcceleratedRecovery := true
  tapaRecoveryDecay := 75 / 100
  tapaCrossLinkCheck := true

/-- The main configuration. -/
structure Config where
  flowClassifier : FlowClassifierConfig
  chunkAggregator : ChunkAggregatorConfig
  linkScheduler : LinkSchedulerConfig
  announcer : AnnouncerConfig
  receiver : ReceiverConfig
  stats : StatsConfig
  testing : TestingConfig
  logging : LoggingConfig
  realtime : RealtimeConfig
  rateControl : RateControlConfig

/-- A tier with an ADSL link, as `Config::default` has it. -/
def LinkTierConfig.adsl (linkId priority : Nat) : LinkTierConfig where
  linkId := linkId
  priority := priority
  capacityDownBps := 7812500
  capacityUpBps := 1587500
  utilizationThreshold := .ofRat (90 / 100)
  realtimeEligible := true
  linkType := "adsl"

/-- A tier with a Starlink link. -/
def LinkTierConfig.starlink (linkId priority : Nat) : LinkTierConfig where
  linkId := linkId
  priority := priority
  capacityDownBps := 27500000
  capacityUpBps := 2500000
  utilizationThreshold := .ofRat (95 / 100)
  realtimeEligible := false
  linkType := "starlink"

/-- `Config::default`. -/
def Config.default : Config where
  flowClassifier := {
    singleLinkThreshold := .ofRat (66 / 100)
    multiLinkThreshold := .ofRat (90 / 100)
    monitorDurationMs := 2000
    flowWindowMs := 1000
    flowExpiryMs := 30000 }
  chunkAggregator := {
    minChunkSize := 1400
    maxChunkSize := 65536
    bdpMultiplier := .fin 1
    aggregationTimeoutMs := 5 }
  linkScheduler := {
    syncIntervalMs := 50
    maxSendDelayMs := 100
    enableSync := true
    strategy := "tiered_fill"
    linkTiers := [.adsl 2 1, .adsl 0 2, .adsl 4 3, .starlink 1 4,
      .starlink 3 5]
    flowAffinity := true
    flowAffinityTimeoutSecs := 30 }
  announcer := {
    enabled := "auto"
    lookaheadCount := 10
    safetyMarginUs := 100 }
  receiver := {
    reorderTimeoutMs := 50
    maxBufferChunks := 1000
    immediateForward := true }
  stats := {
    ewmaAlpha := .ofRat (20 / 100)
    probeIntervalMs := 1000
    bandwidthWindowMs := 1000 }
  testing := {
    abTestingEnabled := true
    metricsIntervalMs := 1000
    logMetrics := true
    metricsLogPath := "./metrics.jsonl" }
  logging := {
    debugEnabled := false
    logScheduler := false
    logFlows := false
    logChunks := false
    logStats := true
    logRtt := false
    logFilePath := "./chainlightning.log"
    logRotationMb := 100 }
  realtime := {
    realtimeUdpPorts := [5060, 5061, 3478, 3479, 16384, 16385, 16386,
      16387, 27015, 27016, 27017, 27018]
    realtimeTcpPorts := [22, 23]
    maxRealtimePacketSize := 1400
    forceAdslOnly := true }
  rateControl := RateControlConfig.default

/-- Configuration errors. -/
inductive ConfigError where
  | ioError (e : String)
  | parseError (e : String)
  | validationError (e : String)
  deriving DecidableEq

/-- `Config::validate`. -/
def Config.validate (c : Config) : Except ConfigError Unit :=
  if c.flowClassifier.singleLinkThreshold.le (.fin 0)
      || Double.le (.fin 1) c.flowClassifier.singleLinkThreshold then
    .error (.validationError "single_link_threshold must be between 0 and 1")
  else if c.flowClassifier.multiLinkThreshold.le
      c.flowClassifier.singleLinkThreshold then
    .error (.validationError
      "multi_link_threshold must be greater than single_link_threshold")
  else if c.chunkAggregator.minChunkSize > c.chunkAggregator.maxChunkSize then
    .error (.validationError "min_chunk_size must be <= max_chunk_size")
  else if c.stats.ewmaAlpha.le (.fin 0)
      || Double.le (.fin 1) c.stats.ewmaAlpha then
    .error (.validationError "ewma_alpha must be between 0 and 1")
  else .ok ()

/-- The defaults pass their own check. -/
theorem config_default_valid : Config.default.validate = .ok () := by
  decide +kernel

/-- A valid configuration orders its chunk sizes. -/
theorem Config.validate_chunk_sizes {c : Config} (h : c.validate = .ok ()) :
    c.chunkAggregator.minChunkSize ≤ c.chunkAggregator.maxChunkSize := by
  unfold Config.validate at h
  split at h
  case isTrue => cases h
  case isFalse =>
    split at h
    case isTrue => cases h
    case isFalse =>
      split at h
      case isTrue => cases h
      case isFalse hle => omega

-- ============================================================= parameters

/-- Parameter value types for A/B testing. -/
inductive ParameterValue where
  | float (v : Double)
  | uint (v : UInt64)
  | usize (v : Nat)
  | bool (v : Bool)
  | string (v : String)
  deriving DecidableEq

/-- `Config::get_parameter`. -/
def Config.getParameter (path : String) (c : Config) :
    Option ParameterValue :=
  match path with
  | "flow_classifier.single_link_threshold" =>
      some (.float c.flowClassifier.singleLinkThreshold)
  | "flow_classifier.multi_link_threshold" =>
      some (.float c.flowClassifier.multiLinkThreshold)
  | "flow_classifier.monitor_duration_ms" =>
      some (.uint c.flowClassifier.monitorDurationMs)
  | "chunk_aggregator.min_chunk_size" =>
      some (.usize c.chunkAggregator.minChunkSize)
  | "chunk_aggregator.max_chunk_size" =>
      some (.usize c.chunkAggregator.maxChunkSize)
  | "chunk_aggregator.bdp_multiplier" =>
      some (.float c.chunkAggregator.bdpMultiplier)
  | "receiver.reorder_timeout_ms" =>
      some (.uint c.receiver.reorderTimeoutMs)
  | "link_scheduler.sync_interval_ms" =>
      some (.uint c.linkScheduler.syncIntervalMs)
  | "announcer.enabled" => some (.string c.announcer.enabled)
  | _ => none

/-- The match of `set_parameter`: the assignment, unless the path or the
type is unknown. -/
def Config.assign (path : String) (value : ParameterValue) (c : Config) :
    Option Config :=
  match path, value with
  | "flow_classifier.single_link_threshold", .float v =>
      some { c with flowClassifier.singleLinkThreshold := v }
  | "flow_classifier.multi_link_threshold", .float v =>
      some { c with flowClassifier.multiLinkThreshold := v }
  | "flow_classifier.monitor_duration_ms", .uint v =>
      some { c with flowClassifier.monitorDurationMs := v }
  | "chunk_aggregator.min_chunk_size", .usize v =>
      some { c with chunkAggregator.minChunkSize := v }
  | "chunk_aggregator.max_chunk_size", .usize v =>
      some { c with chunkAggregator.maxChunkSize := v }
  | "chunk_aggregator.bdp_multiplier", .float v =>
      some { c with chunkAggregator.bdpMultiplier := v }
  | "receiver.reorder_timeout_ms", .uint v =>
      some { c with receiver.reorderTimeoutMs := v }
  | "link_scheduler.sync_interval_ms", .uint v =>
      some { c with linkScheduler.syncIntervalMs := v }
  | "announcer.enabled", .string v =>
      some { c with announcer.enabled := v }
  | _, _ => none

/-- `Config::set_parameter`: the result, and the configuration it leaves,
which a failed validation does not restore. -/
def Config.setParameter (path : String) (value : ParameterValue)
    (c : Config) : Except ConfigError Unit × Config :=
  match c.assign path value with
  | some c => (c.validate, c)
  | none =>
      (.error (.validationError
        s!"Unknown parameter or type mismatch: {path}"), c)

/-- A parameter that was assigned reads back. -/
theorem Config.getParameter_assign {path : String} {value : ParameterValue}
    {c c' : Config} (h : c.assign path value = some c') :
    c'.getParameter path = some value := by
  unfold Config.assign at h
  split at h <;> cases h <;> rfl

/-- An assignment leaves every other parameter alone. -/
theorem Config.getParameter_assign_ne {path other : String}
    {value : ParameterValue} {c c' : Config}
    (h : c.assign path value = some c') (hne : other ≠ path) :
    c'.getParameter other = c.getParameter other := by
  unfold Config.assign at h
  split at h <;> cases h <;> unfold Config.getParameter <;> split <;>
    first | rfl | exact absurd rfl hne

/-- `set_parameter` succeeds with a valid assignment. -/
theorem Config.setParameter_ok {path : String} {value : ParameterValue}
    {c c' : Config} (h : c.setParameter path value = (.ok (), c')) :
    c.assign path value = some c' ∧ c'.validate = .ok () := by
  unfold Config.setParameter at h
  split at h
  case h_1 c₁ hassign =>
      obtain ⟨hvalid, rfl⟩ := Prod.mk.inj h
      exact ⟨hassign, hvalid⟩
  case h_2 => cases h

end ChainLightning
