/-
The rate controller (core/src/rate_controller.rs).

Per link, a `RateState` holds the allowed rate, the loss accumulators,
the traffic counters with their snapshots and the path state; a
`RateController` is the list of them with the configuration.
`process_probe` is the core algorithm: its numbered sections are the
stages below, in the source's order.

Counters are `u64` values and are natural numbers here, with checked
arithmetic: an operation is `none` where the source would overflow,
underflow or fail an assertion. Load, confidence, the gate and the RTT
averages are rounded as the source's `f64` operations are; the product of
a rate with a configured fraction is exact and truncated by the cast
back. Clock readings are inputs: `now_micros` is a `u64`, an `Instant` a
number of nanoseconds.
-/
import ChainLightning.Lib.Binary64
import ChainLightning.Lib.Machine
import ChainLightning.Protocol
import ChainLightning.Config

namespace ChainLightning

open Binary64 Machine

/-- The clock readings of one `process_probe` call. -/
structure Clock where
  micros : UInt64
  instant : Nat

-- ======================================================= per-link state

/-- Per-link rate state. -/
structure RateState where
  linkId : Nat
  /-- Current allowed rate (bytes/sec). -/
  txRate : Nat
  txMaxRate : Nat
  txMinRate : Nat
  /-- Effective loss ratio (0-255) = max(sendLoss, recvLoss). -/
  loss : UInt8
  sendLoss : UInt8
  recvLoss : UInt8
  /-- Sending direction: what we sent, what the remote received. -/
  sendTxAcc : Nat
  sendRxAcc : Nat
  /-- Receiving direction: what the remote sent, what we received. -/
  recvTxAcc : Nat
  recvRxAcc : Nat
  srttUs : Nat
  rttVarUs : Nat
  state : PathState
  -- cumulative counters
  totalTxBytes : Nat
  totalTxPackets : Nat
  totalRxBytes : Nat
  totalRxPackets : Nat
  -- snapshots of build_probe
  lastProbeTxBytes : Nat
  lastProbeTxPackets : Nat
  lastProbeRxBytes : Nat
  lastProbeRxPackets : Nat
  -- snapshots of process_probe
  lastLossTxPackets : Nat
  lastLossRxPackets : Nat
  probeSeq : UInt32
  lastRemoteTimestampUs : UInt64
  lastProbeSentUs : UInt64
  lastProbeRecv : Nat
  recoveryCount : Nat
  probeConfidence : ℚ
  prevProbeConfidence : ℚ
  enteredDownConfidence : ℚ

namespace RateState

/-- `RateState::new`. -/
def new (linkId maxRate : Nat) (minRateFraction : ℚ) (now : Nat) :
    RateState where
  linkId := linkId
  txRate := maxRate
  txMaxRate := maxRate
  txMinRate := max (trunc 64 ((maxRate : ℚ) * minRateFraction)) 12500
  loss := 0
  sendLoss := 0
  recvLoss := 0
  sendTxAcc := 0
  sendRxAcc := 0
  recvTxAcc := 0
  recvRxAcc := 0
  srttUs := 0
  rttVarUs := 0
  state := .running
  totalTxBytes := 0
  totalTxPackets := 0
  totalRxBytes := 0
  totalRxPackets := 0
  lastProbeTxBytes := 0
  lastProbeTxPackets := 0
  lastProbeRxBytes := 0
  lastProbeRxPackets := 0
  lastLossTxPackets := 0
  lastLossRxPackets := 0
  probeSeq := 0
  lastRemoteTimestampUs := 0
  lastProbeSentUs := 0
  lastProbeRecv := now
  recoveryCount := 0
  probeConfidence := 1
  prevProbeConfidence := 1
  enteredDownConfidence := 1

/-- Weight from the current rate and state, a `u32`. -/
def weight (s : RateState) : Nat :=
  match s.state with
  | .down | .probing => 0
  | _ => max (s.txRate / 125000) 1 % 2 ^ 32

/-- The counting half of `record_tx`. -/
def recordTx (bytes : Nat) (s : RateState) : Option RateState := do
  let totalTxBytes ← add 64 s.totalTxBytes bytes
  let totalTxPackets ← add 64 s.totalTxPackets 1
  some { s with totalTxBytes, totalTxPackets }

/-- The counting half of `record_rx`. -/
def recordRx (bytes : Nat) (s : RateState) : Option RateState := do
  let totalRxBytes ← add 64 s.totalRxBytes bytes
  let totalRxPackets ← add 64 s.totalRxPackets 1
  some { s with totalRxBytes, totalRxPackets }

/-- `RateState::build_probe`: report the deltas since the last probe and
advance the snapshots. Packet deltas are cast to 32 bits. -/
def buildProbe (now : UInt64) (s : RateState) :
    Option (ProbePacket × RateState) := do
  let txBytes ← sub s.totalTxBytes s.lastProbeTxBytes
  let txPackets ← sub s.totalTxPackets s.lastProbeTxPackets
  let rxBytes ← sub s.totalRxBytes s.lastProbeRxBytes
  let rxPackets ← sub s.totalRxPackets s.lastProbeRxPackets
  let probeSeq := s.probeSeq + 1
  some
    ({ linkId := UInt8.ofNat s.linkId
       seq := probeSeq
       timestampUs := now
       echoTimestampUs := s.lastRemoteTimestampUs
       txBytes := UInt64.ofNat txBytes
       txPackets := UInt32.ofNat txPackets
       rxBytes := UInt64.ofNat rxBytes
       rxPackets := UInt32.ofNat rxPackets
       lossRatio := s.loss
       pathState := s.state },
     { s with
       probeSeq
       lastProbeSentUs := now
       lastProbeTxBytes := s.totalTxBytes
       lastProbeTxPackets := s.totalTxPackets
       lastProbeRxBytes := s.totalRxBytes
       lastProbeRxPackets := s.totalRxPackets })

/-- `RateState::traffic_load`: load as a fraction of capacity. -/
def trafficLoad (probeIntervalUs : Nat) (s : RateState) : Option ℚ :=
  if probeIntervalUs = 0 ∨ s.txMaxRate = 0 then some 0
  else do
    let txDelta ← sub s.totalTxBytes s.lastProbeTxBytes
    let rxDelta ← sub s.totalRxBytes s.lastProbeRxBytes
    let scaled ← mul 64 (max txDelta rxDelta) 1000000
    let rate := scaled / max probeIntervalUs 1
    some (rnd (rnd rate / rnd s.txMaxRate))

/-- The confidence that a load earns: 1 up to the idle threshold, the
minimum from the heavy one, linear in between. -/
def loadConfidence (cfg : RateControlConfig) (load : ℚ) : ℚ :=
  if load ≤ cfg.tapaIdleThreshold then 1
  else if load ≥ cfg.tapaHeavyThreshold then cfg.tapaMinConfidence
  else
    let range := rnd (cfg.tapaHeavyThreshold - cfg.tapaIdleThreshold)
    let t := rnd (rnd (load - cfg.tapaIdleThreshold) / range)
    rnd (1 - rnd (t * rnd (1 - cfg.tapaMinConfidence)))

/-- `apply_rate_change`: bounded step, then floor and ceiling. The
final `clamp` asserts that the floor is not above the ceiling. -/
def applyRateChange (cfg : RateControlConfig) (desiredRate : Nat)
    (s : RateState) : Option RateState :=
  let current := s.txRate
  let maxChange :=
    max (trunc 64 ((current : ℚ) * cfg.maxRateChangeFraction)) 12500
  let newRate :=
    if desiredRate > current then
      current + min (desiredRate - current) maxChange
    else current - min (current - desiredRate) maxChange
  if s.txMinRate ≤ s.txMaxRate then
    some { s with txRate := min (max newRate s.txMinRate) s.txMaxRate }
  else none

/-- Growth by a fraction of the current rate, through the safeguards. -/
def grow (cfg : RateControlConfig) (fraction : ℚ) (s : RateState) :
    Option RateState :=
  s.applyRateChange cfg
    (satAdd 64 s.txRate (trunc 64 ((s.txRate : ℚ) * fraction)))

-- ================================================ process_probe, staged

/-- On arrival: clock, remote timestamp, TAPA confidence. -/
def noteArrival (instant : Nat) (confidence : ℚ) (probe : ProbePacket)
    (s : RateState) : RateState :=
  { s with
    lastProbeRecv := instant
    lastRemoteTimestampUs := probe.timestampUs
    prevProbeConfidence := s.probeConfidence
    probeConfidence := confidence }

/-- Section 1: RTT measurement. The variance compares the sample with
the already smoothed RTT. -/
def measureRtt (cfg : RateControlConfig) (now : UInt64) (probe : ProbePacket)
    (s : RateState) : RateState :=
  if probe.echoTimestampUs > 0 ∧ now > probe.echoTimestampUs then
    let rtt := now.toNat - probe.echoTimestampUs.toNat
    if s.srttUs = 0 then { s with srttUs := rtt, rttVarUs := rtt / 2 }
    else
      let srttUs := trunc 64 (mix cfg.rttEwmaAlpha rtt s.srttUs)
      let diff := if rtt > srttUs then rtt - srttUs else srttUs - rtt
      { s with
        srttUs
        rttVarUs := trunc 64 (mix cfg.rttVarAlpha diff s.rttVarUs) }
  else s

/-- Our send rate: the bytes since the last probe was built, or the
allowed rate when there are none. -/
def ourTxRate (txDt : Nat) (s : RateState) : Option Nat :=
  if txDt > 0 then
    let delta := s.totalTxBytes - s.lastProbeTxBytes
    if delta > 0 then (mul 64 delta 1000000).map (· / txDt)
    else some s.txRate
  else some s.txRate

/-- The rate at which the remote received, as its probe reports. -/
def remoteRxRate (txDt : Nat) (probe : ProbePacket) : Option Nat :=
  if txDt > 0 then (mul 64 probe.rxBytes.toNat 1000000).map (· / txDt)
  else some 0

/-- Section 2, the probe-based branch: compare our send rate with the
remote's receive rate. -/
def detectByProbe (cfg : RateControlConfig) (txDt : Nat)
    (probe : ProbePacket) (s : RateState) : Option RateState := do
  -- the unused `our_interval_tx` still has to evaluate
  let _ ← sub s.totalTxBytes s.lastProbeTxBytes
  let ourTxRate ← s.ourTxRate txDt
  let remoteRxRate ← remoteRxRate txDt probe
  if ourTxRate > 0 ∧ remoteRxRate > 0 then
    let threshold := trunc 64 ((ourTxRate : ℚ) * cfg.congestionThreshold)
    let slack ← add 64 remoteRxRate threshold
    if slack < ourTxRate then
      s.applyRateChange cfg
        (trunc 64 ((remoteRxRate : ℚ) * cfg.congestionReduction))
    else s.grow cfg cfg.growthFactor
  else if ourTxRate = 0 ∧ remoteRxRate = 0 then
    s.grow cfg cfg.growthFactor
  else some s

/-- Section 2: congestion detection with TAPA. At low confidence only
flowing data grows the rate, at half speed. -/
def detectCongestion (cfg : RateControlConfig) (confidence : ℚ)
    (probe : ProbePacket) (s : RateState) : Option RateState := do
  let txDt ← mul 64 cfg.probeIntervalMs.toNat 1000
  if confidence > 1 / 2 ∨ cfg.tapaEnabled = false then
    s.detectByProbe cfg txDt probe
  else
    let ourTxDelta ← sub s.totalTxPackets s.lastLossTxPackets
    let ourRxDelta ← sub s.totalRxPackets s.lastLossRxPackets
    if ourTxDelta > 0 ∨ ourRxDelta > 0 then
      s.grow cfg (cfg.growthFactor * (1 / 2))
    else some s

/-- The gate that scales loss accumulation by confidence. -/
def gateFactor (cfg : RateControlConfig) (confidence : ℚ) : ℚ :=
  if cfg.tapaEnabled then confidence else 1

/-- `(count as f64 * gate) as u64`. -/
def gated (cfg : RateControlConfig) (confidence : ℚ) (count : Nat) : Nat :=
  scaled 64 (gateFactor cfg confidence) count

/-- One direction of section 3: above the packet minimum the loss is
recomputed and both accumulators decay by 15/16; otherwise everything
stays. -/
def evaluateLoss (minPackets txAcc rxAcc : Nat) (loss : UInt8) :
    Option (UInt8 × Nat × Nat) :=
  if txAcc > minPackets then
    if txAcc > rxAcc then do
      let scaled ← mul 64 (txAcc - rxAcc) 255
      some (UInt8.ofNat (scaled / txAcc), txAcc - txAcc / 16,
        rxAcc - rxAcc / 16)
    else some (0, txAcc - txAcc / 16, rxAcc - rxAcc / 16)
  else some (loss, txAcc, rxAcc)

/-- Section 3, first half: snapshot our counters and add the gated
deltas to both directions. -/
def accumulate (cfg : RateControlConfig) (confidence : ℚ)
    (probe : ProbePacket) (s : RateState) : Option RateState := do
  let ourTxDelta ← sub s.totalTxPackets s.lastLossTxPackets
  let ourRxDelta ← sub s.totalRxPackets s.lastLossRxPackets
  let sendTxAcc ← add 64 s.sendTxAcc (gated cfg confidence ourTxDelta)
  let sendRxAcc ←
    add 64 s.sendRxAcc (gated cfg confidence probe.rxPackets.toNat)
  let recvTxAcc ←
    add 64 s.recvTxAcc (gated cfg confidence probe.txPackets.toNat)
  let recvRxAcc ← add 64 s.recvRxAcc (gated cfg confidence ourRxDelta)
  some { s with
    lastLossTxPackets := s.totalTxPackets
    lastLossRxPackets := s.totalRxPackets
    sendTxAcc, sendRxAcc, recvTxAcc, recvRxAcc }

/-- Section 3, second half: both directions' loss, and the worst of
them. -/
def evaluate (cfg : RateControlConfig) (s : RateState) :
    Option RateState := do
  let (sendLoss, sendTxAcc, sendRxAcc) ←
    evaluateLoss cfg.lossMinPackets.toNat s.sendTxAcc s.sendRxAcc s.sendLoss
  let (recvLoss, recvTxAcc, recvRxAcc) ←
    evaluateLoss cfg.lossMinPackets.toNat s.recvTxAcc s.recvRxAcc s.recvLoss
  some { s with
    sendLoss, sendTxAcc, sendRxAcc, recvLoss, recvTxAcc, recvRxAcc
    loss := max sendLoss recvLoss }

/-- Section 4: accelerated recovery when traffic goes from heavy to
light. -/
def accelerateRecovery (cfg : RateControlConfig) (s : RateState) :
    RateState :=
  if cfg.tapaEnabled ∧ cfg.tapaAcceleratedRecovery
      ∧ s.prevProbeConfidence < rnd (3 / 10)
      ∧ s.probeConfidence > rnd (7 / 10) then
    let decay := cfg.tapaRecoveryDecay
    { s with
      sendTxAcc := scaled 64 decay s.sendTxAcc
      sendRxAcc := scaled 64 decay s.sendRxAcc
      recvTxAcc := scaled 64 decay s.recvTxAcc
      recvRxAcc := scaled 64 decay s.recvRxAcc }
  else s

/-- Loss above which a link goes `Lossy`, in force at a confidence. -/
def lossThresh (cfg : RateControlConfig) (confidence : ℚ) : Nat :=
  if cfg.tapaEnabled ∧ confidence < 1 / 2 then
    min (min (cfg.lossThreshold.toNat
      * cfg.tapaLossThresholdMultiplier.toNat) 255) 200
  else cfg.lossThreshold.toNat

/-- Loss above which a link goes `Down`, in force at a confidence. -/
def downThresh (cfg : RateControlConfig) (confidence : ℚ) : Nat :=
  if cfg.tapaEnabled ∧ confidence < 1 / 2 then
    satAdd 8 cfg.lossDownThreshold.toNat
      ((255 - cfg.lossDownThreshold.toNat) / 2)
  else cfg.lossDownThreshold.toNat

/-- Entry into `Down` on loss. -/
def goDown (confidence : ℚ) (s : RateState) : RateState :=
  { s with
    state := .down
    recoveryCount := 0
    enteredDownConfidence := confidence }

/-- Section 5: state transitions, with TAPA damping and the cross-link
suppression flag. -/
def transition (cfg : RateControlConfig) (confidence : ℚ) (suppress : Bool)
    (s : RateState) : Option RateState :=
  match s.state with
  | .running =>
      if suppress then some s
      else if s.loss.toNat > downThresh cfg confidence then
        some (s.goDown confidence)
      else if s.loss.toNat > lossThresh cfg confidence then
        some { s with state := .lossy }
      else some s
  | .lossy =>
      if suppress then
        if s.loss.toNat ≤ cfg.lossThreshold.toNat then
          some { s with state := .running }
        else some s
      else if s.loss.toNat > downThresh cfg confidence then
        some (s.goDown confidence)
      else if s.loss.toNat ≤ lossThresh cfg confidence then
        some { s with state := .running }
      else some s
  | .down =>
      if s.enteredDownConfidence < rnd (3 / 10) ∧ cfg.tapaEnabled then
        -- likely phantom: fast-track recovery at half of the maximum
        some { s with
          state := .probing
          recoveryCount := cfg.probeRecoveryCount.toNat - 1
          txRate := s.txMaxRate / 2
          sendTxAcc := s.sendTxAcc / 2
          sendRxAcc := s.sendRxAcc / 2
          recvTxAcc := s.recvTxAcc / 2
          recvRxAcc := s.recvRxAcc / 2 }
      else
        some { s with
          state := .probing, recoveryCount := 1, txRate := s.txMinRate }
  | .probing => do
      let recoveryCount ← add 32 s.recoveryCount 1
      if recoveryCount ≥ cfg.probeRecoveryCount.toNat then
        if s.enteredDownConfidence ≥ rnd (3 / 10) then
          some { s with
            recoveryCount, state := .running, txRate := s.txMinRate }
        else some { s with recoveryCount, state := .running }
      else some { s with recoveryCount }

/-- `process_probe` on the probe's link, given the confidence and the
cross-link flag computed before the state is touched. -/
def processProbe (cfg : RateControlConfig) (clk : Clock) (confidence : ℚ)
    (suppress : Bool) (probe : ProbePacket) (s : RateState) :
    Option RateState := do
  let s := s.noteArrival clk.instant confidence probe
  let s := s.measureRtt cfg clk.micros probe
  let s ← s.detectCongestion cfg confidence probe
  let s ← s.accumulate cfg confidence probe
  let s ← s.evaluate cfg
  let s := s.accelerateRecovery cfg
  s.transition cfg confidence suppress

/-- Whether the link has been silent for longer than the timeout. -/
def timedOut (cfg : RateControlConfig) (now : Nat) (s : RateState) : Bool :=
  s.state ≠ .down
    ∧ now - s.lastProbeRecv > cfg.downTimeoutMs.toNat * 1000000

/-- `check_timeouts` on one link. -/
def checkTimeout (cfg : RateControlConfig) (now : Nat) (s : RateState) :
    RateState :=
  if s.timedOut cfg now then s.goDown s.probeConfidence else s

end RateState

-- ============================================================ controller

/-- Rate controller managing all links. -/
structure RateController where
  states : List RateState
  config : RateControlConfig

namespace RateController

/-- `RateController::new`, with the instant read for each link. -/
def new (config : RateControlConfig) (maxRates : List Nat)
    (now : Nat → Nat) : RateController where
  states := maxRates.mapIdx fun id rate =>
    RateState.new id rate config.minRateFraction (now id)
  config := config

/-- Current weights for all links. -/
def weights (rc : RateController) : List Nat :=
  rc.states.map RateState.weight

/-- Current state of a link; a link that does not exist is `Down`. -/
def linkState (rc : RateController) (linkId : Nat) : PathState :=
  (rc.states[linkId]?.map RateState.state).getD .down

/-- Update one link in place; a link that does not exist is left
alone. -/
def onLink (rc : RateController) (linkId : Nat)
    (f : RateState → Option RateState) : Option RateController :=
  match rc.states[linkId]? with
  | some s => (f s).map fun s' =>
      { rc with states := rc.states.set linkId s' }
  | none => some rc

/-- `record_tx`. -/
def recordTx (rc : RateController) (linkId bytes : Nat) :
    Option RateController :=
  rc.onLink linkId (RateState.recordTx bytes)

/-- `record_rx`. -/
def recordRx (rc : RateController) (linkId bytes : Nat) :
    Option RateController :=
  rc.onLink linkId (RateState.recordRx bytes)

/-- `build_probe` over a list of links, numbered from `i`; every link
reads the clock for itself. -/
def buildAll (now : Nat → UInt64) :
    Nat → List RateState → Option (List (ProbePacket × RateState))
  | _, [] => some []
  | i, s :: rest => do
      let built ← s.buildProbe (now i)
      let more ← buildAll now (i + 1) rest
      some (built :: more)

/-- `build_probes`. -/
def buildProbes (rc : RateController) (now : Nat → UInt64) :
    Option (List ProbePacket × RateController) := do
  let built ← buildAll now 0 rc.states
  some (built.map Prod.fst, { rc with states := built.map Prod.snd })

/-- `calculate_probe_confidence`. -/
def calculateProbeConfidence (rc : RateController) (linkId : Nat) :
    Option ℚ :=
  if rc.config.tapaEnabled = false then some 1
  else
    match rc.states[linkId]? with
    | none => some 1
    | some s => do
        let probeIntervalUs ← mul 64 rc.config.probeIntervalMs.toNat 1000
        let load ← s.trafficLoad probeIntervalUs
        some (RateState.loadConfidence rc.config load)

/-- `all_links_phantom_loss`: more than 80% of the links show high loss
and more than 80% have heavy traffic. -/
def allLinksPhantomLoss (rc : RateController) : Bool :=
  if rc.config.tapaEnabled = false ∨ rc.config.tapaCrossLinkCheck = false then
    false
  else
    let linkCount := rc.states.length
    if linkCount < 2 then false
    else
      let highLossCount :=
        rc.states.countP fun s => s.loss > rc.config.lossThreshold
      let heavyTrafficCount :=
        rc.states.countP fun s => s.probeConfidence < rnd (3 / 10)
      highLossCount * 5 > linkCount * 4
        && heavyTrafficCount * 5 > linkCount * 4

/-- `process_probe`. -/
def processProbe (rc : RateController) (clk : Clock) (probe : ProbePacket) :
    Option RateController := do
  let linkId := probe.linkId.toNat
  let confidence ← rc.calculateProbeConfidence linkId
  let suppress := rc.allLinksPhantomLoss
  rc.onLink linkId
    (RateState.processProbe rc.config clk confidence suppress probe)

/-- `check_timeouts`, with the instant read for each link. -/
def checkTimeouts (rc : RateController) (now : Nat → Nat) : RateController :=
  { rc with states := rc.states.mapIdx fun i s =>
      s.checkTimeout rc.config (now i) }

end RateController

-- ============================================================= operations

/-- The calls that change a rate controller, with their clock
readings. -/
inductive RateOp where
  | recordTx (linkId bytes : Nat)
  | recordRx (linkId bytes : Nat)
  | buildProbes (now : Nat → UInt64)
  | processProbe (clk : Clock) (probe : ProbePacket)
  | checkTimeouts (now : Nat → Nat)

/-- One call; `none` when it overflows or fails an assertion. -/
def RateOp.apply : RateOp → RateController → Option RateController
  | .recordTx linkId bytes, rc => rc.recordTx linkId bytes
  | .recordRx linkId bytes, rc => rc.recordRx linkId bytes
  | .buildProbes now, rc => (rc.buildProbes now).map Prod.snd
  | .processProbe clk probe, rc => rc.processProbe clk probe
  | .checkTimeouts now, rc => some (rc.checkTimeouts now)

end ChainLightning
