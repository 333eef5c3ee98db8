/-
The flow classifier (core/src/flow_classifier.rs): per flow, a mode, the
samples that its bandwidth is estimated from, and one timer.

Instants are nanoseconds from the first one that the platform's clock
can represent, so what goes below it fails. Every reading of the clock
is an input. Counters are the machine's own and wrap, as in a release
build; the `f64` conversions and quotients are rounded to the nearest
double, and the casts back truncate.
-/
import Mathlib.Data.UInt
import ChainLightning.Lib.Binary64
import ChainLightning.Lib.Trace
import ChainLightning.Config
import ChainLightning.Protocol

namespace ChainLightning

open Binary64 Machine

/-- Flow routing mode. -/
inductive FlowMode where
  | singleLink (linkId : Nat)
  | multiLink
  deriving DecidableEq, Repr

/-- The clock readings of a `classify` call, in the order they are
taken: two by `FlowState::new`, three by `record_bytes`, one by
`estimated_bandwidth`, one where the timer starts and one where it is
read. -/
structure Readings where
  first : Nat
  last : Nat
  seen : Nat
  sampled : Nat
  pruned : Nat
  estimated : Nat
  started : Nat
  decided : Nat

/-- The readings in order. -/
def Readings.toList (t : Readings) : List Nat :=
  [t.first, t.last, t.seen, t.sampled, t.pruned, t.estimated, t.started,
    t.decided]

/-- State of a tracked flow. -/
structure FlowState where
  flowId : FlowId
  mode : FlowMode
  bytesSeen : UInt64
  packetsSeen : UInt64
  firstSeen : Nat
  lastSeen : Nat
  /-- Samples with their instants, oldest first. -/
  bandwidthSamples : List (Nat × UInt64)
  exceededThresholdAt : Option Nat

namespace FlowState

/-- `FlowState::new`. -/
def new (flowId : FlowId) (fastestLink first last : Nat) : FlowState where
  flowId := flowId
  mode := .singleLink fastestLink
  bytesSeen := 0
  packetsSeen := 0
  firstSeen := first
  lastSeen := last
  bandwidthSamples := []
  exceededThresholdAt := none

/-- `estimated_bandwidth`, in bytes/sec. -/
def estimatedBandwidth (window now : Nat) (f : FlowState) : UInt64 :=
  let cutoff := (sub now window).getD now
  let recentBytes :=
    ((f.bandwidthSamples.filter fun s => cutoff < s.1).map Prod.snd).sum
  let elapsed := now - cutoff
  if 0 < asSecs elapsed then
    UInt64.ofNat (trunc 64 (rnd (rnd recentBytes.toNat / asSecs elapsed)))
  else 0

/-- What `record_bytes` keeps of the samples, five seconds. -/
def keepSamples : Nat := 5000000000

/-- `record_bytes`, with its three clock readings. -/
def recordBytes (bytes : UInt64) (seen sampled pruned : Nat)
    (f : FlowState) : Option FlowState := do
  let cutoff ← sub pruned keepSamples
  some { f with
    bytesSeen := f.bytesSeen + bytes
    packetsSeen := f.packetsSeen + 1
    lastSeen := seen
    bandwidthSamples :=
      (f.bandwidthSamples ++ [(sampled, bytes)]).filter fun s =>
        cutoff < s.1 }

/-- The decision logic of `classify`, for a ratio to the fastest link. -/
def decide (config : FlowClassifierConfig) (fastestLink : Nat) (ratio : ℚ)
    (started decided : Nat) (f : FlowState) : FlowState :=
  let monitorDuration := config.monitorDurationMs.toNat * 1000000
  match f.mode with
  | .singleLink _ =>
      if config.singleLinkThreshold.lt (.fin ratio) then
        let exceeded := f.exceededThresholdAt.getD started
        if config.multiLinkThreshold.lt (.fin ratio)
            ∧ monitorDuration ≤ decided - exceeded then
          { f with mode := .multiLink, exceededThresholdAt := none }
        else { f with exceededThresholdAt := some exceeded }
      else { f with exceededThresholdAt := none }
  | .multiLink =>
      if Double.lt (.fin ratio) config.singleLinkThreshold then
        let below := f.exceededThresholdAt.getD started
        if monitorDuration ≤ decided - below then
          { f with
            mode := .singleLink fastestLink
            exceededThresholdAt := none }
        else { f with exceededThresholdAt := some below }
      else { f with exceededThresholdAt := none }

end FlowState

-- ============================================================ classifier

/-- Flow classifier for routing decisions. -/
structure FlowClassifier where
  flows : FlowId → Option FlowState
  config : FlowClassifierConfig
  linkBandwidths : List UInt64
  fastestLink : Nat
  totalBandwidth : UInt64

/-- The index of the greatest bandwidth, the last of equal ones
(`max_by_key`), and 0 without links. -/
def fastestOf (bandwidths : List UInt64) : Nat :=
  let best := bandwidths.zipIdx.foldl (fun best link =>
    match best with
    | none => some link
    | some (bw, i) => if bw ≤ link.1 then some link else some (bw, i)) none
  (best.map Prod.snd).getD 0

namespace FlowClassifier

/-- `FlowClassifier::new`. -/
def new (config : FlowClassifierConfig) (linkBandwidths : List UInt64) :
    FlowClassifier where
  flows := fun _ => none
  config := config
  linkBandwidths := linkBandwidths
  fastestLink := fastestOf linkBandwidths
  totalBandwidth := linkBandwidths.sum

/-- `update_bandwidths`. -/
def updateBandwidths (bandwidths : List UInt64) (c : FlowClassifier) :
    FlowClassifier :=
  { c with
    linkBandwidths := bandwidths
    fastestLink := fastestOf bandwidths
    totalBandwidth := bandwidths.sum }

/-- The entry of a flow with a packet recorded, made for a new flow. -/
def record (flowId : FlowId) (packet : List UInt8) (t : Readings)
    (c : FlowClassifier) : Option FlowState :=
  ((c.flows flowId).getD
      (FlowState.new flowId c.fastestLink t.first t.last)).recordBytes
    (UInt64.ofNat packet.length) t.seen t.sampled t.pruned

/-- The ratio of a flow's estimated bandwidth to the fastest link. -/
def ratio (f : FlowState) (t : Readings) (c : FlowClassifier) : ℚ :=
  let flowBw :=
    f.estimatedBandwidth (c.config.flowWindowMs.toNat * 1000000) t.estimated
  let fastestBw := c.linkBandwidths.getD c.fastestLink 1
  rnd (rnd flowBw.toNat / rnd (max fastestBw.toNat 1 : Nat))

/-- `classify`: the mode for a packet, and the classifier behind it.
Without a flow id a packet is scattered. -/
def classify (packet : List UInt8) (t : Readings) (c : FlowClassifier) :
    Option (FlowMode × FlowClassifier) :=
  match FlowId.fromPacket packet with
  | none => some (.multiLink, c)
  | some flowId => do
      let flow ← c.record flowId packet t
      let flow := flow.decide c.config c.fastestLink (c.ratio flow t)
        t.started t.decided
      some (flow.mode,
        { c with flows := Function.update c.flows flowId (some flow) })

/-- `get_mode`. -/
def getMode (flowId : FlowId) (c : FlowClassifier) : Option FlowMode :=
  (c.flows flowId).map FlowState.mode

/-- `expire_flows`. -/
def expireFlows (now : Nat) (c : FlowClassifier) : FlowClassifier :=
  { c with
    flows := fun flowId => (c.flows flowId).filter fun flow =>
      now - flow.lastSeen < c.config.flowExpiryMs.toNat * 1000000 }

end FlowClassifier

-- ================================================================= calls

/-- The calls that change a classifier, with their clock readings. -/
inductive ClassifierOp where
  | classify (packet : List UInt8) (t : Readings)
  | updateBandwidths (bandwidths : List UInt64)
  | expireFlows (now : Nat)

/-- The clock readings of a call. -/
def ClassifierOp.clock : ClassifierOp → List Nat
  | .classify _ t => t.toList
  | .updateBandwidths _ => []
  | .expireFlows now => [now]

/-- One call. -/
def FlowClassifier.step : ClassifierOp → FlowClassifier →
    Option FlowClassifier
  | .classify packet t, c => (c.classify packet t).map Prod.snd
  | .updateBandwidths bandwidths, c => some (c.updateBandwidths bandwidths)
  | .expireFlows now, c => some (c.expireFlows now)

end ChainLightning
