/-
The link scheduler (core/src/link_scheduler.rs) and the two tasks that
share it with rate control enabled: the sender task, which schedules
each chunk, and the stats update task, which feeds measurements to each
link and then pushes the rate controller's weights (client/src/main.rs,
server/src/main.rs). Every lock section of a task is one step, so a run
is an interleaving of the two.

Integers are the machine's own and wrap, as in a release build; a build
that traps on overflow has fewer runs. The averages are rounded as the
source's `f64` operations are and truncated by the casts back. Instants
and durations are nanoseconds.
-/
import ChainLightning.Lib.Binary64
import ChainLightning.Lib.Trace
import ChainLightning.Config
import ChainLightning.RateController

namespace ChainLightning

open Binary64 Machine

-- ======================================================== per-link state

/-- Link health state. -/
inductive LinkHealth where
  | normal
  | degraded
  deriving DecidableEq, Repr

/-- Per-link state with throughput tracking. -/
structure LinkState where
  id : Nat
  configuredBandwidthBps : UInt64
  measuredBandwidthBps : UInt64
  /-- Current weight for scheduling. -/
  weight : UInt32
  bytesSent : UInt64
  bytesDelivered : UInt64
  rttUs : UInt64
  health : LinkHealth

namespace LinkState

/-- 1 Mbps is one unit of weight. -/
def bandwidthToWeight (bps : UInt64) : UInt32 :=
  UInt32.ofNat (max (bps.toNat / 125000) 1)

/-- `LinkState::new`. -/
def new (id : Nat) (configuredBandwidthBps : UInt64) : LinkState where
  id := id
  configuredBandwidthBps := configuredBandwidthBps
  measuredBandwidthBps := configuredBandwidthBps
  weight := bandwidthToWeight configuredBandwidthBps
  bytesSent := 0
  bytesDelivered := 0
  rttUs := 0
  health := .normal

/-- `update_rtt`: EWMA smoothing with factor 1/8. -/
def updateRtt (rttUs : UInt64) (l : LinkState) : LinkState :=
  if rttUs = 0 then l
  else if l.rttUs = 0 then { l with rttUs }
  else { l with
    rttUs := UInt64.ofNat
      (trunc 64 (mix (125 / 1000) rttUs.toNat l.rttUs.toNat)) }

def recordSent (bytes : UInt64) (l : LinkState) : LinkState :=
  { l with bytesSent := l.bytesSent + bytes }

def recordDelivered (bytes : UInt64) (l : LinkState) : LinkState :=
  { l with bytesDelivered := l.bytesDelivered + bytes }

/-- The bandwidth part of `update_link`: EWMA smoothing with factor 0.3,
counted as delivered. -/
def updateBandwidth (measuredBandwidthBps : UInt64) (l : LinkState) :
    LinkState :=
  if measuredBandwidthBps > 0 then
    let smoothed := if l.measuredBandwidthBps = 0 then measuredBandwidthBps
      else UInt64.ofNat (trunc 64 (mix (rnd (3 / 10))
        measuredBandwidthBps.toNat l.measuredBandwidthBps.toNat))
    recordDelivered measuredBandwidthBps
      { l with measuredBandwidthBps := smoothed }
  else l

/-- Half the round trip, in nanoseconds. -/
def oneWayLatency (l : LinkState) : Nat := l.rttUs.toNat / 2 * 1000

end LinkState

-- ============================================================= scheduler

/-- Scheduling decision. -/
structure ScheduleDecision where
  linkId : Nat
  delay : Nat
  participatingLinks : List Nat

structure LinkScheduler where
  config : LinkSchedulerConfig
  links : List LinkState
  cursor : UInt64
  totalWeight : UInt32
  lastAdjustment : Nat

namespace LinkScheduler

/-- The sum of the weights, at least 1. -/
def sumWeights (links : List LinkState) : UInt32 :=
  max (links.foldl (fun sum l => sum + l.weight) 0) 1

/-- `LinkScheduler::new`. -/
def new (config : LinkSchedulerConfig)
    (configuredBandwidths : List UInt64) (now : Nat) : LinkScheduler :=
  let links := configuredBandwidths.mapIdx LinkState.new
  { config, links
    cursor := 0
    totalWeight := sumWeights links
    lastAdjustment := now }

/-- Minimum time between weight adjustments, one second. -/
def adjustmentInterval : Nat := 1000000000

def recalculateTotalWeight (s : LinkScheduler) : LinkScheduler :=
  { s with totalWeight := sumWeights s.links }

/-- The interval since the last adjustment has passed. -/
def adjustmentDue (now : Nat) (s : LinkScheduler) : Bool :=
  adjustmentInterval ≤ now - s.lastAdjustment

/-- `maybe_adjust_weights`: restore the configured weights, once per
interval. -/
def maybeAdjustWeights (now : Nat) (s : LinkScheduler) : LinkScheduler :=
  if s.adjustmentDue now then
    recalculateTotalWeight { s with
      lastAdjustment := now
      links := s.links.map fun l => { l with
        weight := LinkState.bandwidthToWeight l.configuredBandwidthBps
        health := .normal } }
  else s

/-- `update_link`. -/
def updateLink (linkId : Nat) (measuredBandwidthBps rttUs : UInt64)
    (now : Nat) (s : LinkScheduler) : LinkScheduler :=
  let updated := { s with
    links := s.links.modify linkId fun l =>
      (l.updateRtt rttUs).updateBandwidth measuredBandwidthBps }
  updated.maybeAdjustWeights now

/-- `set_rate_controlled_weights` on the links: one weight each, as far
as both lists go. -/
def applyWeights : List UInt32 → List LinkState → List LinkState
  | w :: weights, l :: links =>
      { l with
        weight := w
        health := if w > 0 then .normal else .degraded }
      :: applyWeights weights links
  | _, links => links

/-- `set_rate_controlled_weights`. -/
def setRateControlledWeights (weights : List UInt32) (s : LinkScheduler) :
    LinkScheduler :=
  recalculateTotalWeight { s with links := applyWeights weights s.links }

/-- `set_weights` on the links: the weights alone, as far as both lists
go. -/
def giveWeights : List UInt32 → List LinkState → List LinkState
  | w :: weights, l :: links =>
      { l with weight := w } :: giveWeights weights links
  | _, links => links

/-- `set_weights`. -/
def setWeights (weights : List UInt32) (s : LinkScheduler) : LinkScheduler :=
  recalculateTotalWeight { s with links := giveWeights weights s.links }

/-- `force_recalculate`: back to the configured weights, without
measurements. -/
def forceRecalculate (s : LinkScheduler) : LinkScheduler :=
  recalculateTotalWeight { s with
    links := s.links.map fun l => { l with
      weight := LinkState.bandwidthToWeight l.configuredBandwidthBps
      measuredBandwidthBps := 0 } }

/-- The loop of `weighted_select`: the first weighted link that the
cumulative weight takes past the position. -/
def selectFrom (pos : UInt32) : UInt32 → List LinkState → Option Nat
  | _, [] => none
  | cumulative, l :: links =>
      if l.weight = 0 then selectFrom pos cumulative links
      else if pos < cumulative + l.weight then some l.id
      else selectFrom pos (cumulative + l.weight) links

/-- `weighted_select`: the link and the scheduler with its cursor
advanced. -/
def weightedSelect (s : LinkScheduler) : Nat × LinkScheduler :=
  let cursor := s.cursor + 1
  let pos := (cursor % s.totalWeight.toUInt64).toUInt32
  let fallback := (s.links.find? (·.weight > 0)).map LinkState.id
  (((selectFrom pos 0 s.links).or fallback).getD 0, { s with cursor })

/-- `calculate_sync_delay`. -/
def calculateSyncDelay (targetLink : Nat) (s : LinkScheduler) : Nat :=
  match s.links[targetLink]? with
  | none => 0
  | some target =>
      let maxLatency := ((s.links.filter (·.weight > 0)).map
        LinkState.oneWayLatency).foldl max 0
      if maxLatency > target.oneWayLatency then
        min (maxLatency - target.oneWayLatency)
          (s.config.maxSendDelayMs.toNat * 1000000)
      else 0

/-- `record_sent` on the chosen link, if it exists. -/
def recordSent (linkId : Nat) (chunkSize : UInt64) (s : LinkScheduler) :
    LinkScheduler :=
  { s with links := s.links.modify linkId (LinkState.recordSent chunkSize) }

/-- `schedule_single_link`. -/
def scheduleSingleLink (chunkSize : UInt64) (s : LinkScheduler) :
    ScheduleDecision × LinkScheduler :=
  let (linkId, s) := s.weightedSelect
  let s := s.recordSent linkId chunkSize
  ({ linkId
     delay := 0
     participatingLinks := List.range s.links.length }, s)

/-- `schedule_multi_link`. -/
def scheduleMultiLink (chunkSize : UInt64) (s : LinkScheduler) :
    ScheduleDecision × LinkScheduler :=
  let (linkId, s) := s.weightedSelect
  let delay := if s.config.enableSync then s.calculateSyncDelay linkId else 0
  let s := s.recordSent linkId chunkSize
  ({ linkId
     delay
     participatingLinks :=
       (s.links.filter (·.weight > 0)).map LinkState.id }, s)

/-- `schedule`. -/
def schedule (chunkSize : UInt64) (multiLink : Bool) (s : LinkScheduler) :
    ScheduleDecision × LinkScheduler :=
  if multiLink then s.scheduleMultiLink chunkSize
  else s.scheduleSingleLink chunkSize

end LinkScheduler

-- ================================================================= calls

/-- The calls that change a scheduler, with their clock readings. -/
inductive SchedulerOp where
  | updateLink (linkId : Nat) (measuredBandwidthBps rttUs : UInt64)
      (now : Nat)
  | setWeights (weights : List UInt32)
  | setRateControlledWeights (weights : List UInt32)
  | forceRecalculate
  | schedule (chunkSize : UInt64) (multiLink : Bool)

/-- One call. -/
def SchedulerOp.apply : SchedulerOp → LinkScheduler → LinkScheduler
  | .updateLink linkId measuredBandwidthBps rttUs now, s =>
      s.updateLink linkId measuredBandwidthBps rttUs now
  | .setWeights weights, s => s.setWeights weights
  | .setRateControlledWeights weights, s =>
      s.setRateControlledWeights weights
  | .forceRecalculate, s => s.forceRecalculate
  | .schedule chunkSize multiLink, s => (s.schedule chunkSize multiLink).2

/-- The scheduler behind some calls. -/
def LinkScheduler.after (ops : List SchedulerOp) (s : LinkScheduler) :
    LinkScheduler :=
  ops.foldl (fun s op => op.apply s) s

/-- The links that the `schedule` calls among some calls return. -/
def LinkScheduler.scheduled : List SchedulerOp → LinkScheduler → List Nat
  | [], _ => []
  | .schedule chunkSize multiLink :: ops, s =>
      let (decision, s) := s.schedule chunkSize multiLink
      decision.linkId :: scheduled ops s
  | op :: ops, s => scheduled ops (op.apply s)

-- ================================================================= tasks

/-- Where the stats update task stands: before the `update_link` of a
link, before the rate controller's section, or with weights to push. -/
inductive StatsPc where
  | update (linkId : Nat)
  | rateControl
  | push (weights : List UInt32)

/-- The loop over the links, at a link. -/
def StatsPc.atLink (numLinks linkId : Nat) : StatsPc :=
  if linkId < numLinks then .update linkId else .rateControl

/-- The scheduler between the two tasks. What follows `pc` is recorded
about the run: the last weights pushed, whether the configured weights
were restored since, and each scheduled link with the weights last
pushed before it. -/
structure Tasks where
  scheduler : LinkScheduler
  pc : StatsPc
  lastPush : Option (List UInt32)
  refreshed : Bool
  picks : List (Option (List UInt32) × Nat)

/-- The lock sections of the two tasks. The rate controller is shared
with other tasks, so its section finds any controller. -/
inductive TaskStep where
  | updateLink (measuredBandwidthBps rttUs : UInt64) (now : Nat)
  | rateControl (rc : RateController) (now : Nat → Nat)
  | setWeights
  | schedule (chunkSize : UInt64) (multiLink : Bool)

namespace Tasks

def start (config : LinkSchedulerConfig)
    (configuredBandwidths : List UInt64) (now : Nat) : Tasks where
  scheduler := LinkScheduler.new config configuredBandwidths now
  pc := StatsPc.atLink configuredBandwidths.length 0
  lastPush := none
  refreshed := false
  picks := []

/-- One lock section. The controller and the scheduler are built for
the same links. -/
def step : TaskStep → Tasks → Option Tasks
  | .updateLink measuredBandwidthBps rttUs now, s =>
      match s.pc with
      | .update linkId => some { s with
          scheduler :=
            s.scheduler.updateLink linkId measuredBandwidthBps rttUs now
          pc := StatsPc.atLink s.scheduler.links.length (linkId + 1)
          refreshed := s.refreshed || s.scheduler.adjustmentDue now }
      | _ => none
  | .rateControl rc now, s =>
      match s.pc with
      | .rateControl =>
          if rc.states.length = s.scheduler.links.length then some { s with
            pc := .push ((rc.checkTimeouts now).weights.map UInt32.ofNat) }
          else none
      | _ => none
  | .setWeights, s =>
      match s.pc with
      | .push weights => some { s with
          scheduler := s.scheduler.setRateControlledWeights weights
          pc := StatsPc.atLink s.scheduler.links.length 0
          lastPush := some weights
          refreshed := false }
      | _ => none
  | .schedule chunkSize multiLink, s =>
      let (decision, scheduler) := s.scheduler.schedule chunkSize multiLink
      some { s with
        scheduler
        picks := s.picks ++ [(s.lastPush, decision.linkId)] }

end Tasks

end ChainLightning
