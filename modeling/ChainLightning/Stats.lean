/-
The two collectors that the tasks of a program report to: the per-link
statistics (core/src/stats.rs) and the traffic counters
(common/src/metrics.rs).

Counters are the machine's own integers and wrap, as in a release build.
The link averages are rounded as the source's `f64` operations are, and
truncated by the casts back; the smoothing factor is a configured double.
Latencies in milliseconds and their averages are exact. Instants and
durations are nanoseconds, and every reading of the clock is an input.
-/
import Mathlib.Data.List.Sort
import ChainLightning.Lib.Binary64
import ChainLightning.Config

namespace ChainLightning

open Binary64 Machine

-- ======================================================== per-link stats

/-- Per-link statistics. -/
structure LinkStats where
  id : Nat
  -- in the current window
  txBytes : UInt64
  txPackets : UInt64
  rxBytes : UInt64
  rxPackets : UInt64
  /-- RTT samples (microseconds), oldest first. -/
  rttSamples : List UInt64
  /-- Smoothed RTT (EWMA, microseconds). -/
  smoothedRttUs : UInt64
  bandwidthBps : UInt64
  lossRatio : ℚ
  healthy : Bool
  /-- Pending bytes awaiting ACK. -/
  pendingBytes : UInt64
  windowStart : Nat

namespace LinkStats

/-- `LinkStats::new`. -/
def new (id now : Nat) : LinkStats where
  id := id
  txBytes := 0
  txPackets := 0
  rxBytes := 0
  rxPackets := 0
  rttSamples := []
  smoothedRttUs := 0
  bandwidthBps := 0
  lossRatio := 0
  healthy := true
  pendingBytes := 0
  windowStart := now

/-- `record_tx`. -/
def recordTx (bytes : UInt64) (l : LinkStats) : LinkStats :=
  { l with
    txBytes := l.txBytes + bytes
    txPackets := l.txPackets + 1
    pendingBytes := l.pendingBytes + bytes }

/-- `record_rx`. -/
def recordRx (bytes : UInt64) (l : LinkStats) : LinkStats :=
  { l with
    rxBytes := l.rxBytes + bytes
    rxPackets := l.rxPackets + 1 }

/-- `record_rtt`: the last hundred samples are kept, and the first one
sets the average. -/
def recordRtt (rttUs : UInt64) (alpha : Double) (l : LinkStats) :
    LinkStats :=
  let rttSamples := l.rttSamples ++ [rttUs]
  { l with
    rttSamples :=
      if rttSamples.length > 100 then rttSamples.tail else rttSamples
    smoothedRttUs :=
      if l.smoothedRttUs = 0 then rttUs
      else UInt64.ofNat ((Double.add
        (alpha.compl.product (rnd l.smoothedRttUs.toNat))
        (alpha.product (rnd rttUs.toNat))).toNat 64) }

/-- `update_bandwidth`: what was sent in a window that is over, per
second. `read` is the clock when the age is taken, `now` when the next
window starts. -/
def updateBandwidth (window read now : Nat) (l : LinkStats) : LinkStats :=
  let elapsed := read - l.windowStart
  if window ≤ elapsed then
    { l with
      bandwidthBps :=
        if 0 < asSecs elapsed then
          UInt64.ofNat (trunc 64 (rnd (rnd l.txBytes.toNat / asSecs elapsed)))
        else l.bandwidthBps
      txBytes := 0
      txPackets := 0
      rxBytes := 0
      rxPackets := 0
      windowStart := now }
  else l

/-- `update_health`. -/
def updateHealth (l : LinkStats) : LinkStats :=
  { l with
    healthy := !decide (l.lossRatio > 1 / 2)
      && !decide (l.smoothedRttUs > 500000) }

end LinkStats

-- ============================================================= collector

/-- Statistics collector for all links. -/
structure StatsCollector where
  links : List LinkStats
  ewmaAlpha : Double
  bandwidthWindow : Nat

namespace StatsCollector

/-- `StatsCollector::new`, with the instant read for each link. -/
def new (numLinks : Nat) (ewmaAlpha : Double) (bandwidthWindowMs : UInt64)
    (now : Nat → Nat) : StatsCollector where
  links := (List.range numLinks).map fun id => LinkStats.new id (now id)
  ewmaAlpha := ewmaAlpha
  bandwidthWindow := bandwidthWindowMs.toNat * 1000000

/-- `record_tx`. -/
def recordTx (linkId : Nat) (bytes : UInt64) (s : StatsCollector) :
    StatsCollector :=
  { s with links := s.links.modify linkId (LinkStats.recordTx bytes) }

/-- `record_rx`. -/
def recordRx (linkId : Nat) (bytes : UInt64) (s : StatsCollector) :
    StatsCollector :=
  { s with links := s.links.modify linkId (LinkStats.recordRx bytes) }

/-- `record_rtt`. -/
def recordRtt (linkId : Nat) (rttUs : UInt64) (s : StatsCollector) :
    StatsCollector :=
  { s with
    links := s.links.modify linkId (LinkStats.recordRtt rttUs s.ewmaAlpha) }

/-- `tick`: every link reads the clock twice. -/
def tick (clock : Nat → Nat) (s : StatsCollector) : StatsCollector :=
  { s with
    links := s.links.mapIdx fun i l =>
      (l.updateBandwidth s.bandwidthWindow (clock (2 * i))
        (clock (2 * i + 1))).updateHealth }

/-- `bandwidths`, in bytes/sec. -/
def bandwidths (s : StatsCollector) : List UInt64 :=
  s.links.map LinkStats.bandwidthBps

/-- `rtts`, in microseconds. -/
def rtts (s : StatsCollector) : List UInt64 :=
  s.links.map LinkStats.smoothedRttUs

end StatsCollector

-- =============================================================== metrics

/-- The counters of a metrics window that the tasks move. -/
structure RawCounters where
  bytesDown : UInt64
  bytesUp : UInt64
  packetsSent : UInt64
  packetsReceived : UInt64
  chunksSent : UInt64
  chunksReceived : UInt64
  /-- Latency samples (microseconds), oldest first. -/
  latencySamples : List UInt64

/-- `RawCounters::new`. -/
def RawCounters.new : RawCounters where
  bytesDown := 0
  bytesUp := 0
  packetsSent := 0
  packetsReceived := 0
  chunksSent := 0
  chunksReceived := 0
  latencySamples := []

/-- What `calculate_percentiles` returns, in milliseconds. -/
structure Percentiles where
  avg : ℚ
  min : ℚ
  max : ℚ
  p50 : ℚ
  p95 : ℚ
  p99 : ℚ

/-- `calculate_percentiles`. -/
def calculatePercentiles (samples : List UInt64) : Percentiles :=
  if samples.isEmpty then ⟨0, 0, 0, 0, 0, 0⟩
  else
    let sorted :=
      (samples.map fun s => (s.toNat : ℚ) / 1000).insertionSort (· ≤ ·)
    let n := sorted.length
    let rank (q : ℚ) := sorted.getD (trunc 64 (((n - 1 : Nat) : ℚ) * q)) 0
    { avg := sorted.sum / n
      min := sorted.getD 0 0
      max := sorted.getD (n - 1) 0
      p50 := rank (50 / 100)
      p95 := rank (95 / 100)
      p99 := rank (99 / 100) }

/-- A snapshot, as far as those counters go into it. -/
structure Metrics where
  bytesSent : UInt64
  bytesReceived : UInt64
  packetsSent : UInt64
  packetsReceived : UInt64
  chunksSent : UInt64
  chunksReceived : UInt64
  latencyAvgMs : ℚ
  latencyMinMs : ℚ
  latencyMaxMs : ℚ
  latencyP50Ms : ℚ
  latencyP95Ms : ℚ
  latencyP99Ms : ℚ
  latencyP50Us : UInt64
  latencyP99Us : UInt64

/-- Metrics collector. -/
structure MetricsCollector where
  counters : RawCounters
  history : List Metrics
  maxHistory : Nat

namespace MetricsCollector

/-- `MetricsCollector::new`. -/
def new : MetricsCollector where
  counters := RawCounters.new
  history := []
  maxHistory := 1000

/-- `record_packet_tx` (includes bytes). -/
def recordPacketTx (bytes : UInt64) (m : MetricsCollector) :
    MetricsCollector :=
  { m with counters := { m.counters with
      packetsSent := m.counters.packetsSent + 1
      bytesUp := m.counters.bytesUp + bytes } }

/-- `record_packet_rx` (includes bytes). -/
def recordPacketRx (bytes : UInt64) (m : MetricsCollector) :
    MetricsCollector :=
  { m with counters := { m.counters with
      packetsReceived := m.counters.packetsReceived + 1
      bytesDown := m.counters.bytesDown + bytes } }

/-- `record_chunk_tx`. -/
def recordChunkTx (bytes : UInt64) (m : MetricsCollector) :
    MetricsCollector :=
  { m with counters := { m.counters with
      chunksSent := m.counters.chunksSent + 1
      bytesUp := m.counters.bytesUp + bytes } }

/-- `record_chunk_rx`. -/
def recordChunkRx (bytes : UInt64) (m : MetricsCollector) :
    MetricsCollector :=
  { m with counters := { m.counters with
      chunksReceived := m.counters.chunksReceived + 1
      bytesDown := m.counters.bytesDown + bytes } }

/-- `record_latency_us`. -/
def recordLatencyUs (latencyUs : UInt64) (m : MetricsCollector) :
    MetricsCollector :=
  { m with counters := { m.counters with
      latencySamples := m.counters.latencySamples ++ [latencyUs] } }

/-- `snapshot`: file what was counted, and count anew. -/
def snapshot (m : MetricsCollector) : Metrics × MetricsCollector :=
  let samples := m.counters.latencySamples
  let latency := calculatePercentiles samples
  let metrics : Metrics := {
    bytesSent := m.counters.bytesUp
    bytesReceived := m.counters.bytesDown
    packetsSent := m.counters.packetsSent
    packetsReceived := m.counters.packetsReceived
    chunksSent := m.counters.chunksSent
    chunksReceived := m.counters.chunksReceived
    latencyAvgMs := latency.avg
    latencyMinMs := latency.min
    latencyMaxMs := latency.max
    latencyP50Ms := latency.p50
    latencyP95Ms := latency.p95
    latencyP99Ms := latency.p99
    latencyP50Us := samples.getD (samples.length / 2) 0
    latencyP99Us :=
      samples.getD (trunc 64 ((samples.length : ℚ) * (99 / 100))) 0 }
  let history :=
    if m.history.length ≥ m.maxHistory then m.history.tail else m.history
  (metrics, { m with
    counters := RawCounters.new
    history := history ++ [metrics] })

end MetricsCollector

end ChainLightning
