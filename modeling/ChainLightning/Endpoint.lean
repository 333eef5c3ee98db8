/-
The two programs (client/src/main.rs, server/src/main.rs), and both of
them with the network in between.

A program is a pool of tasks over the components it shares. A task
repeats its round; a round is a list of actions, each of which is one
lock section, one channel operation or one socket call. An action may
yield further actions that stand in front of the rest of its round, as a
computed chunk yields the send that follows. The programs differ where
the source does: the server learns the clients' addresses and replies to
them, the client's sockets are connected and it sends keepalives. The
server gives up the lock of its addresses between the lookup and the
socket call, so either is an action of its own.

What an action reads from outside (clocks, the outcome of a socket
call) is its `Reading`. A datagram handed to a socket is in the log
`sent` from then on, and the network may deliver any logged datagram at
any later moment, any number of times, or never. A packet handed to
`write(2)` is in the log `written`, whatever becomes of it there: the
source drops the result of the call.

The rate controller's arithmetic is checked (RateController.lean), so an
action on it is disabled where it would overflow; that of the other
components wraps.
-/
import ChainLightning.Lib.Pool
import ChainLightning.Lib.Trace
import ChainLightning.Receiver
import ChainLightning.Scheduler
import ChainLightning.Stats

namespace ChainLightning

-- ============================================================== datagrams

/-- The two programs. -/
inductive Role where
  | client
  | server
  deriving DecidableEq

/-- The program on the far side. -/
def Role.peer : Role → Role
  | .client => .server
  | .server => .client

/-- Address of a datagram's sender, as the server's sockets (bound to
0.0.0.0) see it. -/
structure SocketAddr where
  ip : UInt32
  port : UInt16
  deriving DecidableEq, Repr

/-- Where a datagram goes: to the server a client's sockets are
connected to, or to a client's address. -/
inductive Dest where
  | server
  | client (addr : SocketAddr)
  deriving DecidableEq, Repr

/-- A datagram that was handed to the socket of a link. -/
structure Datagram where
  linkId : Nat
  dest : Dest
  bytes : List UInt8
  deriving DecidableEq, Repr

-- ================================================================== tasks

/-- The tasks of a program; every link has a receiver. -/
inductive Task where
  | tunReader
  | tunWriter
  | linkReceiver (linkId : Nat)
  | chunkSender
  | statsUpdater
  | timeoutChecker
  | probeSender
  | keepalive
  deriving DecidableEq

/-- The atomic actions of the tasks, under the task they occur in. -/
inductive Action where
  -- TUN reader, aggregation timeout checker
  | addPacket (packet : List UInt8) (flowId : Option FlowId)
  | checkTimeout
  | enqueue (chunk : Chunk)
  | recordPacketTx (bytes : Nat)
  -- TUN writer
  | takeReceived
  | writeTun (packet : List UInt8)
  | recordPacketRx (bytes : Nat)
  -- link receiver
  | learnAddr (linkId : Nat) (src : SocketAddr)
  | recordRx (linkId bytes : Nat)
  | recordChunkRx (bytes : Nat)
  | rateRx (linkId bytes : Nat)
  | forward (p : ChunkPacket)
  | sendAck (linkId : Nat) (chunkId : ChunkId) (src : SocketAddr)
  | handleAnnouncement (ann : AnnouncePacket)
  | handleAck (linkId : Nat) (ack : AckPacket)
  | processProbe (probe : ProbePacket)
  -- chunk sender
  | takeChunk
  | schedule (chunk : Chunk)
  | sendChunk (linkId : Nat) (chunk : Chunk)
  | transmitChunk (linkId : Nat) (dest : Dest) (chunk : Chunk)
  | recordTx (linkId bytes : Nat)
  | recordChunkTx (bytes : Nat)
  | rateTx (linkId bytes : Nat)
  -- stats updater
  | tickStats
  | readStats
  | updateLink (linkId : Nat) (bandwidthBps rttUs : UInt64)
  | updateLinkStats (linkId : Nat) (bandwidthBps : UInt64) (rttMs : UInt32)
  | checkRates
  | setWeights (weights : List UInt32)
  | snapshot
  -- probe sender, keepalive
  | buildProbes
  | sendProbe (probe : ProbePacket)
  | transmitProbe (dest : Dest) (probe : ProbePacket)
  | sendKeepalive (linkId : Nat)
  deriving DecidableEq

/-- What an action reads from outside. -/
structure Reading where
  /-- `now_micros()`. -/
  micros : UInt64
  /-- The successive readings of `Instant::now()`. -/
  instant : Nat → Nat
  /-- The readings of `now_micros()` by `build_probes`, by link. -/
  linkMicros : Nat → UInt64
  /-- Whether the socket call succeeds. -/
  sendOk : Bool

-- =============================================================== programs

/-- `expected_bandwidth_up` of the links, which the client is set up
with. -/
def expectedBandwidthUp : List UInt64 :=
  [1375000, 2500000, 1375000, 2500000, 1375000]

/-- `expected_bandwidth_down` of the links, which the server is set up
with. -/
def expectedBandwidthDown : List UInt64 :=
  [7500000, 27500000, 7500000, 27500000, 7500000]

/-- What the tasks of one program share, and what they put out. -/
structure Endpoint where
  numLinks : Nat
  aggregator : ChunkAggregator
  scheduler : LinkScheduler
  receiver : ChunkReceiver
  stats : StatsCollector
  metrics : MetricsCollector
  rateController : RateController
  /-- Learned client addresses for each link (server). -/
  addrs : List (Option SocketAddr)
  /-- The queue of the chunk sender. -/
  toLinks : List Chunk
  /-- The queue of the TUN writer. -/
  fromLinks : List Chunk
  /-- Every datagram handed to a socket, oldest first. -/
  sent : List Datagram
  /-- Every packet handed to `write(2)` on the TUN device, oldest first. -/
  written : List (List UInt8)

namespace Endpoint

/-- The capacity of the two queues. -/
def channelCapacity : Nat := 1000

/-- The start of `main`: no address learned, nothing queued. -/
def start (config : Config) (linkBandwidths : List UInt64)
    (now : Nat → Nat) : Endpoint :=
  let numLinks := linkBandwidths.length
  { numLinks
    aggregator := ChunkAggregator.new config.chunkAggregator numLinks (now 0)
    scheduler := LinkScheduler.new config.linkScheduler linkBandwidths (now 1)
    receiver := ChunkReceiver.new config.receiver
    stats := StatsCollector.new numLinks config.stats.ewmaAlpha
      config.stats.bandwidthWindowMs fun id => now (2 + id)
    metrics := MetricsCollector.new
    rateController := RateController.new config.rateControl
      (linkBandwidths.map UInt64.toNat) fun id => now (2 + numLinks + id)
    addrs := List.replicate numLinks none
    toLinks := []
    fromLinks := []
    sent := []
    written := [] }

/-- Learn or update the client's address for a link. -/
def learn (linkId : Nat) (src : SocketAddr) (e : Endpoint) : Endpoint :=
  if e.addrs[linkId]? ≠ some (some src) then
    { e with addrs := e.addrs.set linkId (some src) }
  else e

/-- Where a link's data and probes go, if anywhere: a server link whose
client has not been heard of is skipped. -/
def destination (role : Role) (linkId : Nat) (e : Endpoint) : Option Dest :=
  if linkId < e.numLinks then
    match role with
    | .client => some .server
    | .server => e.addrs[linkId]?.join.map .client
  else none

/-- Hand a datagram to the socket of a link; one that the socket does not
send is not logged. -/
def transmit (r : Reading) (linkId : Nat) (dest : Dest) (bytes : List UInt8)
    (e : Endpoint) : Endpoint :=
  if r.sendOk then { e with sent := e.sent ++ [{ linkId, dest, bytes }] }
  else e

/-- The datagram a chunk is sent as. -/
def chunkBytes (linkId : Nat) (chunk : Chunk) : List UInt8 :=
  (chunk.toPacket (UInt8.ofNat linkId)).encode

/-- The acknowledgement of a chunk. -/
def ackBytes (linkId : Nat) (chunkId : ChunkId) (now : UInt64) :
    List UInt8 :=
  AckPacket.encode {
    chunkId
    linkId := UInt8.ofNat linkId
    echoTimestampUs := 0
    recvTimestampUs := now }

/-- The keepalive of a link. -/
def keepaliveBytes (linkId : Nat) (now : UInt64) : List UInt8 :=
  KeepalivePacket.encode { linkId := UInt8.ofNat linkId, timestampUs := now }

/-- A chunk to the destination of its link; only a chunk that went out is
counted. -/
def transmitChunk (r : Reading) (linkId : Nat) (dest : Dest) (chunk : Chunk)
    (e : Endpoint) : List Action × Endpoint :=
  let encoded := chunkBytes linkId chunk
  (if r.sendOk then
      [.recordTx linkId encoded.length, .recordChunkTx chunk.size,
        .rateTx linkId encoded.length]
    else [],
   e.transmit r linkId dest encoded)

/-- Where a reply to the sender of a datagram goes. -/
def replyDest (role : Role) (src : SocketAddr) : Dest :=
  match role with
  | .client => .server
  | .server => .client src

/-- The RTT sample of an acknowledgement. -/
def handleAck (now : UInt64) (linkId : Nat) (ack : AckPacket)
    (e : Endpoint) : Endpoint :=
  if ack.echoTimestampUs > 0 ∧ now > ack.echoTimestampUs then
    { e with
      stats := e.stats.recordRtt linkId (now - ack.echoTimestampUs) }
  else e

/-- The updates of one round of the stats updater, a link after the
other. -/
def linkUpdates (s : StatsCollector) : List Action :=
  ((s.bandwidths.zip s.rtts).mapIdx fun i (bw, rtt) =>
    [.updateLink i bw rtt, .updateLinkStats i bw (rtt / 1000).toUInt32]).flatten

/-- One action: what it leaves to do next, and the state behind it. -/
def exec (role : Role) (r : Reading) :
    Action → Endpoint → Option (List Action × Endpoint)
  | .addPacket packet flowId, e =>
      let (chunk, aggregator) :=
        e.aggregator.addPacket packet flowId (r.instant 0)
      some (chunk.toList.map .enqueue, { e with aggregator })
  | .checkTimeout, e =>
      let (chunk, aggregator) :=
        e.aggregator.checkTimeout (r.instant 0) (r.instant 1)
      some (chunk.toList.map .enqueue, { e with aggregator })
  | .enqueue chunk, e =>
      if e.toLinks.length < channelCapacity then
        some ([], { e with toLinks := e.toLinks ++ [chunk] })
      else none
  | .recordPacketTx bytes, e =>
      some ([], { e with
        metrics := e.metrics.recordPacketTx (UInt64.ofNat bytes) })
  | .takeReceived, e =>
      match e.fromLinks with
      | [] => none
      | chunk :: rest =>
          some (chunk.extractPackets.map .writeTun,
            { e with fromLinks := rest })
  | .writeTun packet, e =>
      some ([.recordPacketRx packet.length],
        { e with written := e.written ++ [packet] })
  | .recordPacketRx bytes, e =>
      some ([], { e with
        metrics := e.metrics.recordPacketRx (UInt64.ofNat bytes) })
  | .learnAddr linkId src, e => some ([], e.learn linkId src)
  | .recordRx linkId bytes, e =>
      some ([], { e with
        stats := e.stats.recordRx linkId (UInt64.ofNat bytes) })
  | .recordChunkRx bytes, e =>
      some ([], { e with
        metrics := e.metrics.recordChunkRx (UInt64.ofNat bytes) })
  | .rateRx linkId bytes, e => do
      let rateController ← e.rateController.recordRx linkId bytes
      some ([], { e with rateController })
  | .forward p, e =>
      if e.fromLinks.length < channelCapacity then
        some ([], { e with
          fromLinks := e.fromLinks ++ [p.toChunk (r.instant 0)] })
      else none
  | .sendAck linkId chunkId src, e =>
      some ([], e.transmit r linkId (replyDest role src)
        (ackBytes linkId chunkId r.micros))
  | .handleAnnouncement ann, e =>
      some ([], { e with
        receiver := e.receiver.handleAnnouncement ann (r.instant 0) })
  | .handleAck linkId ack, e => some ([], e.handleAck r.micros linkId ack)
  | .processProbe probe, e => do
      let rateController ← e.rateController.processProbe
        { micros := r.micros, instant := r.instant 0 } probe
      some ([], { e with rateController })
  | .takeChunk, e =>
      match e.toLinks with
      | [] => none
      | chunk :: rest =>
          some ([.schedule chunk], { e with toLinks := rest })
  | .schedule chunk, e =>
      let (decision, scheduler) :=
        e.scheduler.schedule (UInt64.ofNat chunk.size) false
      some ([.sendChunk decision.linkId chunk], { e with scheduler })
  | .sendChunk linkId chunk, e =>
      some ((e.destination role linkId).toList.map fun dest =>
        .transmitChunk linkId dest chunk, e)
  | .transmitChunk linkId dest chunk, e =>
      some (e.transmitChunk r linkId dest chunk)
  | .recordTx linkId bytes, e =>
      some ([], { e with
        stats := e.stats.recordTx linkId (UInt64.ofNat bytes) })
  | .recordChunkTx bytes, e =>
      some ([], { e with
        metrics := e.metrics.recordChunkTx (UInt64.ofNat bytes) })
  | .rateTx linkId bytes, e => do
      let rateController ← e.rateController.recordTx linkId bytes
      some ([], { e with rateController })
  | .tickStats, e => some ([], { e with stats := e.stats.tick r.instant })
  | .readStats, e => some (linkUpdates e.stats, e)
  | .updateLink linkId bandwidthBps rttUs, e =>
      some ([], { e with
        scheduler :=
          e.scheduler.updateLink linkId bandwidthBps rttUs (r.instant 0) })
  | .updateLinkStats linkId bandwidthBps rttMs, e =>
      some ([], { e with
        aggregator := e.aggregator.updateLinkStats linkId bandwidthBps rttMs })
  | .checkRates, e =>
      let rateController := e.rateController.checkTimeouts r.instant
      some ([.setWeights (rateController.weights.map UInt32.ofNat)],
        { e with rateController })
  | .setWeights weights, e =>
      some ([], { e with
        scheduler := e.scheduler.setRateControlledWeights weights })
  | .snapshot, e => some ([], { e with metrics := e.metrics.snapshot.2 })
  | .buildProbes, e => do
      let (probes, rateController) ←
        e.rateController.buildProbes r.linkMicros
      some (probes.map .sendProbe, { e with rateController })
  | .sendProbe probe, e =>
      some ((e.destination role probe.linkId.toNat).toList.map fun dest =>
        .transmitProbe dest probe, e)
  | .transmitProbe dest probe, e =>
      some ([], e.transmit r probe.linkId.toNat dest probe.encode)
  | .sendKeepalive linkId, e =>
      some ([], e.transmit r linkId .server (keepaliveBytes linkId r.micros))

end Endpoint

-- ================================================================= rounds

/-- A round of a task, with what starts it. -/
inductive Round where
  | readTun (packet : List UInt8) (flowId : Option FlowId)
  | writeTun
  | receive (linkId : Nat) (bytes : List UInt8) (src : SocketAddr)
  | sendChunk
  | updateStats
  | checkTimeout
  | sendProbes
  | sendKeepalives

namespace Round

/-- The task a round belongs to. -/
def task : Round → Task
  | .readTun _ _ => .tunReader
  | .writeTun => .tunWriter
  | .receive linkId _ _ => .linkReceiver linkId
  | .sendChunk => .chunkSender
  | .updateStats => .statsUpdater
  | .checkTimeout => .timeoutChecker
  | .sendProbes => .probeSender
  | .sendKeepalives => .keepalive

/-- When a round can start: the TUN buffer holds 2000 bytes, probes need
rate control, and only the client sends keepalives. -/
def enabled (role : Role) (e : Endpoint) : Round → Bool
  | .readTun packet _ => 0 < packet.length ∧ packet.length ≤ 2000
  | .receive linkId _ _ => linkId < e.numLinks
  | .sendProbes => e.rateController.config.enabled
  | .sendKeepalives => role = .client
  | _ => true

/-- What is done with a datagram, once it is decoded. -/
def handle (linkId n : Nat) (src : SocketAddr) : Option Packet → List Action
  | some (.data p) =>
      [.recordRx linkId n, .recordChunkRx p.payload.length, .rateRx linkId n,
       .forward p, .sendAck linkId p.chunkId src]
  | some (.announce ann) => [.handleAnnouncement ann]
  | some (.ack ack) => [.handleAck linkId ack]
  | some (.probe probe) => [.processProbe probe]
  | _ => []

/-- The actions of a round. The server learns a datagram's sender before
it decodes the datagram. -/
def actions (statsFromSlice : List UInt8 → Option StatsPacket) (role : Role)
    (e : Endpoint) : Round → List Action
  | .readTun packet flowId =>
      [.addPacket packet flowId, .recordPacketTx packet.length]
  | .writeTun => [.takeReceived]
  | .receive linkId bytes src =>
      let handled :=
        handle linkId bytes.length src (Packet.decode statsFromSlice bytes)
      match role with
      | .client => handled
      | .server => .learnAddr linkId src :: handled
  | .sendChunk => [.takeChunk]
  | .updateStats =>
      [.tickStats, .readStats]
        ++ (if e.rateController.config.enabled then [.checkRates] else [])
        ++ [.snapshot]
  | .checkTimeout => [.checkTimeout]
  | .sendProbes => [.buildProbes]
  | .sendKeepalives => (List.range e.numLinks).map .sendKeepalive

end Round

-- =================================================================== runs

/-- A program: its tasks over the state they share. -/
abbrev Program := Pool Task Action Endpoint

/-- A step of a program. -/
inductive ProgramStep where
  | begin (round : Round)
  | perform (task : Task) (reading : Reading)

/-- One step of a program. -/
def Program.step (statsFromSlice : List UInt8 → Option StatsPacket)
    (role : Role) : ProgramStep → Program → Option Program
  | .begin round, p =>
      if round.enabled role p.shared then
        p.begin round.task (round.actions statsFromSlice role p.shared)
      else none
  | .perform task reading, p => p.perform (Endpoint.exec role) reading task

/-- Both programs. -/
structure System where
  client : Program
  server : Program

namespace System

/-- The program in a role. -/
def program (s : System) : Role → Program
  | .client => s.client
  | .server => s.server

/-- Replace the program in a role. -/
def set (s : System) : Role → Program → System
  | .client, p => { s with client := p }
  | .server, p => { s with server := p }

@[simp] theorem program_set_self (s : System) (role : Role) (p : Program) :
    (s.set role p).program role = p := by
  cases role <;> rfl

theorem program_set_of_ne {role role' : Role} (h : role' ≠ role)
    (s : System) (p : Program) :
    (s.set role p).program role' = s.program role' := by
  cases role <;> cases role' <;> first | rfl | exact absurd rfl h

/-- Both programs at their start. -/
def start (config : Role → Config) (linkBandwidths : Role → List UInt64)
    (now : Role → Nat → Nat) : System where
  client := Pool.idle (Endpoint.start (config .client)
    (linkBandwidths .client) (now .client))
  server := Pool.idle (Endpoint.start (config .server)
    (linkBandwidths .server) (now .server))

end System

/-- A step of the system: a program starts a round that the network has
no part in, or performs an action; or the network delivers a datagram
that the far side has sent, with the source address it carries when it
arrives. -/
inductive SystemStep where
  | begin (role : Role) (round : Round)
  | perform (role : Role) (task : Task) (reading : Reading)
  | deliver (role : Role) (i : Nat) (src : SocketAddr)

/-- A round that starts with a datagram. -/
def Round.isReceive : Round → Bool
  | .receive _ _ _ => true
  | _ => false

/-- One step of the system. -/
def System.step (statsFromSlice : List UInt8 → Option StatsPacket) :
    SystemStep → System → Option System
  | .begin role round, s =>
      if round.isReceive then none
      else (Program.step statsFromSlice role (.begin round)
        (s.program role)).map (s.set role)
  | .perform role task reading, s =>
      (Program.step statsFromSlice role (.perform task reading)
        (s.program role)).map (s.set role)
  | .deliver role i src, s => do
      let d ← (s.program role.peer).shared.sent[i]?
      let p ← Program.step statsFromSlice role
        (.begin (.receive d.linkId d.bytes src)) (s.program role)
      some (s.set role p)

end ChainLightning
