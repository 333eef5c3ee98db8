/-
The chunk aggregator (core/src/chunk_aggregator.rs), with the two ends
it stands between: the sender task that wraps an emitted chunk in a data
packet, and the receiver task that makes a chunk of a received one
(client/src/main.rs).

Clock readings are inputs, a number of nanoseconds each. The
bandwidth-delay calculation converts its integers to `f64` and rounds
each step to the nearest double; the casts back to `usize`, a 64-bit
integer, truncate.
-/
import ChainLightning.Lib.Binary64
import ChainLightning.Lib.Trace
import ChainLightning.Protocol
import ChainLightning.Config

namespace ChainLightning

open Binary64 Bytes Machine

-- ================================================================ chunks

/-- A chunk of aggregated packets. -/
structure Chunk where
  id : ChunkId
  flowId : Option FlowId
  data : List UInt8
  /-- Individual packet boundaries (offsets within data). -/
  packetOffsets : List Nat
  createdAt : Nat
  deriving DecidableEq

namespace Chunk

/-- `Chunk::new`: a new empty chunk. -/
def new (id : ChunkId) (now : Nat) : Chunk where
  id := id
  flowId := none
  data := []
  packetOffsets := []
  createdAt := now

/-- `Chunk::add_packet`: the packet behind its length, which is cast to
16 bits. -/
def addPacket (packet : List UInt8) (c : Chunk) : Chunk :=
  { c with
    packetOffsets := c.packetOffsets ++ [c.data.length]
    data := c.data ++ beBytes 2 (UInt16.ofNat packet.length).toNat
      ++ packet }

def packetCount (c : Chunk) : Nat := c.packetOffsets.length

def size (c : Chunk) : Nat := c.data.length

def isEmpty (c : Chunk) : Bool := c.data.isEmpty

/-- The loop of `extract_packets`, from an offset on. -/
def extractFrom (data : List UInt8) (offset : Nat) : List (List UInt8) :=
  if offset + 2 ≤ data.length then
    let len := (u16At data offset (offset + 2)).toNat
    if offset + 2 + len ≤ data.length then
      slice data (offset + 2) (offset + 2 + len)
        :: extractFrom data (offset + 2 + len)
    else []
  else []
termination_by data.length - offset

/-- `Chunk::extract_packets`. -/
def extractPackets (c : Chunk) : List (List UInt8) := extractFrom c.data 0

/-- The sender task: the whole chunk as one data packet. -/
def toPacket (linkId : UInt8) (c : Chunk) : ChunkPacket where
  chunkId := c.id
  linkId := linkId
  totalSize := UInt32.ofNat c.size
  offset := 0
  payload := c.data

end Chunk

/-- The receiver task: a chunk with the packet's id and payload. -/
def ChunkPacket.toChunk (now : Nat) (p : ChunkPacket) : Chunk :=
  { Chunk.new p.chunkId now with data := p.payload }

-- ============================================================ aggregator

structure ChunkAggregator where
  config : ChunkAggregatorConfig
  currentChunk : Chunk
  nextChunkId : ChunkId
  /-- Bandwidth in bytes/sec and round trip in ms, per link. -/
  linkStats : List (UInt64 × UInt32)
  optimalChunkSize : Nat

namespace ChunkAggregator

/-- `ChunkAggregator::new`. -/
def new (config : ChunkAggregatorConfig) (numLinks now : Nat) :
    ChunkAggregator where
  config := config
  currentChunk := Chunk.new 0 now
  nextChunkId := 1
  linkStats := List.replicate numLinks (0, 0)
  optimalChunkSize := config.minChunkSize

/-- The bandwidth-delay product of one link, in bytes: each step is
rounded to a double. -/
def linkBdp (stats : UInt64 × UInt32) : Nat :=
  trunc 64
    (rnd (rnd (rnd (stats.1.toNat : ℚ) * rnd (stats.2.toNat : ℚ)) / 1000))

/-- The largest product over the measured links. -/
def maxBdp (linkStats : List (UInt64 × UInt32)) : Nat :=
  linkStats.foldl (fun maxBdp stats =>
    if stats.1 > 0 ∧ stats.2 > 0 then max maxBdp (linkBdp stats)
    else maxBdp) 0

/-- The chunk size for a bandwidth-delay product, clamped to the
configured bounds. -/
def chunkSizeFor (config : ChunkAggregatorConfig) (bdp : Nat) : Nat :=
  let target := (config.bdpMultiplier.product (rnd (bdp : ℚ))).toNat 64
  min (max target config.minChunkSize) config.maxChunkSize

/-- `recalculate_chunk_size`. -/
def recalculateChunkSize (a : ChunkAggregator) : ChunkAggregator :=
  let maxBdp := maxBdp a.linkStats
  if maxBdp > 0 then
    { a with optimalChunkSize := chunkSizeFor a.config maxBdp }
  else a

/-- `update_link_stats`. -/
def updateLinkStats (linkId : Nat) (bandwidthBps : UInt64) (rttMs : UInt32)
    (a : ChunkAggregator) : ChunkAggregator :=
  if linkId < a.linkStats.length then
    recalculateChunkSize
      { a with linkStats := a.linkStats.set linkId (bandwidthBps, rttMs) }
  else a

/-- `finalize_current_chunk`: the current chunk, renumbered, and the
aggregator with a new one. -/
def finalizeCurrentChunk (now : Nat) (a : ChunkAggregator) :
    Chunk × ChunkAggregator :=
  ({ a.currentChunk with id := a.nextChunkId - 1 },
   { a with
     currentChunk := Chunk.new a.nextChunkId now
     nextChunkId := a.nextChunkId.next })

/-- Put a packet into the current chunk. -/
def pushCurrent (packet : List UInt8) (a : ChunkAggregator) :
    ChunkAggregator :=
  { a with currentChunk := a.currentChunk.addPacket packet }

/-- Set the flow of the current chunk. -/
def setFlow (flowId : Option FlowId) (a : ChunkAggregator) :
    ChunkAggregator :=
  { a with currentChunk := { a.currentChunk with flowId := flowId } }

/-- `add_packet`: a chunk comes out when the packet does not fit behind
what is there, or when it fills the chunk. -/
def addPacket (packet : List UInt8) (flowId : Option FlowId) (now : Nat)
    (a : ChunkAggregator) : Option Chunk × ChunkAggregator :=
  let newSize := a.currentChunk.size + 2 + packet.length
  if newSize > a.optimalChunkSize ∧ ¬a.currentChunk.isEmpty then
    -- current chunk is full: finalize and start a new one
    let (ready, a) := a.finalizeCurrentChunk now
    let a := a.pushCurrent packet
    (some ready, if flowId.isSome then a.setFlow flowId else a)
  else
    let a := a.pushCurrent packet
    let a := if flowId.isSome ∧ a.currentChunk.flowId.isNone then
      a.setFlow flowId else a
    if a.currentChunk.size ≥ a.optimalChunkSize then
      let (ready, a) := a.finalizeCurrentChunk now
      (some ready, a)
    else (none, a)

/-- `flush`. -/
def flush (now : Nat) (a : ChunkAggregator) :
    Option Chunk × ChunkAggregator :=
  if a.currentChunk.isEmpty then (none, a)
  else
    let (ready, a) := a.finalizeCurrentChunk now
    (some ready, a)

/-- `check_timeout`: `read` is the clock when the age is taken, `now`
when the new chunk is made. -/
def checkTimeout (read now : Nat) (a : ChunkAggregator) :
    Option Chunk × ChunkAggregator :=
  if a.currentChunk.isEmpty then (none, a)
  else
    let elapsed := read - a.currentChunk.createdAt
    if elapsed ≥ a.config.aggregationTimeoutMs.toNat * 1000000 then
      a.flush now
    else (none, a)

/-- `next_id`, for announcements. -/
def nextId (a : ChunkAggregator) : ChunkId := a.currentChunk.id

end ChunkAggregator

-- ================================================================== runs

/-- The calls an aggregator receives. -/
inductive AggOp where
  | addPacket (packet : List UInt8) (flowId : Option FlowId) (now : Nat)
  | flush (now : Nat)
  | checkTimeout (read now : Nat)
  | updateLinkStats (linkId : Nat) (bandwidthBps : UInt64) (rttMs : UInt32)

namespace AggOp

/-- The packets a call adds. -/
def packets : AggOp → List (List UInt8)
  | .addPacket packet _ _ => [packet]
  | _ => []

/-- The call on the aggregator: the chunk it emits, if any, and the
state behind it. -/
def apply : AggOp → ChunkAggregator → Option Chunk × ChunkAggregator
  | .addPacket packet flowId now, a => a.addPacket packet flowId now
  | .flush now, a => a.flush now
  | .checkTimeout read now, a => a.checkTimeout read now
  | .updateLinkStats linkId bandwidthBps rttMs, a =>
      (none, a.updateLinkStats linkId bandwidthBps rttMs)

end AggOp

/-- An aggregator in a run, with what went through it: the packets that
no emitted chunk holds, and each emitted chunk with the packets that
were put into it. -/
structure Feed where
  agg : ChunkAggregator
  unsent : List (List UInt8)
  emitted : List (Chunk × List (List UInt8))

namespace Feed

def start (config : ChunkAggregatorConfig) (numLinks now : Nat) : Feed where
  agg := ChunkAggregator.new config numLinks now
  unsent := []
  emitted := []

/-- One call. The packets of an emitted chunk are the oldest of those
not emitted, as many as were added to the chunk. -/
def step (op : AggOp) (s : Feed) : Option Feed :=
  let unsent := s.unsent ++ op.packets
  match op.apply s.agg with
  | (none, agg) => some { s with agg, unsent }
  | (some c, agg) => some {
      agg
      unsent := unsent.drop c.packetCount
      emitted := s.emitted ++ [(c, unsent.take c.packetCount)] }

/-- The emitted chunks, in emission order. -/
def chunks (s : Feed) : List Chunk := s.emitted.map Prod.fst

end Feed

end ChainLightning
