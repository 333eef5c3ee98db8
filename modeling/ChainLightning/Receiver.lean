/-
The chunk receiver and its reassembly buffer (core/src/receiver.rs).

Slots are kept by chunk id in an ordered map. `drain_ready` hands out
what is ready: in immediate mode every complete slot, in ordered mode
the front of the map as long as it is ready, or has timed out.

An id is a `u64` and a natural number here; the increment past it wraps,
and so do the statistics, as in a release build. Every reading of the
clock is an input, in nanoseconds: a drain takes the sequence of the
readings of its loop and of its pruning.
-/
import ChainLightning.Lib.OrdMap
import ChainLightning.Lib.Trace
import ChainLightning.Aggregator

namespace ChainLightning

-- ================================================================= slots

/-- Reassembly buffer slot. -/
structure BufferSlot where
  /-- Chunk data (if received). -/
  chunk : Option Chunk
  /-- Announcement (if received before data). -/
  announcement : Option AnnouncePacket
  expectedLink : Option Nat
  createdAt : Nat
  forwarded : Bool

namespace BufferSlot

/-- `BufferSlot::new`. -/
def new (now : Nat) : BufferSlot where
  chunk := none
  announcement := none
  expectedLink := none
  createdAt := now
  forwarded := false

def isReady (slot : BufferSlot) : Bool :=
  slot.chunk.isSome && !slot.forwarded

/-- `is_timed_out`, at a reading of the clock. -/
def isTimedOut (timeout now : Nat) (slot : BufferSlot) : Bool :=
  timeout < now - slot.createdAt

end BufferSlot

/-- Slots with their chunk ids, in increasing order. -/
abbrev Slots := OrdMap Nat BufferSlot

-- ================================================================ buffer

/-- Reassembly buffer for chunks. -/
structure ReassemblyBuffer where
  config : ReceiverConfig
  slots : Slots
  /-- Next expected chunk id (for in-order tracking). -/
  nextExpected : Nat
  highestSeen : Nat
  chunksReceived : UInt64
  chunksForwarded : UInt64
  chunksTimeout : UInt64

/-- The counters that the loop of an ordered drain moves. -/
structure Cursor where
  nextExpected : Nat
  chunksForwarded : UInt64
  chunksTimeout : UInt64

namespace Cursor

/-- Gap timed out: skip missing chunks. -/
def skipGap (id : Nat) (c : Cursor) : Cursor :=
  { c with
    chunksTimeout := c.chunksTimeout + UInt64.ofNat (id - c.nextExpected)
    nextExpected := id }

/-- A chunk was forwarded. -/
def forward (id : Nat) (c : Cursor) : Cursor :=
  { c with
    chunksForwarded := c.chunksForwarded + 1
    nextExpected := (id + 1) % 2 ^ 64 }

/-- Timeout: skip this slot. -/
def skipSlot (id : Nat) (c : Cursor) : Cursor :=
  { c with
    chunksTimeout := c.chunksTimeout + 1
    nextExpected := (id + 1) % 2 ^ 64 }

end Cursor

namespace ReassemblyBuffer

/-- `ReassemblyBuffer::new`. -/
def new (config : ReceiverConfig) : ReassemblyBuffer where
  config := config
  slots := OrdMap.empty
  nextExpected := 0
  highestSeen := 0
  chunksReceived := 0
  chunksForwarded := 0
  chunksTimeout := 0

/-- `record_announcement`: pre-allocates the slot. -/
def recordAnnouncement (ann : AnnouncePacket) (now : Nat)
    (b : ReassemblyBuffer) : ReassemblyBuffer :=
  let id := ann.chunkId.toNat
  { b with
    highestSeen := if id > b.highestSeen then id else b.highestSeen
    slots := b.slots.upsert id fun slot =>
      { slot.getD (BufferSlot.new now) with
        announcement := some ann
        expectedLink := some ann.linkId.toNat } }

/-- `store_chunk`. -/
def storeChunk (chunk : Chunk) (now : Nat) (b : ReassemblyBuffer) :
    ReassemblyBuffer :=
  let id := chunk.id.toNat
  { b with
    highestSeen := if id > b.highestSeen then id else b.highestSeen
    chunksReceived := b.chunksReceived + 1
    slots := b.slots.upsert id fun slot =>
      { slot.getD (BufferSlot.new now) with chunk := some chunk } }

/-- The loop of an ordered drain, over the slots from the first one on:
the chunks it forwards, the slots it leaves and the counters behind it.
A round reads the clock for the gap and for the slot. -/
def drainLoop (timeout : Nat) (clock : Nat → Nat) :
    List (Nat × BufferSlot) → Cursor →
      List Chunk × List (Nat × BufferSlot) × Cursor
  | [], c => ([], [], c)
  | (id, slot) :: rest, c =>
      if id > c.nextExpected ∧ ¬slot.isTimedOut timeout (clock 0) then
        -- still waiting for earlier chunks
        ([], (id, slot) :: rest, c)
      else
        let c := if id > c.nextExpected then c.skipGap id else c
        if slot.isReady then
          let (ready, left, c) :=
            drainLoop timeout (fun n => clock (n + 2)) rest (c.forward id)
          (slot.chunk.toList ++ ready, left, c)
        else if slot.isTimedOut timeout (clock 1) then
          drainLoop timeout (fun n => clock (n + 2)) rest (c.skipSlot id)
        else
          -- not ready yet, and not timed out
          ([], (id, slot) :: rest, c)

/-- The loop removes slots from the front. -/
theorem drainLoop_suffix (timeout : Nat) (clock : Nat → Nat)
    (slots : List (Nat × BufferSlot)) (c : Cursor) :
    (drainLoop timeout clock slots c).2.1 <:+ slots := by
  induction slots generalizing clock c with
  | nil => exact List.suffix_rfl
  | cons e rest ih =>
      obtain ⟨id, slot⟩ := e
      rw [drainLoop]
      dsimp only
      split
      case isTrue => exact List.suffix_rfl
      case isFalse =>
        split
        case isTrue => exact (ih _ _).trans (List.suffix_cons _ _)
        case isFalse =>
          split
          case isTrue => exact (ih _ _).trans (List.suffix_cons _ _)
          case isFalse => exact List.suffix_rfl

/-- The slots that have not timed out, one reading of the clock each. -/
def removeOld (timeout : Nat) (clock : Nat → Nat) :
    List (Nat × BufferSlot) → List (Nat × BufferSlot)
  | [] => []
  | (id, slot) :: rest =>
      let left := removeOld timeout (fun n => clock (n + 1)) rest
      if slot.isTimedOut timeout (clock 0) then left else (id, slot) :: left

theorem removeOld_sublist (timeout : Nat) (clock : Nat → Nat)
    (slots : List (Nat × BufferSlot)) :
    (removeOld timeout clock slots).Sublist slots := by
  induction slots generalizing clock with
  | nil => exact List.Sublist.refl _
  | cons e rest ih =>
      obtain ⟨id, slot⟩ := e
      rw [removeOld]
      split
      case isTrue => exact (ih _).cons _
      case isFalse => exact (ih _).cons_cons _

/-- `prune_old_slots`: keep at most `max_buffer_chunks` slots, the last
ones, and of these the ones younger than ten timeouts. -/
def pruneOldSlots (clock : Nat → Nat) (b : ReassemblyBuffer) :
    ReassemblyBuffer :=
  let excess := b.slots.entries.length - b.config.maxBufferChunks
  let timeout := (b.config.reorderTimeoutMs * 10).toNat * 1000000
  { b with
    chunksTimeout := b.chunksTimeout + UInt64.ofNat excess
    slots := b.slots.restrict
      (removeOld timeout clock (b.slots.entries.drop excess))
      ((removeOld_sublist _ _ _).trans (List.drop_sublist _ _)) }

/-- The reorder timeout, in nanoseconds. -/
def reorderTimeout (config : ReceiverConfig) : Nat :=
  config.reorderTimeoutMs.toNat * 1000000

/-- The immediate mode of `drain_ready`: forward in any order. -/
def drainImmediate (b : ReassemblyBuffer) :
    List Chunk × ReassemblyBuffer :=
  let ready := (b.slots.entries.filter (·.2.isReady)).filterMap (·.2.chunk)
  (ready, { b with
    chunksForwarded := b.chunksForwarded + UInt64.ofNat ready.length
    slots := b.slots.restrict
      (b.slots.entries.filter (!·.2.isReady)) List.filter_sublist })

/-- The ordered mode of `drain_ready`: forward in order with brief
wait. -/
def drainOrdered (clock : Nat → Nat) (b : ReassemblyBuffer) :
    List Chunk × ReassemblyBuffer :=
  let r := drainLoop (reorderTimeout b.config) clock b.slots.entries
    ⟨b.nextExpected, b.chunksForwarded, b.chunksTimeout⟩
  (r.1, { b with
    nextExpected := r.2.2.nextExpected
    chunksForwarded := r.2.2.chunksForwarded
    chunksTimeout := r.2.2.chunksTimeout
    slots := b.slots.restrict r.2.1
      (drainLoop_suffix _ _ _ _).sublist })

/-- `drain_ready`: the ready chunks, and the buffer pruned behind
them. -/
def drainReady (clock pruneClock : Nat → Nat) (b : ReassemblyBuffer) :
    List Chunk × ReassemblyBuffer :=
  let (ready, b) :=
    if b.config.immediateForward then b.drainImmediate
    else b.drainOrdered clock
  (ready, b.pruneOldSlots pruneClock)

theorem drainReady_of_immediate {b : ReassemblyBuffer}
    (hmode : b.config.immediateForward = true) (clock pruneClock : Nat → Nat) :
    b.drainReady clock pruneClock
      = (b.drainImmediate.1, b.drainImmediate.2.pruneOldSlots pruneClock) := by
  unfold drainReady
  rw [hmode]
  rfl

theorem drainReady_of_ordered {b : ReassemblyBuffer}
    (hmode : b.config.immediateForward = false)
    (clock pruneClock : Nat → Nat) :
    b.drainReady clock pruneClock
      = ((b.drainOrdered clock).1,
        (b.drainOrdered clock).2.pruneOldSlots pruneClock) := by
  unfold drainReady
  rw [hmode]
  rfl

end ReassemblyBuffer

/-- Reassembly statistics. -/
structure ReassemblyStats where
  buffered : Nat
  ready : Nat
  nextExpected : Nat
  highestSeen : Nat
  chunksReceived : UInt64
  chunksForwarded : UInt64
  chunksTimeout : UInt64

/-- `stats`: buffer statistics. -/
def ReassemblyBuffer.stats (b : ReassemblyBuffer) : ReassemblyStats where
  buffered := b.slots.entries.length
  ready := b.slots.entries.countP (·.2.isReady)
  nextExpected := b.nextExpected
  highestSeen := b.highestSeen
  chunksReceived := b.chunksReceived
  chunksForwarded := b.chunksForwarded
  chunksTimeout := b.chunksTimeout

-- ============================================================== receiver

/-- Chunk receiver combining multiple links: the announced link of each
chunk id, and the reassembly buffer. -/
structure ChunkReceiver where
  announcementLink : OrdMap Nat Nat
  buffer : ReassemblyBuffer

namespace ChunkReceiver

/-- `ChunkReceiver::new`. -/
def new (config : ReceiverConfig) : ChunkReceiver where
  announcementLink := OrdMap.empty
  buffer := ReassemblyBuffer.new config

/-- `handle_announcement`. -/
def handleAnnouncement (ann : AnnouncePacket) (now : Nat)
    (r : ChunkReceiver) : ChunkReceiver where
  announcementLink :=
    r.announcementLink.upsert ann.chunkId.toNat fun _ => ann.linkId.toNat
  buffer := r.buffer.recordAnnouncement ann now

/-- `handle_chunk`. -/
def handleChunk (chunk : Chunk) (now : Nat) (r : ChunkReceiver) :
    ChunkReceiver :=
  { r with buffer := r.buffer.storeChunk chunk now }

/-- `drain`. -/
def drain (clock pruneClock : Nat → Nat) (r : ChunkReceiver) :
    List Chunk × ChunkReceiver :=
  let (ready, buffer) := r.buffer.drainReady clock pruneClock
  (ready, { r with buffer })

end ChunkReceiver

-- ================================================================== runs

/-- The calls a reassembly buffer receives. -/
inductive BufferOp where
  | recordAnnouncement (ann : AnnouncePacket) (now : Nat)
  | storeChunk (chunk : Chunk) (now : Nat)
  | drainReady (clock pruneClock : Nat → Nat)

/-- A buffer in a run, with the ids of the chunks it returned. -/
structure Intake where
  buffer : ReassemblyBuffer
  delivered : List Nat

namespace Intake

def start (config : ReceiverConfig) : Intake where
  buffer := ReassemblyBuffer.new config
  delivered := []

/-- One call. -/
def step : BufferOp → Intake → Option Intake
  | .recordAnnouncement ann now, s =>
      some { s with buffer := s.buffer.recordAnnouncement ann now }
  | .storeChunk chunk now, s =>
      some { s with buffer := s.buffer.storeChunk chunk now }
  | .drainReady clock pruneClock, s =>
      let (ready, buffer) := s.buffer.drainReady clock pruneClock
      some {
        buffer
        delivered := s.delivered ++ ready.map fun c => c.id.toNat }

end Intake

end ChainLightning
