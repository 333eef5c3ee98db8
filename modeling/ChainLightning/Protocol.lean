/-
The wire protocol (common/src/protocol.rs): the five binary packet
kinds, their byte layouts, and the tag dispatch of `Packet::decode`.

Every fixed-width field is the machine integer of the source, and the
layouts are written with the source's own slice bounds. The JSON body of
a stats packet is parsed by a library outside the repository, so the
parser is a parameter (`statsFromSlice`) of the decoders that reach it.
-/
import ChainLightning.Lib.Bytes

namespace ChainLightning

open Bytes

-- ========================================================= message types

def msgData : UInt8 := 0x01
def msgAnnounce : UInt8 := 0x02
def msgAck : UInt8 := 0x03
def msgStats : UInt8 := 0x04
def msgKeepalive : UInt8 := 0x05
def msgProbe : UInt8 := 0x06

/-- type(1) + chunk_id(8) + link_id(1) + total_size(4) + offset(4) +
payload_len(2). -/
def chunkHeaderSize : Nat := 20

/-- type(1) + chunk_id(8) + link_id(1) + expected_size(4) +
timestamp(8). -/
def announceHeaderSize : Nat := 22

/-- Chunk identifier. -/
abbrev ChunkId := UInt64

/-- Flow identifier (5-tuple hash). -/
abbrev FlowId := UInt64

/-- `ChunkId::next`. -/
def ChunkId.next (id : ChunkId) : ChunkId := id + 1

-- ========================================================= field readers

/-- `buf[i]`, inside a checked length. -/
def byteAt (buf : List UInt8) (i : Nat) : UInt8 := buf.getD i 0

/-- `u16::from_be_bytes(buf[a..b])`. -/
def u16At (buf : List UInt8) (a b : Nat) : UInt16 :=
  UInt16.ofNat (beNat (slice buf a b))

/-- `u32::from_be_bytes(buf[a..b])`. -/
def u32At (buf : List UInt8) (a b : Nat) : UInt32 :=
  UInt32.ofNat (beNat (slice buf a b))

/-- `u64::from_be_bytes(buf[a..b])`. -/
def u64At (buf : List UInt8) (a b : Nat) : UInt64 :=
  UInt64.ofNat (beNat (slice buf a b))

-- ================================================================== flows

/-- The length of the IPv4 header in bytes, as the packet says. -/
def ihl (packet : List UInt8) : Nat := (byteAt packet 0 &&& 0x0F).toNat * 4

/-- The simple hash that combines all elements of a 5-tuple. -/
def FlowId.hash (srcIp dstIp : UInt32) (srcPort dstPort : UInt16)
    (protocol : UInt8) : FlowId :=
  (((srcIp.toUInt64 * 31 + dstIp.toUInt64) * 31 + srcPort.toUInt64) * 31
    + dstPort.toUInt64) * 31 + protocol.toUInt64

/-- `FlowId::from_packet`: the hash of the 5-tuple, with ports 0 where a
packet has none. -/
def FlowId.fromPacket (packet : List UInt8) : Option FlowId :=
  if packet.length < 20 then none
  else if (byteAt packet 0 >>> 4) &&& 0x0F ≠ 4 then none
  else
    let ihl := ihl packet
    let protocol := byteAt packet 9
    let srcIp := u32At packet 12 16
    let dstIp := u32At packet 16 20
    let (srcPort, dstPort) :=
      if ihl + 4 ≤ packet.length ∧ (protocol = 6 ∨ protocol = 17) then
        (u16At packet ihl (ihl + 2), u16At packet (ihl + 2) (ihl + 4))
      else (0, 0)
    some (FlowId.hash srcIp dstIp srcPort dstPort protocol)

-- ================================================================ packets

/-- Data chunk packet. -/
structure ChunkPacket where
  chunkId : ChunkId
  linkId : UInt8
  totalSize : UInt32
  offset : UInt32
  payload : List UInt8
  deriving DecidableEq, Repr

/-- `ChunkPacket::encode`: the payload length is cast to 16 bits, the
payload itself is written whole. -/
def ChunkPacket.encode (p : ChunkPacket) : List UInt8 :=
  [msgData] ++ beBytes 8 p.chunkId.toNat ++ [p.linkId]
    ++ beBytes 4 p.totalSize.toNat ++ beBytes 4 p.offset.toNat
    ++ beBytes 2 (UInt16.ofNat p.payload.length).toNat ++ p.payload

def ChunkPacket.decode (buf : List UInt8) : Option ChunkPacket :=
  if buf.length < chunkHeaderSize then none
  else if byteAt buf 0 ≠ msgData then none
  else
    let payloadLen := (u16At buf 18 20).toNat
    if buf.length < chunkHeaderSize + payloadLen then none
    else some {
      chunkId := u64At buf 1 9
      linkId := byteAt buf 9
      totalSize := u32At buf 10 14
      offset := u32At buf 14 18
      payload := slice buf chunkHeaderSize (chunkHeaderSize + payloadLen) }

/-- Announcement packet, sent ahead of data. -/
structure AnnouncePacket where
  chunkId : ChunkId
  linkId : UInt8
  expectedSize : UInt32
  timestampUs : UInt64
  deriving DecidableEq, Repr

def AnnouncePacket.encode (p : AnnouncePacket) : List UInt8 :=
  [msgAnnounce] ++ beBytes 8 p.chunkId.toNat ++ [p.linkId]
    ++ beBytes 4 p.expectedSize.toNat ++ beBytes 8 p.timestampUs.toNat

def AnnouncePacket.decode (buf : List UInt8) : Option AnnouncePacket :=
  if buf.length < announceHeaderSize then none
  else if byteAt buf 0 ≠ msgAnnounce then none
  else some {
    chunkId := u64At buf 1 9
    linkId := byteAt buf 9
    expectedSize := u32At buf 10 14
    timestampUs := u64At buf 14 22 }

/-- ACK packet, acknowledges chunk receipt. -/
structure AckPacket where
  chunkId : ChunkId
  linkId : UInt8
  echoTimestampUs : UInt64
  recvTimestampUs : UInt64
  deriving DecidableEq, Repr

def AckPacket.size : Nat := 26

def AckPacket.encode (p : AckPacket) : List UInt8 :=
  [msgAck] ++ beBytes 8 p.chunkId.toNat ++ [p.linkId]
    ++ beBytes 8 p.echoTimestampUs.toNat
    ++ beBytes 8 p.recvTimestampUs.toNat

def AckPacket.decode (buf : List UInt8) : Option AckPacket :=
  if buf.length < AckPacket.size then none
  else if byteAt buf 0 ≠ msgAck then none
  else some {
    chunkId := u64At buf 1 9
    linkId := byteAt buf 9
    echoTimestampUs := u64At buf 10 18
    recvTimestampUs := u64At buf 18 26 }

/-- Stats exchange packet. The ratio is a JSON number. -/
structure StatsPacket where
  linkId : UInt8
  bandwidthBps : UInt64
  rttUs : UInt64
  lossRatio : Rat
  timestampUs : UInt64
  deriving DecidableEq, Repr

/-- `StatsPacket::decode`, over the JSON parser `statsFromSlice`. -/
def StatsPacket.decode (statsFromSlice : List UInt8 → Option StatsPacket)
    (buf : List UInt8) : Option StatsPacket :=
  if buf.length < 4 ∨ byteAt buf 0 ≠ msgStats then none
  else
    let len := (u16At buf 1 3).toNat
    if buf.length < 3 + len then none
    else statsFromSlice (slice buf 3 (3 + len))

/-- Keepalive packet. -/
structure KeepalivePacket where
  linkId : UInt8
  timestampUs : UInt64
  deriving DecidableEq, Repr

def KeepalivePacket.size : Nat := 10

def KeepalivePacket.encode (p : KeepalivePacket) : List UInt8 :=
  [msgKeepalive] ++ [p.linkId] ++ beBytes 8 p.timestampUs.toNat

def KeepalivePacket.decode (buf : List UInt8) : Option KeepalivePacket :=
  if buf.length < KeepalivePacket.size ∨ byteAt buf 0 ≠ msgKeepalive then none
  else some { linkId := byteAt buf 1, timestampUs := u64At buf 2 10 }

/-- Path state for rate control probes. -/
inductive PathState where
  | running
  | lossy
  | down
  | probing
  deriving DecidableEq, Repr

/-- The `repr(u8)` discriminant. -/
def PathState.toU8 : PathState → UInt8
  | .running => 0
  | .lossy => 1
  | .down => 2
  | .probing => 3

/-- `PathState::from_u8`: unknown values read as `Running`. -/
def PathState.fromU8 (v : UInt8) : PathState :=
  if v = 0 then .running
  else if v = 1 then .lossy
  else if v = 2 then .down
  else if v = 3 then .probing
  else .running

/-- Probe packet for rate control, 51 bytes on the wire. -/
structure ProbePacket where
  linkId : UInt8
  seq : UInt32
  timestampUs : UInt64
  echoTimestampUs : UInt64
  txBytes : UInt64
  txPackets : UInt32
  rxBytes : UInt64
  rxPackets : UInt32
  lossRatio : UInt8
  pathState : PathState
  deriving DecidableEq, Repr

def ProbePacket.size : Nat := 51

def ProbePacket.encode (p : ProbePacket) : List UInt8 :=
  [msgProbe] ++ [p.linkId] ++ beBytes 4 p.seq.toNat
    ++ beBytes 8 p.timestampUs.toNat ++ beBytes 8 p.echoTimestampUs.toNat
    ++ beBytes 8 p.txBytes.toNat ++ beBytes 4 p.txPackets.toNat
    ++ beBytes 8 p.rxBytes.toNat ++ beBytes 4 p.rxPackets.toNat
    ++ [p.lossRatio] ++ [p.pathState.toU8] ++ [0, 0, 0]

def ProbePacket.decode (buf : List UInt8) : Option ProbePacket :=
  if buf.length < ProbePacket.size ∨ byteAt buf 0 ≠ msgProbe then none
  else some {
    linkId := byteAt buf 1
    seq := u32At buf 2 6
    timestampUs := u64At buf 6 14
    echoTimestampUs := u64At buf 14 22
    txBytes := u64At buf 22 30
    txPackets := u32At buf 30 34
    rxBytes := u64At buf 34 42
    rxPackets := u32At buf 42 46
    lossRatio := byteAt buf 46
    pathState := PathState.fromU8 (byteAt buf 47) }

-- =============================================================== dispatch

/-- Packet type enum for decoding. -/
inductive Packet where
  | data (p : ChunkPacket)
  | announce (p : AnnouncePacket)
  | ack (p : AckPacket)
  | stats (p : StatsPacket)
  | keepalive (p : KeepalivePacket)
  | probe (p : ProbePacket)
  deriving DecidableEq, Repr

/-- `Packet::decode`: dispatch on the tag byte. -/
def Packet.decode (statsFromSlice : List UInt8 → Option StatsPacket)
    (buf : List UInt8) : Option Packet :=
  if buf.isEmpty then none
  else if byteAt buf 0 = msgData then (ChunkPacket.decode buf).map .data
  else if byteAt buf 0 = msgAnnounce then
    (AnnouncePacket.decode buf).map .announce
  else if byteAt buf 0 = msgAck then (AckPacket.decode buf).map .ack
  else if byteAt buf 0 = msgStats then
    (StatsPacket.decode statsFromSlice buf).map .stats
  else if byteAt buf 0 = msgKeepalive then
    (KeepalivePacket.decode buf).map .keepalive
  else if byteAt buf 0 = msgProbe then (ProbePacket.decode buf).map .probe
  else none

end ChainLightning
