/-
What the id of a flow tells apart.

The id is the value of the 5-tuple read in base 31. The tuple has too
few bits for that to wrap, so between two hosts two ids are equal
exactly when the ports read in base 31 are (`flow_id_eq_iff`). The
ports have 16 bits each, so flows share an id wherever one more on the
source port makes up for 31 less on the destination port.
-/
import ChainLightning.Protocol

namespace ChainLightning

open Bytes

variable {p q : List UInt8}

-- ============================================================== the packets

/-- The source port, behind the header. -/
def srcPort (packet : List UInt8) : UInt16 :=
  u16At packet (ihl packet) (ihl packet + 2)

/-- The destination port. -/
def dstPort (packet : List UInt8) : UInt16 :=
  u16At packet (ihl packet + 2) (ihl packet + 4)

/-- An unfragmented IPv4 packet that carries TCP or UDP, with its
ports. -/
structure CarriesPorts (packet : List UInt8) : Prop where
  version : byteAt packet 0 >>> 4 = 4
  header : 20 ≤ ihl packet
  /-- No fragment follows, and none is in front. -/
  whole : u16At packet 6 8 &&& 0x3FFF = 0
  protocol : byteAt packet 9 = 6 ∨ byteAt packet 9 = 17
  ports : ihl packet + 4 ≤ packet.length

/-- Two packets with the same addresses and protocol. -/
structure SameHosts (p q : List UInt8) : Prop where
  srcIp : u32At p 12 16 = u32At q 12 16
  dstIp : u32At p 16 20 = u32At q 16 20
  protocol : byteAt p 9 = byteAt q 9

instance (packet : List UInt8) : Decidable (CarriesPorts packet) :=
  decidable_of_iff (byteAt packet 0 >>> 4 = 4 ∧ 20 ≤ ihl packet
      ∧ u16At packet 6 8 &&& 0x3FFF = 0
      ∧ (byteAt packet 9 = 6 ∨ byteAt packet 9 = 17)
      ∧ ihl packet + 4 ≤ packet.length)
    ⟨fun ⟨hv, hh, hw, hp, hl⟩ => ⟨hv, hh, hw, hp, hl⟩,
      fun h => ⟨h.version, h.header, h.whole, h.protocol, h.ports⟩⟩

instance (p q : List UInt8) : Decidable (SameHosts p q) :=
  decidable_of_iff (u32At p 12 16 = u32At q 12 16
      ∧ u32At p 16 20 = u32At q 16 20 ∧ byteAt p 9 = byteAt q 9)
    ⟨fun ⟨hs, hd, hp⟩ => ⟨hs, hd, hp⟩,
      fun h => ⟨h.srcIp, h.dstIp, h.protocol⟩⟩

-- ================================================================ the hash

/-- A 5-tuple read in base 31. -/
def tupleCode (srcIp dstIp : UInt32) (srcPort dstPort : UInt16)
    (protocol : UInt8) : Nat :=
  (((srcIp.toNat * 31 + dstIp.toNat) * 31 + srcPort.toNat) * 31
    + dstPort.toNat) * 31 + protocol.toNat

/-- A 5-tuple does not wrap 64 bits, so the hash is its value. -/
theorem hash_toNat (srcIp dstIp : UInt32) (srcPort dstPort : UInt16)
    (protocol : UInt8) :
    (FlowId.hash srcIp dstIp srcPort dstPort protocol).toNat
      = tupleCode srcIp dstIp srcPort dstPort protocol := by
  have hsrc := srcIp.toNat_lt
  have hdst := dstIp.toNat_lt
  have hsport := srcPort.toNat_lt
  have hdport := dstPort.toNat_lt
  have hproto := protocol.toNat_lt
  unfold FlowId.hash tupleCode
  simp only [UInt64.toNat_add, UInt64.toNat_mul, UInt32.toNat_toUInt64,
    UInt16.toNat_toUInt64, UInt8.toNat_toUInt64, UInt64.reduceToNat]
  omega

/-- The id of a packet with ports is the hash of its 5-tuple. -/
theorem fromPacket_eq (h : CarriesPorts p) :
    FlowId.fromPacket p = some (FlowId.hash (u32At p 12 16) (u32At p 16 20)
      (srcPort p) (dstPort p) (byteAt p 9)) := by
  have hlen : ¬p.length < 20 := by
    have hheader := h.header
    have hports := h.ports
    omega
  have hver : ¬(byteAt p 0 >>> 4) &&& 0x0F ≠ 4 := by
    rw [h.version]
    decide
  unfold FlowId.fromPacket
  rw [if_neg hlen, if_neg hver]
  dsimp only
  rw [if_pos ⟨h.ports, h.protocol⟩]
  rfl

/-- Two packets between the same hosts have one id exactly when their
ports agree in base 31. -/
theorem flow_id_eq_iff (hp : CarriesPorts p) (hq : CarriesPorts q)
    (hosts : SameHosts p q) :
    FlowId.fromPacket p = FlowId.fromPacket q
      ↔ 31 * (srcPort p).toNat + (dstPort p).toNat
        = 31 * (srcPort q).toNat + (dstPort q).toNat := by
  rw [fromPacket_eq hp, fromPacket_eq hq, Option.some_inj,
    ← UInt64.toNat_inj, hash_toNat, hash_toNat, hosts.srcIp, hosts.dstIp,
    hosts.protocol]
  unfold tupleCode
  omega

/-- A TCP packet from one port to another, with nothing in it. -/
private def tcpPacket (srcPort dstPort : UInt16) : List UInt8 :=
  [0x45, 0, 0, 24, 0, 0, 0, 0, 64, 6, 0, 0, 192, 168, 1, 1, 10, 0, 0, 1]
    ++ beBytes 2 srcPort.toNat ++ beBytes 2 dstPort.toNat

/-- Ports 8080 to 80 and 8081 to 49 share an id. -/
theorem flow_id_eq_iff_shared :
    FlowId.fromPacket (tcpPacket 8080 80)
      = FlowId.fromPacket (tcpPacket 8081 49) := by
  refine (flow_id_eq_iff (by decide) (by decide) (by decide)).mpr ?_
  decide

/-- Ids do not tell all flows between two hosts apart. -/
theorem flow_id_collides :
    ¬∀ p q : List UInt8, CarriesPorts p → CarriesPorts q → SameHosts p q →
      (FlowId.fromPacket p = FlowId.fromPacket q
        ↔ srcPort p = srcPort q ∧ dstPort p = dstPort q) := by
  intro h
  have hports := (h (tcpPacket 8080 80) (tcpPacket 8081 49) (by decide)
    (by decide) (by decide)).mp (by decide)
  exact absurd hports (by decide)

end ChainLightning
