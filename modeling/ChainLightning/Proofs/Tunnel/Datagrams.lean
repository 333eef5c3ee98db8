/-
The datagrams a program sends, as the far side reads them.

Four kinds are sent (`Action.sends`), and each is decoded as the packet
that it was made of, but for the payload of a chunk: its length is cast
to 16 bits, so what is read of a longer one is a front of it
(`decode_chunkBytes`). A front of frames is parsed as the first of their
packets (`extractFrom_take`), so a packet that comes out on the far side
is one that was put into the chunk, however long the chunk is.
-/
import ChainLightning.Proofs.Endpoint.Outputs
import ChainLightning.Proofs.Wire

namespace ChainLightning

open Bytes

-- ============================================================ truncation

/-- Within a front of the data a slice is a slice of the data. -/
private theorem slice_take {α : Type*} {data : List α} {n a b : Nat}
    (hb : b ≤ (data.take n).length) :
    slice (data.take n) a b = slice data a b := by
  rw [List.length_take] at hb
  unfold slice
  rw [List.drop_take, List.take_take, Nat.min_eq_left (by omega)]

/-- The parse of a front of the data is a front of the parse. -/
theorem extractFrom_take (data : List UInt8) (n offset : Nat) :
    Chunk.extractFrom (data.take n) offset
      <+: Chunk.extractFrom data offset := by
  have hlength : (data.take n).length ≤ data.length :=
    List.length_take_le' _ _
  induction offset using Chunk.extractFrom.induct (data.take n) with
  | case1 offset hhead len hbody ih =>
      have hlen : (u16At data offset (offset + 2)).toNat = len := by
        unfold u16At
        rw [← slice_take hhead]
        rfl
      rw [Chunk.extractFrom, if_pos hhead, Chunk.extractFrom,
        if_pos (hhead.trans hlength)]
      dsimp only
      rw [if_pos hbody, hlen, if_pos (hbody.trans hlength),
        slice_take hbody]
      exact (List.prefix_cons_inj _).mpr ih
  | case2 offset hhead len hbody =>
      rw [Chunk.extractFrom, if_pos hhead]
      dsimp only
      rw [if_neg hbody]
      exact List.nil_prefix
  | case3 offset hhead =>
      rw [Chunk.extractFrom, if_neg hhead]
      exact List.nil_prefix

/-- What the length field says of a payload. -/
private theorem u16_wraps (n : Nat) :
    UInt16.ofNat (n % 65536) = UInt16.ofNat n := by
  refine UInt16.toNat_inj.mp ?_
  rw [UInt16.toNat_ofNat', UInt16.toNat_ofNat']
  exact Nat.mod_mod n 65536

/-- A payload of any length is sent whole behind its length as 16 bits
hold it. -/
theorem decode_encode_truncated (p : ChunkPacket) :
    ChunkPacket.decode p.encode
      = some { p with
          payload := p.payload.take (p.payload.length % 65536) } := by
  have hlength : (p.payload.take (p.payload.length % 65536)).length
      = p.payload.length % 65536 := by
    rw [List.length_take]
    exact Nat.min_eq_left (Nat.mod_le _ _)
  have hsplit : p.encode
      = ({ p with
            payload := p.payload.take (p.payload.length % 65536) }
          : ChunkPacket).encode
        ++ p.payload.drop (p.payload.length % 65536) := by
    unfold ChunkPacket.encode
    dsimp only
    rw [hlength, u16_wraps, List.append_assoc _ _ (List.drop _ _),
      List.take_append_drop]
  rw [hsplit]
  refine chunk_decode_encode ?_ _
  dsimp only
  rw [hlength]
  omega

-- ================================================================= decode

variable (statsFromSlice : List UInt8 → Option StatsPacket)

/-- The chunk packet that is read of a chunk. -/
def Chunk.received (linkId : Nat) (c : Chunk) : ChunkPacket :=
  { c.toPacket (UInt8.ofNat linkId) with
    payload := c.data.take (c.size % 65536) }

theorem decode_chunkBytes (linkId : Nat) (c : Chunk) :
    Packet.decode statsFromSlice (Endpoint.chunkBytes linkId c)
      = some (.data (c.received linkId)) := by
  unfold Endpoint.chunkBytes
  rw [(packet_decode_tag rfl).1 rfl, decode_encode_truncated]
  rfl

theorem decode_ackBytes (linkId : Nat) (chunkId : ChunkId) (now : UInt64) :
    Packet.decode statsFromSlice (Endpoint.ackBytes linkId chunkId now)
      = some (.ack {
          chunkId
          linkId := UInt8.ofNat linkId
          echoTimestampUs := 0
          recvTimestampUs := now }) := by
  unfold Endpoint.ackBytes
  rw [← List.append_nil (AckPacket.encode _),
    (packet_decode_tag rfl).2.2.1 rfl, ack_decode_encode]
  rfl

theorem decode_keepaliveBytes (linkId : Nat) (now : UInt64) :
    Packet.decode statsFromSlice (Endpoint.keepaliveBytes linkId now)
      = some (.keepalive {
          linkId := UInt8.ofNat linkId, timestampUs := now }) := by
  unfold Endpoint.keepaliveBytes
  rw [← List.append_nil (KeepalivePacket.encode _),
    (packet_decode_tag rfl).2.2.2.1 rfl, keepalive_decode_encode]
  rfl

theorem decode_probe (p : ProbePacket) :
    Packet.decode statsFromSlice p.encode = some (.probe p) := by
  rw [← List.append_nil p.encode,
    (packet_decode_tag rfl).2.2.2.2 rfl, probe_decode_encode]
  rfl

/-- A data packet comes out of the dispatch exactly where the chunk
decoder reads one. -/
theorem decode_data_iff {bytes : List UInt8} {p : ChunkPacket} :
    Packet.decode statsFromSlice bytes = some (.data p)
      ↔ ChunkPacket.decode bytes = some p := by
  constructor
  · exact packet_decode_inv
  · intro hdecode
    obtain ⟨htag, hlength, -⟩ := chunk_decode_inv hdecode
    have hne : bytes.isEmpty = false := by
      cases bytes with
      | nil => exact absurd hlength (by simp)
      | cons b bytes => rfl
    rw [(packet_decode_tag hne).1 htag, hdecode]
    rfl

/-- So does a probe. -/
theorem decode_probe_iff {bytes : List UInt8} {p : ProbePacket} :
    Packet.decode statsFromSlice bytes = some (.probe p)
      ↔ ProbePacket.decode bytes = some p := by
  constructor
  · exact packet_decode_inv
  · intro hdecode
    have hread : ¬(bytes.length < ProbePacket.size
        ∨ byteAt bytes 0 ≠ msgProbe) := by
      intro hbad
      unfold ProbePacket.decode at hdecode
      rw [if_pos hbad] at hdecode
      cases hdecode
    have hne : bytes.isEmpty = false := by
      cases bytes with
      | nil => exact absurd (Or.inl (by decide)) hread
      | cons b bytes => rfl
    rw [(packet_decode_tag hne).2.2.2.2
      (not_not.mp fun htag => hread (Or.inr htag)), hdecode]
    rfl

/-- A datagram that an action sends holds a chunk, an acknowledgement, a
probe or a keepalive, as the action says. -/
theorem sends_bytes {role : Role} {r : Reading} {a : Action} {d : Datagram}
    (hd : d ∈ a.sends role r) :
    (∃ l dest chunk, a = .transmitChunk l dest chunk
        ∧ d.bytes = Endpoint.chunkBytes l chunk)
      ∨ (∃ l chunkId src, a = .sendAck l chunkId src
        ∧ d.bytes = Endpoint.ackBytes l chunkId r.micros)
      ∨ (∃ dest probe, a = .transmitProbe dest probe
        ∧ d.bytes = probe.encode)
      ∨ ∃ l, a = .sendKeepalive l
        ∧ d.bytes = Endpoint.keepaliveBytes l r.micros := by
  have hd := mem_sends hd
  cases a with
  | transmitChunk l dest chunk =>
      cases List.mem_singleton.mp hd
      exact Or.inl ⟨l, dest, chunk, rfl, rfl⟩
  | sendAck l chunkId src =>
      cases List.mem_singleton.mp hd
      exact Or.inr (Or.inl ⟨l, chunkId, src, rfl, rfl⟩)
  | transmitProbe dest probe =>
      cases List.mem_singleton.mp hd
      exact Or.inr (Or.inr (Or.inl ⟨dest, probe, rfl, rfl⟩))
  | sendKeepalive l =>
      cases List.mem_singleton.mp hd
      exact Or.inr (Or.inr (Or.inr ⟨l, rfl, rfl⟩))
  | _ => cases hd

/-- A probe is on the wire only where it is sent. -/
theorem sends_probes {role : Role} {r : Reading} {a : Action}
    {d : Datagram} (hd : d ∈ a.sends role r) {probe : ProbePacket}
    (hprobe : ProbePacket.decode d.bytes = some probe) :
    ∃ dest, a = .transmitProbe dest probe := by
  have hdecode : Packet.decode (fun _ => none) d.bytes = some (.probe probe) :=
    (decode_probe_iff _).mpr hprobe
  rcases sends_bytes hd with ⟨l, dest, chunk, -, hbytes⟩
    | ⟨l, chunkId, src, -, hbytes⟩ | ⟨dest, probe', ha, hbytes⟩
    | ⟨l, -, hbytes⟩
  · rw [hbytes, decode_chunkBytes] at hdecode
    cases hdecode
  · rw [hbytes, decode_ackBytes] at hdecode
    cases hdecode
  · rw [hbytes, decode_probe] at hdecode
    cases hdecode
    exact ⟨dest, ha⟩
  · rw [hbytes, decode_keepaliveBytes] at hdecode
    cases hdecode

-- =============================================================== arrivals

/-- A data packet that arrives on a link, with the length and the sender
of its datagram. -/
structure Arrival where
  linkId : Nat
  length : Nat
  src : SocketAddr
  packet : ChunkPacket

/-- What is done with it. -/
def Arrival.actions (x : Arrival) : List Action :=
  Round.handle x.linkId x.length x.src (some (.data x.packet))

/-- The data packet that arrives with a round. -/
def Round.arrivals : Round → List Arrival
  | .receive linkId bytes src =>
      (ChunkPacket.decode bytes).toList.map fun packet =>
        { linkId, length := bytes.length, src, packet }
  | _ => []

/-- The actions that are done with data only. -/
def Action.ofData : Action → Bool
  | .recordRx _ _ | .recordChunkRx _ | .rateRx _ _ | .forward _
  | .sendAck _ _ _ => true
  | _ => false

/-- Of a round's actions, those that are done with data are done with the
data packet that arrives. -/
theorem actions_arrivals {β : Type*} {f : Action → List β}
    (hf : ∀ a, a.ofData = false → f a = []) (role : Role) (e : Endpoint)
    (round : Round) :
    (round.actions statsFromSlice role e).flatMap f
      = (round.arrivals.flatMap Arrival.actions).flatMap f := by
  have hnone : round.arrivals = [] →
      (∀ a ∈ round.actions statsFromSlice role e, a.ofData = false) →
      (round.actions statsFromSlice role e).flatMap f
        = (round.arrivals.flatMap Arrival.actions).flatMap f := by
    intro harrivals hplain
    rw [harrivals]
    exact List.flatMap_eq_nil_iff.mpr fun a ha => hf a (hplain a ha)
  cases round with
  | receive linkId bytes src =>
      have hhandle : (Round.handle linkId bytes.length src
          (Packet.decode statsFromSlice bytes)).flatMap f
          = ((Round.receive linkId bytes src).arrivals.flatMap
            Arrival.actions).flatMap f := by
        unfold Round.arrivals
        dsimp only
        cases hchunk : ChunkPacket.decode bytes with
        | some p =>
            rw [(decode_data_iff statsFromSlice).mpr hchunk]
            exact congrArg _ (List.append_nil _).symm
        | none =>
            cases hdecode : Packet.decode statsFromSlice bytes with
            | none => rfl
            | some packet =>
                cases packet with
                | data p =>
                    rw [(decode_data_iff statsFromSlice).mp hdecode] at hchunk
                    cases hchunk
                | stats | keepalive => rfl
                | announce | ack | probe =>
                    exact List.flatMap_eq_nil_iff.mpr
                      fun a ha => hf a (List.mem_singleton.mp ha ▸ rfl)
      cases role with
      | client => exact hhandle
      | server =>
          show f (.learnAddr linkId src) ++ _ = _
          rw [hf _ rfl]
          exact hhandle
  | updateStats =>
      refine hnone rfl ?_
      unfold Round.actions
      dsimp only
      split <;> simp [Action.ofData]
  | sendKeepalives => exact hnone rfl (by simp [Round.actions, Action.ofData])
  | _ => exact hnone rfl (by simp [Round.actions, Action.ofData])

-- ================================================================ packets

/-- The data packet that a datagram is read as. -/
def Datagram.data (d : Datagram) : List ChunkPacket :=
  (ChunkPacket.decode d.bytes).toList

/-- The packets that come out of a data packet. -/
def ChunkPacket.packets (p : ChunkPacket) : List (List UInt8) :=
  Chunk.extractFrom p.payload 0

/-- What comes out of a chunk on the far side is a front of what was put
into it, and all of it if the size fits. -/
theorem received_packets (linkId : Nat) (c : Chunk) :
    (c.received linkId).packets <+: c.extractPackets :=
  extractFrom_take c.data _ 0

theorem received_packets_of_fits {c : Chunk} (hfits : c.size < 65536)
    (linkId : Nat) : (c.received linkId).packets = c.extractPackets := by
  unfold ChunkPacket.packets Chunk.received
  dsimp only
  rw [Nat.mod_eq_of_lt hfits, Chunk.size, List.take_length]
  rfl

private theorem msgAck_ne_msgData : msgAck ≠ msgData := by decide

private theorem msgProbe_ne_msgData : msgProbe ≠ msgData := by decide

private theorem msgKeepalive_ne_msgData : msgKeepalive ≠ msgData := by decide

/-- A datagram with another tag is not read as data. -/
private theorem data_of_tag {bytes : List UInt8} (linkId : Nat)
    (dest : Dest) (htag : byteAt bytes 0 ≠ msgData) :
    Datagram.data { linkId, dest, bytes } = [] := by
  unfold Datagram.data ChunkPacket.decode
  dsimp only
  split
  case isTrue => rfl
  case isFalse => rfl

/-- What is read of the datagram that a chunk is sent as. -/
theorem data_chunkBytes (linkId : Nat) (dest : Dest) (c : Chunk) :
    Datagram.data { linkId, dest, bytes := Endpoint.chunkBytes linkId c }
      = [c.received linkId] := by
  unfold Datagram.data Endpoint.chunkBytes
  rw [decode_encode_truncated]
  rfl

/-- A chunk whose socket sends it is on the wire. -/
theorem sends_data_of_ok {role : Role} {r : Reading} (hok : r.sendOk = true)
    (linkId : Nat) (dest : Dest) (chunk : Chunk) :
    ((Action.transmitChunk linkId dest chunk).sends role r).flatMap
        Datagram.data
      = [chunk.received linkId] := by
  unfold Action.sends
  rw [if_pos hok]
  show Datagram.data _ ++ [] = _
  rw [data_chunkBytes, List.append_nil]

/-- The only datagrams read as data are those that chunks are sent as. -/
theorem sends_data (role : Role) (r : Reading) (a : Action) :
    (a.sends role r).flatMap Datagram.data = []
      ∨ ∃ linkId dest chunk, a = .transmitChunk linkId dest chunk
        ∧ (a.sends role r).flatMap Datagram.data
          = [chunk.received linkId] := by
  have hquiet : (∀ d ∈ a.datagrams role r, d.data = []) →
      (a.sends role r).flatMap Datagram.data = [] :=
    fun h => List.flatMap_eq_nil_iff.mpr fun d hd => h d (mem_sends hd)
  cases a with
  | transmitChunk linkId dest chunk =>
      by_cases hok : r.sendOk = true
      · exact Or.inr ⟨linkId, dest, chunk, rfl, sends_data_of_ok hok ..⟩
      · unfold Action.sends
        rw [if_neg hok]
        exact Or.inl rfl
  | sendAck linkId chunkId src =>
      refine Or.inl (hquiet fun d hd => ?_)
      cases List.mem_singleton.mp hd
      exact data_of_tag linkId _ (ne_of_eq_of_ne rfl msgAck_ne_msgData)
  | transmitProbe dest probe =>
      refine Or.inl (hquiet fun d hd => ?_)
      cases List.mem_singleton.mp hd
      exact data_of_tag _ dest (ne_of_eq_of_ne rfl msgProbe_ne_msgData)
  | sendKeepalive linkId =>
      refine Or.inl (hquiet fun d hd => ?_)
      cases List.mem_singleton.mp hd
      exact data_of_tag linkId _ (ne_of_eq_of_ne rfl msgKeepalive_ne_msgData)
  | _ => exact Or.inl (hquiet fun d hd => nomatch hd)

end ChainLightning
