/-
The binary wire format is exact in both directions.

Forward (`*_decode_encode`): an encoding followed by any bytes decodes
to the packet it came from. Each field sits at its slice by computation
(`rfl` on the header bytes), and the readers of `Protocol.lean` undo the
big-endian writers.

Backward (`*_encode_decode`): an accepted buffer starts with the
encoding of what was read. Each written field is the slice it was read
from, and the slices concatenate to the prefix (`take_append_slice`).
A probe does not remember its three reserved bytes nor a path state
above 3, so its prefix is restored up to `probeCanonical`.
-/
import ChainLightning.Protocol

namespace ChainLightning

open Bytes

-- ======================================================== field readers

theorem u16At_of_slice {buf : List UInt8} {a b : Nat} {x : UInt16}
    (h : slice buf a b = beBytes 2 x.toNat) : u16At buf a b = x := by
  unfold u16At
  rw [h, beNat_beBytes_of_lt x.toNat_lt, UInt16.ofNat_toNat]

theorem u32At_of_slice {buf : List UInt8} {a b : Nat} {x : UInt32}
    (h : slice buf a b = beBytes 4 x.toNat) : u32At buf a b = x := by
  unfold u32At
  rw [h, beNat_beBytes_of_lt x.toNat_lt, UInt32.ofNat_toNat]

theorem u64At_of_slice {buf : List UInt8} {a b : Nat} {x : UInt64}
    (h : slice buf a b = beBytes 8 x.toNat) : u64At buf a b = x := by
  unfold u64At
  rw [h, beNat_beBytes_of_lt x.toNat_lt, UInt64.ofNat_toNat]

/-- A length of 16 bits survives its cast. -/
theorem u16_toNat_ofNat {n : Nat} (h : n ≤ 65535) :
    (UInt16.ofNat n).toNat = n :=
  UInt16.toNat_ofNat_of_lt' (Nat.lt_succ_of_le h)

/-- A slice of known width reads as a number below its width's bound. -/
private theorem beNat_slice_lt {buf : List UInt8} {a b w : Nat}
    (hb : b ≤ buf.length) (hw : b - a = w) :
    beNat (slice buf a b) < 256 ^ w := by
  have h := beNat_lt (slice buf a b)
  rwa [slice_length hb, hw] at h

/-- Two bytes in range read as their number. -/
theorem u16At_toNat {buf : List UInt8} {a b : Nat}
    (hb : b ≤ buf.length) (hw : b - a = 2) :
    (u16At buf a b).toNat = beNat (slice buf a b) := by
  have hfit := beNat_slice_lt hb hw
  unfold u16At
  exact u16_toNat_ofNat (by omega)

theorem beBytes_u16At {buf : List UInt8} {a b : Nat}
    (hb : b ≤ buf.length) (hw : b - a = 2) :
    beBytes 2 (u16At buf a b).toNat = slice buf a b := by
  unfold u16At
  rw [UInt16.toNat_ofNat_of_lt' (beNat_slice_lt hb hw)]
  exact beBytes_beNat_of_length (by rw [slice_length hb, hw])

theorem beBytes_u32At {buf : List UInt8} {a b : Nat}
    (hb : b ≤ buf.length) (hw : b - a = 4) :
    beBytes 4 (u32At buf a b).toNat = slice buf a b := by
  unfold u32At
  rw [UInt32.toNat_ofNat_of_lt' (beNat_slice_lt hb hw)]
  exact beBytes_beNat_of_length (by rw [slice_length hb, hw])

theorem beBytes_u64At {buf : List UInt8} {a b : Nat}
    (hb : b ≤ buf.length) (hw : b - a = 8) :
    beBytes 8 (u64At buf a b).toNat = slice buf a b := by
  unfold u64At
  rw [UInt64.toNat_ofNat_of_lt' (beNat_slice_lt hb hw)]
  exact beBytes_beNat_of_length (by rw [slice_length hb, hw])

theorem byteAt_slice {buf : List UInt8} {i : Nat} (hi : i < buf.length) :
    [byteAt buf i] = slice buf i (i + 1) := by
  unfold byteAt slice
  rw [Nat.add_sub_cancel_left, List.getD_eq_getElem?_getD,
    List.getElem?_eq_getElem hi, Option.getD_some,
    List.drop_eq_getElem_cons hi]
  rfl

-- ============================================================ data chunks

/-- A chunk packet whose payload fits the 16-bit length decodes back,
whatever follows it. -/
theorem chunk_decode_encode {p : ChunkPacket}
    (hlen : p.payload.length ≤ 65535) (t : List UInt8) :
    ChunkPacket.decode (p.encode ++ t) = some p := by
  have hfit := u16_toNat_ofNat hlen
  have hsize : (p.encode ++ t).length = 20 + p.payload.length + t.length := by
    simp only [ChunkPacket.encode, List.length_append, List.length_cons,
      List.length_nil, beBytes_length]
  have hpl : u16At (p.encode ++ t) 18 20
      = UInt16.ofNat p.payload.length := u16At_of_slice rfl
  have hbody : slice (p.encode ++ t) 20 (20 + p.payload.length)
      = p.payload := by
    unfold slice
    rw [Nat.add_sub_cancel_left]
    exact List.take_left
  unfold ChunkPacket.decode chunkHeaderSize
  rw [if_neg (by omega), if_neg (by exact not_not_intro rfl)]
  simp only [hpl, hfit]
  rw [if_neg (by omega), hbody, u64At_of_slice rfl, u32At_of_slice rfl,
    u32At_of_slice rfl]
  rfl

/-- What an accepted chunk packet was read from. -/
theorem chunk_decode_inv {buf : List UInt8} {p : ChunkPacket}
    (h : ChunkPacket.decode buf = some p) :
    byteAt buf 0 = msgData
      ∧ 20 + (u16At buf 18 20).toNat ≤ buf.length
      ∧ p = {
        chunkId := u64At buf 1 9
        linkId := byteAt buf 9
        totalSize := u32At buf 10 14
        offset := u32At buf 14 18
        payload := slice buf 20 (20 + (u16At buf 18 20).toNat) } := by
  unfold ChunkPacket.decode chunkHeaderSize at h
  split at h
  case isTrue => cases h
  case isFalse =>
    split at h
    case isTrue => cases h
    case isFalse htag =>
      dsimp only at h
      split at h
      case isTrue => cases h
      case isFalse hfull =>
        injection h with hp
        exact ⟨not_not.mp htag, Nat.le_of_not_lt hfull, hp.symm⟩

/-- A decoded payload is as long as its length field says. -/
theorem chunk_decode_payload {buf : List UInt8} {p : ChunkPacket}
    (h : ChunkPacket.decode buf = some p) :
    p.payload.length = (u16At buf 18 20).toNat := by
  obtain ⟨-, hfull, rfl⟩ := chunk_decode_inv h
  rw [slice_length hfull, Nat.add_sub_cancel_left]

/-- An accepted chunk packet is the encoding at the front of the
buffer. -/
theorem chunk_encode_decode {buf : List UInt8} {p : ChunkPacket}
    (h : ChunkPacket.decode buf = some p) :
    20 + p.payload.length ≤ buf.length
      ∧ p.encode = buf.take (20 + p.payload.length) := by
  have hpay := chunk_decode_payload h
  obtain ⟨htag, hfull, rfl⟩ := chunk_decode_inv h
  dsimp only at hpay ⊢
  unfold ChunkPacket.encode
  dsimp only
  rw [hpay]
  refine ⟨hfull, ?_⟩
  rw [UInt16.ofNat_toNat, ← htag, byteAt_slice (by omega),
    byteAt_slice (by omega), beBytes_u64At (by omega) (by omega),
    beBytes_u32At (by omega) (by omega),
    beBytes_u32At (by omega) (by omega),
    beBytes_u16At (by omega) (by omega),
    show slice buf 0 (0 + 1) = buf.take 1 from rfl,
    take_append_slice buf (by omega), take_append_slice buf (by omega),
    take_append_slice buf (by omega), take_append_slice buf (by omega),
    take_append_slice buf (by omega), take_append_slice buf (by omega)]

-- ========================================================= announcements

theorem announce_decode_encode (p : AnnouncePacket) (t : List UInt8) :
    AnnouncePacket.decode (p.encode ++ t) = some p := by
  have hsize : (p.encode ++ t).length = 22 + t.length := by
    simp only [AnnouncePacket.encode, List.length_append, List.length_cons,
      List.length_nil, beBytes_length]
  unfold AnnouncePacket.decode announceHeaderSize
  rw [if_neg (by omega), if_neg (by exact not_not_intro rfl),
    u64At_of_slice rfl, u32At_of_slice rfl, u64At_of_slice rfl]
  rfl

theorem announce_encode_decode {buf : List UInt8} {p : AnnouncePacket}
    (h : AnnouncePacket.decode buf = some p) :
    22 ≤ buf.length ∧ p.encode = buf.take 22 := by
  unfold AnnouncePacket.decode announceHeaderSize at h
  split at h
  case isTrue => cases h
  case isFalse hsize =>
    split at h
    case isTrue => cases h
    case isFalse htag =>
      injection h with hp
      subst hp
      have htag : byteAt buf 0 = msgAnnounce := not_not.mp htag
      unfold AnnouncePacket.encode
      dsimp only
      refine ⟨by omega, ?_⟩
      rw [← htag, byteAt_slice (by omega), byteAt_slice (by omega),
        beBytes_u64At (by omega) (by omega),
        beBytes_u32At (by omega) (by omega),
        beBytes_u64At (by omega) (by omega),
        show slice buf 0 (0 + 1) = buf.take 1 from rfl,
        take_append_slice buf (by omega), take_append_slice buf (by omega),
        take_append_slice buf (by omega), take_append_slice buf (by omega)]

-- ======================================================= acknowledgements

theorem ack_decode_encode (p : AckPacket) (t : List UInt8) :
    AckPacket.decode (p.encode ++ t) = some p := by
  have hsize : (p.encode ++ t).length = 26 + t.length := by
    simp only [AckPacket.encode, List.length_append, List.length_cons,
      List.length_nil, beBytes_length]
  unfold AckPacket.decode AckPacket.size
  rw [if_neg (by omega), if_neg (by exact not_not_intro rfl),
    u64At_of_slice rfl, u64At_of_slice rfl, u64At_of_slice rfl]
  rfl

theorem ack_encode_decode {buf : List UInt8} {p : AckPacket}
    (h : AckPacket.decode buf = some p) :
    26 ≤ buf.length ∧ p.encode = buf.take 26 := by
  unfold AckPacket.decode AckPacket.size at h
  split at h
  case isTrue => cases h
  case isFalse hsize =>
    split at h
    case isTrue => cases h
    case isFalse htag =>
      injection h with hp
      subst hp
      have htag : byteAt buf 0 = msgAck := not_not.mp htag
      unfold AckPacket.encode
      dsimp only
      refine ⟨by omega, ?_⟩
      rw [← htag, byteAt_slice (by omega), byteAt_slice (by omega),
        beBytes_u64At (by omega) (by omega),
        beBytes_u64At (by omega) (by omega),
        beBytes_u64At (by omega) (by omega),
        show slice buf 0 (0 + 1) = buf.take 1 from rfl,
        take_append_slice buf (by omega), take_append_slice buf (by omega),
        take_append_slice buf (by omega), take_append_slice buf (by omega)]

-- ============================================================= keepalives

theorem keepalive_decode_encode (p : KeepalivePacket) (t : List UInt8) :
    KeepalivePacket.decode (p.encode ++ t) = some p := by
  have hsize : (p.encode ++ t).length = 10 + t.length := by
    simp only [KeepalivePacket.encode, List.length_append, List.length_cons,
      List.length_nil, beBytes_length]
  have hpass : ¬((p.encode ++ t).length < 10
      ∨ byteAt (p.encode ++ t) 0 ≠ msgKeepalive) := by
    rintro (hshort | htag)
    · omega
    · exact htag rfl
  unfold KeepalivePacket.decode KeepalivePacket.size
  rw [if_neg hpass, u64At_of_slice rfl]
  rfl

theorem keepalive_encode_decode {buf : List UInt8} {p : KeepalivePacket}
    (h : KeepalivePacket.decode buf = some p) :
    10 ≤ buf.length ∧ p.encode = buf.take 10 := by
  unfold KeepalivePacket.decode KeepalivePacket.size at h
  split at h
  case isTrue => cases h
  case isFalse hpass =>
    obtain ⟨hsize, htag⟩ := not_or.mp hpass
    injection h with hp
    subst hp
    have htag : byteAt buf 0 = msgKeepalive := not_not.mp htag
    unfold KeepalivePacket.encode
    dsimp only
    refine ⟨by omega, ?_⟩
    rw [← htag, byteAt_slice (by omega), byteAt_slice (by omega),
      beBytes_u64At (by omega) (by omega),
      show slice buf 0 (0 + 1) = buf.take 1 from rfl,
      take_append_slice buf (by omega), take_append_slice buf (by omega)]

-- ================================================================= probes

/-- The four discriminants read back. -/
theorem pathState_fromU8_toU8 (s : PathState) :
    PathState.fromU8 s.toU8 = s := by
  cases s <;> rfl

/-- A byte above 3 reads as `Running`, whose discriminant is 0; the
others are kept. -/
theorem pathState_toU8_fromU8 (v : UInt8) :
    (PathState.fromU8 v).toU8 = if v ≤ 3 then v else 0 := by
  unfold PathState.fromU8
  by_cases h0 : v = 0
  · subst h0; rfl
  by_cases h1 : v = 1
  · subst h1; rfl
  by_cases h2 : v = 2
  · subst h2; rfl
  by_cases h3 : v = 3
  · subst h3; rfl
  have hbig : ¬v ≤ 3 := by
    intro hle
    have hle : v.toNat ≤ 3 := UInt8.le_iff_toNat_le.mp hle
    have hne : ∀ k : UInt8, v ≠ k → v.toNat ≠ k.toNat :=
      fun k hk heq => hk (UInt8.toNat_inj.mp heq)
    have n0 := hne 0 h0
    have n1 := hne 1 h1
    have n2 := hne 2 h2
    have n3 := hne 3 h3
    rw [show (0 : UInt8).toNat = 0 from rfl] at n0
    rw [show (1 : UInt8).toNat = 1 from rfl] at n1
    rw [show (2 : UInt8).toNat = 2 from rfl] at n2
    rw [show (3 : UInt8).toNat = 3 from rfl] at n3
    omega
  rw [if_neg h0, if_neg h1, if_neg h2, if_neg h3, if_neg hbig]
  rfl

theorem probe_decode_encode (p : ProbePacket) (t : List UInt8) :
    ProbePacket.decode (p.encode ++ t) = some p := by
  have hsize : (p.encode ++ t).length = 51 + t.length := by
    simp only [ProbePacket.encode, List.length_append, List.length_cons,
      List.length_nil, beBytes_length]
  -- the fields from the front, so that a slice is reached field by field
  generalize hbuf : p.encode ++ t = buf at hsize ⊢
  unfold ProbePacket.encode at hbuf
  simp only [List.append_assoc] at hbuf
  have hpass : ¬(buf.length < 51 ∨ byteAt buf 0 ≠ msgProbe) := by
    rintro (hshort | htag)
    · omega
    · exact htag (hbuf ▸ rfl)
  have hstate : PathState.fromU8 (byteAt buf 47) = p.pathState := by
    rw [← hbuf]
    exact pathState_fromU8_toU8 p.pathState
  unfold ProbePacket.decode ProbePacket.size
  rw [if_neg hpass, hstate, ← hbuf, u32At_of_slice rfl, u64At_of_slice rfl,
    u64At_of_slice rfl, u64At_of_slice rfl, u32At_of_slice rfl,
    u64At_of_slice rfl, u32At_of_slice rfl]
  rfl

/-- What a probe keeps of its 51 bytes: the reserved bytes and a path
state above 3 are zeroed. -/
def probeCanonical (buf : List UInt8) : List UInt8 :=
  buf.take 47 ++ [if byteAt buf 47 ≤ 3 then byteAt buf 47 else 0]
    ++ [0, 0, 0]

theorem probe_encode_decode {buf : List UInt8} {p : ProbePacket}
    (h : ProbePacket.decode buf = some p) :
    51 ≤ buf.length ∧ p.encode = probeCanonical buf := by
  unfold ProbePacket.decode ProbePacket.size at h
  split at h
  case isTrue => cases h
  case isFalse hpass =>
    obtain ⟨hsize, htag⟩ := not_or.mp hpass
    injection h with hp
    subst hp
    have htag : byteAt buf 0 = msgProbe := not_not.mp htag
    unfold ProbePacket.encode probeCanonical
    dsimp only
    refine ⟨by omega, ?_⟩
    rw [pathState_toU8_fromU8, ← htag, byteAt_slice (i := 0) (by omega),
      byteAt_slice (i := 1) (by omega), byteAt_slice (i := 46) (by omega),
      beBytes_u32At (by omega) (by omega),
      beBytes_u64At (by omega) (by omega),
      beBytes_u64At (by omega) (by omega),
      beBytes_u64At (by omega) (by omega),
      beBytes_u32At (by omega) (by omega),
      beBytes_u64At (by omega) (by omega),
      beBytes_u32At (by omega) (by omega),
      show slice buf 0 (0 + 1) = buf.take 1 from rfl,
      take_append_slice buf (by omega), take_append_slice buf (by omega),
      take_append_slice buf (by omega), take_append_slice buf (by omega),
      take_append_slice buf (by omega), take_append_slice buf (by omega),
      take_append_slice buf (by omega), take_append_slice buf (by omega),
      take_append_slice buf (by omega)]

-- =============================================================== dispatch

variable {statsFromSlice : List UInt8 → Option StatsPacket}

/-- What an accepted buffer was accepted as: the dispatch adds nothing
to the decoder of the packet's own kind. -/
theorem packet_decode_inv {buf : List UInt8} {pkt : Packet}
    (h : Packet.decode statsFromSlice buf = some pkt) :
    match pkt with
    | .data p => ChunkPacket.decode buf = some p
    | .announce p => AnnouncePacket.decode buf = some p
    | .ack p => AckPacket.decode buf = some p
    | .stats p => StatsPacket.decode statsFromSlice buf = some p
    | .keepalive p => KeepalivePacket.decode buf = some p
    | .probe p => ProbePacket.decode buf = some p := by
  unfold Packet.decode at h
  split at h
  case isTrue => cases h
  case isFalse =>
    -- six tags, then the unknown one
    repeat' split at h
    all_goals first
      | (obtain ⟨p, hp, rfl⟩ := Option.map_eq_some_iff.mp h; exact hp)
      | cases h

/-- A nonempty buffer goes to the decoder its tag names. -/
theorem packet_decode_tag {buf : List UInt8} (hne : buf.isEmpty = false) :
    (byteAt buf 0 = msgData → Packet.decode statsFromSlice buf
      = (ChunkPacket.decode buf).map .data)
    ∧ (byteAt buf 0 = msgAnnounce → Packet.decode statsFromSlice buf
      = (AnnouncePacket.decode buf).map .announce)
    ∧ (byteAt buf 0 = msgAck → Packet.decode statsFromSlice buf
      = (AckPacket.decode buf).map .ack)
    ∧ (byteAt buf 0 = msgKeepalive → Packet.decode statsFromSlice buf
      = (KeepalivePacket.decode buf).map .keepalive)
    ∧ (byteAt buf 0 = msgProbe → Packet.decode statsFromSlice buf
      = (ProbePacket.decode buf).map .probe) := by
  unfold Packet.decode
  rw [hne]
  refine ⟨?_, ?_, ?_, ?_, ?_⟩ <;>
    · intro htag
      rw [htag]
      rfl

/-- The wire format is exact: the five binary kinds decode back from
their encoding in front of any bytes, and what is accepted as one of
them re-encodes to the prefix it was read from. -/
theorem wire_format_exact (statsFromSlice : List UInt8 → Option StatsPacket) :
    ((∀ p : ChunkPacket, p.payload.length ≤ 65535 → ∀ t,
        Packet.decode statsFromSlice (p.encode ++ t) = some (.data p))
      ∧ (∀ (p : AnnouncePacket) t,
        Packet.decode statsFromSlice (p.encode ++ t) = some (.announce p))
      ∧ (∀ (p : AckPacket) t,
        Packet.decode statsFromSlice (p.encode ++ t) = some (.ack p))
      ∧ (∀ (p : KeepalivePacket) t,
        Packet.decode statsFromSlice (p.encode ++ t) = some (.keepalive p))
      ∧ (∀ (p : ProbePacket) t,
        Packet.decode statsFromSlice (p.encode ++ t) = some (.probe p)))
    ∧ (∀ buf p, Packet.decode statsFromSlice buf = some (.data p) →
        20 + p.payload.length ≤ buf.length
          ∧ p.encode = buf.take (20 + p.payload.length))
    ∧ (∀ buf p, Packet.decode statsFromSlice buf = some (.announce p) →
        22 ≤ buf.length ∧ p.encode = buf.take 22)
    ∧ (∀ buf p, Packet.decode statsFromSlice buf = some (.ack p) →
        26 ≤ buf.length ∧ p.encode = buf.take 26)
    ∧ (∀ buf p, Packet.decode statsFromSlice buf = some (.keepalive p) →
        10 ≤ buf.length ∧ p.encode = buf.take 10)
    ∧ (∀ buf p, Packet.decode statsFromSlice buf = some (.probe p) →
        51 ≤ buf.length ∧ p.encode = probeCanonical buf) := by
  refine ⟨⟨?_, ?_, ?_, ?_, ?_⟩, ?_, ?_, ?_, ?_, ?_⟩
  · intro p hlen t
    rw [(packet_decode_tag rfl).1 rfl, chunk_decode_encode hlen]
    rfl
  · intro p t
    rw [(packet_decode_tag rfl).2.1 rfl, announce_decode_encode]
    rfl
  · intro p t
    rw [(packet_decode_tag rfl).2.2.1 rfl, ack_decode_encode]
    rfl
  · intro p t
    rw [(packet_decode_tag rfl).2.2.2.1 rfl, keepalive_decode_encode]
    rfl
  · intro p t
    rw [(packet_decode_tag rfl).2.2.2.2 rfl, probe_decode_encode]
    rfl
  · exact fun buf p h => chunk_encode_decode (packet_decode_inv h)
  · exact fun buf p h => announce_encode_decode (packet_decode_inv h)
  · exact fun buf p h => ack_encode_decode (packet_decode_inv h)
  · exact fun buf p h => keepalive_encode_decode (packet_decode_inv h)
  · exact fun buf p h => probe_encode_decode (packet_decode_inv h)

/-- The exactness law at a three-byte chunk followed by one stray
byte. -/
theorem wire_format_exact_three_bytes :
    Packet.decode (fun _ => none)
        (ChunkPacket.encode ⟨5, 1, 3, 0, [7, 8, 9]⟩ ++ [255])
      = some (.data ⟨5, 1, 3, 0, [7, 8, 9]⟩) :=
  (wire_format_exact fun _ => none).1.1 ⟨5, 1, 3, 0, [7, 8, 9]⟩
    (by decide) [255]

end ChainLightning
