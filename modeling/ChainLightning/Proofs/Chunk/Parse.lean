/-
Chunk parsing, for any bytes.

`extract_packets` reads a received payload, so its bytes are whatever the
network says. With every access checked the loop computes what the plain
translation does (`extractChecked_eq`): it never leaves the buffer. What
it returns is the exact parse: the frames of the packets are the front
of the data, and no further frame stands behind them
(`extractFrom_splits`); no other packets parse the data that way. A chunk
that `add_packet` built is such data with nothing behind the frames.
-/
import Mathlib.Data.List.Induction
import ChainLightning.Proofs.Chunk.Feed

namespace ChainLightning

open Bytes Machine

namespace Chunk

-- ========================================================= checked access

/-- `data[a..b].to_vec()`; out of range it panics. -/
def sliceChecked (data : List UInt8) (a b : Nat) : Option (List UInt8) :=
  if a ≤ b ∧ b ≤ data.length then some (slice data a b) else none

/-- The loop of `extract_packets`, with its accesses checked. -/
def extractChecked (data : List UInt8) (offset : Nat) :
    Option (List (List UInt8)) :=
  if offset + 2 ≤ data.length then do
    let hi ← data[offset]?
    let lo ← data[offset + 1]?
    let len := (UInt16.ofNat (beNat [hi, lo])).toNat
    if offset + 2 + len ≤ data.length then
      let packet ← sliceChecked data (offset + 2) (offset + 2 + len)
      let packets ← extractChecked data (offset + 2 + len)
      some (packet :: packets)
    else some []
  else some []
termination_by data.length - offset

/-- Two bytes in range are the slice of them. -/
private theorem slice_pair {data : List UInt8} {i : Nat}
    (h : i + 2 ≤ data.length) :
    ∃ hi lo, data[i]? = some hi ∧ data[i + 1]? = some lo
      ∧ slice data i (i + 2) = [hi, lo] := by
  have hi : i < data.length := by omega
  have hlo : i + 1 < data.length := by omega
  refine ⟨data[i], data[i + 1], List.getElem?_eq_getElem hi,
    List.getElem?_eq_getElem hlo, ?_⟩
  unfold slice
  rw [Nat.add_sub_cancel_left, List.drop_eq_getElem_cons hi,
    List.drop_eq_getElem_cons hlo]
  rfl

/-- No access leaves the buffer. -/
theorem extractChecked_eq (data : List UInt8) (offset : Nat) :
    extractChecked data offset = some (extractFrom data offset) := by
  induction offset using extractFrom.induct data with
  | case1 offset hhead len hbody ih =>
      obtain ⟨hi, lo, hhi, hlo, hpair⟩ := slice_pair hhead
      have hlen : (UInt16.ofNat (beNat [hi, lo])).toNat = len := by
        rw [← hpair]
        rfl
      have hslice : sliceChecked data (offset + 2) (offset + 2 + len)
          = some (slice data (offset + 2) (offset + 2 + len)) :=
        if_pos ⟨Nat.le_add_right _ _, hbody⟩
      rw [extractChecked, extractFrom, if_pos hhead, if_pos hhead, hhi, hlo]
      simp only [Option.bind_eq_bind, Option.bind_some, hlen]
      rw [if_pos hbody, if_pos hbody, hslice, ih]
      rfl
  | case2 offset hhead len hbody =>
      obtain ⟨hi, lo, hhi, hlo, hpair⟩ := slice_pair hhead
      have hlen : (UInt16.ofNat (beNat [hi, lo])).toNat = len := by
        rw [← hpair]
        rfl
      rw [extractChecked, extractFrom, if_pos hhead, if_pos hhead, hhi, hlo]
      simp only [Option.bind_eq_bind, Option.bind_some, hlen]
      rw [if_neg hbody, if_neg hbody]
  | case3 offset hhead =>
      rw [extractChecked, extractFrom, if_neg hhead, if_neg hhead]

-- ========================================================= the exact parse

/-- From an offset on, the data are the frames of the packets that the
loop returns, and behind them no frame. -/
theorem extractFrom_splits (data : List UInt8) (offset : Nat) :
    ∃ rest, data.drop offset = frames 2 (extractFrom data offset) ++ rest
      ∧ Truncated 2 rest
      ∧ ∀ p ∈ extractFrom data offset, p.length ≤ 65535 := by
  induction offset using extractFrom.induct data with
  | case1 offset hhead len hbody ih =>
      obtain ⟨rest, hdata, hrest, hfits⟩ := ih
      have hn : beNat (slice data offset (offset + 2)) = len :=
        (u16At_toNat hhead (Nat.add_sub_cancel_left _ _)).symm
      have hfit : len < 65536 := (u16At data offset (offset + 2)).toNat_lt
      have hpacket : (slice data (offset + 2) (offset + 2 + len)).length
          = len := by
        rw [slice_length hbody, Nat.add_sub_cancel_left]
      rw [extractFrom, if_pos hhead]
      dsimp only
      rw [if_pos hbody]
      refine ⟨rest, ?_, hrest, ?_⟩
      · rw [frames_cons, List.append_assoc, ← hdata,
          ← frame_of_slices hhead hn hbody, List.append_assoc,
          slice_append_drop _ (Nat.le_add_right _ _),
          slice_append_drop _ (Nat.le_add_right _ _)]
      · intro p hp
        rcases List.mem_cons.mp hp with rfl | hp
        · exact hpacket.trans_le (by omega)
        · exact hfits p hp
  | case2 offset hhead len hbody =>
      have hn : beNat (slice data offset (offset + 2)) = len :=
        (u16At_toNat hhead (Nat.add_sub_cancel_left _ _)).symm
      rw [extractFrom, if_pos hhead]
      dsimp only
      rw [if_neg hbody]
      refine ⟨data.drop offset, rfl, Or.inr ?_,
        fun _ h => absurd h List.not_mem_nil⟩
      rw [slice, Nat.add_sub_cancel_left] at hn
      rw [List.length_drop, hn]
      omega
  | case3 offset hhead =>
      rw [extractFrom, if_neg hhead]
      refine ⟨data.drop offset, rfl, Or.inl ?_,
        fun _ h => absurd h List.not_mem_nil⟩
      rw [List.length_drop]
      omega

/-- A chunk with packets added to it one after the other. -/
def built (id : ChunkId) (now : Nat) (ps : List (List UInt8)) : Chunk :=
  ps.foldl (fun c p => c.addPacket p) (Chunk.new id now)

/-- A built chunk holds its packets, and its offsets are where their
frames begin. -/
theorem built_holds (id : ChunkId) (now : Nat) {ps : List (List UInt8)}
    (hfits : ∀ p ∈ ps, p.length ≤ 65535) :
    (built id now ps).Holds ps
      ∧ (built id now ps).packetOffsets
        = (List.range ps.length).map fun k =>
          (frames 2 (ps.take k)).length := by
  induction ps using List.reverseRecOn with
  | nil => exact ⟨Holds.new id now, rfl⟩
  | append_singleton ps p ih =>
      obtain ⟨hholds, hoffsets⟩ :=
        ih fun q hq => hfits q (List.mem_append_left _ hq)
      have hp : p.length ≤ 65535 :=
        hfits p (List.mem_append_right _ List.mem_cons_self)
      have hbuilt : built id now (ps ++ [p])
          = (built id now ps).addPacket p := by
        unfold built
        rw [List.foldl_append]
        rfl
      rw [hbuilt]
      refine ⟨hholds.addPacket hp, ?_⟩
      show (built id now ps).packetOffsets ++ [(built id now ps).data.length]
        = _
      rw [hoffsets, hholds.data, List.length_append, List.length_singleton,
        List.range_succ, List.map_append, List.map_singleton, List.take_left]
      congr 1
      refine List.map_congr_left fun k hk => ?_
      rw [List.take_append_of_le_length (List.mem_range.mp hk).le]

end Chunk

/-- The remainder of a parse: empty, or one byte, or a length that
announces more bytes than are left. -/
theorem truncated_two_iff {rest : List UInt8} :
    Truncated 2 rest ↔ rest = [] ∨ rest.length = 1
      ∨ (2 ≤ rest.length ∧ rest.length < 2 + beNat (rest.take 2)) := by
  unfold Truncated
  rw [← List.length_eq_zero_iff]
  omega

/-- Chunk parsing is the maximal exact parse. Of any data, every access
in range, the loop returns packets whose records are the front of the
data, with a remainder behind them that begins no record; and no other
packets are such a parse. The other way round, a chunk that was built of
packets is their records, at the offsets it notes, and gives them back. -/
theorem chunk_parse_exact :
    (∀ c : Chunk, ∃ rest,
      Chunk.extractChecked c.data 0 = some c.extractPackets
      ∧ c.data = frames 2 c.extractPackets ++ rest
      ∧ (∀ p ∈ c.extractPackets, p.length ≤ 65535)
      ∧ (rest = [] ∨ rest.length = 1
        ∨ (2 ≤ rest.length ∧ rest.length < 2 + beNat (rest.take 2)))
      ∧ ∀ ps' rest', (∀ p ∈ ps', p.length ≤ 65535) → Truncated 2 rest' →
        c.data = frames 2 ps' ++ rest' →
        ps' = c.extractPackets ∧ rest' = rest)
    ∧ ∀ (id : ChunkId) (now : Nat) (ps : List (List UInt8)),
      (∀ p ∈ ps, p.length ≤ 65535) →
      (Chunk.built id now ps).extractPackets = ps
        ∧ (Chunk.built id now ps).data = frames 2 ps
        ∧ (Chunk.built id now ps).packetOffsets
          = (List.range ps.length).map fun k =>
            (frames 2 (ps.take k)).length := by
  refine ⟨fun c => ?_, fun id now ps hfits => ?_⟩
  · obtain ⟨rest, hdata, hrest, hfits⟩ := Chunk.extractFrom_splits c.data 0
    rw [List.drop_zero] at hdata
    refine ⟨rest, Chunk.extractChecked_eq c.data 0, hdata, hfits,
      truncated_two_iff.mp hrest, ?_⟩
    intro ps' rest' hfits' hrest' hdata'
    have hread := extractFrom_frames hfits' [] hrest'
    rw [List.nil_append, ← hdata'] at hread
    have hps : ps' = c.extractPackets := hread.symm
    refine ⟨hps, ?_⟩
    have hsame : frames 2 c.extractPackets ++ rest'
        = frames 2 c.extractPackets ++ rest := by
      rw [← hps, ← hdata', hdata, hps]
      rfl
    exact List.append_cancel_left hsame
  · obtain ⟨hholds, hoffsets⟩ := Chunk.built_holds id now hfits
    exact ⟨hholds.extractPackets hfits, hholds.data, hoffsets⟩

end ChainLightning
