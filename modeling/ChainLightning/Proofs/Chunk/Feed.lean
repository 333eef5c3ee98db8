/-
The aggregator is a batcher of framed packets.

`Sim s b` ties a run of the aggregator to an abstract batcher: the
current chunk is the frames of the waiting packets, each emitted chunk
the frames of its batch, and the two id counters count the batches. A
call is a sequence of moves, each a push, a cut or a change beside the
chunks (`step_moves`, the only place the branches of the calls are
opened), and the relation is carried by one lemma for the push and one
for the cut (`Sim.push`, `Sim.cut`).

`extract_packets` undoes the framing (`extractPackets_frames`), which
turns the batcher's bookkeeping into the exactness of the aggregator.
-/
import ChainLightning.Lib.Batcher
import ChainLightning.Aggregator
import ChainLightning.Proofs.Wire

namespace ChainLightning

open Bytes Machine

-- ============================================================= extraction

/-- The extraction loop, standing at the front of frames, reads their
bodies back and stops behind them. -/
theorem extractFrom_frames {ps : List (List UInt8)}
    (hfits : ∀ p ∈ ps, p.length ≤ 65535) (pre : List UInt8)
    {rest : List UInt8} (hrest : Truncated 2 rest) :
    Chunk.extractFrom (pre ++ (frames 2 ps ++ rest)) pre.length = ps := by
  induction ps generalizing pre with
  | nil =>
      rw [frames_nil, List.nil_append]
      have hsize : (pre ++ rest).length = pre.length + rest.length :=
        List.length_append
      rw [Chunk.extractFrom]
      split
      case isFalse => rfl
      case isTrue hhead =>
          have hslice : slice (pre ++ rest) pre.length (pre.length + 2)
              = rest.take 2 := by
            rw [slice, List.drop_left, Nat.add_sub_cancel_left]
          have hlen : (u16At (pre ++ rest) pre.length
              (pre.length + 2)).toNat = beNat (rest.take 2) := by
            rw [u16At_toNat hhead (Nat.add_sub_cancel_left _ _), hslice]
          dsimp only
          rw [hlen, if_neg (by rcases hrest with h | h <;> omega)]
  | cons p ps ih =>
      have hp : p.length ≤ 65535 := hfits p List.mem_cons_self
      have hps : ∀ q ∈ ps, q.length ≤ 65535 :=
        fun q hq => hfits q (List.mem_cons_of_mem p hq)
      have hcast := u16_toNat_ofNat hp
      rw [frames_cons, List.append_assoc]
      have hlen : (u16At (pre ++ (frame 2 p ++ (frames 2 ps ++ rest)))
          pre.length (pre.length + 2)).toNat = p.length := by
        rw [u16At_of_slice (x := UInt16.ofNat p.length), hcast]
        rw [slice_frame_length, hcast]
      have hsize : (pre ++ (frame 2 p ++ (frames 2 ps ++ rest))).length
          = pre.length + (2 + p.length + (frames 2 ps ++ rest).length) := by
        rw [List.length_append, List.length_append, frame_length]
      -- the loop goes on behind this frame
      have hnext : pre.length + 2 + p.length = (pre ++ frame 2 p).length := by
        rw [List.length_append, frame_length]
        omega
      rw [Chunk.extractFrom, if_pos (by omega)]
      simp only [hlen]
      rw [if_pos (by omega), slice_frame_body, hnext, ← List.append_assoc,
        ih hps]

/-- A chunk holds packets: its data are their frames, and it counts
them. -/
structure Chunk.Holds (c : Chunk) (ps : List (List UInt8)) : Prop where
  data : c.data = frames 2 ps
  count : c.packetCount = ps.length

namespace Chunk.Holds

theorem new (id : ChunkId) (now : Nat) : (Chunk.new id now).Holds [] :=
  ⟨rfl, rfl⟩

theorem addPacket {c : Chunk} {ps : List (List UInt8)} (h : c.Holds ps)
    {p : List UInt8} (hp : p.length ≤ 65535) :
    (c.addPacket p).Holds (ps ++ [p]) := by
  have hcast := u16_toNat_ofNat hp
  constructor
  · show c.data ++ beBytes 2 (UInt16.ofNat p.length).toNat ++ p = _
    rw [hcast, frames_snoc, h.data, frame, List.append_assoc]
  · have hcount := h.count
    unfold Chunk.packetCount at hcount ⊢
    unfold Chunk.addPacket
    rw [List.length_append, List.length_append, hcount]
    rfl

theorem isEmpty_iff {c : Chunk} {ps : List (List UInt8)}
    (h : c.Holds ps) : c.isEmpty = true ↔ ps = [] := by
  unfold Chunk.isEmpty
  rw [List.isEmpty_iff, h.data, frames_eq_nil_iff (by decide)]

theorem extractPackets {c : Chunk} {ps : List (List UInt8)}
    (h : c.Holds ps) (hfits : ∀ p ∈ ps, p.length ≤ 65535) :
    c.extractPackets = ps := by
  unfold Chunk.extractPackets
  have hread := extractFrom_frames hfits [] (truncated_nil Nat.two_pos)
  rw [List.append_nil] at hread
  rw [h.data]
  exact hread

end Chunk.Holds

-- ================================================================= moves

/-- What a call is made of. A packet is pushed only into an empty chunk
or where it fits, and only a nonempty chunk is cut. -/
inductive Move : List (List UInt8) → Feed → Feed → Prop
  | push {s : Feed} (p : List UInt8)
      (room : s.agg.currentChunk.isEmpty = true
        ∨ s.agg.currentChunk.size + 2 + p.length
          ≤ s.agg.optimalChunkSize) :
      Move [p] s
        { s with agg := s.agg.pushCurrent p, unsent := s.unsent ++ [p] }
  | flow {s : Feed} (flowId : Option FlowId) :
      Move [] s { s with agg := s.agg.setFlow flowId }
  | cut {s : Feed} (now : Nat)
      (nonempty : s.agg.currentChunk.isEmpty = false) :
      Move [] s
        ⟨(s.agg.finalizeCurrentChunk now).2, [],
          s.emitted ++ [((s.agg.finalizeCurrentChunk now).1, s.unsent)]⟩
  | stats {s : Feed} (linkId : Nat) (bandwidthBps : UInt64)
      (rttMs : UInt32) :
      Move [] s
        { s with agg := s.agg.updateLinkStats linkId bandwidthBps rttMs }

/-- Moves in sequence, with the packets they push. -/
inductive Moves : List (List UInt8) → Feed → Feed → Prop
  | done (s : Feed) : Moves [] s s
  | step {ps qs : List (List UInt8)} {s s₁ s₂ : Feed} :
      Move ps s s₁ → Moves qs s₁ s₂ → Moves (ps ++ qs) s s₂

namespace Moves

variable {ps qs : List (List UInt8)} {s s₁ s₂ : Feed}

theorem single (h : Move ps s s₁) : Moves ps s s₁ := by
  have hm := Moves.step h (Moves.done s₁)
  rwa [List.append_nil] at hm

theorem trans (h : Moves ps s s₁) (h' : Moves qs s₁ s₂) :
    Moves (ps ++ qs) s s₂ := by
  induction h with
  | done s => exact h'
  | step hmove _ ih =>
      rw [List.append_assoc]
      exact .step hmove (ih h')

/-- The flow is set or left. -/
theorem flowIf (s : Feed) (flowId : Option FlowId) (cond : Prop)
    [Decidable cond] :
    Moves [] s
      { s with agg := if cond then s.agg.setFlow flowId else s.agg } := by
  split
  case isTrue => exact single (.flow flowId)
  case isFalse => exact .done s

end Moves

theorem addPacket_size (packet : List UInt8) (c : Chunk) :
    (c.addPacket packet).size = c.size + 2 + packet.length := by
  unfold Chunk.size Chunk.addPacket
  rw [List.length_append, List.length_append, beBytes_length]

theorem addPacket_nonempty (packet : List UInt8) (c : Chunk) :
    (c.addPacket packet).isEmpty = false := by
  unfold Chunk.isEmpty Chunk.addPacket
  simp [beBytes]

/-- The current chunk counts the unsent packets. -/
def Counted (s : Feed) : Prop :=
  s.agg.currentChunk.packetCount = s.unsent.length

/-- The link statistics and the chunk size are apart from the chunks. -/
theorem updateLinkStats_current (a : ChunkAggregator) (linkId : Nat)
    (bandwidthBps : UInt64) (rttMs : UInt32) :
    (a.updateLinkStats linkId bandwidthBps rttMs).currentChunk
        = a.currentChunk
      ∧ (a.updateLinkStats linkId bandwidthBps rttMs).nextChunkId
        = a.nextChunkId := by
  unfold ChunkAggregator.updateLinkStats
    ChunkAggregator.recalculateChunkSize
  dsimp only
  split
  case isFalse => exact ⟨rfl, rfl⟩
  case isTrue => split <;> exact ⟨rfl, rfl⟩

theorem Counted.move {ps : List (List UInt8)} {s s' : Feed}
    (h : Counted s) (hmove : Move ps s s') : Counted s' := by
  unfold Counted at h ⊢
  cases hmove with
  | push p =>
      show (s.agg.currentChunk.packetOffsets ++ [_]).length
        = (s.unsent ++ [p]).length
      rw [List.length_append, List.length_append, ← h]
      rfl
  | flow flowId => exact h
  | cut now => rfl
  | stats linkId bandwidthBps rttMs =>
      show (s.agg.updateLinkStats linkId bandwidthBps
        rttMs).currentChunk.packetCount = _
      rw [(updateLinkStats_current s.agg linkId bandwidthBps rttMs).1]
      exact h

theorem Counted.moves {ps : List (List UInt8)} {s s' : Feed}
    (h : Counted s) (hmoves : Moves ps s s') : Counted s' := by
  induction hmoves with
  | done s => exact h
  | step hmove _ ih => exact ih (h.move hmove)

-- =============================================================== one call

/-- A call is a step of a run. -/
theorem step_apply (op : AggOp) (s : Feed) :
    ∃ s', Feed.step op s = some s' ∧ s'.agg = (op.apply s.agg).2
      ∧ s'.chunks = s.chunks ++ (op.apply s.agg).1.toList := by
  unfold Feed.step
  rcases op.apply s.agg with ⟨chunk, agg⟩
  cases chunk with
  | none => exact ⟨_, rfl, rfl, (List.append_nil _).symm⟩
  | some c => exact ⟨_, rfl, rfl, List.map_append⟩

/-- A call that emits nothing keeps its packets unsent. -/
theorem step_quiet {s : Feed} {op : AggOp} {agg : ChunkAggregator}
    (happ : op.apply s.agg = (none, agg)) :
    Feed.step op s = some { s with agg, unsent := s.unsent ++ op.packets } := by
  unfold Feed.step
  rw [happ]

/-- A call that emits a chunk hands over as many packets as the chunk
counts. -/
theorem step_emits {s : Feed} {op : AggOp} {c : Chunk}
    {agg : ChunkAggregator} {front back : List (List UInt8)}
    (happ : op.apply s.agg = (some c, agg))
    (hsplit : s.unsent ++ op.packets = front ++ back)
    (hcount : c.packetCount = front.length) :
    Feed.step op s
      = some ⟨agg, back, s.emitted ++ [(c, front)]⟩ := by
  unfold Feed.step
  rw [happ]
  dsimp only
  rw [hsplit, hcount, List.take_left, List.drop_left]

/-- A call that neither adds nor emits. -/
theorem step_idle {s : Feed} {op : AggOp} {agg : ChunkAggregator}
    (hop : op.packets = []) (happ : op.apply s.agg = (none, agg)) :
    Feed.step op s = some { s with agg } := by
  rw [step_quiet happ, hop, List.append_nil]

/-- A flush is a cut of what waits, if anything does. -/
theorem flush_moves {s s' : Feed} (hcounted : Counted s) {op : AggOp}
    {now : Nat} (hop : op.packets = [])
    (happ : op.apply s.agg = s.agg.flush now)
    (hstep : Feed.step op s = some s') : Moves [] s s' := by
  unfold ChunkAggregator.flush at happ
  by_cases hempty : s.agg.currentChunk.isEmpty = true
  · rw [if_pos hempty] at happ
    rw [step_idle hop happ] at hstep
    cases hstep
    exact .done s
  · rw [if_neg hempty] at happ
    rw [step_emits happ (by rw [hop]) hcounted] at hstep
    cases hstep
    exact .single (.cut now (Bool.eq_false_iff.mpr hempty))

/-- An added packet is pushed, behind a cut when it does not fit, before
a cut when it fills the chunk. -/
theorem addPacket_moves {s s' : Feed} (hcounted : Counted s)
    {packet : List UInt8} {flowId : Option FlowId} {now : Nat}
    (hstep : Feed.step (.addPacket packet flowId now) s = some s') :
    Moves [packet] s s' := by
  by_cases hfull : s.agg.currentChunk.size + 2 + packet.length
      > s.agg.optimalChunkSize ∧ ¬s.agg.currentChunk.isEmpty
  · have happ : (AggOp.addPacket packet flowId now).apply s.agg
        = (some (s.agg.finalizeCurrentChunk now).1, _) := if_pos hfull
    rw [step_emits happ rfl hcounted] at hstep
    cases hstep
    -- cut, push into the new chunk, set its flow
    exact .step (.cut now (Bool.eq_false_iff.mpr hfull.2))
      (.step (.push packet (Or.inl rfl)) (.flowIf _ flowId _))
  · have hroom : s.agg.currentChunk.isEmpty = true
        ∨ s.agg.currentChunk.size + 2 + packet.length
          ≤ s.agg.optimalChunkSize := by
      rcases Decidable.not_and_iff_or_not.mp hfull with hle | hempty
      · exact Or.inr (Nat.le_of_not_lt hle)
      · exact Or.inl (Decidable.not_not.mp hempty)
    have hpush : Moves [packet] s _ :=
      .step (.push packet hroom) (.flowIf _ flowId (flowId.isSome
        ∧ (s.agg.pushCurrent packet).currentChunk.flowId.isNone))
    have hnonempty : (if flowId.isSome ∧
        (s.agg.pushCurrent packet).currentChunk.flowId.isNone then
          (s.agg.pushCurrent packet).setFlow flowId
        else s.agg.pushCurrent packet).currentChunk.isEmpty = false := by
      split <;> exact addPacket_nonempty packet s.agg.currentChunk
    -- the aggregator behind the push, with its flow
    generalize hcur : (if flowId.isSome ∧
      (s.agg.pushCurrent packet).currentChunk.flowId.isNone then
        (s.agg.pushCurrent packet).setFlow flowId
      else s.agg.pushCurrent packet) = cur at hpush hnonempty
    have happ : (AggOp.addPacket packet flowId now).apply s.agg
        = if cur.currentChunk.size ≥ cur.optimalChunkSize then
            (some (cur.finalizeCurrentChunk now).1,
              (cur.finalizeCurrentChunk now).2)
          else (none, cur) := by
      rw [← hcur]
      exact if_neg hfull
    by_cases hfill : cur.currentChunk.size ≥ cur.optimalChunkSize
    · rw [if_pos hfill] at happ
      have hcount : (cur.finalizeCurrentChunk now).1.packetCount
          = (s.unsent ++ [packet]).length := hcounted.moves hpush
      rw [step_emits happ (List.append_nil _).symm hcount] at hstep
      cases hstep
      exact hpush.trans (.single (.cut now hnonempty))
    · rw [if_neg hfill] at happ
      rw [step_quiet happ] at hstep
      cases hstep
      exact hpush

/-- A timeout check flushes or does nothing. -/
theorem checkTimeout_cases (a : ChunkAggregator) (read now : Nat) :
    a.checkTimeout read now = a.flush now
      ∨ a.checkTimeout read now = (none, a) := by
  unfold ChunkAggregator.checkTimeout
  split
  case isTrue => exact Or.inr rfl
  case isFalse =>
    dsimp only
    split
    case isTrue => exact Or.inl rfl
    case isFalse => exact Or.inr rfl

/-- A call is a sequence of moves that push the packets it adds. -/
theorem step_moves {s s' : Feed} (hcounted : Counted s) {op : AggOp}
    (hstep : Feed.step op s = some s') : Moves op.packets s s' := by
  cases op with
  | addPacket packet flowId now => exact addPacket_moves hcounted hstep
  | flush now => exact flush_moves hcounted rfl rfl hstep
  | checkTimeout read now =>
      have hcases : (AggOp.checkTimeout read now).apply s.agg
            = s.agg.flush now
          ∨ (AggOp.checkTimeout read now).apply s.agg = (none, s.agg) :=
        checkTimeout_cases s.agg read now
      rcases hcases with happ | happ
      · exact flush_moves hcounted rfl happ hstep
      · rw [step_idle rfl happ] at hstep
        cases hstep
        exact .done s
  | updateLinkStats linkId bandwidthBps rttMs =>
      rw [step_idle rfl rfl] at hstep
      cases hstep
      exact .single (.stats linkId bandwidthBps rttMs)

/-- So is a run. -/
theorem run_moves {ops : List AggOp} {s s' : Feed} (hcounted : Counted s)
    (hrun : Trace.run Feed.step ops s = some s') :
    Moves (ops.flatMap AggOp.packets) s s' := by
  induction ops generalizing s with
  | nil =>
      cases hrun
      exact .done _
  | cons op ops ih =>
      obtain ⟨s₁, hstep, hrest⟩ := Trace.run_cons_inv hrun
      have hmoves := step_moves hcounted hstep
      rw [List.flatMap_cons]
      exact hmoves.trans (ih (hcounted.moves hmoves) hrest)

-- ========================================================= the simulation

/-- A run of the aggregator simulates a batcher of packets. -/
structure Sim (s : Feed) (b : Batcher (List UInt8)) : Prop where
  fits : ∀ p ∈ b.items, p.length ≤ 65535
  current : s.agg.currentChunk.Holds b.pending
  unsent : s.unsent = b.pending
  emitted : ∀ e ∈ s.emitted, e.1.Holds e.2
  batches : s.emitted.map Prod.snd = b.batches
  -- the pair of counters
  nextChunkId : s.agg.nextChunkId = s.agg.currentChunk.id + 1
  currentId : s.agg.currentChunk.id = UInt64.ofNat s.emitted.length
  ids : ∀ k c, s.chunks[k]? = some c → c.id = UInt64.ofNat k

theorem sim_start (config : ChunkAggregatorConfig) (numLinks now : Nat) :
    Sim (Feed.start config numLinks now) Batcher.empty where
  fits := fun _ h => nomatch h
  current := Chunk.Holds.new 0 now
  unsent := rfl
  emitted := fun _ h => nomatch h
  batches := rfl
  nextChunkId := rfl
  currentId := rfl
  ids := fun _ _ h => nomatch h

namespace Sim

variable {s s' : Feed} {b : Batcher (List UInt8)}

/-- A packet goes behind the waiting ones. -/
theorem push (h : Sim s b) {p : List UInt8} (hp : p.length ≤ 65535) :
    Sim { s with agg := s.agg.pushCurrent p, unsent := s.unsent ++ [p] }
      (b.push p) where
  fits := by
    intro q hq
    rw [Batcher.items_push] at hq
    rcases List.mem_append.mp hq with hq | hq
    · exact h.fits q hq
    · rw [List.mem_singleton.mp hq]
      exact hp
  current := h.current.addPacket hp
  unsent := congrArg (· ++ [p]) h.unsent
  emitted := h.emitted
  batches := h.batches
  nextChunkId := h.nextChunkId
  currentId := h.currentId
  ids := h.ids

/-- The chunk a cut emits holds the waiting packets under the current
id. -/
theorem finalized (h : Sim s b) (now : Nat) :
    (s.agg.finalizeCurrentChunk now).1.Holds b.pending
      ∧ (s.agg.finalizeCurrentChunk now).1.id = s.agg.currentChunk.id := by
  refine ⟨⟨h.current.data, h.current.count⟩, ?_⟩
  show s.agg.nextChunkId - 1 = _
  rw [h.nextChunkId, UInt64.add_sub_cancel]

/-- A cut turns the waiting packets into a batch and advances both
counters. -/
theorem cut (h : Sim s b) (now : Nat) (hne : b.pending ≠ []) :
    Sim ⟨(s.agg.finalizeCurrentChunk now).2, [],
      s.emitted ++ [((s.agg.finalizeCurrentChunk now).1, s.unsent)]⟩
      (b.cut hne) where
  fits := by
    rw [Batcher.items_cut]
    exact h.fits
  current := Chunk.Holds.new s.agg.nextChunkId now
  unsent := rfl
  emitted := by
    intro e he
    rcases List.mem_append.mp he with he | he
    · exact h.emitted e he
    · rw [List.mem_singleton.mp he, h.unsent]
      exact (h.finalized now).1
  batches := by
    rw [List.map_append, h.batches, h.unsent]
    rfl
  nextChunkId := rfl
  currentId := by
    show s.agg.nextChunkId = _
    rw [h.nextChunkId, h.currentId, List.length_append, UInt64.ofNat_add]
    rfl
  ids := by
    intro k c hk
    unfold Feed.chunks at hk
    rw [List.map_append, List.getElem?_append] at hk
    split at hk
    case isTrue => exact h.ids k c hk
    case isFalse hge =>
      rw [List.map_singleton, List.getElem?_singleton] at hk
      split at hk
      case isFalse => cases hk
      case isTrue hk0 =>
        injection hk with hc
        have hlen : k = s.emitted.length := by
          rw [List.length_map] at hge hk0
          omega
        rw [← hc, hlen]
        exact (h.finalized now).2.trans h.currentId

/-- A move of the aggregator is a push, a cut or nothing to the
batcher. -/
theorem move {ps : List (List UInt8)} (h : Sim s b)
    (hfits : ∀ p ∈ ps, p.length ≤ 65535) (hmove : Move ps s s') :
    ∃ b', Sim s' b' ∧ b'.items = b.items ++ ps := by
  cases hmove with
  | push p =>
      exact ⟨b.push p, h.push (hfits p List.mem_cons_self),
        Batcher.items_push p b⟩
  | flow flowId =>
      refine ⟨b, ?_, (List.append_nil _).symm⟩
      exact ⟨h.fits, ⟨h.current.data, h.current.count⟩, h.unsent,
        h.emitted, h.batches, h.nextChunkId, h.currentId, h.ids⟩
  | cut now nonempty =>
      have hne : b.pending ≠ [] :=
        mt h.current.isEmpty_iff.mpr (Bool.eq_false_iff.mp nonempty)
      refine ⟨b.cut hne, h.cut now hne, ?_⟩
      rw [Batcher.items_cut, List.append_nil]
  | stats linkId bandwidthBps rttMs =>
      refine ⟨b, ?_, (List.append_nil _).symm⟩
      obtain ⟨hcurrent, hnext⟩ :=
        updateLinkStats_current s.agg linkId bandwidthBps rttMs
      refine ⟨h.fits, ?_, h.unsent, h.emitted, h.batches, ?_, ?_, h.ids⟩
      · exact hcurrent ▸ h.current
      · exact hnext ▸ hcurrent ▸ h.nextChunkId
      · exact hcurrent ▸ h.currentId

/-- Moves push their packets, in order. -/
theorem moves {ps : List (List UInt8)} (h : Sim s b)
    (hfits : ∀ p ∈ ps, p.length ≤ 65535) (hmoves : Moves ps s s') :
    ∃ b', Sim s' b' ∧ b'.items = b.items ++ ps := by
  induction hmoves generalizing b with
  | done s => exact ⟨b, h, (List.append_nil _).symm⟩
  | step hmove _ ih =>
      obtain ⟨b₁, h₁, hitems₁⟩ :=
        h.move (fun p hp => hfits p (List.mem_append_left _ hp)) hmove
      obtain ⟨b₂, h₂, hitems₂⟩ :=
        ih h₁ (fun p hp => hfits p (List.mem_append_right _ hp))
      refine ⟨b₂, h₂, ?_⟩
      rw [hitems₂, hitems₁, List.append_assoc]

end Sim

/-- The packets of a call fit a limit. -/
def AggOp.Fits (limit : Nat) (op : AggOp) : Prop :=
  ∀ p ∈ op.packets, p.length ≤ limit

theorem fits_packets {limit : Nat} {ops : List AggOp}
    (h : ∀ op ∈ ops, op.Fits limit) :
    ∀ p ∈ ops.flatMap AggOp.packets, p.length ≤ limit := by
  intro p hp
  obtain ⟨op, hop, hpop⟩ := List.mem_flatMap.mp hp
  exact h op hop p hpop

/-- A run moves the batcher by the packets it adds. -/
theorem run_sim {ops : List AggOp} (hfits : ∀ op ∈ ops, op.Fits 65535)
    {s s' : Feed} {b : Batcher (List UInt8)} (hsim : Sim s b)
    (hrun : Trace.run Feed.step ops s = some s') :
    ∃ b', Sim s' b' ∧ b'.items = b.items ++ ops.flatMap AggOp.packets := by
  have hcounted : Counted s :=
    hsim.current.count.trans (congrArg _ hsim.unsent.symm)
  exact hsim.moves (fits_packets hfits) (run_moves hcounted hrun)

namespace Sim

variable {s : Feed} {b : Batcher (List UInt8)}

/-- The waiting packets and those of a batch are among the items. -/
theorem pending_fits (h : Sim s b) : ∀ p ∈ b.pending, p.length ≤ 65535 :=
  fun p hp => h.fits p (List.mem_append_right _ hp)

theorem batch_fits (h : Sim s b) {e : Chunk × List (List UInt8)}
    (he : e ∈ s.emitted) : ∀ p ∈ e.2, p.length ≤ 65535 := by
  intro p hp
  have hbatch : e.2 ∈ b.batches := by
    rw [← h.batches]
    exact List.mem_map_of_mem he
  exact h.fits p
    (List.mem_append_left _ (List.mem_flatten.mpr ⟨e.2, hbatch, hp⟩))

/-- What is extracted from the emitted chunks is what was put into
them. -/
theorem extract_chunks (h : Sim s b) :
    s.chunks.flatMap Chunk.extractPackets = b.batches.flatten := by
  have heach : s.emitted.map (fun e => e.1.extractPackets)
      = s.emitted.map Prod.snd :=
    List.map_congr_left fun e he =>
      (h.emitted e he).extractPackets (h.batch_fits he)
  rw [Feed.chunks, List.flatMap_def, List.map_map, ← h.batches, ← heach]
  rfl

theorem chunk_nonempty (h : Sim s b) {c : Chunk} (hc : c ∈ s.chunks) :
    c.isEmpty = false := by
  obtain ⟨e, he, rfl⟩ := List.mem_map.mp hc
  have hne : e.2 ≠ [] := b.nonempty e.2 (by
    rw [← h.batches]
    exact List.mem_map_of_mem he)
  exact Bool.eq_false_iff.mpr (mt (h.emitted e he).isEmpty_iff.mp hne)

end Sim

/-- The aggregator loses, duplicates and reorders nothing. Extracting
the emitted chunks and then the current one gives the packets added, no
emitted chunk is empty, the chunks are numbered from zero, and the
announced id is the one the next chunk carries, whatever comes in
between. -/
theorem aggregator_exact (config : ChunkAggregatorConfig)
    (numLinks now : Nat) {ops : List AggOp}
    (hfits : ∀ op ∈ ops, op.Fits 65535) {s : Feed}
    (hrun : Trace.run Feed.step ops (Feed.start config numLinks now)
      = some s) :
    s.chunks.flatMap Chunk.extractPackets
        ++ s.agg.currentChunk.extractPackets
      = ops.flatMap AggOp.packets
    ∧ (∀ c ∈ s.chunks, c.isEmpty = false)
    ∧ (∀ k c, s.chunks[k]? = some c → c.id = UInt64.ofNat k)
    ∧ (∀ ops' s', (∀ op ∈ ops', op.Fits 65535) →
        Trace.run Feed.step ops' s = some s' →
        ∀ c, s'.chunks[s.chunks.length]? = some c → c.id = s.agg.nextId) := by
  obtain ⟨b, hsim, hitems⟩ :=
    run_sim hfits (sim_start config numLinks now) hrun
  refine ⟨?_, fun c hc => hsim.chunk_nonempty hc, hsim.ids, ?_⟩
  · rw [hsim.extract_chunks, hsim.current.extractPackets hsim.pending_fits]
    exact hitems
  · intro ops' s' hfits' hrun' c hc
    obtain ⟨b', hsim', -⟩ := run_sim hfits' hsim hrun'
    have hid := hsim'.ids _ c hc
    rw [Feed.chunks, List.length_map] at hid
    exact hid.trans hsim.currentId.symm

/-- The exactness law at two packets, the first one flushed. -/
theorem aggregator_exact_two_packets : ∃ s,
    Trace.run Feed.step
        [.addPacket [1, 2, 3] none 0, .flush 1, .addPacket [4] (some 7) 2]
        (Feed.start Config.default.chunkAggregator 1 0) = some s
      ∧ s.chunks.flatMap Chunk.extractPackets
          ++ s.agg.currentChunk.extractPackets = [[1, 2, 3], [4]]
      ∧ s.chunks.length = 1 := by
  have hfits : ∀ op ∈ [AggOp.addPacket [1, 2, 3] none 0, .flush 1,
      .addPacket [4] (some 7) 2], op.Fits 65535 := by
    simp [AggOp.Fits, AggOp.packets]
  obtain ⟨s, hrun⟩ : ∃ s, Trace.run Feed.step
      [.addPacket [1, 2, 3] none 0, .flush 1, .addPacket [4] (some 7) 2]
      (Feed.start Config.default.chunkAggregator 1 0) = some s := ⟨_, rfl⟩
  refine ⟨s, hrun, (aggregator_exact _ 1 0 hfits hrun).1, ?_⟩
  cases hrun
  rfl

end ChainLightning
