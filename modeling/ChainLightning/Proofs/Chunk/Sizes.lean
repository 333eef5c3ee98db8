/-
Chunk sizes.

The target size moves between the configured bounds with the link
statistics, and a chunk may have been filled under another target than
the one in force. What keeps it small is the room that a packet is
pushed into (`Move.push`): an empty chunk, or one with which it fits the
target of the moment. So a chunk is within the largest target there can
be, or it is one packet that was pushed into an empty chunk.
-/
import ChainLightning.Proofs.Chunk.Feed

namespace ChainLightning

/-- The chunk is within the limit, or a single packet. -/
def Chunk.Small (limit : Nat) (c : Chunk) : Prop :=
  c.size ≤ limit ∨ c.packetCount = 1

/-- A chunk with room for a packet is small with it, if without data it
has no packets. -/
theorem Chunk.Small.addPacket {limit target : Nat} {c : Chunk}
    (hempty : c.isEmpty = true → c.packetCount = 0) (htarget : target ≤ limit)
    {packet : List UInt8}
    (hroom : c.isEmpty = true ∨ c.size + 2 + packet.length ≤ target) :
    (c.addPacket packet).Small limit := by
  rcases hroom with hroom | hroom
  · refine Or.inr ?_
    have hcount : (c.addPacket packet).packetCount = c.packetCount + 1 :=
      List.length_append
    rw [hcount, hempty hroom]
  · refine Or.inl ?_
    rw [addPacket_size]
    exact hroom.trans htarget

/-- The target for a bandwidth-delay product is within the bounds. -/
theorem chunkSizeFor_within {config : ChunkAggregatorConfig}
    (hle : config.minChunkSize ≤ config.maxChunkSize) (bdp : Nat) :
    config.minChunkSize ≤ ChunkAggregator.chunkSizeFor config bdp
      ∧ ChunkAggregator.chunkSizeFor config bdp ≤ config.maxChunkSize := by
  unfold ChunkAggregator.chunkSizeFor
  dsimp only
  omega

/-- A change of the link statistics leaves the target, or computes it
anew. -/
theorem updateLinkStats_target (a : ChunkAggregator) (linkId : Nat)
    (bandwidthBps : UInt64) (rttMs : UInt32) :
    (a.updateLinkStats linkId bandwidthBps rttMs).config = a.config
      ∧ ((a.updateLinkStats linkId bandwidthBps rttMs).optimalChunkSize
          = a.optimalChunkSize
        ∨ ∃ bdp, (a.updateLinkStats linkId bandwidthBps
            rttMs).optimalChunkSize
          = ChunkAggregator.chunkSizeFor a.config bdp) := by
  unfold ChunkAggregator.updateLinkStats
    ChunkAggregator.recalculateChunkSize
  dsimp only
  split
  case isFalse => exact ⟨rfl, Or.inl rfl⟩
  case isTrue =>
      split
      case isTrue => exact ⟨rfl, Or.inr ⟨_, rfl⟩⟩
      case isFalse => exact ⟨rfl, Or.inl rfl⟩

/-- The target is within the bounds, and every chunk is small. -/
structure ChunksSmall (config : ChunkAggregatorConfig) (s : Feed) : Prop where
  configured : s.agg.config = config
  target : config.minChunkSize ≤ s.agg.optimalChunkSize
    ∧ s.agg.optimalChunkSize ≤ config.maxChunkSize
  empty : s.agg.currentChunk.isEmpty = true →
    s.agg.currentChunk.packetCount = 0
  pending : s.agg.currentChunk.Small config.maxChunkSize
  emitted : ∀ c ∈ s.chunks, c.Small config.maxChunkSize

namespace ChunksSmall

variable {config : ChunkAggregatorConfig} {s s' : Feed}

theorem start (hle : config.minChunkSize ≤ config.maxChunkSize)
    (numLinks now : Nat) : ChunksSmall config (Feed.start config numLinks now) where
  configured := rfl
  target := ⟨Nat.le_refl _, hle⟩
  empty := fun _ => rfl
  pending := Or.inl (Nat.zero_le _)
  emitted := fun _ h => nomatch h

/-- Every move keeps the sizes. -/
theorem move (hle : config.minChunkSize ≤ config.maxChunkSize)
    (h : ChunksSmall config s) {ps : List (List UInt8)} (hmove : Move ps s s') :
    ChunksSmall config s' := by
  cases hmove with
  | push p room =>
      refine ⟨h.configured, h.target, ?_, ?_, h.emitted⟩
      · intro hempty
        rw [show (s.agg.pushCurrent p).currentChunk.isEmpty = false
          from addPacket_nonempty p s.agg.currentChunk] at hempty
        cases hempty
      · exact Chunk.Small.addPacket h.empty h.target.2 room
  | flow flowId =>
      exact ⟨h.configured, h.target, h.empty, h.pending, h.emitted⟩
  | cut now nonempty =>
      refine ⟨h.configured, h.target, fun _ => rfl, Or.inl (Nat.zero_le _), ?_⟩
      intro c hc
      rw [Feed.chunks, List.map_append] at hc
      rcases List.mem_append.mp hc with hc | hc
      · exact h.emitted c hc
      · rw [List.mem_singleton.mp hc]
        exact h.pending
  | stats linkId bandwidthBps rttMs =>
      obtain ⟨hconfig, htarget⟩ :=
        updateLinkStats_target s.agg linkId bandwidthBps rttMs
      obtain ⟨hcurrent, -⟩ :=
        updateLinkStats_current s.agg linkId bandwidthBps rttMs
      refine ⟨hconfig.trans h.configured, ?_, ?_, ?_, h.emitted⟩
      · rcases htarget with hsame | ⟨bdp, hnew⟩
        · exact hsame.symm ▸ h.target
        · show _ ≤ (s.agg.updateLinkStats linkId bandwidthBps
            rttMs).optimalChunkSize ∧ _
          rw [hnew, h.configured]
          exact chunkSizeFor_within hle bdp
      · exact hcurrent.symm ▸ h.empty
      · exact hcurrent.symm ▸ h.pending

theorem moves (hle : config.minChunkSize ≤ config.maxChunkSize)
    (h : ChunksSmall config s) {ps : List (List UInt8)} (hmoves : Moves ps s s') :
    ChunksSmall config s' := by
  induction hmoves with
  | done s => exact h
  | step hmove _ ih => exact ih (h.move hle hmove)

end ChunksSmall

/-- The target stays within the configured bounds, and every chunk,
emitted or pending, is within the maximum or a single packet; in every
run, for packets of any length and any link statistics. -/
theorem chunk_size_bound {config : ChunkAggregatorConfig}
    (hle : config.minChunkSize ≤ config.maxChunkSize) (numLinks now : Nat)
    {ops : List AggOp} {s : Feed}
    (hrun : Trace.run Feed.step ops (Feed.start config numLinks now)
      = some s) :
    (config.minChunkSize ≤ s.agg.optimalChunkSize
      ∧ s.agg.optimalChunkSize ≤ config.maxChunkSize)
    ∧ (∀ c ∈ s.chunks, c.size ≤ config.maxChunkSize ∨ c.packetCount = 1)
    ∧ (s.agg.currentChunk.size ≤ config.maxChunkSize
      ∨ s.agg.currentChunk.packetCount = 1) := by
  have hsized := (ChunksSmall.start hle numLinks now).moves hle
    (run_moves rfl hrun)
  exact ⟨hsized.target, hsized.emitted, hsized.pending⟩

/-- A small configuration. -/
private def tightConfig : ChunkAggregatorConfig where
  minChunkSize := 4
  maxChunkSize := 12
  bdpMultiplier := .fin 1
  aggregationTimeoutMs := 5

/-- The middle packet is longer than the maximum. -/
private def longOps : List AggOp :=
  [.addPacket [1] none 0, .addPacket (List.replicate 20 7) none 1,
    .addPacket [4] none 2]

/-- It is a chunk of its own. -/
theorem chunk_size_bound_long : ∃ s,
    Trace.run Feed.step longOps (Feed.start tightConfig 1 0) = some s
      ∧ s.chunks.map Chunk.size = [3, 22]
      ∧ ∀ c ∈ s.chunks, c.size ≤ 12 ∨ c.packetCount = 1 := by
  obtain ⟨s, hrun⟩ : ∃ s, Trace.run Feed.step longOps
      (Feed.start tightConfig 1 0) = some s := ⟨_, rfl⟩
  refine ⟨s, hrun, ?_, (chunk_size_bound (by decide) 1 0 hrun).2.1⟩
  cases hrun
  rfl

end ChainLightning
