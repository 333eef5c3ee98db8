/-
An emitted chunk arrives whole exactly when its size fits the 16-bit
payload length of the wire format.

The chunk size is a clamp of the bandwidth-delay product, and
`largestChunkSize` is the most it can become under a configuration. A
packet is added only where the chunk stays within that size, or to an
empty chunk, so no chunk outgrows it and the largest single packet
(`Sized`). In the other direction, an aggregator whose chunk size has
reached 65536 can be filled to that size (`fill_oversize`), and such a
chunk is one byte too long for its length field.
-/
import ChainLightning.Proofs.Chunk.Feed

namespace ChainLightning

open Binary64 Bytes Machine

-- ======================================================= across the wire

/-- The chunk, encoded by the sender task, is decoded on the other side
with its id and data, and its packets are extracted there. -/
def Delivered (statsFromSlice : List UInt8 → Option StatsPacket)
    (linkId : UInt8) (now : Nat) (c : Chunk)
    (contents : List (List UInt8)) : Prop :=
  ∃ p, Packet.decode statsFromSlice (c.toPacket linkId).encode
      = some (.data p)
    ∧ p.chunkId = c.id ∧ p.payload = c.data
    ∧ (p.toChunk now).extractPackets = contents

variable {statsFromSlice : List UInt8 → Option StatsPacket}
  {linkId : UInt8} {now : Nat}

theorem delivered_size {c : Chunk} {ps : List (List UInt8)}
    (h : Delivered statsFromSlice linkId now c ps) : c.size < 65536 := by
  obtain ⟨p, hdecode, -, hpayload, -⟩ := h
  have hlen := chunk_decode_payload (packet_decode_inv hdecode)
  rw [hpayload] at hlen
  rw [Chunk.size, hlen]
  exact UInt16.toNat_lt _

/-- A chunk that holds its packets is delivered exactly when its size
fits. -/
theorem delivered_iff {c : Chunk} {ps : List (List UInt8)}
    (hholds : c.Holds ps) (hfits : ∀ p ∈ ps, p.length ≤ 65535) :
    Delivered statsFromSlice linkId now c ps ↔ c.size < 65536 := by
  refine ⟨delivered_size, fun hsize => ?_⟩
  have hdecode : ChunkPacket.decode (c.toPacket linkId).encode
      = some (c.toPacket linkId) := by
    have h := chunk_decode_encode (p := c.toPacket linkId)
      (Nat.le_of_lt_succ hsize) []
    rwa [List.append_nil] at h
  refine ⟨c.toPacket linkId, ?_, rfl, rfl, ?_⟩
  · rw [(packet_decode_tag rfl).1 rfl, hdecode]
    rfl
  · exact hholds.extractPackets hfits

-- ============================================================ chunk sizes

/-- The largest size the chunk size calculation can reach: the
configured minimum without links, the clamp of the largest product
otherwise. -/
def largestChunkSize (config : ChunkAggregatorConfig) (numLinks : Nat) :
    Nat :=
  if numLinks = 0 then config.minChunkSize
  else ChunkAggregator.chunkSizeFor config (2 ^ 64 - 1)

theorem chunkSizeFor_mono (config : ChunkAggregatorConfig) {a b : Nat}
    (h : a ≤ b) :
    ChunkAggregator.chunkSizeFor config a
      ≤ ChunkAggregator.chunkSizeFor config b :=
  min_le_min_right _ (max_le_max_right _ (Double.toNat_product_mono 64 _
    (rnd_nonneg (Nat.cast_nonneg a)) (rnd_mono (Nat.cast_le.mpr h))))

theorem minChunkSize_le_largest {config : ChunkAggregatorConfig}
    (hvalid : config.minChunkSize ≤ config.maxChunkSize) (numLinks : Nat) :
    config.minChunkSize ≤ largestChunkSize config numLinks := by
  unfold largestChunkSize
  split
  case isTrue => exact Nat.le_refl _
  case isFalse => exact le_min (le_max_right _ _) hvalid

theorem linkBdp_le (stats : UInt64 × UInt32) :
    ChunkAggregator.linkBdp stats ≤ 2 ^ 64 - 1 :=
  Nat.le_pred_of_lt (trunc_lt 64 _)

/-- The fold over the links keeps its start and collects the product of
every measured link, and no more than the products. -/
theorem foldl_maxBdp (l : List (UInt64 × UInt32)) (acc : Nat) :
    let m := l.foldl (fun maxBdp stats =>
      if stats.1 > 0 ∧ stats.2 > 0 then
        max maxBdp (ChunkAggregator.linkBdp stats)
      else maxBdp) acc
    acc ≤ m
      ∧ (acc ≤ 2 ^ 64 - 1 → m ≤ 2 ^ 64 - 1)
      ∧ ∀ stats ∈ l, stats.1 > 0 → stats.2 > 0 →
          ChunkAggregator.linkBdp stats ≤ m := by
  induction l generalizing acc with
  | nil => exact ⟨Nat.le_refl _, id, fun _ h => nomatch h⟩
  | cons stats l ih =>
      dsimp only at ih ⊢
      rw [List.foldl_cons]
      by_cases hpos : stats.1 > 0 ∧ stats.2 > 0
      · rw [if_pos hpos]
        obtain ⟨hacc, hbound, hall⟩ :=
          ih (max acc (ChunkAggregator.linkBdp stats))
        refine ⟨le_trans (le_max_left _ _) hacc,
          fun h => hbound (max_le h (linkBdp_le stats)), ?_⟩
        intro stats' hmem hbw hrtt
        rcases List.mem_cons.mp hmem with rfl | hmem
        · exact le_trans (le_max_right _ _) hacc
        · exact hall stats' hmem hbw hrtt
      · rw [if_neg hpos]
        obtain ⟨hacc, hbound, hall⟩ := ih acc
        refine ⟨hacc, hbound, ?_⟩
        intro stats' hmem hbw hrtt
        rcases List.mem_cons.mp hmem with rfl | hmem
        · exact absurd ⟨hbw, hrtt⟩ hpos
        · exact hall stats' hmem hbw hrtt

theorem maxBdp_le (l : List (UInt64 × UInt32)) :
    ChunkAggregator.maxBdp l ≤ 2 ^ 64 - 1 :=
  (foldl_maxBdp l 0).2.1 (Nat.zero_le _)

theorem linkBdp_le_maxBdp {l : List (UInt64 × UInt32)}
    {stats : UInt64 × UInt32} (hmem : stats ∈ l) (hbw : stats.1 > 0)
    (hrtt : stats.2 > 0) :
    ChunkAggregator.linkBdp stats ≤ ChunkAggregator.maxBdp l :=
  (foldl_maxBdp l 0).2.2 stats hmem hbw hrtt

/-- No chunk outgrows the largest chunk size and the largest packet. -/
structure Sized (config : ChunkAggregatorConfig) (numLinks limit : Nat)
    (s : Feed) : Prop where
  configured : s.agg.config = config
  links : s.agg.linkStats.length = numLinks
  optimal : s.agg.optimalChunkSize ≤ largestChunkSize config numLinks
  current : s.agg.currentChunk.size
    ≤ max (largestChunkSize config numLinks) (2 + limit)
  emitted : ∀ e ∈ s.emitted,
    e.1.size ≤ max (largestChunkSize config numLinks) (2 + limit)

theorem sized_start {config : ChunkAggregatorConfig}
    (hvalid : config.minChunkSize ≤ config.maxChunkSize)
    (numLinks limit now : Nat) :
    Sized config numLinks limit (Feed.start config numLinks now) where
  configured := rfl
  links := List.length_replicate
  optimal := minChunkSize_le_largest hvalid numLinks
  current := Nat.zero_le _
  emitted := fun _ h => nomatch h

namespace Sized

variable {config : ChunkAggregatorConfig} {numLinks limit : Nat}
  {s s' : Feed}

/-- The chunk size stays under its largest value. -/
theorem updateLinkStats (h : Sized config numLinks limit s) (link : Nat)
    (bandwidthBps : UInt64) (rttMs : UInt32) :
    Sized config numLinks limit
      { s with agg := s.agg.updateLinkStats link bandwidthBps rttMs } := by
  unfold ChunkAggregator.updateLinkStats
    ChunkAggregator.recalculateChunkSize
  dsimp only
  split
  case isFalse => exact h
  case isTrue hlink =>
    have hsome : numLinks ≠ 0 := by
      have hlen := h.links
      omega
    have hlen : (s.agg.linkStats.set link (bandwidthBps, rttMs)).length
        = numLinks := by
      rw [List.length_set]
      exact h.links
    split
    case isFalse =>
      exact ⟨h.configured, hlen, h.optimal, h.current, h.emitted⟩
    case isTrue =>
      refine ⟨h.configured, hlen, ?_, h.current, h.emitted⟩
      rw [largestChunkSize, if_neg hsome, h.configured]
      exact chunkSizeFor_mono config (maxBdp_le _)

theorem move {ps : List (List UInt8)} (h : Sized config numLinks limit s)
    (hfits : ∀ p ∈ ps, p.length ≤ limit) (hmove : Move ps s s') :
    Sized config numLinks limit s' := by
  cases hmove with
  | push p room =>
      refine ⟨h.configured, h.links, h.optimal, ?_, h.emitted⟩
      have hp : p.length ≤ limit := hfits p List.mem_cons_self
      have hsize : (s.agg.currentChunk.addPacket p).size
          = s.agg.currentChunk.size + 2 + p.length := addPacket_size p _
      show (s.agg.currentChunk.addPacket p).size ≤ _
      rw [hsize]
      rcases room with hempty | hroom
      · rw [Chunk.size, List.isEmpty_iff.mp hempty, List.length_nil,
          Nat.zero_add]
        exact le_trans (Nat.add_le_add_left hp 2) (le_max_right _ _)
      · exact le_trans hroom (le_trans h.optimal (le_max_left _ _))
  | flow flowId =>
      exact ⟨h.configured, h.links, h.optimal, h.current, h.emitted⟩
  | cut now nonempty =>
      refine ⟨h.configured, h.links, h.optimal, Nat.zero_le _, ?_⟩
      intro e he
      rcases List.mem_append.mp he with he | he
      · exact h.emitted e he
      · rw [List.mem_singleton.mp he]
        exact h.current
  | stats link bandwidthBps rttMs =>
      exact h.updateLinkStats link bandwidthBps rttMs

theorem moves {ps : List (List UInt8)} (h : Sized config numLinks limit s)
    (hfits : ∀ p ∈ ps, p.length ≤ limit) (hmoves : Moves ps s s') :
    Sized config numLinks limit s' := by
  induction hmoves with
  | done s => exact h
  | step hmove _ ih =>
      exact ih
        (h.move (fun p hp => hfits p (List.mem_append_left _ hp)) hmove)
        (fun p hp => hfits p (List.mem_append_right _ hp))

/-- What holds of the start holds in every run. -/
theorem run {ops : List AggOp} (h : Sized config numLinks limit s)
    (hcounted : Counted s) (hfits : ∀ op ∈ ops, op.Fits limit)
    (hrun : Trace.run Feed.step ops s = some s') :
    Sized config numLinks limit s' :=
  h.moves (fits_packets hfits) (run_moves hcounted hrun)

end Sized

-- =============================================================== filling

/-- A packet that leaves room stays in the current chunk. -/
theorem step_addPacket_room {s : Feed} {p : List UInt8} {now : Nat}
    (hroom : s.agg.currentChunk.size + 2 + p.length
      < s.agg.optimalChunkSize) :
    Feed.step (.addPacket p none now) s
      = some { s with
          agg := s.agg.pushCurrent p
          unsent := s.unsent ++ [p] } := by
  have hfull : ¬(s.agg.currentChunk.size + 2 + p.length
      > s.agg.optimalChunkSize ∧ ¬s.agg.currentChunk.isEmpty) :=
    fun h => absurd h.1 (by omega)
  have hfill : ¬(s.agg.pushCurrent p).currentChunk.size
      ≥ (s.agg.pushCurrent p).optimalChunkSize := by
    show ¬(s.agg.currentChunk.addPacket p).size ≥ s.agg.optimalChunkSize
    rw [addPacket_size]
    omega
  have happ : (AggOp.addPacket p none now).apply s.agg
      = (none, s.agg.pushCurrent p) :=
    (if_neg hfull).trans (if_neg hfill)
  exact step_quiet happ

/-- As long as they leave room, packets pile up in the current chunk. -/
theorem run_addPacket_room {s : Feed} (p : List UInt8) (now n : Nat)
    (hroom : s.agg.currentChunk.size + n * (2 + p.length)
      < s.agg.optimalChunkSize) :
    ∃ s', Trace.run Feed.step
        (List.replicate n (.addPacket p none now)) s = some s'
      ∧ s'.agg.optimalChunkSize = s.agg.optimalChunkSize
      ∧ s'.agg.currentChunk.size
        = s.agg.currentChunk.size + n * (2 + p.length) := by
  induction n generalizing s with
  | zero => exact ⟨s, rfl, rfl, by rw [Nat.zero_mul, Nat.add_zero]⟩
  | succ n ih =>
      rw [Nat.succ_mul] at hroom
      have hsize := addPacket_size p s.agg.currentChunk
      obtain ⟨s', hrun, hoptimal, hcurrent⟩ := ih
        (s := { s with
          agg := s.agg.pushCurrent p
          unsent := s.unsent ++ [p] }) (by
        show (s.agg.currentChunk.addPacket p).size + n * (2 + p.length)
          < s.agg.optimalChunkSize
        omega)
      refine ⟨s', ?_, hoptimal, ?_⟩
      · rw [List.replicate_succ, Trace.run_cons,
          step_addPacket_room (by omega)]
        exact hrun
      · rw [hcurrent, Nat.succ_mul]
        show (s.agg.currentChunk.addPacket p).size + n * (2 + p.length) = _
        omega

/-- What a call emits is recorded. -/
theorem step_records {s : Feed} {op : AggOp} {c : Chunk}
    {agg : ChunkAggregator} (happ : op.apply s.agg = (some c, agg)) :
    ∃ s', Feed.step op s = some s' ∧ s'.agg = agg
      ∧ ∃ e ∈ s'.emitted, e.1 = c := by
  unfold Feed.step
  rw [happ]
  exact ⟨_, rfl, rfl, _, List.mem_append_right _ List.mem_cons_self, rfl⟩

/-- A packet that still fits, and a flush: the chunk comes out with it,
at the one or at the other. -/
theorem run_addPacket_flush {s : Feed} (p : List UInt8) (now : Nat)
    (hroom : s.agg.currentChunk.size + 2 + p.length
      ≤ s.agg.optimalChunkSize) :
    ∃ s', Trace.run Feed.step [.addPacket p none now, .flush now] s
        = some s'
      ∧ ∃ e ∈ s'.emitted,
          e.1.size = s.agg.currentChunk.size + 2 + p.length := by
  have hsize := addPacket_size p s.agg.currentChunk
  have hne := addPacket_nonempty p s.agg.currentChunk
  rcases Nat.lt_or_eq_of_le hroom with hlt | heq
  · -- the flush cuts
    have hflush : (AggOp.flush now).apply (s.agg.pushCurrent p)
        = (some ((s.agg.pushCurrent p).finalizeCurrentChunk now).1, _) :=
      if_neg (Bool.eq_false_iff.mp hne)
    obtain ⟨s', hstep, -, e, he, hchunk⟩ := step_records
      (s := { s with
        agg := s.agg.pushCurrent p
        unsent := s.unsent ++ [p] }) hflush
    refine ⟨s', ?_, e, he, ?_⟩
    · rw [Trace.run_cons, step_addPacket_room hlt, Option.bind_some,
        Trace.run_cons, hstep]
      rfl
    · rw [hchunk]
      exact hsize
  · -- the packet fills the chunk, and nothing is left to flush
    have hfull : ¬(s.agg.currentChunk.size + 2 + p.length
        > s.agg.optimalChunkSize ∧ ¬s.agg.currentChunk.isEmpty) :=
      fun h => absurd h.1 (by omega)
    have hfill : (s.agg.pushCurrent p).currentChunk.size
        ≥ (s.agg.pushCurrent p).optimalChunkSize := by
      show (s.agg.currentChunk.addPacket p).size ≥ s.agg.optimalChunkSize
      omega
    have happ : (AggOp.addPacket p none now).apply s.agg
        = (some ((s.agg.pushCurrent p).finalizeCurrentChunk now).1, _) :=
      (if_neg hfull).trans (if_pos hfill)
    obtain ⟨s', hstep, hagg, e, he, hchunk⟩ := step_records happ
    refine ⟨s', ?_, e, he, ?_⟩
    · have hflush : (AggOp.flush now).apply s'.agg = (none, s'.agg) := by
        rw [hagg]
        rfl
      rw [Trace.run_cons, hstep, Option.bind_some, Trace.run_cons,
        step_idle rfl hflush]
      rfl
    · rw [hchunk]
      exact hsize

/-- Packets of 1400 bytes, and one of 1042, make 65536 bytes of
frames. -/
def fillOps : List AggOp :=
  List.replicate 46 (.addPacket (List.replicate 1400 0) none 0)
    ++ [.addPacket (List.replicate 1042 0) none 0, .flush 0]

theorem fillOps_fits : ∀ op ∈ fillOps, op.Fits 2000 := by
  intro op hop p hp
  rcases List.mem_append.mp hop with hop | hop
  · rw [List.eq_of_mem_replicate hop] at hp
    rw [List.mem_singleton.mp hp, List.length_replicate]
    decide
  · rcases List.mem_cons.mp hop with rfl | hop
    · rw [List.mem_singleton.mp hp, List.length_replicate]
      decide
    · rw [List.mem_singleton.mp hop] at hp
      cases hp

/-- An aggregator whose chunk size has reached 65536 emits a chunk of
that size. -/
theorem fill_oversize {s : Feed} (hempty : s.agg.currentChunk.size = 0)
    (hoptimal : 65536 ≤ s.agg.optimalChunkSize) :
    ∃ s', Trace.run Feed.step fillOps s = some s'
      ∧ ∃ e ∈ s'.emitted, e.1.size = 65536 := by
  have h1400 : (List.replicate 1400 (0 : UInt8)).length = 1400 :=
    List.length_replicate
  have h1042 : (List.replicate 1042 (0 : UInt8)).length = 1042 :=
    List.length_replicate
  obtain ⟨s₁, hrun₁, hoptimal₁, hsize₁⟩ :=
    run_addPacket_room (List.replicate 1400 0) 0 46 (s := s)
      (by rw [h1400]; omega)
  rw [h1400, hempty] at hsize₁
  obtain ⟨s₂, hrun₂, e, he, hsize₂⟩ :=
    run_addPacket_flush (List.replicate 1042 0) 0 (s := s₁)
      (by rw [h1042]; omega)
  refine ⟨s₂, ?_, e, he, ?_⟩
  · unfold fillOps
    rw [Trace.run_append, hrun₁, Option.bind_some]
    exact hrun₂
  · rw [hsize₂, h1042, hsize₁]

/-- A measurement at the ends of both types. -/
def largestStats : UInt64 × UInt32 :=
  (UInt64.ofNat (2 ^ 64 - 1), UInt32.ofNat (2 ^ 32 - 1))

theorem linkBdp_largest :
    ChunkAggregator.linkBdp largestStats = 2 ^ 64 - 1 := by
  decide +kernel

/-- The chunk size behind a measurement that makes a product known. -/
theorem updateLinkStats_optimal {a : ChunkAggregator} {link bdp : Nat}
    {stats : UInt64 × UInt32} (hlink : link < a.linkStats.length)
    (hbdp : ChunkAggregator.maxBdp (a.linkStats.set link stats) = bdp)
    (hpos : 0 < bdp) :
    (a.updateLinkStats link stats.1 stats.2).optimalChunkSize
      = ChunkAggregator.chunkSizeFor a.config bdp := by
  unfold ChunkAggregator.updateLinkStats
    ChunkAggregator.recalculateChunkSize
  rw [if_pos hlink]
  simp only [hbdp]
  rw [if_pos hpos]

/-- The measurement that takes the chunk size to its largest value,
where there is a link to measure. -/
def largestOps (numLinks : Nat) : List AggOp :=
  if numLinks = 0 then []
  else [.updateLinkStats 0 largestStats.1 largestStats.2]

theorem largestOps_fits (numLinks : Nat) :
    ∀ op ∈ largestOps numLinks, op.Fits 2000 := by
  intro op hop p hp
  unfold largestOps at hop
  split at hop
  case isTrue => cases hop
  case isFalse =>
    rw [List.mem_singleton.mp hop] at hp
    cases hp

/-- The largest chunk size is reached. -/
theorem run_largestOps (config : ChunkAggregatorConfig)
    (numLinks now : Nat) :
    ∃ s, Trace.run Feed.step (largestOps numLinks)
        (Feed.start config numLinks now) = some s
      ∧ s.agg.currentChunk.size = 0
      ∧ s.agg.optimalChunkSize = largestChunkSize config numLinks := by
  unfold largestOps largestChunkSize
  by_cases hnone : numLinks = 0
  · rw [if_pos hnone, if_pos hnone]
    exact ⟨_, rfl, rfl, rfl⟩
  · rw [if_neg hnone, if_neg hnone]
    have hlink : 0 < (List.replicate numLinks
        ((0, 0) : UInt64 × UInt32)).length := by
      rw [List.length_replicate]
      omega
    have hmax : ChunkAggregator.maxBdp
        ((List.replicate numLinks (0, 0)).set 0 largestStats)
        = 2 ^ 64 - 1 := by
      refine Nat.le_antisymm (maxBdp_le _) ?_
      rw [← linkBdp_largest]
      exact linkBdp_le_maxBdp (List.mem_set hlink largestStats)
        (by decide) (by decide)
    refine ⟨{ Feed.start config numLinks now with
      agg := (ChunkAggregator.new config numLinks now).updateLinkStats 0
        largestStats.1 largestStats.2 }, ?_, ?_, ?_⟩
    · rw [Trace.run_cons, step_idle rfl rfl]
      rfl
    · exact congrArg Chunk.size (updateLinkStats_current _ 0 _ _).1
    · exact updateLinkStats_optimal hlink hmax (by decide)

-- ============================================================== delivery

/-- Every emitted chunk is delivered, in every run of an aggregator with
packets of at most 2000 bytes, if and only if the chunk size calculation
cannot reach 65536. -/
theorem chunks_delivered_iff
    (statsFromSlice : List UInt8 → Option StatsPacket) {c : Config}
    (hvalid : c.validate = .ok ()) (numLinks start : Nat)
    (linkId : UInt8) (now : Nat) :
    (∀ ops s, (∀ op ∈ ops, AggOp.Fits 2000 op) →
      Trace.run Feed.step ops
        (Feed.start c.chunkAggregator numLinks start) = some s →
      ∀ e ∈ s.emitted, Delivered statsFromSlice linkId now e.1 e.2)
    ↔ largestChunkSize c.chunkAggregator numLinks < 65536 := by
  constructor
  · intro hall
    by_contra hlarge
    -- reach the largest chunk size and fill a chunk
    obtain ⟨s₁, hrun₁, hempty, hoptimal⟩ :=
      run_largestOps c.chunkAggregator numLinks start
    obtain ⟨s₂, hrun₂, e, he, hsize⟩ :=
      fill_oversize hempty (by rw [hoptimal]; exact Nat.le_of_not_lt hlarge)
    have hrun : Trace.run Feed.step (largestOps numLinks ++ fillOps)
        (Feed.start c.chunkAggregator numLinks start) = some s₂ := by
      rw [Trace.run_append, hrun₁, Option.bind_some]
      exact hrun₂
    have hfits : ∀ op ∈ largestOps numLinks ++ fillOps, op.Fits 2000 := by
      intro op hop
      rcases List.mem_append.mp hop with hop | hop
      · exact largestOps_fits numLinks op hop
      · exact fillOps_fits op hop
    have hfit := delivered_size (hall _ s₂ hfits hrun e he)
    omega
  · intro hsmall ops s hfits hrun e he
    obtain ⟨b, hsim, -⟩ := run_sim
      (fun op hop p hp => le_trans (hfits op hop p hp) (by decide))
      (sim_start c.chunkAggregator numLinks start) hrun
    have hsized := (sized_start (Config.validate_chunk_sizes hvalid)
      numLinks 2000 start).run rfl hfits hrun
    refine (delivered_iff (hsim.emitted e he) (hsim.batch_fits he)).mpr ?_
    have hle := hsized.emitted e he
    rcases le_max_iff.mp hle with hle | hle <;> omega

/-- The default configuration with a maximum one byte smaller. -/
def shortChunkConfig : Config :=
  { Config.default with
    chunkAggregator :=
      { Config.default.chunkAggregator with maxChunkSize := 65535 } }

/-- The law there: with five links, a flushed packet is delivered. -/
theorem chunks_delivered_iff_short : ∃ s,
    Trace.run Feed.step [.addPacket [1, 2, 3] none 0, .flush 0]
        (Feed.start shortChunkConfig.chunkAggregator 5 0) = some s
      ∧ s.emitted.map Prod.snd = [[[1, 2, 3]]]
      ∧ ∀ e ∈ s.emitted, Delivered (fun _ => none) 0 0 e.1 e.2 := by
  have hfits : ∀ op ∈ [AggOp.addPacket [1, 2, 3] none 0, .flush 0],
      op.Fits 2000 := by
    simp [AggOp.Fits, AggOp.packets]
  obtain ⟨s, hrun⟩ : ∃ s, Trace.run Feed.step
      [.addPacket [1, 2, 3] none 0, .flush 0]
      (Feed.start shortChunkConfig.chunkAggregator 5 0) = some s := ⟨_, rfl⟩
  refine ⟨s, hrun, ?_, ?_⟩
  · cases hrun
    rfl
  · exact (chunks_delivered_iff (fun _ => none) (c := shortChunkConfig)
      (by decide +kernel) 5 0 0 0).mpr (by decide +kernel) _ s hfits hrun

/-- With the default configuration and five links, a measurement of
27.5 MB/s at 40 ms and 47 packets emit a chunk that is not delivered. -/
theorem default_chunk_not_delivered :
    ∃ s, Trace.run Feed.step (.updateLinkStats 1 27500000 40 :: fillOps)
        (Feed.start Config.default.chunkAggregator 5 0) = some s
      ∧ Config.default.validate = .ok ()
      ∧ (∀ op ∈ AggOp.updateLinkStats 1 27500000 40 :: fillOps,
          op.Fits 2000)
      ∧ ∃ e ∈ s.emitted, ¬Delivered (fun _ => none) 0 0 e.1 e.2 := by
  obtain ⟨s, hrun, e, he, hsize⟩ := fill_oversize
    (s := { Feed.start Config.default.chunkAggregator 5 0 with
      agg := (ChunkAggregator.new Config.default.chunkAggregator 5
        0).updateLinkStats 1 27500000 40 })
    (by decide +kernel) (by decide +kernel)
  refine ⟨s, ?_, config_default_valid, ?_, e, he, ?_⟩
  · rw [Trace.run_cons, step_idle rfl rfl, Option.bind_some]
    exact hrun
  · intro op hop
    rcases List.mem_cons.mp hop with rfl | hop
    · intro p hp
      cases hp
    · exact fillOps_fits op hop
  · intro hdelivered
    have hfit := delivered_size hdelivered
    omega

end ChainLightning
