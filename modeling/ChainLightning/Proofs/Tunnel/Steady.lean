/-
What a program adapts to.

The aggregator adapts its chunk size to the largest bandwidth-delay
product, and the scheduler's delays to how far apart the links are; both
want a round-trip time. None is ever known (AckRtt.lean). So in every run
of both programs, over any network, the chunk size stays the configured
minimum (`ChunkAggregator.Steady`), no chunk is larger than that or than
one packet, and no chunk is to wait for a slower link. The largest chunk
that the configuration allows is never reached.
-/
import ChainLightning.Proofs.Endpoint.AckRtt
import ChainLightning.Proofs.Tunnel.Footprint
import ChainLightning.Proofs.Tunnel.Network

namespace ChainLightning

open Bytes

variable {statsFromSlice : List UInt8 → Option StatsPacket}

/-- The chunk size, or one packet as long as the TUN reader's buffer. -/
def steadyChunk (config : ChunkAggregatorConfig) : Nat :=
  max config.minChunkSize (2 + 2000)

/-- An aggregator that has not adapted. -/
structure ChunkAggregator.Steady (config : ChunkAggregatorConfig)
    (a : ChunkAggregator) : Prop where
  unmeasured : a.Unmeasured
  target : a.optimalChunkSize = config.minChunkSize
  current : a.currentChunk.size ≤ steadyChunk config

variable {config : ChunkAggregatorConfig} {a : ChunkAggregator}

-- =============================================================== one call

/-- Without an RTT there is no bandwidth-delay product. -/
theorem maxBdp_unmeasured {l : List (UInt64 × UInt32)}
    (h : ∀ stats ∈ l, stats.2 = 0) : ChunkAggregator.maxBdp l = 0 := by
  unfold ChunkAggregator.maxBdp
  induction l with
  | nil => rfl
  | cons stats l ih =>
      have hrtt : ¬(stats.1 > 0 ∧ stats.2 > 0) := by
        rw [h stats List.mem_cons_self]
        exact fun hmeasured => absurd hmeasured.2 (by decide)
      rw [List.foldl_cons, if_neg hrtt]
      exact ih fun x hx => h x (List.mem_cons_of_mem stats hx)

/-- A packet with which the current chunk is within its target. -/
private theorem pushCurrent_size {packet : List UInt8}
    (hfits : packet.length ≤ 2000)
    (hroom : a.currentChunk.isEmpty = true
      ∨ a.currentChunk.size + 2 + packet.length ≤ config.minChunkSize) :
    (a.pushCurrent packet).currentChunk.size ≤ steadyChunk config := by
  show (a.currentChunk.addPacket packet).size ≤ _
  rw [addPacket_size]
  unfold steadyChunk
  rcases hroom with hempty | hroom
  · rw [Chunk.size, List.isEmpty_iff.mp hempty, List.length_nil]
    omega
  · omega

namespace ChunkAggregator.Steady

theorem start (config : ChunkAggregatorConfig) (numLinks now : Nat) :
    (ChunkAggregator.new config numLinks now).Steady config where
  unmeasured := fun stats hmem => by rw [List.eq_of_mem_replicate hmem]
  target := rfl
  current := Nat.zero_le _

theorem pushCurrent (h : a.Steady config) {packet : List UInt8}
    (hfits : packet.length ≤ 2000)
    (hroom : a.currentChunk.isEmpty = true
      ∨ a.currentChunk.size + 2 + packet.length ≤ config.minChunkSize) :
    (a.pushCurrent packet).Steady config :=
  ⟨h.unmeasured, h.target, pushCurrent_size hfits hroom⟩

theorem finalize (h : a.Steady config) (now : Nat) :
    (a.finalizeCurrentChunk now).2.Steady config
      ∧ (a.finalizeCurrentChunk now).1.size ≤ steadyChunk config :=
  ⟨⟨h.unmeasured, h.target, Nat.zero_le _⟩, h.current⟩

theorem setFlowIf (h : a.Steady config) (flowId : Option FlowId)
    (cond : Prop) [Decidable cond] :
    (if cond then a.setFlow flowId else a).Steady config := by
  split
  case isTrue => exact ⟨h.unmeasured, h.target, h.current⟩
  case isFalse => exact h

theorem addPacket (h : a.Steady config) {packet : List UInt8}
    (hfits : packet.length ≤ 2000) (flowId : Option FlowId) (now : Nat) :
    (a.addPacket packet flowId now).2.Steady config
      ∧ ∀ c ∈ (a.addPacket packet flowId now).1,
        c.size ≤ steadyChunk config := by
  unfold ChunkAggregator.addPacket
  dsimp only
  split
  case isTrue =>
    obtain ⟨hnew, hold⟩ := h.finalize now
    refine ⟨(hnew.pushCurrent hfits (Or.inl rfl)).setFlowIf flowId _,
      fun c hc => ?_⟩
    cases hc
    exact hold
  case isFalse hroom =>
    have hpushed := h.pushCurrent hfits (by
      by_cases hempty : a.currentChunk.isEmpty = true
      · exact Or.inl hempty
      · refine Or.inr ?_
        rw [← h.target]
        exact Nat.le_of_not_lt fun hlt => hroom ⟨hlt, hempty⟩)
    have hset := hpushed.setFlowIf flowId
      (flowId.isSome ∧ (a.pushCurrent packet).currentChunk.flowId.isNone)
    generalize (if flowId.isSome
        ∧ (a.pushCurrent packet).currentChunk.flowId.isNone then
      (a.pushCurrent packet).setFlow flowId else a.pushCurrent packet) = b
      at hset ⊢
    split
    case isTrue =>
      refine ⟨(hset.finalize now).1, fun c hc => ?_⟩
      cases hc
      exact (hset.finalize now).2
    case isFalse => exact ⟨hset, fun _ h => nomatch h⟩

theorem flush (h : a.Steady config) (now : Nat) :
    (a.flush now).2.Steady config
      ∧ ∀ c ∈ (a.flush now).1, c.size ≤ steadyChunk config := by
  unfold ChunkAggregator.flush
  split
  case isTrue => exact ⟨h, fun _ h => nomatch h⟩
  case isFalse =>
    refine ⟨(h.finalize now).1, fun c hc => ?_⟩
    cases hc
    exact (h.finalize now).2

theorem updateLinkStats (h : a.Steady config) (linkId : Nat)
    (bandwidthBps : UInt64) :
    (a.updateLinkStats linkId bandwidthBps 0).Steady config := by
  have hunmeasured := updateLinkStats_unmeasured h.unmeasured linkId
    bandwidthBps
  have htarget : (a.updateLinkStats linkId bandwidthBps 0).optimalChunkSize
      = a.optimalChunkSize := by
    unfold ChunkAggregator.updateLinkStats
      ChunkAggregator.recalculateChunkSize at hunmeasured ⊢
    dsimp only at hunmeasured ⊢
    split
    case isFalse => rfl
    case isTrue hlink =>
      rw [if_pos hlink] at hunmeasured
      split at hunmeasured
      case isTrue hmax =>
        rw [maxBdp_unmeasured hunmeasured] at hmax
        cases hmax
      case isFalse hmax => rw [if_neg hmax]
  refine ⟨hunmeasured, htarget.trans h.target, ?_⟩
  rw [(updateLinkStats_current a linkId bandwidthBps 0).1]
  exact h.current

/-- A call that brings no RTT keeps an aggregator from adapting. -/
theorem apply (h : a.Steady config) {op : AggOp} (hfits : op.Fits 2000)
    (hrtt : ∀ linkId bandwidthBps rttMs,
      op = .updateLinkStats linkId bandwidthBps rttMs → rttMs = 0) :
    (op.apply a).2.Steady config
      ∧ ∀ c ∈ (op.apply a).1, c.size ≤ steadyChunk config := by
  cases op with
  | addPacket packet flowId now =>
      exact h.addPacket (hfits packet List.mem_cons_self) flowId now
  | flush now => exact h.flush now
  | checkTimeout read now =>
      rcases checkTimeout_cases a read now with hcase | hcase
      · rw [show (AggOp.checkTimeout read now).apply a = _ from hcase]
        exact h.flush now
      · rw [show (AggOp.checkTimeout read now).apply a = _ from hcase]
        exact ⟨h, fun _ h => nomatch h⟩
  | updateLinkStats linkId bandwidthBps rttMs =>
      cases hrtt linkId bandwidthBps rttMs rfl
      exact ⟨h.updateLinkStats linkId bandwidthBps, fun _ h => nomatch h⟩

end ChunkAggregator.Steady

-- =================================================================== runs

/-- A program whose aggregator has not adapted, with no larger chunk in its
memory. -/
def Program.Steady (config : ChunkAggregatorConfig) (p : Program) : Prop :=
  p.Bounded (ChunkAggregator.Steady config) (steadyChunk config)

/-- Where no RTT is known, no step adapts the aggregator. -/
private theorem step_steady {role : Role} {step : ProgramStep}
    {p p' : Program} (h : p.Steady config)
    (hunmeasured : p.Unmeasured statsFromSlice)
    (hstep : Program.step statsFromSlice role step p = some p') :
    p'.Steady config := by
  refine step_bounded ?_ hstep h
  cases step with
  | begin round => trivial
  | perform t r =>
      intro a hhead op hop hfits hsteady
      have ha : a.Unmeasured :=
        hunmeasured.pending t a (List.mem_of_head? hhead)
      refine hsteady.apply hfits fun linkId bandwidthBps rttMs heq => ?_
      subst heq
      cases a with
      | updateLinkStats l bw rtt =>
          cases hop
          exact ha
      | _ => cases hop

/-- In a run of both programs neither adapts, in any state that it goes
through. -/
theorem run_steady {config : Role → Config}
    {linkBandwidths : Role → List UInt64} {now : Role → Nat → Nat}
    {steps : List SystemStep} {s : System}
    (hrun : Trace.run (System.step statsFromSlice) steps
      (System.start config linkBandwidths now) = some s) (role : Role) :
    Trace.Along (Program.step statsFromSlice role)
        (fun _ p => p.Steady (config role).chunkAggregator)
        (System.programSteps statsFromSlice role steps
          (System.start config linkBandwidths now))
        (Program.start (config role) (linkBandwidths role) (now role))
      ∧ (s.program role).Steady (config role).chunkAggregator := by
  have hunmeasured := along_program
    (P := fun p => p.Unmeasured statsFromSlice) hrun role
    (Trace.Along.imp (fun _ _ h => h role) (Trace.Along.of_invariant
      (fun _ _ _ h hstep => System.Unmeasured.step h hstep)
      (system_start_unmeasured config linkBandwidths now)))
  rw [start_program] at hunmeasured
  have hstart : (Program.start (config role) (linkBandwidths role)
      (now role)).Steady (config role).chunkAggregator :=
    bounded_start (config role) (linkBandwidths role) (now role)
      (.start _ _ _)
  have hstep : ∀ step (p p' : Program),
      p.Steady (config role).chunkAggregator →
      p.Unmeasured statsFromSlice →
      Program.step statsFromSlice role step p = some p' →
      p'.Steady (config role).chunkAggregator :=
    fun _ _ _ h hunmeasured hstep => step_steady h hunmeasured hstep
  exact ⟨(hunmeasured.keeps hstep hstart).imp fun _ _ h => h.2,
    Trace.run_along hstep hunmeasured (run_program_start hrun role) hstart⟩

-- ================================================================ results

/-- Links of which no RTT is known are equally far. -/
theorem calculateSyncDelay_unmeasured {s : LinkScheduler}
    (h : s.Unmeasured) (linkId : Nat) : s.calculateSyncDelay linkId = 0 := by
  have hlatency : ∀ l ∈ s.links, l.oneWayLatency = 0 := by
    intro l hl
    unfold LinkState.oneWayLatency
    rw [h l hl]
    rfl
  have hmax : ((s.links.filter (·.weight > 0)).map
      LinkState.oneWayLatency).foldl max 0 = 0 := by
    rw [List.map_congr_left (g := fun _ => 0)
      fun l hl => hlatency l (List.mem_filter.mp hl).1, List.map_const']
    generalize (s.links.filter (·.weight > 0)).length = n
    induction n with
    | zero => rfl
    | succ n ih => exact ih
  unfold LinkScheduler.calculateSyncDelay
  split
  · rfl
  · dsimp only
    rw [hmax, if_neg (Nat.not_lt_zero _)]

/-- A datagram is no longer than a chunk that was in hand, with its
header. -/
private theorem sends_length {role : Role} {r : Reading} {a : Action}
    (ha : a.Bounded (steadyChunk config)) :
    ∀ d ∈ a.sends role r, d.bytes.length ≤ 20 + steadyChunk config := by
  have hsize : 2 + 2000 ≤ steadyChunk config := le_max_right _ _
  intro d hd
  rcases sends_bytes hd with ⟨l, dest, chunk, rfl, hbytes⟩
    | ⟨l, chunkId, src, rfl, hbytes⟩ | ⟨dest, probe, rfl, hbytes⟩
    | ⟨l, rfl, hbytes⟩
  · have hchunk := ha.chunks chunk List.mem_cons_self
    rw [hbytes]
    simp only [Endpoint.chunkBytes, ChunkPacket.encode, Chunk.toPacket,
      List.length_append, List.length_cons, List.length_nil,
      beBytes_length]
    unfold Chunk.size at hchunk
    omega
  · rw [hbytes]
    simp only [Endpoint.ackBytes, AckPacket.encode, List.length_append,
      List.length_cons, List.length_nil, beBytes_length]
    omega
  · rw [hbytes]
    simp only [ProbePacket.encode, List.length_append, List.length_cons,
      List.length_nil, beBytes_length]
    omega
  · rw [hbytes]
    simp only [Endpoint.keepaliveBytes, KeepalivePacket.encode,
      List.length_append, List.length_cons, List.length_nil,
      beBytes_length]
    omega

/-- The programs never adapt. In every run of both, whatever the network
does, the chunk size of each stays the configured minimum, no chunk is to
wait for a slower link, and no chunk that is pending, queued or in hand is
larger than the minimum or one packet of the TUN reader's buffer; nor is
any datagram that was sent, without its header. -/
theorem programs_never_adapt
    (statsFromSlice : List UInt8 → Option StatsPacket)
    (config : Role → Config) (linkBandwidths : Role → List UInt64)
    (now : Role → Nat → Nat) {steps : List SystemStep} {s : System}
    (hrun : Trace.run (System.step statsFromSlice) steps
      (System.start config linkBandwidths now) = some s) (role : Role) :
    (s.program role).shared.aggregator.optimalChunkSize
        = (config role).chunkAggregator.minChunkSize
    ∧ (∀ linkId,
        (s.program role).shared.scheduler.calculateSyncDelay linkId = 0)
    ∧ (∀ c, c = (s.program role).shared.aggregator.currentChunk
        ∨ c ∈ (s.program role).shared.toLinks
        ∨ (∃ t, c ∈ (s.program role).hold Action.cargo t) →
      c.size ≤ steadyChunk (config role).chunkAggregator)
    ∧ ∀ d ∈ (s.program role).shared.sent,
        d.bytes.length ≤ 20 + steadyChunk (config role).chunkAggregator := by
  obtain ⟨halong, hsteady⟩ := run_steady hrun role
  have hunmeasured := Trace.run_invariant
    (fun _ _ _ h hstep => System.Unmeasured.step h hstep) hrun
    (system_start_unmeasured config linkBandwidths now) role
  have hprogram := run_program_start hrun role
  refine ⟨hsteady.shared.aggregator.target,
    calculateSyncDelay_unmeasured hunmeasured.shared.scheduler, ?_, ?_⟩
  · rintro c (rfl | hc)
    · exact hsteady.shared.aggregator.current
    · exact hsteady.within hc
  · have hbounded : Trace.Along (Program.step statsFromSlice role)
        (ProgramStep.Performs fun _ a _ =>
          a.Bounded (steadyChunk (config role).chunkAggregator))
        (System.programSteps statsFromSlice role steps
          (System.start config linkBandwidths now))
        (Program.start (config role) (linkBandwidths role) (now role)) := by
      refine halong.imp fun step q hq => ?_
      cases step with
      | begin round => trivial
      | perform t r => exact fun a ha => hq.pending t a (List.mem_of_head? ha)
    rw [run_sent hprogram (orderly_idle _)]
    intro d hd
    obtain ⟨event, hevent, hd⟩ := List.mem_flatMap.mp
      ((List.mem_append.mp hd).resolve_left List.not_mem_nil)
    cases event with
    | began round => cases hd
    | performed r a e =>
        exact sends_length
          (run_performed hbounded hprogram (orderly_idle _) r a e hevent) d hd

/-- The law where a chunk has crossed and is acknowledged, under the
default configuration, whose largest chunks are of 65536 bytes. -/
theorem programs_never_adapt_chunk_trip : ∃ s,
    Trace.run (System.step fun _ => none) chunkTrip freshSystem = some s
      ∧ s.client.shared.aggregator.optimalChunkSize = 1400
      ∧ s.client.shared.aggregator.config.maxChunkSize = 65536
      ∧ ∀ d ∈ s.client.shared.sent, d.bytes.length ≤ 20 + 2002 := by
  have hconfig : (Trace.run (System.step fun _ => none) chunkTrip
      freshSystem).map (fun s =>
        s.client.shared.aggregator.config.maxChunkSize) = some 65536 := by
    decide +kernel
  obtain ⟨s, hrun, hconfig⟩ := Option.map_eq_some_iff.mp hconfig
  obtain ⟨htarget, -, -, hsent⟩ := programs_never_adapt (fun _ => none)
    (fun _ => Config.default) _ (fun _ _ => 0) hrun .client
  exact ⟨s, hrun, htarget, hconfig, hsent⟩

end ChainLightning
