/-
Acknowledgements and the round-trip time.

A program takes a sample from an acknowledgement that echoes a positive
timestamp (`handleAck`). The only code that builds acknowledgements
(`ackBytes`) echoes zero, a chunk carries no timestamp that it could
echo, and no other datagram of either program decodes as an
acknowledgement (`Muted`). So no acknowledgement is ever a sample: in
every run of both programs, over any network, no link has one, its
smoothed RTT stays zero, and zero is what the scheduler and the
aggregator are told (`Unmeasured`).

What one action can do to this is `exec_unmeasured`, one case an action;
the pool and the system carry it along a run.
-/
import ChainLightning.Endpoint
import ChainLightning.Proofs.Wire

namespace ChainLightning

-- ============================================================== datagrams

/-- Nothing that decodes as an acknowledgement echoes a timestamp. -/
def Muted (statsFromSlice : List UInt8 → Option StatsPacket)
    (bytes : List UInt8) : Prop :=
  ∀ ack, Packet.decode statsFromSlice bytes = some (.ack ack) →
    ack.echoTimestampUs = 0

variable {statsFromSlice : List UInt8 → Option StatsPacket}

/-- An acknowledgement has its own tag in front. -/
theorem muted_of_tag {bytes : List UInt8} (tag : UInt8)
    (htag : byteAt bytes 0 = tag) (hne : tag ≠ msgAck) :
    Muted statsFromSlice bytes := by
  intro ack hdecode
  have hack : AckPacket.decode bytes = some ack :=
    packet_decode_inv hdecode
  rw [AckPacket.decode, htag, if_pos hne, ite_self] at hack
  cases hack

theorem muted_chunk (p : ChunkPacket) : Muted statsFromSlice p.encode :=
  muted_of_tag msgData rfl (by decide)

theorem muted_probe (p : ProbePacket) : Muted statsFromSlice p.encode :=
  muted_of_tag msgProbe rfl (by decide)

theorem muted_keepalive (p : KeepalivePacket) :
    Muted statsFromSlice p.encode :=
  muted_of_tag msgKeepalive rfl (by decide)

/-- The acknowledgements that are sent echo zero. -/
theorem muted_ack (linkId : Nat) (chunkId : ChunkId) (now : UInt64) :
    Muted statsFromSlice (Endpoint.ackBytes linkId chunkId now) := by
  intro ack hdecode
  unfold Endpoint.ackBytes at hdecode
  rw [← List.append_nil (AckPacket.encode _),
    (packet_decode_tag rfl).2.2.1 rfl, ack_decode_encode] at hdecode
  cases hdecode
  rfl

-- ============================================================= components

/-- What a change of one element keeps, it keeps in the list. -/
theorem forall_modify {α : Type*} {P : α → Prop} {g : α → α}
    (hg : ∀ x, P x → P (g x)) {l : List α} (h : ∀ x ∈ l, P x) (i : Nat) :
    ∀ x ∈ l.modify i g, P x := by
  induction l generalizing i with
  | nil =>
      rw [List.modify_nil]
      exact h
  | cons y l ih =>
      have hy := h y List.mem_cons_self
      have hl : ∀ x ∈ l, P x := fun x hx => h x (List.mem_cons_of_mem y hx)
      intro x hx
      cases i with
      | zero =>
          rw [List.modify_zero_cons] at hx
          rcases List.mem_cons.mp hx with rfl | hx
          · exact hg y hy
          · exact hl x hx
      | succ i =>
          rw [List.modify_succ_cons] at hx
          rcases List.mem_cons.mp hx with rfl | hx
          · exact hy
          · exact ih hl i x hx

/-- No RTT sample was taken on a link. -/
def LinkStats.Unmeasured (l : LinkStats) : Prop :=
  l.rttSamples = [] ∧ l.smoothedRttUs = 0

/-- Traffic is counted without a sample. -/
theorem recordTx_unmeasured {s : StatsCollector}
    (h : ∀ l ∈ s.links, l.Unmeasured) (linkId : Nat) (bytes : UInt64) :
    ∀ l ∈ (s.recordTx linkId bytes).links, l.Unmeasured :=
  forall_modify (g := LinkStats.recordTx bytes) (fun _ hl => hl) h linkId

theorem recordRx_unmeasured {s : StatsCollector}
    (h : ∀ l ∈ s.links, l.Unmeasured) (linkId : Nat) (bytes : UInt64) :
    ∀ l ∈ (s.recordRx linkId bytes).links, l.Unmeasured :=
  forall_modify (g := LinkStats.recordRx bytes) (fun _ hl => hl) h linkId

/-- A tick measures bandwidth and health only. -/
theorem tick_unmeasured {s : StatsCollector} {clock : Nat → Nat}
    (h : ∀ l ∈ s.links, l.Unmeasured) :
    ∀ l ∈ (s.tick clock).links, l.Unmeasured := by
  intro l hl
  obtain ⟨i, hi, rfl⟩ := List.mem_mapIdx.mp hl
  have hold := h s.links[i] (List.getElem_mem hi)
  unfold LinkStats.updateHealth LinkStats.updateBandwidth
  dsimp only
  split
  case isTrue => exact hold
  case isFalse => exact hold

/-- The scheduler has no RTT of a link. -/
def LinkScheduler.Unmeasured (s : LinkScheduler) : Prop :=
  ∀ l ∈ s.links, l.rttUs = 0

theorem scheduler_start_unmeasured (config : LinkSchedulerConfig)
    (configuredBandwidths : List UInt64) (now : Nat) :
    (LinkScheduler.new config configuredBandwidths now).Unmeasured := by
  intro l hl
  obtain ⟨i, hi, rfl⟩ := List.mem_mapIdx.mp hl
  rfl

/-- An update that knows no RTT leaves none. -/
theorem updateLink_unmeasured {s : LinkScheduler} (h : s.Unmeasured)
    (linkId : Nat) (measuredBandwidthBps : UInt64) (now : Nat) :
    (s.updateLink linkId measuredBandwidthBps 0 now).Unmeasured := by
  have hlink : ∀ l : LinkState, l.rttUs = 0 →
      ((l.updateRtt 0).updateBandwidth measuredBandwidthBps).rttUs = 0 := by
    intro l hl
    unfold LinkState.updateBandwidth LinkState.updateRtt
    rw [if_pos rfl]
    split
    case isTrue => exact hl
    case isFalse => exact hl
  have hmodify := forall_modify hlink h linkId
  unfold LinkScheduler.updateLink LinkScheduler.maybeAdjustWeights
  dsimp only
  split
  case isTrue =>
    intro l hl
    obtain ⟨l', hl', rfl⟩ := List.mem_map.mp hl
    exact hmodify l' hl'
  case isFalse => exact hmodify

theorem applyWeights_unmeasured (weights : List UInt32)
    {links : List LinkState} (h : ∀ l ∈ links, l.rttUs = 0) :
    ∀ l ∈ LinkScheduler.applyWeights weights links, l.rttUs = 0 := by
  induction weights generalizing links with
  | nil => exact h
  | cons w weights ih =>
      cases links with
      | nil => exact h
      | cons l links =>
          rw [LinkScheduler.applyWeights]
          intro l' hl'
          rcases List.mem_cons.mp hl' with rfl | hl'
          · exact h l List.mem_cons_self
          · exact ih (fun x hx => h x (List.mem_cons_of_mem l hx)) l' hl'

theorem schedule_unmeasured {s : LinkScheduler} (h : s.Unmeasured)
    (chunkSize : UInt64) :
    (s.schedule chunkSize false).2.Unmeasured :=
  forall_modify (g := LinkState.recordSent chunkSize) (fun _ hl => hl) h _

/-- The aggregator has no RTT of a link. -/
def ChunkAggregator.Unmeasured (a : ChunkAggregator) : Prop :=
  ∀ stats ∈ a.linkStats, stats.2 = 0

theorem updateLinkStats_unmeasured {a : ChunkAggregator}
    (h : a.Unmeasured) (linkId : Nat) (bandwidthBps : UInt64) :
    (a.updateLinkStats linkId bandwidthBps 0).Unmeasured := by
  have hset : ∀ stats ∈ a.linkStats.set linkId (bandwidthBps, 0),
      stats.2 = 0 := by
    intro stats hmem
    rcases List.mem_or_eq_of_mem_set hmem with hmem | rfl
    · exact h stats hmem
    · rfl
  unfold ChunkAggregator.updateLinkStats ChunkAggregator.recalculateChunkSize
  dsimp only
  split
  case isTrue =>
    split
    case isTrue => exact hset
    case isFalse => exact hset
  case isFalse => exact h

/-- Only an update of the link statistics changes them. -/
theorem addPacket_linkStats (packet : List UInt8) (flowId : Option FlowId)
    (now : Nat) (a : ChunkAggregator) :
    (a.addPacket packet flowId now).2.linkStats = a.linkStats := by
  unfold ChunkAggregator.addPacket
  dsimp only
  split
  case isTrue => split <;> rfl
  case isFalse => split <;> split <;> rfl

theorem checkTimeout_linkStats (read now : Nat) (a : ChunkAggregator) :
    (a.checkTimeout read now).2.linkStats = a.linkStats := by
  unfold ChunkAggregator.checkTimeout ChunkAggregator.flush
  dsimp only
  repeat' split
  all_goals rfl

-- =============================================================== programs

/-- A program that knows no RTT, and whose acknowledgements give none. -/
structure Endpoint.Unmeasured
    (statsFromSlice : List UInt8 → Option StatsPacket) (e : Endpoint) :
    Prop where
  stats : ∀ l ∈ e.stats.links, l.Unmeasured
  scheduler : e.scheduler.Unmeasured
  aggregator : e.aggregator.Unmeasured
  sent : ∀ d ∈ e.sent, Muted statsFromSlice d.bytes

/-- An action that is to make an RTT known has none to make known. -/
def Action.Unmeasured : Action → Prop
  | .handleAck _ ack => ack.echoTimestampUs = 0
  | .updateLink _ _ rttUs => rttUs = 0
  | .updateLinkStats _ _ rttMs => rttMs = 0
  | _ => True

theorem start_unmeasured (config : Config) (linkBandwidths : List UInt64)
    (now : Nat → Nat) :
    (Endpoint.start config linkBandwidths now).Unmeasured
      statsFromSlice where
  stats := by
    intro l hl
    obtain ⟨id, -, rfl⟩ := List.mem_map.mp hl
    exact ⟨rfl, rfl⟩
  scheduler := scheduler_start_unmeasured config.linkScheduler _ _
  aggregator := by
    intro stats hmem
    rw [List.eq_of_mem_replicate hmem]
  sent := fun _ h => nomatch h

namespace Endpoint.Unmeasured

variable {e : Endpoint}

theorem transmit (h : e.Unmeasured statsFromSlice) {bytes : List UInt8}
    (hbytes : Muted statsFromSlice bytes) (r : Reading) (linkId : Nat)
    (dest : Dest) :
    (e.transmit r linkId dest bytes).Unmeasured statsFromSlice := by
  unfold Endpoint.transmit
  split
  case isFalse => exact h
  case isTrue =>
    refine ⟨h.stats, h.scheduler, h.aggregator, fun d hd => ?_⟩
    rcases List.mem_append.mp hd with hd | hd
    · exact h.sent d hd
    · cases List.mem_singleton.mp hd
      exact hbytes

theorem transmitChunk (h : e.Unmeasured statsFromSlice) (r : Reading)
    (linkId : Nat) (dest : Dest) (chunk : Chunk) :
    (e.transmitChunk r linkId dest chunk).2.Unmeasured statsFromSlice
      ∧ ∀ a ∈ (e.transmitChunk r linkId dest chunk).1, a.Unmeasured := by
  refine ⟨h.transmit (muted_chunk _) .., ?_⟩
  unfold Endpoint.transmitChunk
  dsimp only
  split
  case isTrue => simp [Action.Unmeasured]
  case isFalse => exact fun _ h => nomatch h

/-- An acknowledgement that echoes nothing changes nothing. -/
theorem handleAck {ack : AckPacket} (hack : ack.echoTimestampUs = 0)
    (now : UInt64) (linkId : Nat) :
    e.handleAck now linkId ack = e := by
  unfold Endpoint.handleAck
  rw [hack, if_neg (fun h => absurd h.1 (by decide))]

/-- The updates of a round, when no RTT is known. -/
theorem linkUpdates {s : StatsCollector}
    (h : ∀ l ∈ s.links, l.Unmeasured) :
    ∀ a ∈ Endpoint.linkUpdates s, a.Unmeasured := by
  intro a ha
  obtain ⟨acts, hacts, ha⟩ := List.mem_flatten.mp ha
  obtain ⟨i, hi, rfl⟩ := List.mem_mapIdx.mp hacts
  have hmem := List.getElem_mem hi
  generalize (s.bandwidths.zip s.rtts)[i] = measured at hmem ha
  obtain ⟨bw, rtt⟩ := measured
  obtain ⟨l, hl, rfl⟩ := List.mem_map.mp (List.of_mem_zip hmem).2
  rw [(h l hl).2] at ha
  rcases List.mem_cons.mp ha with rfl | ha
  · rfl
  · cases List.mem_singleton.mp ha
    rfl

end Endpoint.Unmeasured

/-- The actions that one list of values is turned into. -/
private theorem unmeasured_map {α : Type*} {f : α → Action} {l : List α}
    (hf : ∀ x, (f x).Unmeasured) : ∀ a ∈ l.map f, a.Unmeasured := by
  intro a ha
  obtain ⟨x, -, rfl⟩ := List.mem_map.mp ha
  exact hf x

/-- An action that makes no RTT known keeps a program from knowing one,
and so do the actions it yields. -/
theorem exec_unmeasured {role : Role} {r : Reading} {a : Action}
    {e e' : Endpoint} {next : List Action} (ha : a.Unmeasured)
    (h : e.Unmeasured statsFromSlice)
    (hexec : Endpoint.exec role r a e = some (next, e')) :
    e'.Unmeasured statsFromSlice ∧ ∀ b ∈ next, b.Unmeasured := by
  obtain ⟨hstats, hscheduler, haggregator, hsent⟩ := h
  have hnone : ∀ b ∈ ([] : List Action), b.Unmeasured :=
    fun _ hb => nomatch hb
  cases a with
  | recordPacketTx _ | recordPacketRx _ | recordChunkTx _ | recordChunkRx _
  | handleAnnouncement _ | snapshot =>
      cases hexec
      exact ⟨⟨hstats, hscheduler, haggregator, hsent⟩, hnone⟩
  | rateTx _ _ | rateRx _ _ | processProbe _ =>
      obtain ⟨rc, -, hexec⟩ := Option.bind_eq_some_iff.mp hexec
      cases hexec
      exact ⟨⟨hstats, hscheduler, haggregator, hsent⟩, hnone⟩
  | enqueue _ | forward _ =>
      unfold Endpoint.exec at hexec
      dsimp only at hexec
      split at hexec <;> cases hexec
      exact ⟨⟨hstats, hscheduler, haggregator, hsent⟩, hnone⟩
  | addPacket packet flowId =>
      cases hexec
      refine ⟨⟨hstats, hscheduler, ?_, hsent⟩, unmeasured_map fun _ => trivial⟩
      show ∀ stats ∈ (e.aggregator.addPacket packet flowId
        (r.instant 0)).2.linkStats, stats.2 = 0
      rw [addPacket_linkStats]
      exact haggregator
  | checkTimeout =>
      cases hexec
      refine ⟨⟨hstats, hscheduler, ?_, hsent⟩, unmeasured_map fun _ => trivial⟩
      show ∀ stats ∈ (e.aggregator.checkTimeout (r.instant 0)
        (r.instant 1)).2.linkStats, stats.2 = 0
      rw [checkTimeout_linkStats]
      exact haggregator
  | takeReceived =>
      unfold Endpoint.exec at hexec
      dsimp only at hexec
      split at hexec <;> cases hexec
      exact ⟨⟨hstats, hscheduler, haggregator, hsent⟩,
        unmeasured_map fun _ => trivial⟩
  | writeTun packet =>
      cases hexec
      exact ⟨⟨hstats, hscheduler, haggregator, hsent⟩,
        fun b hb => List.mem_singleton.mp hb ▸ trivial⟩
  | learnAddr linkId src =>
      cases hexec
      refine ⟨?_, hnone⟩
      unfold Endpoint.learn
      split <;> exact ⟨hstats, hscheduler, haggregator, hsent⟩
  | recordRx linkId bytes =>
      cases hexec
      exact ⟨⟨recordRx_unmeasured hstats _ _, hscheduler, haggregator,
        hsent⟩, hnone⟩
  | sendAck linkId chunkId src =>
      cases hexec
      exact ⟨Endpoint.Unmeasured.transmit
        ⟨hstats, hscheduler, haggregator, hsent⟩ (muted_ack _ _ _) .., hnone⟩
  | handleAck linkId ack =>
      cases hexec
      rw [Endpoint.Unmeasured.handleAck ha]
      exact ⟨⟨hstats, hscheduler, haggregator, hsent⟩, hnone⟩
  | takeChunk =>
      unfold Endpoint.exec at hexec
      dsimp only at hexec
      split at hexec <;> cases hexec
      exact ⟨⟨hstats, hscheduler, haggregator, hsent⟩,
        fun b hb => List.mem_singleton.mp hb ▸ trivial⟩
  | schedule chunk =>
      cases hexec
      exact ⟨⟨hstats, schedule_unmeasured hscheduler _, haggregator, hsent⟩,
        fun b hb => List.mem_singleton.mp hb ▸ trivial⟩
  | sendChunk linkId chunk =>
      cases hexec
      exact ⟨⟨hstats, hscheduler, haggregator, hsent⟩,
        unmeasured_map fun _ => trivial⟩
  | transmitChunk linkId dest chunk =>
      injection hexec with hexec
      have hsend := Endpoint.Unmeasured.transmitChunk
        ⟨hstats, hscheduler, haggregator, hsent⟩ r linkId dest chunk
      rw [hexec] at hsend
      exact hsend
  | recordTx linkId bytes =>
      cases hexec
      exact ⟨⟨recordTx_unmeasured hstats _ _, hscheduler, haggregator,
        hsent⟩, hnone⟩
  | tickStats =>
      cases hexec
      exact ⟨⟨tick_unmeasured hstats, hscheduler, haggregator, hsent⟩,
        hnone⟩
  | readStats =>
      cases hexec
      exact ⟨⟨hstats, hscheduler, haggregator, hsent⟩,
        Endpoint.Unmeasured.linkUpdates hstats⟩
  | updateLink linkId bandwidthBps rttUs =>
      cases hexec
      cases ha
      exact ⟨⟨hstats, updateLink_unmeasured hscheduler _ _ _, haggregator,
        hsent⟩, hnone⟩
  | updateLinkStats linkId bandwidthBps rttMs =>
      cases hexec
      cases ha
      exact ⟨⟨hstats, hscheduler, updateLinkStats_unmeasured haggregator _ _,
        hsent⟩, hnone⟩
  | checkRates =>
      cases hexec
      exact ⟨⟨hstats, hscheduler, haggregator, hsent⟩,
        fun b hb => List.mem_singleton.mp hb ▸ trivial⟩
  | setWeights weights =>
      cases hexec
      exact ⟨⟨hstats, applyWeights_unmeasured weights hscheduler,
        haggregator, hsent⟩, hnone⟩
  | buildProbes =>
      obtain ⟨⟨probes, rc⟩, -, hexec⟩ := Option.bind_eq_some_iff.mp hexec
      cases hexec
      exact ⟨⟨hstats, hscheduler, haggregator, hsent⟩,
        unmeasured_map fun _ => trivial⟩
  | sendProbe probe =>
      cases hexec
      exact ⟨⟨hstats, hscheduler, haggregator, hsent⟩,
        unmeasured_map fun _ => trivial⟩
  | transmitProbe dest probe =>
      cases hexec
      exact ⟨Endpoint.Unmeasured.transmit
        ⟨hstats, hscheduler, haggregator, hsent⟩ (muted_probe _) .., hnone⟩
  | sendKeepalive linkId =>
      cases hexec
      exact ⟨Endpoint.Unmeasured.transmit
        ⟨hstats, hscheduler, haggregator, hsent⟩ (muted_keepalive _) ..,
        hnone⟩

-- =================================================================== runs

/-- What is done with a datagram that echoes nothing. -/
theorem handle_unmeasured {bytes : List UInt8}
    (hbytes : Muted statsFromSlice bytes) (linkId n : Nat)
    (src : SocketAddr) :
    ∀ a ∈ Round.handle linkId n src (Packet.decode statsFromSlice bytes),
      a.Unmeasured := by
  cases hdecode : Packet.decode statsFromSlice bytes with
  | none => exact fun a ha => nomatch ha
  | some packet =>
      cases packet with
      | data p => simp [Round.handle, Action.Unmeasured]
      | announce ann => simp [Round.handle, Action.Unmeasured]
      | ack ack =>
          intro a ha
          cases List.mem_singleton.mp ha
          exact hbytes ack hdecode
      | stats p => exact fun a ha => nomatch ha
      | keepalive p => exact fun a ha => nomatch ha
      | probe probe => simp [Round.handle, Action.Unmeasured]

/-- A round makes no RTT known, unless it starts with a datagram that
echoes one. -/
theorem actions_unmeasured (role : Role) (e : Endpoint) {round : Round}
    (hbytes : ∀ linkId bytes src, round = .receive linkId bytes src →
      Muted statsFromSlice bytes) :
    ∀ a ∈ round.actions statsFromSlice role e, a.Unmeasured := by
  cases round with
  | readTun packet flowId => simp [Round.actions, Action.Unmeasured]
  | writeTun => simp [Round.actions, Action.Unmeasured]
  | receive linkId bytes src =>
      have hhandle := handle_unmeasured (hbytes linkId bytes src rfl) linkId
        bytes.length src
      cases role with
      | client => exact hhandle
      | server =>
          intro a ha
          rcases List.mem_cons.mp ha with rfl | ha
          · trivial
          · exact hhandle a ha
  | sendChunk => simp [Round.actions, Action.Unmeasured]
  | updateStats =>
      by_cases henabled : e.rateController.config.enabled <;>
        simp [Round.actions, Action.Unmeasured, henabled]
  | checkTimeout => simp [Round.actions, Action.Unmeasured]
  | sendProbes => simp [Round.actions, Action.Unmeasured]
  | sendKeepalives => exact unmeasured_map fun _ => trivial

/-- A program that knows no RTT and is to make none known. -/
def Program.Unmeasured (statsFromSlice : List UInt8 → Option StatsPacket)
    (p : Program) : Prop :=
  Pool.Fine (Endpoint.Unmeasured statsFromSlice) Action.Unmeasured p

/-- One step of a program. Where it starts with a datagram, that one
echoes nothing. -/
theorem Program.Unmeasured.step {role : Role} {step : ProgramStep}
    {p p' : Program} (h : p.Unmeasured statsFromSlice)
    (hbytes : ∀ linkId bytes src,
      step = .begin (.receive linkId bytes src) →
      Muted statsFromSlice bytes)
    (hstep : Program.step statsFromSlice role step p = some p') :
    p'.Unmeasured statsFromSlice := by
  cases step with
  | begin round =>
      unfold Program.step at hstep
      dsimp only at hstep
      split at hstep
      case isFalse => cases hstep
      case isTrue =>
        refine Pool.Fine.begin h (actions_unmeasured role p.shared ?_) hstep
        rintro linkId bytes src rfl
        exact hbytes linkId bytes src rfl
  | perform task reading =>
      exact Pool.Fine.perform h
        (fun _ _ _ _ ha he hexec => exec_unmeasured ha he hexec) hstep

/-- Neither program knows an RTT. -/
def System.Unmeasured (statsFromSlice : List UInt8 → Option StatsPacket)
    (s : System) : Prop :=
  ∀ role, (s.program role).Unmeasured statsFromSlice

theorem System.Unmeasured.set {s : System}
    (h : s.Unmeasured statsFromSlice) {role : Role} {p : Program}
    (hp : p.Unmeasured statsFromSlice) :
    (s.set role p).Unmeasured statsFromSlice := by
  intro role'
  by_cases heq : role' = role
  · subst heq
    rw [System.program_set_self]
    exact hp
  · rw [System.program_set_of_ne heq]
    exact h role'

theorem system_start_unmeasured (config : Role → Config)
    (linkBandwidths : Role → List UInt64) (now : Role → Nat → Nat) :
    (System.start config linkBandwidths now).Unmeasured statsFromSlice := by
  intro role
  cases role with
  | client => exact Pool.fine_idle (start_unmeasured ..)
  | server => exact Pool.fine_idle (start_unmeasured ..)

/-- One step of the system: what it delivers, a program has sent. -/
theorem System.Unmeasured.step {step : SystemStep} {s s' : System}
    (h : s.Unmeasured statsFromSlice)
    (hstep : System.step statsFromSlice step s = some s') :
    s'.Unmeasured statsFromSlice := by
  cases step with
  | begin role round =>
      unfold System.step at hstep
      dsimp only at hstep
      split at hstep
      case isTrue => cases hstep
      case isFalse hreceive =>
        obtain ⟨p, hp, rfl⟩ := Option.map_eq_some_iff.mp hstep
        refine h.set ((h role).step ?_ hp)
        intro linkId bytes src heq
        cases heq
        exact absurd rfl hreceive
  | perform role task reading =>
      obtain ⟨p, hp, rfl⟩ := Option.map_eq_some_iff.mp hstep
      refine h.set ((h role).step ?_ hp)
      intro linkId bytes src heq
      cases heq
  | deliver role i src =>
      obtain ⟨d, hd, hstep⟩ := Option.bind_eq_some_iff.mp hstep
      obtain ⟨p, hp, hstep⟩ := Option.bind_eq_some_iff.mp hstep
      cases hstep
      refine h.set ((h role).step ?_ hp)
      intro linkId bytes src' heq
      cases heq
      exact (h role.peer).shared.sent d (List.mem_of_getElem? hd)

/-- No acknowledgement measures a round trip: in every run of the client
and the server, whatever is sent, delivered and acknowledged, no link of
either has an RTT sample and its smoothed RTT is zero, as is every RTT
that the scheduler and the aggregator know. -/
theorem no_ack_measures_rtt
    (statsFromSlice : List UInt8 → Option StatsPacket)
    (config : Role → Config) (linkBandwidths : Role → List UInt64)
    (now : Role → Nat → Nat) {steps : List SystemStep} {s : System}
    (hrun : Trace.run (System.step statsFromSlice) steps
      (System.start config linkBandwidths now) = some s) (role : Role) :
    (∀ l ∈ (s.program role).shared.stats.links,
      l.rttSamples = [] ∧ l.smoothedRttUs = 0)
    ∧ (∀ l ∈ (s.program role).shared.scheduler.links, l.rttUs = 0)
    ∧ ∀ stats ∈ (s.program role).shared.aggregator.linkStats,
        stats.2 = 0 := by
  have hreached := Trace.run_invariant
    (fun _ _ _ h hstep => System.Unmeasured.step h hstep) hrun
    (system_start_unmeasured config linkBandwidths now) role
  exact ⟨hreached.shared.stats, hreached.shared.scheduler,
    hreached.shared.aggregator⟩

/-- Both programs at their start, with the default configuration. -/
def freshSystem : System :=
  System.start (fun _ => Config.default)
    (fun role => match role with
      | .client => expectedBandwidthUp
      | .server => expectedBandwidthDown) fun _ _ => 0

/-- All clocks at a number of microseconds, and sockets that send. -/
def readingAt (micros : Nat) : Reading where
  micros := UInt64.ofNat micros
  instant := fun _ => micros * 1000
  linkMicros := fun _ => UInt64.ofNat micros
  sendOk := true

/-- A packet of three bytes leaves the client as a chunk at 10 ms,
reaches the server at 30 ms and is acknowledged; the acknowledgement
reaches the client. -/
def chunkTrip : List SystemStep :=
  [.begin .client (.readTun [1, 2, 3] none),
   .perform .client .tunReader (readingAt 1000),
   .begin .client .checkTimeout,
   .perform .client .timeoutChecker (readingAt 10000),
   .perform .client .timeoutChecker (readingAt 10000),
   .begin .client .sendChunk]
    ++ List.replicate 4 (.perform .client .chunkSender (readingAt 10000))
    ++ [.deliver .server 0 ⟨1, 40000⟩]
    ++ List.replicate 6
      (.perform .server (.linkReceiver 0) (readingAt 30000))
    ++ [.deliver .client 0 ⟨2, 50001⟩]

/-- The law after the chunk's trip. -/
theorem no_ack_measures_rtt_chunk_trip :
    ∃ s, Trace.run (System.step fun _ => none) chunkTrip freshSystem = some s
      ∧ ∀ l ∈ s.client.shared.stats.links,
        l.rttSamples = [] ∧ l.smoothedRttUs = 0 := by
  obtain ⟨s, hrun⟩ := Option.isSome_iff_exists.mp (show (Trace.run
      (System.step fun _ => none) chunkTrip freshSystem).isSome = true by
    decide +kernel)
  exact ⟨s, hrun, (no_ack_measures_rtt (fun _ => none)
    (fun _ => Config.default) _ (fun _ _ => 0) hrun .client).1⟩

/-- The chunk went out at 10 ms, and its acknowledgement is handled at
50 ms; the client has no RTT sample. -/
theorem delivered_ack_not_measured : ∃ s s',
    Trace.run (System.step fun _ => none) chunkTrip freshSystem = some s
    ∧ s.client.shared.sent.map
        (fun d => (d.linkId, Packet.decode (fun _ => none) d.bytes))
      = [(0, some (.data ⟨0, 0, 5, 0, [0, 3, 1, 2, 3]⟩))]
    ∧ s.server.shared.sent.map
        (fun d => (d.linkId, Packet.decode (fun _ => none) d.bytes))
      = [(0, some (.ack ⟨0, 0, 0, 30000⟩))]
    ∧ s.client.pending (.linkReceiver 0) = [.handleAck 0 ⟨0, 0, 0, 30000⟩]
    ∧ System.step (fun _ => none)
        (.perform .client (.linkReceiver 0) (readingAt 50000)) s = some s'
    ∧ s'.client.pending (.linkReceiver 0) = []
    ∧ s'.client.shared.stats.links.map
        (fun l => (l.rttSamples, l.smoothedRttUs))
      = List.replicate 5 ([], 0) := by
  have hsent : (Trace.run (System.step fun _ => none) chunkTrip
      freshSystem).map (fun s => (
        s.client.shared.sent.map fun d =>
          (d.linkId, Packet.decode (fun _ => none) d.bytes),
        s.server.shared.sent.map fun d =>
          (d.linkId, Packet.decode (fun _ => none) d.bytes)))
      = some ([(0, some (.data ⟨0, 0, 5, 0, [0, 3, 1, 2, 3]⟩))],
          [(0, some (.ack ⟨0, 0, 0, 30000⟩))]) := by
    decide +kernel
  have hhandled : (Trace.run (System.step fun _ => none) chunkTrip
      freshSystem).bind (fun s => (System.step (fun _ => none)
        (.perform .client (.linkReceiver 0) (readingAt 50000)) s).map
        fun s' => (s.client.pending (.linkReceiver 0),
          s'.client.pending (.linkReceiver 0),
          s'.client.shared.stats.links.map
            fun l => (l.rttSamples, l.smoothedRttUs)))
      = some ([.handleAck 0 ⟨0, 0, 0, 30000⟩], [],
          List.replicate 5 ([], 0)) := by
    decide +kernel
  obtain ⟨s, hs, hsent⟩ := Option.map_eq_some_iff.mp hsent
  rw [hs, Option.bind_some] at hhandled
  obtain ⟨s', hs', hhandled⟩ := Option.map_eq_some_iff.mp hhandled
  injection hsent with hclient hserver
  injection hhandled with hbefore hhandled
  injection hhandled with hafter hstats
  exact ⟨s, s', hs, hclient, hserver, hbefore, hs', hafter, hstats⟩

end ChainLightning
