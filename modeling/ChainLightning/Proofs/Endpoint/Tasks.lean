/-
What the tasks of a program do, said once.

`Action.Effects` is what an action does to the parts of the state that
chunks pass on their way from the TUN device to a link: the aggregator,
the queue, the scheduler, the counters, the learned addresses and the
log of datagrams. Its theorem (`exec_effects`) is the only place where
the actions are opened for them. `Task.owns` says which task an action
occurs in, so a task's step changes nothing that belongs to another one.

A run is seen as its events, the rounds that start and the actions that
are performed; `Program.run_events` is the induction for what holds
between the events of a run and the state it reached.
-/
import ChainLightning.Endpoint

namespace ChainLightning

-- ============================================================== ownership

/-- The action occurs in the task. -/
def Task.owns (t : Task) : Action → Prop
  | .addPacket _ _ | .recordPacketTx _ => t = .tunReader
  | .checkTimeout => t = .timeoutChecker
  | .enqueue _ => t = .tunReader ∨ t = .timeoutChecker
  | .takeReceived | .writeTun _ | .recordPacketRx _ => t = .tunWriter
  | .learnAddr _ _ | .recordRx _ _ | .recordChunkRx _ | .rateRx _ _
  | .forward _ | .sendAck _ _ _ | .handleAnnouncement _ | .handleAck _ _
  | .processProbe _ => ∃ linkId, t = .linkReceiver linkId
  | .takeChunk | .schedule _ | .sendChunk _ _ | .transmitChunk _ _ _
  | .recordTx _ _ | .recordChunkTx _ | .rateTx _ _ => t = .chunkSender
  | .tickStats | .readStats | .updateLink _ _ _ | .updateLinkStats _ _ _
  | .checkRates | .setWeights _ | .snapshot => t = .statsUpdater
  | .buildProbes | .sendProbe _ | .transmitProbe _ _ => t = .probeSender
  | .sendKeepalive _ => t = .keepalive

/-- What is done with a datagram is done by its link's receiver. -/
private theorem handle_owned (linkId n : Nat) (src : SocketAddr)
    (packet : Option Packet) :
    ∀ a ∈ Round.handle linkId n src packet,
      (Task.linkReceiver linkId).owns a := by
  cases packet with
  | none => exact fun a ha => nomatch ha
  | some packet => cases packet <;> simp [Round.handle, Task.owns]

/-- A round is made of its task's own actions. -/
theorem actions_owned (statsFromSlice : List UInt8 → Option StatsPacket)
    (role : Role) (e : Endpoint) (round : Round) :
    ∀ a ∈ round.actions statsFromSlice role e, round.task.owns a := by
  cases round with
  | receive linkId bytes src =>
      have hhandle := handle_owned linkId bytes.length src
        (Packet.decode statsFromSlice bytes)
      cases role with
      | client => exact hhandle
      | server =>
          intro a ha
          rcases List.mem_cons.mp ha with rfl | ha
          · exact ⟨linkId, rfl⟩
          · exact hhandle a ha
  | updateStats =>
      by_cases henabled : e.rateController.config.enabled <;>
        simp [Round.actions, Round.task, Task.owns, henabled]
  | readTun packet flowId => simp [Round.actions, Round.task, Task.owns]
  | writeTun => simp [Round.actions, Round.task, Task.owns]
  | sendChunk => simp [Round.actions, Round.task, Task.owns]
  | checkTimeout => simp [Round.actions, Round.task, Task.owns]
  | sendProbes => simp [Round.actions, Round.task, Task.owns]
  | sendKeepalives => simp [Round.actions, Round.task, Task.owns]

-- ============================================================= successors

/-- What an action may leave to do next, in a state. -/
inductive Action.Leads (role : Role) (e : Endpoint) : Action → Action → Prop
  | addPacket (packet flowId chunk) :
      Leads role e (.addPacket packet flowId) (.enqueue chunk)
  | checkTimeout (chunk) : Leads role e .checkTimeout (.enqueue chunk)
  | takeReceived (packet) : Leads role e .takeReceived (.writeTun packet)
  | writeTun (packet) :
      Leads role e (.writeTun packet) (.recordPacketRx packet.length)
  | takeChunk (chunk) : Leads role e .takeChunk (.schedule chunk)
  | schedule (chunk) : Leads role e (.schedule chunk) (.sendChunk
      (e.scheduler.schedule (UInt64.ofNat chunk.size) false).1.linkId chunk)
  | sendChunk (linkId dest chunk)
      (hdest : e.destination role linkId = some dest) :
      Leads role e (.sendChunk linkId chunk)
        (.transmitChunk linkId dest chunk)
  | recordTx (linkId dest chunk) :
      Leads role e (.transmitChunk linkId dest chunk)
        (.recordTx linkId (Endpoint.chunkBytes linkId chunk).length)
  | recordChunkTx (linkId dest chunk) :
      Leads role e (.transmitChunk linkId dest chunk)
        (.recordChunkTx chunk.size)
  | rateTx (linkId dest chunk) :
      Leads role e (.transmitChunk linkId dest chunk)
        (.rateTx linkId (Endpoint.chunkBytes linkId chunk).length)
  | updateLink (linkId bandwidthBps rttUs) :
      Leads role e .readStats (.updateLink linkId bandwidthBps rttUs)
  | updateLinkStats (linkId bandwidthBps rttMs) :
      Leads role e .readStats (.updateLinkStats linkId bandwidthBps rttMs)
  | checkRates (weights) : Leads role e .checkRates (.setWeights weights)
  | buildProbes (probe) : Leads role e .buildProbes (.sendProbe probe)
  | sendProbe (dest probe)
      (hdest : e.destination role probe.linkId.toNat = some dest) :
      Leads role e (.sendProbe probe) (.transmitProbe dest probe)

private theorem linkUpdates_leads (role : Role) (e : Endpoint) :
    ∀ b ∈ Endpoint.linkUpdates e.stats, Action.Leads role e .readStats b := by
  intro b hb
  obtain ⟨acts, hacts, hb⟩ := List.mem_flatten.mp hb
  obtain ⟨i, hi, rfl⟩ := List.mem_mapIdx.mp hacts
  generalize (e.stats.bandwidths.zip e.stats.rtts)[i] = measured at hb
  obtain ⟨bandwidthBps, rttUs⟩ := measured
  rcases List.mem_cons.mp hb with rfl | hb
  · exact .updateLink ..
  · cases List.mem_singleton.mp hb
    exact .updateLinkStats ..

private theorem transmitChunk_leads (role : Role) (r : Reading)
    (linkId : Nat) (dest : Dest) (chunk : Chunk) (e : Endpoint) :
    ∀ b ∈ (e.transmitChunk r linkId dest chunk).1,
      Action.Leads role e (.transmitChunk linkId dest chunk) b := by
  intro b hb
  unfold Endpoint.transmitChunk at hb
  dsimp only at hb
  split at hb
  case isFalse => cases hb
  case isTrue =>
    simp only [List.mem_cons, List.not_mem_nil, or_false] at hb
    rcases hb with rfl | rfl | rfl
    · exact .recordTx ..
    · exact .recordChunkTx ..
    · exact .rateTx ..

/-- An action leaves nothing else to do. -/
theorem exec_leads {role : Role} {r : Reading} {a : Action}
    {e e' : Endpoint} {next : List Action}
    (hexec : Endpoint.exec role r a e = some (next, e')) :
    ∀ b ∈ next, Action.Leads role e a b := by
  intro b hb
  cases a with
  | addPacket packet flowId =>
      cases hexec
      obtain ⟨chunk, -, rfl⟩ := List.mem_map.mp hb
      exact .addPacket ..
  | checkTimeout =>
      cases hexec
      obtain ⟨chunk, -, rfl⟩ := List.mem_map.mp hb
      exact .checkTimeout chunk
  | takeReceived =>
      unfold Endpoint.exec at hexec
      dsimp only at hexec
      split at hexec <;> cases hexec
      obtain ⟨packet, -, rfl⟩ := List.mem_map.mp hb
      exact .takeReceived packet
  | writeTun packet =>
      cases hexec
      cases List.mem_singleton.mp hb
      exact .writeTun packet
  | takeChunk =>
      unfold Endpoint.exec at hexec
      dsimp only at hexec
      split at hexec <;> cases hexec
      cases List.mem_singleton.mp hb
      exact .takeChunk _
  | schedule chunk =>
      cases hexec
      cases List.mem_singleton.mp hb
      exact .schedule chunk
  | sendChunk linkId chunk =>
      cases hexec
      obtain ⟨dest, hdest, rfl⟩ := List.mem_map.mp hb
      exact .sendChunk linkId dest chunk (Option.mem_toList.mp hdest)
  | transmitChunk linkId dest chunk =>
      injection hexec with hexec
      have hnext := transmitChunk_leads role r linkId dest chunk e
      rw [hexec] at hnext
      exact hnext b hb
  | sendProbe probe =>
      cases hexec
      obtain ⟨dest, hdest, rfl⟩ := List.mem_map.mp hb
      exact .sendProbe dest probe (Option.mem_toList.mp hdest)
  | readStats =>
      cases hexec
      exact linkUpdates_leads role e b hb
  | checkRates =>
      cases hexec
      cases List.mem_singleton.mp hb
      exact .checkRates _
  | buildProbes =>
      obtain ⟨⟨probes, rc⟩, -, hexec⟩ := Option.bind_eq_some_iff.mp hexec
      cases hexec
      obtain ⟨probe, -, rfl⟩ := List.mem_map.mp hb
      exact .buildProbes probe
  | rateTx _ _ | rateRx _ _ | processProbe _ =>
      obtain ⟨rc, -, hexec⟩ := Option.bind_eq_some_iff.mp hexec
      cases hexec
      cases hb
  | enqueue _ | forward _ =>
      unfold Endpoint.exec at hexec
      dsimp only at hexec
      split at hexec <;> cases hexec
      cases hb
  | _ =>
      cases hexec
      cases hb

/-- What an action leads to occurs in the same task. -/
theorem Action.Leads.owned {role : Role} {e : Endpoint} {t : Task}
    {a b : Action} (h : Action.Leads role e a b) (howns : t.owns a) :
    t.owns b := by
  cases h with
  | addPacket packet flowId chunk => exact Or.inl howns
  | checkTimeout chunk => exact Or.inr howns
  | _ => exact howns

-- ================================================================ effects

/-- The chunk an action has in hand, if any, until it is handed to a
link. -/
def Action.chunks : Action → List Chunk
  | .enqueue chunk | .schedule chunk | .sendChunk _ chunk => [chunk]
  | _ => []

/-- The chunk an action has in hand, if any, until it is handed to the
link's socket. -/
def Action.cargo : Action → List Chunk
  | .transmitChunk _ _ chunk => [chunk]
  | a => a.chunks

theorem Action.chunks_of_cargo {a : Action} (h : a.cargo = []) :
    a.chunks = [] := by
  cases a with
  | transmitChunk linkId dest chunk => rfl
  | _ => exact h

theorem Action.chunks_subset_cargo (a : Action) : a.chunks ⊆ a.cargo := by
  cases a with
  | transmitChunk linkId dest chunk => exact List.nil_subset _
  | _ => exact List.Subset.refl _

/-- The call an action makes on the aggregator. -/
def Action.aggOp (r : Reading) : Action → Option AggOp
  | .addPacket packet flowId =>
      some (.addPacket packet flowId (r.instant 0))
  | .checkTimeout => some (.checkTimeout (r.instant 0) (r.instant 1))
  | .updateLinkStats linkId bandwidthBps rttMs =>
      some (.updateLinkStats linkId bandwidthBps rttMs)
  | _ => none

/-- The call an action makes on the scheduler. -/
def Action.schedulerOp (r : Reading) : Action → Option SchedulerOp
  | .updateLink linkId bandwidthBps rttUs =>
      some (.updateLink linkId bandwidthBps rttUs (r.instant 0))
  | .setWeights weights => some (.setRateControlledWeights weights)
  | .schedule chunk => some (.schedule (UInt64.ofNat chunk.size) false)
  | _ => none

/-- What an action does to the counters. -/
def Action.meter : Action → MetricsCollector → MetricsCollector
  | .recordPacketTx bytes, m => m.recordPacketTx (UInt64.ofNat bytes)
  | .recordPacketRx bytes, m => m.recordPacketRx (UInt64.ofNat bytes)
  | .recordChunkTx bytes, m => m.recordChunkTx (UInt64.ofNat bytes)
  | .recordChunkRx bytes, m => m.recordChunkRx (UInt64.ofNat bytes)
  | .snapshot, m => m.snapshot.2
  | _, m => m

/-- What an action does to the queue of the chunk sender. -/
def Action.queue : Action → List Chunk → List Chunk
  | .enqueue chunk, chunks => chunks ++ [chunk]
  | .takeChunk, chunks => chunks.tail
  | _, chunks => chunks

/-- The chunk an action puts into the queue. -/
def Action.enters : Action → List Chunk
  | .enqueue chunk => [chunk]
  | _ => []

/-- The chunk an action hands to a link. -/
def Action.hands : Action → List Chunk
  | .sendChunk _ chunk => [chunk]
  | _ => []

/-- The datagram that an action hands to a socket, whose destination was
looked up before. -/
def Action.addressed : Action → List Datagram
  | .transmitChunk linkId dest chunk =>
      [{ linkId, dest, bytes := Endpoint.chunkBytes linkId chunk }]
  | .transmitProbe dest probe =>
      [{ linkId := probe.linkId.toNat, dest, bytes := probe.encode }]
  | _ => []

/-- The chunk that the aggregator emits in an action. -/
def Action.emits (r : Reading) (e : Endpoint) (a : Action) : List Chunk :=
  ((a.aggOp r).bind fun op => (op.apply e.aggregator).1).toList

/-- The chunks that an action leaves in its task's hand. -/
def Action.leaves (r : Reading) (e : Endpoint) : Action → List Chunk
  | .takeChunk => e.toLinks.take 1
  | .schedule chunk => [chunk]
  | a => a.emits r e

/-- What an action does to the parts of the state that chunks pass. -/
structure Action.Effects (r : Reading) (a : Action) (e : Endpoint)
    (next : List Action) (e' : Endpoint) : Prop where
  numLinks : e'.numLinks = e.numLinks
  aggregator : e'.aggregator
    = (a.aggOp r).elim e.aggregator fun op => (op.apply e.aggregator).2
  scheduler : e'.scheduler
    = (a.schedulerOp r).elim e.scheduler fun op => op.apply e.scheduler
  metrics : e'.metrics = a.meter e.metrics
  toLinks : e'.toLinks = a.queue e.toLinks
  leaves : next.flatMap Action.chunks = a.leaves r e
  behind : next.tail.flatMap Action.cargo = []
  -- an address is learned for good
  addrs : e'.addrs.length = e.addrs.length
  learned : ∀ linkId : Nat, e.addrs[linkId]?.join.isSome →
    e'.addrs[linkId]?.join.isSome
  -- so is a datagram sent
  sent : e.sent <+: e'.sent

/-- A learned address stays learned. -/
private theorem learn_eq_addrs (linkId : Nat) (src : SocketAddr)
    (e : Endpoint) :
    ∃ addrs, e.learn linkId src = { e with addrs }
      ∧ addrs.length = e.addrs.length
      ∧ ∀ l : Nat, e.addrs[l]?.join.isSome → addrs[l]?.join.isSome := by
  unfold Endpoint.learn
  split
  case isFalse => exact ⟨e.addrs, rfl, rfl, fun _ h => h⟩
  case isTrue =>
    refine ⟨_, rfl, List.length_set, fun l hl => ?_⟩
    rw [List.getElem?_set]
    by_cases heq : linkId = l
    · subst heq
      have hlen : linkId < e.addrs.length := by
        by_contra hge
        rw [List.getElem?_eq_none (by omega)] at hl
        cases hl
      rw [if_pos rfl, if_pos hlen]
      rfl
    · rwa [if_neg heq]

/-- Actions with no chunk in hand. -/
private theorem chunks_none {acts : List Action}
    (h : ∀ a ∈ acts, a.cargo = []) :
    acts.flatMap Action.chunks = []
      ∧ acts.tail.flatMap Action.cargo = [] :=
  ⟨List.flatMap_eq_nil_iff.mpr fun a ha =>
    Action.chunks_of_cargo (h a ha),
    List.flatMap_eq_nil_iff.mpr fun a ha => h a (List.mem_of_mem_tail ha)⟩

private theorem chunks_map {α : Type*} {f : α → Action}
    (hf : ∀ x, (f x).cargo = []) (l : List α) :
    (l.map f).flatMap Action.chunks = []
      ∧ (l.map f).tail.flatMap Action.cargo = [] := by
  refine chunks_none fun a ha => ?_
  obtain ⟨x, -, rfl⟩ := List.mem_map.mp ha
  exact hf x

/-- The updates of a round have no chunk in hand. -/
private theorem linkUpdates_chunks (e : Endpoint) :
    ∀ a ∈ Endpoint.linkUpdates e.stats, a.cargo = [] := by
  intro a ha
  cases linkUpdates_leads .client e a ha <;> rfl

/-- A chunk, if any, that is to be queued. -/
private theorem chunks_enqueue (chunk : Option Chunk) :
    (chunk.toList.map Action.enqueue).flatMap Action.chunks = chunk.toList
      ∧ (chunk.toList.map Action.enqueue).tail.flatMap Action.cargo
        = [] := by
  cases chunk <;> exact ⟨rfl, rfl⟩

/-- A chunk, if its link has a destination, that is to be sent. -/
private theorem chunks_transmit (linkId : Nat) (chunk : Chunk)
    (dest : Option Dest) :
    (dest.toList.map fun dest =>
        Action.transmitChunk linkId dest chunk).flatMap Action.chunks = []
      ∧ (dest.toList.map fun dest =>
        Action.transmitChunk linkId dest chunk).tail.flatMap Action.cargo
        = [] := by
  cases dest <;> exact ⟨rfl, rfl⟩

/-- A socket call logs datagrams and does nothing else. -/
private theorem transmit_eq (r : Reading) (linkId : Nat) (dest : Dest)
    (bytes : List UInt8) (e : Endpoint) :
    ∃ ds, e.transmit r linkId dest bytes
      = { e with sent := e.sent ++ ds } := by
  unfold Endpoint.transmit
  split
  case isTrue => exact ⟨_, rfl⟩
  case isFalse => exact ⟨[], by rw [List.append_nil]⟩

/-- An action has its effects and no others. -/
theorem exec_effects {role : Role} {r : Reading} {a : Action}
    {e e' : Endpoint} {next : List Action}
    (hexec : Endpoint.exec role r a e = some (next, e')) :
    a.Effects r e next e' := by
  cases a with
  | addPacket _ _ | checkTimeout =>
      injection hexec with hexec
      injection hexec with hnext he
      subst hnext he
      exact ⟨rfl, rfl, rfl, rfl, rfl, (chunks_enqueue _).1,
        (chunks_enqueue _).2, rfl, fun _ h => h, List.prefix_rfl⟩
  | takeReceived =>
      unfold Endpoint.exec at hexec
      dsimp only at hexec
      split at hexec <;> cases hexec
      have hnone := chunks_map (f := Action.writeTun) (fun _ => rfl)
      exact ⟨rfl, rfl, rfl, rfl, rfl, (hnone _).1, (hnone _).2, rfl,
        fun _ h => h, List.prefix_rfl⟩
  | takeChunk =>
      unfold Endpoint.exec at hexec
      dsimp only at hexec
      split at hexec <;> cases hexec
      case h_2 chunk rest hqueue =>
        refine ⟨rfl, rfl, rfl, rfl, ?_, ?_, rfl, rfl, fun _ h => h,
          List.prefix_rfl⟩
        · show rest = e.toLinks.tail
          rw [hqueue, List.tail_cons]
        · show [chunk] = e.toLinks.take 1
          rw [hqueue]
          rfl
  | sendChunk linkId chunk =>
      cases hexec
      obtain ⟨hchunks, hcargo⟩ :=
        chunks_transmit linkId chunk (e.destination role linkId)
      exact ⟨rfl, rfl, rfl, rfl, rfl, hchunks, hcargo, rfl, fun _ h => h,
        List.prefix_rfl⟩
  | transmitChunk linkId dest chunk =>
      have hnone : ∀ b ∈ next, b.cargo = [] := by
        intro b hb
        cases exec_leads hexec b hb <;> rfl
      injection hexec with hexec
      injection hexec with hnext he
      obtain ⟨ds, heq⟩ := transmit_eq r linkId dest
        (Endpoint.chunkBytes linkId chunk) e
      rw [heq] at he
      subst he
      exact ⟨rfl, rfl, rfl, rfl, rfl, (chunks_none hnone).1,
        (chunks_none hnone).2, rfl, fun _ h => h,
        List.prefix_append e.sent ds⟩
  | learnAddr linkId src =>
      cases hexec
      obtain ⟨addrs, heq, hlength, hlearned⟩ := learn_eq_addrs linkId src e
      rw [heq]
      exact ⟨rfl, rfl, rfl, rfl, rfl, rfl, rfl, hlength, hlearned,
        List.prefix_rfl⟩
  | handleAck linkId ack =>
      cases hexec
      unfold Endpoint.handleAck
      split <;> exact ⟨rfl, rfl, rfl, rfl, rfl, rfl, rfl, rfl, fun _ h => h,
        List.prefix_rfl⟩
  | sendAck linkId chunkId src =>
      cases hexec
      obtain ⟨ds, heq⟩ := transmit_eq r linkId (Endpoint.replyDest role src)
        (Endpoint.ackBytes linkId chunkId r.micros) e
      rw [heq]
      exact ⟨rfl, rfl, rfl, rfl, rfl, rfl, rfl, rfl, fun _ h => h,
        List.prefix_append e.sent ds⟩
  | sendProbe probe =>
      cases hexec
      have hnone := chunks_map (f := fun dest =>
        Action.transmitProbe dest probe) (fun _ => rfl)
      exact ⟨rfl, rfl, rfl, rfl, rfl, (hnone _).1, (hnone _).2, rfl,
        fun _ h => h, List.prefix_rfl⟩
  | transmitProbe dest probe =>
      cases hexec
      obtain ⟨ds, heq⟩ :=
        transmit_eq r probe.linkId.toNat dest probe.encode e
      rw [heq]
      exact ⟨rfl, rfl, rfl, rfl, rfl, rfl, rfl, rfl, fun _ h => h,
        List.prefix_append e.sent ds⟩
  | sendKeepalive linkId =>
      cases hexec
      obtain ⟨ds, heq⟩ := transmit_eq r linkId .server
        (Endpoint.keepaliveBytes linkId r.micros) e
      rw [heq]
      exact ⟨rfl, rfl, rfl, rfl, rfl, rfl, rfl, rfl, fun _ h => h,
        List.prefix_append e.sent ds⟩
  | readStats =>
      cases hexec
      have hnone := chunks_none (linkUpdates_chunks e)
      exact ⟨rfl, rfl, rfl, rfl, rfl, hnone.1, hnone.2, rfl, fun _ h => h,
        List.prefix_rfl⟩
  | buildProbes =>
      obtain ⟨⟨probes, rc⟩, -, hexec⟩ := Option.bind_eq_some_iff.mp hexec
      cases hexec
      have hnone := chunks_map (f := Action.sendProbe) (fun _ => rfl) probes
      exact ⟨rfl, rfl, rfl, rfl, rfl, hnone.1, hnone.2, rfl, fun _ h => h,
        List.prefix_rfl⟩
  | rateTx _ _ | rateRx _ _ | processProbe _ =>
      obtain ⟨rc, -, hexec⟩ := Option.bind_eq_some_iff.mp hexec
      cases hexec
      exact ⟨rfl, rfl, rfl, rfl, rfl, rfl, rfl, rfl, fun _ h => h,
        List.prefix_rfl⟩
  | enqueue _ | forward _ =>
      unfold Endpoint.exec at hexec
      dsimp only at hexec
      split at hexec <;> cases hexec
      exact ⟨rfl, rfl, rfl, rfl, rfl, rfl, rfl, rfl, fun _ h => h,
        List.prefix_rfl⟩
  | _ =>
      cases hexec
      exact ⟨rfl, rfl, rfl, rfl, rfl, rfl, rfl, rfl, fun _ h => h,
        List.prefix_rfl⟩

-- ================================================================= hands

/-- No action of a new round has a chunk or a datagram in hand. -/
theorem actions_empty (statsFromSlice : List UInt8 → Option StatsPacket)
    (role : Role) (e : Endpoint) (round : Round) :
    ∀ a ∈ round.actions statsFromSlice role e,
      a.cargo = [] ∧ a.addressed = [] := by
  cases round with
  | receive linkId bytes src =>
      have hhandle : ∀ packet, ∀ a ∈ Round.handle linkId bytes.length src
          packet, a.cargo = [] ∧ a.addressed = [] := by
        intro packet
        cases packet with
        | none => exact fun a ha => nomatch ha
        | some packet =>
            cases packet <;> simp [Round.handle, Action.cargo, Action.chunks,
              Action.addressed]
      cases role with
      | client => exact hhandle _
      | server =>
          intro a ha
          rcases List.mem_cons.mp ha with rfl | ha
          · exact ⟨rfl, rfl⟩
          · exact hhandle _ a ha
  | updateStats =>
      by_cases henabled : e.rateController.config.enabled <;>
        simp [Round.actions, Action.cargo, Action.chunks, Action.addressed,
          henabled]
  | _ =>
      simp [Round.actions, Action.cargo, Action.chunks, Action.addressed]

theorem actions_chunks (statsFromSlice : List UInt8 → Option StatsPacket)
    (role : Role) (e : Endpoint) (round : Round) :
    ∀ a ∈ round.actions statsFromSlice role e, a.chunks = [] :=
  fun a ha => Action.chunks_of_cargo
    (actions_empty statsFromSlice role e round a ha).1

/-- A chunk in the hand of what an action leaves to do is one that it
leaves in its task's hand, or one that it hands to a link. -/
theorem next_cargo {role : Role} {r : Reading} {a : Action}
    {e e' : Endpoint} {next : List Action}
    (hexec : Endpoint.exec role r a e = some (next, e')) :
    ∀ b ∈ next, ∀ c ∈ b.cargo, c ∈ a.leaves r e ∨ c ∈ a.hands := by
  intro b hb c hc
  have hchunks : c ∈ b.chunks → c ∈ a.leaves r e := by
    intro hc
    rw [← (exec_effects hexec).leaves]
    exact List.mem_flatMap.mpr ⟨b, hb, hc⟩
  cases exec_leads hexec b hb with
  | sendChunk linkId dest chunk => exact Or.inr hc
  | _ => exact Or.inl (hchunks hc)

/-- All clocks at a number of milliseconds, and sockets that send. -/
def Reading.atMillis (ms : Nat) : Reading where
  micros := UInt64.ofNat (ms * 1000)
  instant := fun _ => ms * 1000000
  linkMicros := fun _ => UInt64.ofNat (ms * 1000)
  sendOk := true

/-- A program at its start. -/
def Program.start (config : Config) (linkBandwidths : List UInt64)
    (now : Nat → Nat) : Program :=
  Pool.idle (Endpoint.start config linkBandwidths now)

/-- The client at its start, with the default configuration. -/
def freshClient : Program :=
  Program.start Config.default expectedBandwidthUp fun _ => 0

/-- Every task has its own actions to perform, and only the first of
them may have a chunk in hand. -/
structure Program.Orderly (p : Program) : Prop where
  owned : Pool.Owned Task.owns p
  front : ∀ t, (p.pending t).tail.flatMap Action.cargo = []

theorem orderly_idle (e : Endpoint) : Program.Orderly (Pool.idle e) where
  owned := Pool.owned_idle e
  front := fun _ => rfl

namespace Program.Orderly

variable {p : Program}

/-- Nothing behind the action that a task is about to perform has a chunk
in hand. -/
theorem behind_of_pending (h : p.Orderly) {t : Task} {a : Action}
    {rest : List Action} (hpending : p.pending t = a :: rest) :
    ∀ b ∈ rest, b.cargo = [] := by
  have hrest := h.front t
  rw [hpending, List.tail_cons] at hrest
  exact List.flatMap_eq_nil_iff.mp hrest

/-- What a task has in hand when it is about to perform an action. -/
theorem hold_eq (h : p.Orderly) {t : Task} {a : Action} {rest : List Action}
    (hpending : p.pending t = a :: rest) :
    rest.flatMap Action.chunks = []
      ∧ p.hold Action.chunks t = a.chunks := by
  have hrest : rest.flatMap Action.chunks = [] :=
    List.flatMap_eq_nil_iff.mpr fun b hb =>
      Action.chunks_of_cargo (h.behind_of_pending hpending b hb)
  refine ⟨hrest, ?_⟩
  rw [Pool.hold_of_pending hpending, List.flatMap_cons, hrest,
    List.append_nil]

/-- The start of a round puts no chunk into a task's hand. -/
theorem hold_begin {statsFromSlice : List UInt8 → Option StatsPacket}
    {role : Role} {round : Round} (hidle : p.pending round.task = [])
    (t : Task) :
    Pool.hold Action.chunks t { p with
      pending := Function.update p.pending round.task
        (round.actions statsFromSlice role p.shared) }
      = p.hold Action.chunks t := by
  by_cases ht : t = round.task
  · subst ht
    rw [Pool.hold_update_self, Pool.hold_of_pending hidle,
      List.flatMap_eq_nil_iff.mpr
        (actions_chunks statsFromSlice role p.shared round)]
    rfl
  · rw [Pool.hold_update_of_ne ht]
    rfl

/-- An action gives up what its task has in hand for what it leaves. -/
theorem hold_perform (h : p.Orderly) {role : Role} {r : Reading} {t : Task}
    {a : Action} {rest next : List Action} {e : Endpoint}
    (hpending : p.pending t = a :: rest)
    (hexec : Endpoint.exec role r a p.shared = some (next, e)) :
    Pool.hold Action.chunks t
        { shared := e, pending := Function.update p.pending t (next ++ rest) }
      = a.leaves r p.shared := by
  rw [Pool.hold_update_self, List.flatMap_append, (h.hold_eq hpending).1,
    List.append_nil]
  exact (exec_effects hexec).leaves

/-- A step keeps a program orderly. -/
theorem step (h : p.Orderly)
    {statsFromSlice : List UInt8 → Option StatsPacket} {role : Role}
    {step : ProgramStep} {p' : Program}
    (hstep : Program.step statsFromSlice role step p = some p') :
    p'.Orderly := by
  cases step with
  | begin round =>
      unfold Program.step at hstep
      dsimp only at hstep
      split at hstep
      case isFalse => cases hstep
      case isTrue =>
        refine ⟨Pool.Owned.begin h.owned
          (actions_owned statsFromSlice role p.shared round) hstep, ?_⟩
        obtain ⟨-, rfl⟩ := Pool.begin_inv hstep
        intro t
        by_cases ht : t = round.task
        · subst ht
          show (Function.update p.pending round.task _ _).tail.flatMap _ = _
          rw [Function.update_self]
          exact (chunks_none fun a ha =>
            (actions_empty statsFromSlice role p.shared round a ha).1).2
        · show (Function.update p.pending round.task _ t).tail.flatMap _ = _
          rw [Function.update_of_ne ht]
          exact h.front t
  | perform t r =>
      refine ⟨Pool.Owned.perform h.owned
        (fun _ _ _ _ howns hexec b hb => (exec_leads hexec b hb).owned howns)
        hstep, ?_⟩
      obtain ⟨a, rest, next, e, hpending, hexec, rfl⟩ :=
        Pool.perform_inv hstep
      have hrest := h.behind_of_pending hpending
      intro t'
      by_cases ht : t' = t
      · subst ht
        show (Function.update p.pending t' _ _).tail.flatMap _ = _
        rw [Function.update_self]
        have hnext := (exec_effects hexec).behind
        cases next with
        | nil => exact (chunks_none hrest).2
        | cons b next =>
            rw [List.tail_cons] at hnext
            rw [List.cons_append, List.tail_cons, List.flatMap_append, hnext,
              List.flatMap_eq_nil_iff.mpr hrest]
            rfl
      · show (Function.update p.pending t _ t').tail.flatMap _ = _
        rw [Function.update_of_ne ht]
        exact h.front t'

end Program.Orderly

-- ================================================================= events

/-- What is seen of a run of a program: a round starts, or an action is
performed, on a reading and in a state. -/
inductive ProgramEvent where
  | began (round : Round)
  | performed (reading : Reading) (action : Action) (state : Endpoint)

/-- What is seen of a step. -/
def ProgramStep.events : ProgramStep → Program → List ProgramEvent
  | .begin round, _ => [.began round]
  | .perform task reading, p =>
      match p.pending task with
      | [] => []
      | action :: _ => [.performed reading action p.shared]

/-- What is seen of a run, oldest first. -/
def Program.events (statsFromSlice : List UInt8 → Option StatsPacket)
    (role : Role) : List ProgramStep → Program → List ProgramEvent :=
  Trace.record (Program.step statsFromSlice role) ProgramStep.events

/-- A step performs only actions that meet a condition, on the reading
and in the state they are performed. -/
def ProgramStep.Performs (ok : Reading → Action → Endpoint → Prop) :
    ProgramStep → Program → Prop
  | .begin _, _ => True
  | .perform t r, p => ∀ a ∈ (p.pending t).head?, ok r a p.shared

instance ProgramStep.Performs.decidable
    {ok : Reading → Action → Endpoint → Prop}
    [∀ r a e, Decidable (ok r a e)] :
    (step : ProgramStep) → (p : Program) → Decidable (step.Performs ok p)
  | .begin _, _ => isTrue trivial
  | .perform t r, p => inferInstanceAs (Decidable
      (∀ a ∈ (p.pending t).head?, ok r a p.shared))

/-- The condition, at the action that is performed. -/
theorem ProgramStep.Performs.head {ok : Reading → Action → Endpoint → Prop}
    {t : Task} {r : Reading} {p : Program} {a : Action} {rest : List Action}
    (h : (ProgramStep.perform t r).Performs ok p)
    (hpending : p.pending t = a :: rest) : ok r a p.shared :=
  h a (by rw [hpending, List.head?_cons]; rfl)

/-- What the start of a round and every conditioned action preserve as
they are seen, a conditioned run of an orderly program preserves. -/
theorem Program.run_events
    {statsFromSlice : List UInt8 → Option StatsPacket} {role : Role}
    {ok : ProgramStep → Program → Prop}
    {P : List ProgramEvent → Program → Prop}
    (hbegin : ∀ seen round p, P seen p →
      round.enabled role p.shared = true → p.pending round.task = [] →
      P (seen ++ [.began round])
        { p with
          pending := Function.update p.pending round.task
            (round.actions statsFromSlice role p.shared) })
    (hperform : ∀ seen t r a rest next e (p : Program), P seen p →
      ok (.perform t r) p → p.Orderly → p.pending t = a :: rest →
      Endpoint.exec role r a p.shared = some (next, e) →
      P (seen ++ [.performed r a p.shared])
        { shared := e
          pending := Function.update p.pending t (next ++ rest) })
    {steps : List ProgramStep} {p p' : Program}
    (halong : Trace.Along (Program.step statsFromSlice role) ok steps p)
    (hrun : Trace.run (Program.step statsFromSlice role) steps p = some p')
    (horderly : p.Orderly) (hP : P [] p) :
    P (Program.events statsFromSlice role steps p) p' := by
  have hall := Trace.run_record ProgramStep.events
    (P := fun seen p => Program.Orderly p ∧ P seen p) ?_ halong hrun
    ⟨horderly, hP⟩
  · exact hall.2
  intro seen step p p' ⟨horderly, hP⟩ hok hstep
  refine ⟨horderly.step hstep, ?_⟩
  cases step with
  | begin round =>
      unfold Program.step at hstep
      dsimp only at hstep
      split at hstep
      case isFalse => cases hstep
      case isTrue henabled =>
        obtain ⟨hidle, rfl⟩ := Pool.begin_inv hstep
        exact hbegin seen round p hP henabled hidle
  | perform t r =>
      obtain ⟨a, rest, next, e, hpending, hexec, rfl⟩ :=
        Pool.perform_inv hstep
      have hseen : ProgramStep.events (.perform t r) p
          = [.performed r a p.shared] := by
        unfold ProgramStep.events
        dsimp only
        rw [hpending]
      rw [hseen]
      exact hperform seen t r a rest next e p hP hok horderly hpending hexec

-- ================================================================== queue

/-- The chunks that enter the queue with an event. -/
def ProgramEvent.entered : ProgramEvent → List Chunk
  | .began _ => []
  | .performed _ a _ => a.enters

/-- The chunks that are handed to a link with an event. -/
def ProgramEvent.handed : ProgramEvent → List Chunk
  | .began _ => []
  | .performed _ a _ => a.hands

/-- The chunk sender takes from the front of the queue, and hands on what
it has taken. -/
private theorem sender_moves (r : Reading) (e : Endpoint) {a : Action}
    (howns : Task.chunkSender.owns a) :
    a.enters = [] ∧ a.hands ++ a.leaves r e ++ a.queue e.toLinks
      = a.chunks ++ e.toLinks := by
  cases a with
  | takeChunk =>
      refine ⟨rfl, ?_⟩
      show e.toLinks.take 1 ++ e.toLinks.tail = e.toLinks
      rw [← List.drop_one, List.take_append_drop]
  | schedule _ | sendChunk _ _ | transmitChunk _ _ _ | recordTx _ _
  | recordChunkTx _ | rateTx _ _ =>
      exact ⟨rfl, rfl⟩
  | enqueue _ => rcases howns with h | h <;> cases h
  | learnAddr _ _ | recordRx _ _ | recordChunkRx _ | rateRx _ _ | forward _
  | sendAck _ _ _ | handleAnnouncement _ | handleAck _ _ | processProbe _ =>
      obtain ⟨linkId, h⟩ := howns
      cases h
  | _ => cases howns

/-- The other tasks hand nothing to a link, and what they queue goes to
the back. -/
private theorem others_queue {t : Task} {a : Action}
    (ht : t ≠ .chunkSender) (howns : t.owns a) (chunks : List Chunk) :
    a.hands = [] ∧ a.queue chunks = chunks ++ a.enters := by
  cases a with
  | takeChunk => exact absurd howns ht
  | sendChunk _ _ => exact absurd howns ht
  | enqueue chunk => exact ⟨rfl, rfl⟩
  | _ => exact ⟨rfl, (List.append_nil chunks).symm⟩

/-- The queue is first in, first out: what the chunk sender had in hand,
what was queued and what enters the queue is what is handed to a link,
what the sender has in hand and what is queued, in this order. -/
theorem queue_fifo {statsFromSlice : List UInt8 → Option StatsPacket}
    {role : Role} {steps : List ProgramStep} {p p' : Program}
    (hrun : Trace.run (Program.step statsFromSlice role) steps p = some p')
    (horderly : p.Orderly) :
    p.hold Action.chunks .chunkSender ++ p.shared.toLinks
        ++ (Program.events statsFromSlice role steps p).flatMap
          ProgramEvent.entered
      = (Program.events statsFromSlice role steps p).flatMap
          ProgramEvent.handed
        ++ p'.hold Action.chunks .chunkSender ++ p'.shared.toLinks := by
  have halong : Trace.Along (Program.step statsFromSlice role)
      (fun _ _ => True) steps p :=
    Trace.Along.of_forall (fun _ _ _ => trivial) p
  refine Program.run_events (P := fun seen q =>
    p.hold Action.chunks .chunkSender ++ p.shared.toLinks
        ++ seen.flatMap ProgramEvent.entered
      = seen.flatMap ProgramEvent.handed
        ++ q.hold Action.chunks .chunkSender ++ q.shared.toLinks)
    ?_ ?_ halong hrun horderly (List.append_nil _)
  · intro seen round q hq _ hidle
    rw [List.flatMap_append, List.flatMap_append,
      Program.Orderly.hold_begin hidle]
    simpa [ProgramEvent.entered, ProgramEvent.handed] using hq
  · intro seen t r a rest next e q hq _ horderly hpending hexec
    have heffects := exec_effects hexec
    have howns : t.owns a :=
      horderly.owned t a (hpending ▸ List.mem_cons_self)
    rw [List.flatMap_append, List.flatMap_append, ← List.append_assoc, hq]
    show _ ++ (a.enters ++ []) = _ ++ (a.hands ++ []) ++ _ ++ e.toLinks
    rw [List.append_nil, List.append_nil, heffects.toLinks]
    by_cases ht : t = .chunkSender
    · subst ht
      obtain ⟨hnone, hmoves⟩ := sender_moves r q.shared howns
      rw [horderly.hold_perform hpending hexec, hnone, List.append_nil,
        (horderly.hold_eq hpending).2, List.append_assoc, ← hmoves]
      simp only [List.append_assoc]
    · obtain ⟨hnone, hback⟩ := others_queue ht howns q.shared.toLinks
      rw [hnone, hback, Pool.hold_update_of_ne (Ne.symm ht),
        List.append_nil, ← List.append_assoc]
      rfl

end ChainLightning
