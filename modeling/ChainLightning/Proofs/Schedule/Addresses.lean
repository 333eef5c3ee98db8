/-
The chunks that the server sends, and the addresses it has learned.

The scheduler chooses among the links with weight and knows no address;
the chunk sender skips a chunk whose link has none. A chunk is safe from
this when it is scheduled while every link with weight has a learned
address (`Endpoint.Covered`). An address is learned for good, so the
chunk finds one when its destination is looked up, whatever the other
tasks do in between; it goes there even if another address is learned
before it reaches the socket.

`Scheduled` carries over a run what holds of the link of a chunk from
when it is scheduled until it is sent. `Addressed` adds that the log of
datagrams has one for each chunk that was handed to a link.
-/
import ChainLightning.Proofs.Schedule.Fairness
import ChainLightning.Proofs.Endpoint.Tasks

namespace ChainLightning

-- ============================================================ definitions

/-- The client's address is known on a link. -/
def Endpoint.learnedOn (linkId : Nat) (e : Endpoint) : Bool :=
  e.addrs[linkId]?.join.isSome

/-- Some link has weight, and every link that has is one whose client's
address is known. -/
def Endpoint.Covered (e : Endpoint) : Prop :=
  (∃ l ∈ e.scheduler.links, 0 < l.weight)
    ∧ ∀ l ∈ e.scheduler.links, 0 < l.weight → e.learnedOn l.id = true

/-- Some link has weight and a known address. -/
def Endpoint.Usable (e : Endpoint) : Prop :=
  ∃ l ∈ e.scheduler.links, 0 < l.weight ∧ e.learnedOn l.id = true

/-- Chunks are scheduled in states that meet a condition, and sockets
send. -/
def SendsWhile (ok : Endpoint → Prop) (r : Reading) (a : Action)
    (e : Endpoint) : Prop :=
  match a with
  | .schedule _ => ok e
  | .transmitChunk _ _ _ => r.sendOk = true
  | _ => True

instance (e : Endpoint) : Decidable e.Covered :=
  inferInstanceAs (Decidable ((∃ l ∈ e.scheduler.links, 0 < l.weight)
    ∧ ∀ l ∈ e.scheduler.links, 0 < l.weight → e.learnedOn l.id = true))

instance (e : Endpoint) : Decidable e.Usable :=
  inferInstanceAs (Decidable (∃ l ∈ e.scheduler.links,
    0 < l.weight ∧ e.learnedOn l.id = true))

instance {ok : Endpoint → Prop} [∀ e, Decidable (ok e)] (r : Reading)
    (a : Action) (e : Endpoint) : Decidable (SendsWhile ok r a e) := by
  cases a <;> unfold SendsWhile <;> infer_instance

/-- A chunk on the link it is handed to, and the addresses known at that
moment. -/
structure Handing where
  linkId : Nat
  chunk : Chunk
  addrs : List (Option SocketAddr)

/-- The chunks that are handed to a link with an event. -/
def ProgramEvent.handings : ProgramEvent → List Handing
  | .performed _ (.sendChunk linkId chunk) e =>
      [{ linkId, chunk, addrs := e.addrs }]
  | _ => []

theorem handings_chunks (seen : List ProgramEvent) :
    (seen.flatMap ProgramEvent.handings).map Handing.chunk
      = seen.flatMap ProgramEvent.handed := by
  rw [List.map_flatMap]
  refine List.flatMap_congr fun event _ => ?_
  cases event with
  | began round => rfl
  | performed r a e => cases a <;> rfl

/-- A datagram carries a chunk to the address that is known on its
link. -/
def Carries (h : Handing) (d : Datagram) : Prop :=
  ∃ addr, h.addrs[h.linkId]? = some (some addr)
    ∧ d = ⟨h.linkId, .client addr, Endpoint.chunkBytes h.linkId h.chunk⟩

-- ================================================================ actions

/-- In a covered state the scheduler chooses a link with a known
address. -/
theorem schedule_learned {e : Endpoint} (hsettled : Settled e.scheduler)
    (hcovered : e.Covered) (chunkSize : UInt64) :
    (e.scheduler.schedule chunkSize false).1.linkId
        < e.scheduler.links.length
      ∧ e.learnedOn (e.scheduler.schedule chunkSize false).1.linkId
        = true := by
  obtain ⟨hweighted, hlearned⟩ := hcovered
  obtain ⟨l, hl, hid, hpos⟩ := weightedSelect_weight hweighted
  rw [(schedule_effects e.scheduler chunkSize false).1, ← hid]
  have hmem : l.id ∈ e.scheduler.links.map LinkState.id :=
    List.mem_map_of_mem hl
  rw [hsettled.ids, List.mem_range] at hmem
  exact ⟨hmem, hlearned l hl hpos⟩

/-- A chunk on a link with a known address is to go there. -/
theorem destination_learned {e : Endpoint} {linkId : Nat}
    (hlink : linkId < e.numLinks) (hlearned : e.learnedOn linkId = true)
    (chunk : Chunk) :
    ∃ dest, e.destination .server linkId = some dest
      ∧ Carries { linkId, chunk, addrs := e.addrs }
        ⟨linkId, dest, Endpoint.chunkBytes linkId chunk⟩ := by
  obtain ⟨addr, haddr⟩ := Option.isSome_iff_exists.mp hlearned
  refine ⟨.client addr, ?_, addr, Option.join_eq_some_iff.mp haddr, rfl⟩
  unfold Endpoint.destination
  dsimp only
  rw [if_pos hlink, haddr]
  rfl

/-- Where the socket sends, its datagram is in the log. -/
theorem transmitChunk_sent {r : Reading} (hsend : r.sendOk = true)
    (linkId : Nat) (dest : Dest) (chunk : Chunk) (e : Endpoint) :
    (e.transmitChunk r linkId dest chunk).2.sent
      = e.sent ++ Action.addressed (.transmitChunk linkId dest chunk) := by
  unfold Endpoint.transmitChunk Endpoint.transmit
  dsimp only
  rw [if_pos hsend]
  rfl

-- ============================================================== scheduled

/-- The links are numbered by position, and the link of a chunk that the
sender has scheduled meets a condition. -/
structure Scheduled (good : Nat → Endpoint → Prop) (p : Program) :
    Prop where
  settled : Settled p.shared.scheduler
  links : p.shared.scheduler.links.length = p.shared.numLinks
  scheduled : ∀ linkId chunk,
    .sendChunk linkId chunk ∈ p.pending .chunkSender →
    good linkId p.shared

namespace Scheduled

variable {good : Nat → Endpoint → Prop} {p : Program}

/-- A round has scheduled nothing yet. -/
theorem begin (h : Scheduled good p)
    (statsFromSlice : List UInt8 → Option StatsPacket) (role : Role)
    (round : Round) :
    Scheduled good { p with
      pending := Function.update p.pending round.task
        (round.actions statsFromSlice role p.shared) } where
  settled := h.settled
  links := h.links
  scheduled := by
    intro linkId chunk hmem
    by_cases ht : Task.chunkSender = round.task
    · dsimp only at hmem
      rw [ht, Function.update_self] at hmem
      have hchunks := actions_chunks statsFromSlice role p.shared round _ hmem
      cases hchunks
    · dsimp only at hmem
      rw [Function.update_of_ne ht] at hmem
      exact h.scheduled linkId chunk hmem

/-- An action keeps a condition that links keep meeting, and that the
link of a chunk meets when it is scheduled. -/
theorem perform (h : Scheduled good p) {role : Role} {r : Reading}
    {t : Task} {a : Action} {rest next : List Action} {e : Endpoint}
    (hpending : p.pending t = a :: rest)
    (hexec : Endpoint.exec role r a p.shared = some (next, e))
    (hkept : ∀ linkId, good linkId p.shared → good linkId e)
    (hgood : ∀ chunk, a = .schedule chunk → good (p.shared.scheduler.schedule
      (UInt64.ofNat chunk.size) false).1.linkId p.shared) :
    Scheduled good
      { shared := e
        pending := Function.update p.pending t (next ++ rest) } where
  settled := by
    show Settled e.scheduler
    rw [(exec_effects hexec).scheduler]
    cases a.schedulerOp r with
    | none => exact h.settled
    | some op => exact h.settled.apply op
  links := by
    show e.scheduler.links.length = e.numLinks
    rw [(exec_effects hexec).numLinks, (exec_effects hexec).scheduler,
      ← h.links]
    cases a.schedulerOp r with
    | none => rfl
    | some op => exact length_eq_of_ids (apply_ids op p.shared.scheduler)
  scheduled := by
    intro linkId chunk hmem
    dsimp only at hmem
    by_cases ht : t = .chunkSender
    · subst ht
      rw [Function.update_self] at hmem
      rcases List.mem_append.mp hmem with hnext | hrest
      · cases exec_leads hexec _ hnext
        exact hkept _ (hgood chunk rfl)
      · refine hkept _ (h.scheduled linkId chunk ?_)
        rw [hpending]
        exact List.mem_cons_of_mem a hrest
    · rw [Function.update_of_ne (Ne.symm ht)] at hmem
      exact hkept _ (h.scheduled linkId chunk hmem)

end Scheduled

-- ============================================================== invariant

/-- A link of the server, with a known address. -/
def Reachable (linkId : Nat) (e : Endpoint) : Prop :=
  linkId < e.numLinks ∧ e.learnedOn linkId = true

/-- What the sender has scheduled has a link with a known address, and
every chunk handed to a link went out as a datagram to the address that
was known there, or is in the sender's hand as one. -/
structure Addressed (sent : List Datagram) (seen : List ProgramEvent)
    (p : Program) : Prop where
  scheduled : Scheduled Reachable p
  sent : ∃ ds, List.Forall₂ Carries
      (seen.flatMap ProgramEvent.handings) ds
    ∧ (sent ++ ds).Sublist
      (p.shared.sent ++ p.hold Action.addressed .chunkSender)

namespace Addressed

variable {sent : List Datagram} {seen : List ProgramEvent} {p : Program}

/-- A round hands nothing to a link, and has no datagram in hand. -/
theorem begin (h : Addressed sent seen p)
    (statsFromSlice : List UInt8 → Option StatsPacket) (role : Role)
    {round : Round} (hidle : p.pending round.task = []) :
    Addressed sent (seen ++ [.began round]) { p with
      pending := Function.update p.pending round.task
        (round.actions statsFromSlice role p.shared) } where
  scheduled := h.scheduled.begin statsFromSlice role round
  sent := by
    obtain ⟨ds, hds, hsent⟩ := h.sent
    refine ⟨ds, ?_, ?_⟩
    · rw [List.flatMap_append]
      exact (List.append_nil _).symm ▸ hds
    · by_cases ht : Task.chunkSender = round.task
      · rw [ht, Pool.hold_of_pending hidle, List.flatMap_nil,
          List.append_nil] at hsent
        exact hsent.trans (List.sublist_append_left _ _)
      · rw [Pool.hold_update_of_ne ht]
        exact hsent

/-- Only the first action of the chunk sender has a datagram in hand. -/
private theorem addressed_behind (horderly : p.Orderly) {a : Action}
    {rest : List Action} (hpending : p.pending .chunkSender = a :: rest) :
    rest.flatMap Action.addressed = [] := by
  refine List.flatMap_eq_nil_iff.mpr fun b hb => ?_
  have hcargo := horderly.behind_of_pending hpending b hb
  have howns := horderly.owned .chunkSender b
    (hpending ▸ List.mem_cons_of_mem a hb)
  cases b with
  | transmitChunk linkId dest chunk => cases hcargo
  | transmitProbe dest probe => cases howns
  | _ => rfl

/-- A chunk that is handed to a link is in the sender's hand as a
datagram, which is in the log once the socket was handed it. -/
private theorem sent_sender (h : Addressed sent seen p)
    {r : Reading} {a : Action} {rest next : List Action} {e : Endpoint}
    (horderly : p.Orderly) (hok : SendsWhile Endpoint.Covered r a p.shared)
    (hpending : p.pending .chunkSender = a :: rest)
    (hexec : Endpoint.exec .server r a p.shared = some (next, e)) :
    ∃ ds, List.Forall₂ Carries
        ((seen ++ [ProgramEvent.performed r a p.shared]).flatMap
          ProgramEvent.handings) ds
      ∧ (sent ++ ds).Sublist
        (e.sent ++ (next ++ rest).flatMap Action.addressed) := by
  obtain ⟨ds, hds, hsent⟩ := h.sent
  rw [Pool.hold_of_pending hpending, List.flatMap_cons,
    addressed_behind horderly hpending, List.append_nil] at hsent
  rw [List.flatMap_append, List.flatMap_singleton]
  have hquiet : ProgramEvent.handings (.performed r a p.shared) = [] →
      a.addressed = [] →
      ∃ ds, List.Forall₂ Carries (seen.flatMap ProgramEvent.handings
          ++ ProgramEvent.handings (.performed r a p.shared)) ds
        ∧ (sent ++ ds).Sublist
          (e.sent ++ (next ++ rest).flatMap Action.addressed) := by
    intro hnone hhand
    refine ⟨ds, ?_, ?_⟩
    · rw [hnone, List.append_nil]
      exact hds
    · rw [hhand, List.append_nil] at hsent
      exact (hsent.trans (exec_effects hexec).sent.sublist).trans
        (List.sublist_append_left _ _)
  cases a with
  | sendChunk linkId chunk =>
      obtain ⟨hlink, hlearned⟩ := h.scheduled.scheduled linkId chunk
        (hpending ▸ List.mem_cons_self)
      obtain ⟨dest, hdest, hd⟩ := destination_learned hlink hlearned chunk
      unfold Endpoint.exec at hexec
      dsimp only at hexec
      rw [hdest] at hexec
      cases hexec
      refine ⟨ds ++ [_], List.rel_append hds (.cons hd .nil), ?_⟩
      rw [← List.append_assoc]
      refine List.Sublist.append ?_ (List.sublist_append_left _ _)
      exact List.append_nil p.shared.sent ▸ hsent
  | transmitChunk linkId dest chunk =>
      refine ⟨ds, (List.append_nil _).symm ▸ hds, ?_⟩
      have hlog := transmitChunk_sent hok linkId dest chunk p.shared
      injection hexec with hexec
      rw [hexec] at hlog
      rw [hlog]
      exact hsent.trans (List.sublist_append_left _ _)
  | transmitProbe dest probe =>
      cases horderly.owned .chunkSender _ (hpending ▸ List.mem_cons_self)
  | _ => exact hquiet rfl rfl

/-- The other tasks hand nothing to a link. -/
private theorem sent_others (h : Addressed sent seen p)
    {r : Reading} {t : Task} {a : Action} {rest next : List Action}
    {e : Endpoint} (horderly : p.Orderly) (ht : t ≠ .chunkSender)
    (hpending : p.pending t = a :: rest)
    (hexec : Endpoint.exec .server r a p.shared = some (next, e)) :
    ∃ ds, List.Forall₂ Carries
        ((seen ++ [ProgramEvent.performed r a p.shared]).flatMap
          ProgramEvent.handings) ds
      ∧ (sent ++ ds).Sublist
        (e.sent ++ p.hold Action.addressed .chunkSender) := by
  obtain ⟨ds, hds, hsent⟩ := h.sent
  have howns : t.owns a :=
    horderly.owned t a (hpending ▸ List.mem_cons_self)
  have hnone : ProgramEvent.handings (.performed r a p.shared) = [] := by
    cases a with
    | sendChunk linkId chunk => exact absurd howns ht
    | _ => rfl
  refine ⟨ds, ?_, hsent.trans
    ((exec_effects hexec).sent.sublist.append_right _)⟩
  rw [List.flatMap_append, List.flatMap_singleton, hnone, List.append_nil]
  exact hds

theorem perform (h : Addressed sent seen p)
    {r : Reading} {t : Task} {a : Action} {rest next : List Action}
    {e : Endpoint} (horderly : p.Orderly)
    (hok : SendsWhile Endpoint.Covered r a p.shared)
    (hpending : p.pending t = a :: rest)
    (hexec : Endpoint.exec .server r a p.shared = some (next, e)) :
    Addressed sent (seen ++ [.performed r a p.shared])
      { shared := e
        pending := Function.update p.pending t (next ++ rest) } where
  scheduled := by
    refine h.scheduled.perform hpending hexec ?_ ?_
    · rintro linkId ⟨hlink, hlearned⟩
      exact ⟨(exec_effects hexec).numLinks ▸ hlink,
        (exec_effects hexec).learned linkId hlearned⟩
    · rintro chunk rfl
      obtain ⟨hlink, hlearned⟩ := schedule_learned h.scheduled.settled hok
        (UInt64.ofNat chunk.size)
      exact ⟨h.scheduled.links ▸ hlink, hlearned⟩
  sent := by
    by_cases ht : t = .chunkSender
    · subst ht
      rw [Pool.hold_update_self]
      exact h.sent_sender horderly hok hpending hexec
    · rw [Pool.hold_update_of_ne (Ne.symm ht)]
      exact h.sent_others horderly ht hpending hexec

end Addressed

-- ================================================================= result

/-- In a covered state the server drops no chunk. In a run of its tasks
from any scheduler that calls can lead to and any table of addresses,
where chunks are scheduled in covered states only and sockets send,
every chunk that leaves the queue is handed to a link (or is in the
sender's hand), and goes out as a datagram to the address that is known
there (or is in the sender's hand as that datagram). -/
theorem covered_chunks_sent
    (statsFromSlice : List UInt8 → Option StatsPacket)
    (config : LinkSchedulerConfig) (configuredBandwidths : List UInt64)
    (now : Nat) (ops : List SchedulerOp) {p p' : Program}
    (hscheduler : p.shared.scheduler
      = (LinkScheduler.new config configuredBandwidths now).after ops)
    (hlinks : configuredBandwidths.length = p.shared.numLinks)
    (horderly : p.Orderly) (hidle : p.pending .chunkSender = [])
    {steps : List ProgramStep}
    (hcovered : Trace.Along (Program.step statsFromSlice .server)
      (ProgramStep.Performs (SendsWhile Endpoint.Covered)) steps p)
    (hrun : Trace.run (Program.step statsFromSlice .server) steps p
      = some p') :
    p.shared.toLinks
        ++ (Program.events statsFromSlice .server steps p).flatMap
          ProgramEvent.entered
      = ((Program.events statsFromSlice .server steps p).flatMap
          ProgramEvent.handings).map Handing.chunk
        ++ p'.hold Action.chunks .chunkSender ++ p'.shared.toLinks
    ∧ ∃ ds, List.Forall₂ Carries
        ((Program.events statsFromSlice .server steps p).flatMap
          ProgramEvent.handings) ds
      ∧ (p.shared.sent ++ ds).Sublist (p'.shared.sent
        ++ p'.hold Action.addressed .chunkSender) := by
  have hlength : p.shared.scheduler.links.length = p.shared.numLinks := by
    rw [hscheduler, after_length, ← hlinks]
    exact List.length_mapIdx
  have hstart : Addressed p.shared.sent [] p := by
    refine ⟨⟨hscheduler ▸ settled_after config configuredBandwidths now ops,
      hlength, ?_⟩, [], .nil, ?_⟩
    · intro linkId chunk hmem
      rw [hidle] at hmem
      cases hmem
    · rw [Pool.hold_of_pending hidle, List.append_nil]
      exact List.sublist_append_left _ _
  refine ⟨?_, ?_⟩
  · have hfifo := queue_fifo hrun horderly
    rw [Pool.hold_of_pending hidle] at hfifo
    rw [handings_chunks]
    exact hfifo
  · exact (Program.run_events (P := Addressed p.shared.sent)
      (fun _ _ _ h _ hidle => h.begin statsFromSlice .server hidle)
      (fun _ _ _ _ _ _ _ _ h hok horderly hpending hexec =>
        h.perform horderly (hok.head hpending) hpending hexec)
      hcovered hrun horderly hstart).sent

/-- The scheduler of two links, of which the first is withheld. -/
def firstWithheld : LinkScheduler :=
  (LinkScheduler.new Config.default.linkScheduler [7500000, 27500000]
    0).after [.setRateControlledWeights [0, 5]]

/-- A server with that scheduler and a chunk to send. Only the second
link's client has been heard of. -/
def secondLearned : Program :=
  Pool.idle { Endpoint.start Config.default [7500000, 27500000] fun _ => 0
    with
    scheduler := firstWithheld
    addrs := [none, some ⟨1, 40000⟩]
    toLinks := [{ Chunk.new 0 0 with data := [0, 1, 69] }] }

/-- A round of the chunk sender. -/
def sendRound : List ProgramStep :=
  .begin .sendChunk
    :: List.replicate 7 (.perform .chunkSender (.atMillis 0))

/-- The law there: the chunk goes out on the second link. -/
theorem covered_chunks_sent_second_link : ∃ p,
    Trace.run (Program.step (fun _ => none) .server) sendRound secondLearned
        = some p
      ∧ ((Program.events (fun _ => none) .server sendRound
          secondLearned).flatMap ProgramEvent.handings).map
            Handing.linkId = [1]
      ∧ ∃ ds, List.Forall₂ Carries
          ((Program.events (fun _ => none) .server sendRound
            secondLearned).flatMap ProgramEvent.handings) ds
        ∧ ([] ++ ds).Sublist p.shared.sent := by
  have hend : (Trace.run (Program.step (fun _ => none) .server) sendRound
      secondLearned).map (·.pending .chunkSender) = some [] := by
    decide +kernel
  obtain ⟨p, hrun, hidle⟩ := Option.map_eq_some_iff.mp hend
  obtain ⟨-, ds, hds, hsent⟩ := covered_chunks_sent (fun _ => none)
    Config.default.linkScheduler [7500000, 27500000] 0
    [.setRateControlledWeights [0, 5]] rfl rfl (orderly_idle _) rfl
    (by decide +kernel) hrun
  rw [Pool.hold_of_pending hidle, List.flatMap_nil, List.append_nil] at hsent
  exact ⟨p, hrun, by decide +kernel, ds, hds, hsent⟩

/-- The second link's client makes itself known, a packet is flushed as a
chunk, and the chunk is sent. -/
def startUp : List ProgramStep :=
  [.begin (.receive 1 (Endpoint.keepaliveBytes 1 0) ⟨1, 40000⟩),
   .perform (.linkReceiver 1) (.atMillis 0),
   .begin (.readTun [69] none),
   .perform .tunReader (.atMillis 0),
   .perform .tunReader (.atMillis 0),
   .begin .checkTimeout,
   .perform .timeoutChecker (.atMillis 5),
   .perform .timeoutChecker (.atMillis 5),
   .begin .sendChunk,
   .perform .chunkSender (.atMillis 5),
   .perform .chunkSender (.atMillis 5),
   .perform .chunkSender (.atMillis 5)]

/-- There the server drops the chunk. The scheduler starts with the first
link, which has no address yet, though the second link has weight and an
address. -/
theorem usable_chunk_dropped : ∃ p,
    Trace.run (Program.step (fun _ => none) .server) startUp
        (Program.start Config.default expectedBandwidthDown fun _ => 0)
        = some p
      ∧ Trace.Along (Program.step (fun _ => none) .server)
        (ProgramStep.Performs (SendsWhile Endpoint.Usable)) startUp
        (Program.start Config.default expectedBandwidthDown fun _ => 0)
      ∧ ((Program.events (fun _ => none) .server startUp
          (Program.start Config.default expectedBandwidthDown
            fun _ => 0)).flatMap ProgramEvent.handings).map
              (fun h => (h.linkId, h.chunk.size)) = [(0, 3)]
      ∧ p.pending .chunkSender = []
      ∧ p.shared.toLinks = []
      ∧ p.shared.sent = [] := by
  have hend : (Trace.run (Program.step (fun _ => none) .server) startUp
      (Program.start Config.default expectedBandwidthDown fun _ => 0)).map
        (fun p => (p.pending .chunkSender, p.shared.toLinks, p.shared.sent))
      = some ([], [], []) := by
    decide +kernel
  obtain ⟨p, hrun, hend⟩ := Option.map_eq_some_iff.mp hend
  injection hend with hpending hend
  injection hend with hqueue hsent
  exact ⟨p, hrun, by decide +kernel, by decide +kernel, hpending, hqueue,
    hsent⟩

end ChainLightning
