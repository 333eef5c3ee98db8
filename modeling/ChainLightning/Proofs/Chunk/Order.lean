/-
The order of chunks on their way to the links.

A chunk gets its id under the aggregator's lock and enters the chunk
sender's queue after the lock is released, and two tasks do this: the
TUN reader and the aggregation timeout checker. Each of them has at most
one chunk in hand, so what the aggregator has emitted is what has
entered the queue and behind it the two hands, in one order or the other
(`InTurn`). A chunk that enters in its turn is the first of these
(`sent_first`), and nothing else moves them.
-/
import ChainLightning.Proofs.Chunk.Feed
import ChainLightning.Proofs.Endpoint.Tasks

namespace ChainLightning

-- ============================================================ definitions

/-- The packets that are read from the TUN device with an event. -/
def ProgramEvent.read : ProgramEvent → List (List UInt8)
  | .began (.readTun packet _) => [packet]
  | _ => []

/-- The packet an action is about to add to the current chunk. -/
def Action.adds : Action → List (List UInt8)
  | .addPacket packet _ => [packet]
  | _ => []

/-- The tasks that put chunks into the queue. -/
def enqueuers : List Task := [.tunReader, .timeoutChecker]

/-- The chunk a task is about to put into the queue. -/
def Program.sending (t : Task) (p : Program) : List Chunk :=
  (p.pending t).head?.toList.flatMap Action.enters

/-- A chunk enters the queue only while no other task has one with a
smaller id in hand, and the ids are not used up. -/
def SendsInTurn : ProgramStep → Program → Prop
  | .begin _, _ => True
  | .perform t _, p => p.shared.aggregator.nextChunkId ≠ 0
      ∧ ∀ chunk ∈ p.sending t, ∀ t' ∈ enqueuers, t' ≠ t →
        ∀ chunk' ∈ p.hold Action.chunks t', chunk.id < chunk'.id

instance : (step : ProgramStep) → (p : Program) →
    Decidable (SendsInTurn step p)
  | .begin _, _ => isTrue trivial
  | .perform t _, p => inferInstanceAs (Decidable
      (p.shared.aggregator.nextChunkId ≠ 0
        ∧ ∀ chunk ∈ p.sending t, ∀ t' ∈ enqueuers, t' ≠ t →
          ∀ chunk' ∈ p.hold Action.chunks t', chunk.id < chunk'.id))

-- ================================================================== hands

/-- A list is two others, one behind the other, in either order. -/
def EitherOrder {α : Type*} (x y l : List α) : Prop :=
  l = x ++ y ∨ l = y ++ x

theorem EitherOrder.symm {α : Type*} {x y l : List α}
    (h : EitherOrder x y l) : EitherOrder y x l := Or.symm h

/-- The first of two hands with increasing ids is the one that holds the
smallest. -/
theorem EitherOrder.first {chunk : Chunk} {other hands : List Chunk}
    (h : EitherOrder [chunk] other hands)
    (hids : (hands.map Chunk.id).Pairwise (· < ·))
    (hturn : ∀ chunk' ∈ other, chunk.id < chunk'.id) :
    hands = chunk :: other := by
  rcases h with rfl | rfl
  · rfl
  · cases other with
    | nil => rfl
    | cons chunk' other =>
        -- the other hand came first, so it has the smaller id
        have hfirst := hturn chunk' List.mem_cons_self
        have hbehind : chunk'.id < chunk.id := by
          rw [List.cons_append, List.map_cons, List.pairwise_cons] at hids
          exact hids.1 chunk.id (by simp)
        exact absurd (UInt64.lt_trans hfirst hbehind) (UInt64.lt_irrefl _)

/-- What an action of an enqueuer does to the two hands: what the
aggregator emits goes behind them, and what enters the queue was the
first of them. -/
theorem EitherOrder.perform {r : Reading} {e : Endpoint} {t : Task}
    {a : Action} {other hands : List Chunk} (ht : t ∈ enqueuers)
    (howns : t.owns a) (h : EitherOrder a.chunks other hands)
    (hids : (hands.map Chunk.id).Pairwise (· < ·))
    (hturn : ∀ chunk ∈ a.enters, ∀ chunk' ∈ other, chunk.id < chunk'.id) :
    ∃ hands', hands ++ a.emits r e = a.enters ++ hands'
      ∧ EitherOrder (a.leaves r e) other hands' := by
  have hempty : a.chunks = [] → hands = other := by
    intro hchunks
    rw [hchunks] at h
    rcases h with rfl | rfl
    · rfl
    · exact List.append_nil other
  cases a with
  | addPacket packet flowId =>
      rw [hempty rfl]
      exact ⟨_, rfl, Or.inr rfl⟩
  | checkTimeout =>
      rw [hempty rfl]
      exact ⟨_, rfl, Or.inr rfl⟩
  | recordPacketTx bytes =>
      rw [hempty rfl]
      exact ⟨_, rfl, Or.inr rfl⟩
  | enqueue chunk =>
      have hfirst := EitherOrder.first h hids
        (hturn chunk List.mem_cons_self)
      refine ⟨other, ?_, Or.inl rfl⟩
      rw [hfirst]
      exact List.append_nil (chunk :: other)
  | learnAddr _ _ | recordRx _ _ | recordChunkRx _ | rateRx _ _ | forward _
  | sendAck _ _ _ | handleAnnouncement _ | handleAck _ _ | processProbe _ =>
      obtain ⟨linkId, rfl⟩ := howns
      simp [enqueuers] at ht
  | _ =>
      cases howns
      simp [enqueuers] at ht

/-- The other tasks neither emit a chunk nor put one into the queue. -/
theorem others_emit {t : Task} {a : Action} (ht : t ∉ enqueuers)
    (howns : t.owns a) (r : Reading) (e : Endpoint) :
    a.enters = [] ∧ a.emits r e = [] := by
  cases a with
  | addPacket packet flowId =>
      cases howns
      simp [enqueuers] at ht
  | checkTimeout =>
      cases howns
      simp [enqueuers] at ht
  | enqueue chunk =>
      rcases howns with rfl | rfl <;> simp [enqueuers] at ht
  | _ => exact ⟨rfl, rfl⟩

-- =================================================================== feed

/-- An action is a run of the aggregator. -/
private theorem feed_run (r : Reading) (a : Action) {e : Endpoint}
    {s : Feed} (hagg : s.agg = e.aggregator) :
    ∃ s', Trace.run Feed.step (a.aggOp r).toList s = some s'
      ∧ s'.agg = ((a.aggOp r).elim e.aggregator
          fun op => (op.apply e.aggregator).2)
      ∧ s'.chunks = s.chunks ++ a.emits r e := by
  unfold Action.emits
  cases a.aggOp r with
  | none => exact ⟨s, rfl, hagg, (List.append_nil _).symm⟩
  | some op =>
      obtain ⟨s', hstep, hagg', hchunks⟩ := step_apply op s
      rw [hagg] at hagg' hchunks
      refine ⟨s', ?_, hagg', hchunks⟩
      rw [Option.toList_some, Trace.run_cons, hstep]
      rfl

/-- Chunks that are numbered from zero, with the numbers not used up,
have increasing ids. -/
private theorem ids_increase {chunks : List Chunk}
    (hids : ∀ k c, chunks[k]? = some c → c.id = UInt64.ofNat k)
    (hlength : chunks.length < 2 ^ 64) :
    (chunks.map Chunk.id).Pairwise (· < ·) := by
  refine List.pairwise_map.mpr (List.pairwise_iff_getElem.mpr ?_)
  intro i j hi hj hij
  rw [hids i _ (List.getElem?_eq_getElem hi),
    hids j _ (List.getElem?_eq_getElem hj), UInt64.lt_iff_toNat_lt,
    UInt64.toNat_ofNat', UInt64.toNat_ofNat', Nat.mod_eq_of_lt (by omega),
    Nat.mod_eq_of_lt (by omega)]
  exact hij

/-- What an action is to add goes into the aggregator. -/
private theorem adds_perform {role : Role} {r : Reading} {t : Task}
    {a : Action} {rest next : List Action} {p : Program} {e : Endpoint}
    (howns : t.owns a) (hpending : p.pending t = a :: rest)
    (hexec : Endpoint.exec role r a p.shared = some (next, e)) :
    p.hold Action.adds .tunReader
      = (a.aggOp r).toList.flatMap AggOp.packets
        ++ Pool.hold Action.adds .tunReader
          { shared := e
            pending := Function.update p.pending t (next ++ rest) } := by
  have hpackets : (a.aggOp r).toList.flatMap AggOp.packets = a.adds := by
    cases a <;> rfl
  have hnext : next.flatMap Action.adds = [] := by
    refine List.flatMap_eq_nil_iff.mpr fun b hb => ?_
    cases exec_leads hexec b hb <;> rfl
  by_cases ht : t = .tunReader
  · subst ht
    rw [Pool.hold_of_pending hpending, Pool.hold_update_self,
      List.flatMap_append, List.flatMap_cons, hnext, hpackets,
      List.nil_append]
  · have hnone : a.adds = [] := by
      cases a with
      | addPacket packet flowId => exact absurd howns ht
      | _ => rfl
    rw [Pool.hold_update_of_ne (Ne.symm ht), hpackets, hnone]
    rfl

-- ============================================================== invariant

section Run

variable {config : Config} {linkBandwidths : List UInt64} {now : Nat → Nat}

/-- What the aggregator has emitted has entered the queue, but for what
the two tasks have in hand. What was read has gone into the aggregator,
but for what the reader is about to add. -/
structure InTurn (config : Config) (linkBandwidths : List UInt64)
    (now : Nat → Nat) (seen : List ProgramEvent) (p : Program) :
    Prop where
  fits : ∀ packet ∈ seen.flatMap ProgramEvent.read, packet.length ≤ 65535
  feed : ∃ ops s, Trace.run Feed.step ops (Feed.start config.chunkAggregator
      linkBandwidths.length (now 0)) = some s
    ∧ s.agg = p.shared.aggregator
    ∧ s.chunks.length < 2 ^ 64
    ∧ seen.flatMap ProgramEvent.read
      = ops.flatMap AggOp.packets ++ p.hold Action.adds .tunReader
    ∧ ∃ hands, s.chunks = seen.flatMap ProgramEvent.entered ++ hands
      ∧ EitherOrder (p.hold Action.chunks .tunReader)
        (p.hold Action.chunks .timeoutChecker) hands

theorem inTurn_start : InTurn config linkBandwidths now []
    (Program.start config linkBandwidths now) where
  fits := fun _ h => nomatch h
  feed := ⟨[], _, rfl, rfl, Nat.two_pow_pos 64, rfl, [], rfl, Or.inl rfl⟩

variable {seen : List ProgramEvent} {p : Program}

/-- The packets of a run's calls fit a length prefix, where those read
do. -/
private theorem ops_fit {ops : List AggOp} {packets : List (List UInt8)}
    {rest : List (List UInt8)}
    (hfits : ∀ packet ∈ packets, packet.length ≤ 65535)
    (hread : packets = ops.flatMap AggOp.packets ++ rest) :
    ∀ op ∈ ops, op.Fits 65535 := by
  intro op hop packet hpacket
  refine hfits packet ?_
  rw [hread]
  exact List.mem_append_left _ (List.mem_flatMap.mpr ⟨op, hop, hpacket⟩)

/-- A round starts. The TUN buffer holds no packet that is too long. -/
theorem InTurn.begin (h : InTurn config linkBandwidths now seen p)
    {statsFromSlice : List UInt8 → Option StatsPacket} {role : Role}
    {round : Round} (henabled : round.enabled role p.shared = true)
    (hidle : p.pending round.task = []) :
    InTurn config linkBandwidths now (seen ++ [.began round])
      { p with
        pending := Function.update p.pending round.task
          (round.actions statsFromSlice role p.shared) } := by
  obtain ⟨hfits, ops, s, hrun, hagg, hlength, hread, hands, hchunks,
    hshuffled⟩ := h
  have hadds : Pool.hold Action.adds .tunReader { p with
        pending := Function.update p.pending round.task
          (round.actions statsFromSlice role p.shared) }
      = p.hold Action.adds .tunReader ++ (ProgramEvent.began round).read := by
    by_cases ht : Task.tunReader = round.task
    · rw [ht, Pool.hold_update_self, Pool.hold_of_pending hidle]
      cases round with
      | readTun packet flowId => rfl
      | _ => cases ht
    · rw [Pool.hold_update_of_ne ht]
      cases round with
      | readTun packet flowId => exact absurd rfl ht
      | _ => exact (List.append_nil _).symm
  refine ⟨?_, ops, s, hrun, hagg, hlength, ?_, hands, ?_, ?_⟩
  · intro packet hpacket
    rw [List.flatMap_append] at hpacket
    rcases List.mem_append.mp hpacket with hpacket | hpacket
    · exact hfits packet hpacket
    · cases round with
      | readTun packet' flowId =>
          rw [List.flatMap_singleton] at hpacket
          cases List.mem_singleton.mp hpacket
          have hbuffer : 0 < packet.length ∧ packet.length ≤ 2000 := by
            simpa [Round.enabled] using henabled
          omega
      | _ => cases hpacket
  · rw [List.flatMap_append, hread, hadds, List.flatMap_singleton,
      List.append_assoc]
  · rw [List.flatMap_append, hchunks]
    exact congrArg (· ++ hands) (List.append_nil _).symm
  · rw [Program.Orderly.hold_begin hidle, Program.Orderly.hold_begin hidle]
    exact hshuffled

/-- What an action does to the two hands, where an enqueuer sends in its
turn. -/
private theorem InTurn.hands {role : Role} {r : Reading} {t : Task}
    {a : Action} {rest next : List Action} {e : Endpoint}
    {hands : List Chunk} (hturn : SendsInTurn (.perform t r) p)
    (horderly : p.Orderly) (hpending : p.pending t = a :: rest)
    (hexec : Endpoint.exec role r a p.shared = some (next, e))
    (hids : (hands.map Chunk.id).Pairwise (· < ·))
    (h : EitherOrder (p.hold Action.chunks .tunReader)
      (p.hold Action.chunks .timeoutChecker) hands) :
    ∃ hands', hands ++ a.emits r p.shared = a.enters ++ hands'
      ∧ EitherOrder
        (Pool.hold Action.chunks .tunReader
          { shared := e
            pending := Function.update p.pending t (next ++ rest) })
        (Pool.hold Action.chunks .timeoutChecker
          { shared := e
            pending := Function.update p.pending t (next ++ rest) })
        hands' := by
  have howns : t.owns a := horderly.owned t a (hpending ▸ List.mem_cons_self)
  have hown := (horderly.hold_eq hpending).2
  have hafter := horderly.hold_perform hpending hexec
  have hsending : p.sending t = a.enters := by
    unfold Program.sending
    rw [hpending]
    exact List.append_nil _
  have hsmallest := hturn.2
  rw [hsending] at hsmallest
  by_cases ht : t ∈ enqueuers
  · have hcases : t = .tunReader ∨ t = .timeoutChecker := by
      simpa [enqueuers] using ht
    rcases hcases with rfl | rfl
    · rw [hafter, Pool.hold_update_of_ne (by simp)]
      rw [hown] at h
      exact h.perform ht howns hids fun chunk hchunk =>
        hsmallest chunk hchunk .timeoutChecker (by simp [enqueuers])
          (by simp)
    · rw [hafter, Pool.hold_update_of_ne (by simp)]
      rw [hown] at h
      obtain ⟨hands', heq, h'⟩ := h.symm.perform ht howns hids
        fun chunk hchunk => hsmallest chunk hchunk .tunReader
          (by simp [enqueuers]) (by simp)
      exact ⟨hands', heq, h'.symm⟩
  · have hother : ∀ t' ∈ enqueuers, t' ≠ t :=
      fun t' ht' heq => ht (heq ▸ ht')
    obtain ⟨henters, hemits⟩ := others_emit ht howns r p.shared
    refine ⟨hands, ?_, ?_⟩
    · rw [henters, hemits, List.append_nil, List.nil_append]
    · rw [Pool.hold_update_of_ne (hother _ (by simp [enqueuers])),
        Pool.hold_update_of_ne (hother _ (by simp [enqueuers]))]
      exact h

/-- While the ids are not used up, an action emits one more chunk at
most. -/
private theorem emits_length {b : Batcher (List UInt8)} {s : Feed}
    {e : Endpoint} (hsim : Sim s b) (hagg : s.agg = e.aggregator)
    (hlength : s.chunks.length < 2 ^ 64)
    (hnext : e.aggregator.nextChunkId ≠ 0) (r : Reading) (a : Action) :
    (s.chunks ++ a.emits r e).length < 2 ^ 64 := by
  have hone : (a.emits r e).length ≤ 1 := by
    unfold Action.emits
    cases (a.aggOp r).bind fun op => (op.apply e.aggregator).1 <;> simp
  have hemitted : s.emitted.length = s.chunks.length :=
    (List.length_map _).symm
  have hroom : s.chunks.length + 1 ≠ 2 ^ 64 := by
    intro hfull
    apply hnext
    rw [← hagg, hsim.nextChunkId, hsim.currentId, hemitted]
    have hsum : UInt64.ofNat s.chunks.length + 1
        = UInt64.ofNat (s.chunks.length + 1) := by
      rw [UInt64.ofNat_add]
      rfl
    rw [hsum, hfull]
    rfl
  rw [List.length_append]
  omega

/-- An action is performed, by an enqueuer in its turn. -/
theorem InTurn.perform (h : InTurn config linkBandwidths now seen p)
    {role : Role} {r : Reading} {t : Task} {a : Action}
    {rest next : List Action} {e : Endpoint}
    (hturn : SendsInTurn (.perform t r) p) (horderly : p.Orderly)
    (hpending : p.pending t = a :: rest)
    (hexec : Endpoint.exec role r a p.shared = some (next, e)) :
    InTurn config linkBandwidths now (seen ++ [.performed r a p.shared])
      { shared := e
        pending := Function.update p.pending t (next ++ rest) } := by
  obtain ⟨hfits, ops, s, hrun, hagg, hlength, hread, hands, hchunks,
    hshuffled⟩ := h
  have howns : t.owns a := horderly.owned t a (hpending ▸ List.mem_cons_self)
  obtain ⟨b, hsim, -⟩ :=
    run_sim (ops_fit hfits hread) (sim_start _ _ _) hrun
  -- the hands are a part of what was emitted, so their ids increase
  have hids : (hands.map Chunk.id).Pairwise (· < ·) := by
    have hall := ids_increase hsim.ids hlength
    rw [hchunks, List.map_append] at hall
    exact (List.pairwise_append.mp hall).2.1
  obtain ⟨s', hcall, hagg', hchunks'⟩ := feed_run r a hagg
  obtain ⟨hands', hsplit, hshuffled'⟩ :=
    InTurn.hands hturn horderly hpending hexec hids hshuffled
  have hreads : (seen ++ [ProgramEvent.performed r a p.shared]).flatMap
      ProgramEvent.read = seen.flatMap ProgramEvent.read := by
    rw [List.flatMap_append]
    exact List.append_nil _
  refine ⟨?_, ops ++ (a.aggOp r).toList, s', ?_, ?_, ?_, ?_, hands', ?_,
    hshuffled'⟩
  · rw [hreads]
    exact hfits
  · rw [Trace.run_append, hrun]
    exact hcall
  · exact hagg'.trans (exec_effects hexec).aggregator.symm
  · rw [hchunks']
    exact emits_length hsim hagg hlength hturn.1 r a
  · rw [hreads, hread, List.flatMap_append, List.append_assoc,
      adds_perform howns hpending hexec]
  · rw [hchunks', hchunks, List.append_assoc, hsplit, List.flatMap_append,
      List.flatMap_singleton, ← List.append_assoc]
    rfl

end Run

-- ================================================================= result

/-- Chunks enter the queue in the order of their ids, and the links are
handed the packets in the order in which they were read, in every run in
which each chunk enters in its turn. -/
theorem chunks_in_order (statsFromSlice : List UInt8 → Option StatsPacket)
    (role : Role) (config : Config) (linkBandwidths : List UInt64)
    (now : Nat → Nat) {steps : List ProgramStep} {p : Program}
    (hturn : Trace.Along (Program.step statsFromSlice role) SendsInTurn steps
      (Program.start config linkBandwidths now))
    (hrun : Trace.run (Program.step statsFromSlice role) steps
      (Program.start config linkBandwidths now) = some p) :
    (((Program.events statsFromSlice role steps
        (Program.start config linkBandwidths now)).flatMap
          ProgramEvent.entered).map Chunk.id).Pairwise (· < ·)
    ∧ ((Program.events statsFromSlice role steps
        (Program.start config linkBandwidths now)).flatMap
          ProgramEvent.handed).flatMap Chunk.extractPackets
      <+: (Program.events statsFromSlice role steps
        (Program.start config linkBandwidths now)).flatMap
          ProgramEvent.read := by
  have horderly : (Program.start config linkBandwidths now).Orderly :=
    orderly_idle _
  have hfifo := queue_fifo hrun horderly
  obtain ⟨hfits, ops, s, hfeed, -, hlength, hread, hands, hchunks, -⟩ :=
    Program.run_events (P := InTurn config linkBandwidths now)
      (fun _ _ _ h henabled hidle => h.begin henabled hidle)
      (fun _ _ _ _ _ _ _ _ h hok horderly hpending hexec =>
        h.perform hok horderly hpending hexec)
      hturn hrun horderly inTurn_start
  generalize Program.events statsFromSlice role steps
    (Program.start config linkBandwidths now) = seen at *
  have hopsfit := ops_fit hfits hread
  obtain ⟨hexact, -, hids, -⟩ := aggregator_exact _ _ _ hopsfit hfeed
  refine ⟨?_, ?_⟩
  · have hall := ids_increase hids hlength
    rw [hchunks, List.map_append] at hall
    exact (List.pairwise_append.mp hall).1
  · -- handed before entered, entered before emitted, emitted before read
    have hentered : seen.flatMap ProgramEvent.handed
        <+: seen.flatMap ProgramEvent.entered := by
      have hnone : seen.flatMap ProgramEvent.entered = _ := hfifo
      rw [hnone, List.append_assoc]
      exact List.prefix_append _ _
    have hemitted : seen.flatMap ProgramEvent.handed <+: s.chunks :=
      hentered.trans (hchunks ▸ List.prefix_append _ hands)
    rw [hread, ← hexact, List.append_assoc]
    obtain ⟨later, hlater⟩ := hemitted
    rw [← hlater, List.flatMap_append, List.append_assoc]
    exact List.prefix_append _ _

/-- A packet waits until the aggregation timeout, and the timeout checker
gets its chunk. Then the reader gets the next chunk, which one large
packet fills. Neither has put its chunk into the queue. -/
def bothInHand : List ProgramStep :=
  [.begin (.readTun [69] none),
   .perform .tunReader (.atMillis 0),
   .perform .tunReader (.atMillis 0),
   .begin .checkTimeout,
   .perform .timeoutChecker (.atMillis 5),
   .begin (.readTun (List.replicate 1398 69) none),
   .perform .tunReader (.atMillis 5)]

/-- The chunk sender sends a chunk. -/
def sendNext : List ProgramStep :=
  .begin .sendChunk
    :: List.replicate 7 (.perform .chunkSender (.atMillis 5))

/-- The two chunks enter the queue, the checker's or the reader's first,
and both are sent. -/
def checkerFirst : List ProgramStep :=
  bothInHand ++ [.perform .timeoutChecker (.atMillis 5),
    .perform .tunReader (.atMillis 5)] ++ sendNext ++ sendNext

def readerFirst : List ProgramStep :=
  bothInHand ++ [.perform .tunReader (.atMillis 5),
    .perform .timeoutChecker (.atMillis 5)] ++ sendNext ++ sendNext

/-- The law where the timeout checker goes first. -/
theorem chunks_in_order_checker_first : ∃ p,
    Trace.run (Program.step (fun _ => none) .client) checkerFirst
        freshClient = some p
      ∧ p.shared.sent.length = 2
      ∧ (((Program.events (fun _ => none) .client checkerFirst
          freshClient).flatMap ProgramEvent.entered).map
            Chunk.id).Pairwise (· < ·) := by
  have hsent : (Trace.run (Program.step (fun _ => none) .client)
      checkerFirst freshClient).map (·.shared.sent.length) = some 2 := by
    decide +kernel
  obtain ⟨p, hrun, hsent⟩ := Option.map_eq_some_iff.mp hsent
  exact ⟨p, hrun, hsent, (chunks_in_order (fun _ => none) .client
    Config.default expectedBandwidthUp (fun _ => 0) (by decide +kernel)
    hrun).1⟩

/-- Where the reader goes first, its chunk overtakes the other one: the
ids enter the queue out of order, and the links are handed the large
packet before the small one that was read before it. -/
theorem chunks_out_of_order : ∃ p,
    Trace.run (Program.step (fun _ => none) .client) readerFirst
        freshClient = some p
      ∧ ((Program.events (fun _ => none) .client readerFirst
          freshClient).flatMap ProgramEvent.entered).map Chunk.id = [1, 0]
      ∧ ¬(((Program.events (fun _ => none) .client readerFirst
          freshClient).flatMap ProgramEvent.entered).map
            Chunk.id).Pairwise (· < ·)
      ∧ ((Program.events (fun _ => none) .client readerFirst
          freshClient).flatMap ProgramEvent.read).map List.length = [1, 1398]
      ∧ ((Program.events (fun _ => none) .client readerFirst
          freshClient).flatMap ProgramEvent.handed).map Chunk.size
        = [1400, 3] := by
  obtain ⟨p, hrun⟩ := Option.isSome_iff_exists.mp (show (Trace.run
      (Program.step (fun _ => none) .client) readerFirst
      freshClient).isSome = true by decide +kernel)
  have hids : ((Program.events (fun _ => none) .client readerFirst
      freshClient).flatMap ProgramEvent.entered).map Chunk.id = [1, 0] := by
    decide +kernel
  refine ⟨p, hrun, hids, ?_, by decide +kernel, by decide +kernel⟩
  rw [hids]
  decide

end ChainLightning
