/-
The bytes a program counts on the way from the TUN device to a link.

A packet is counted twice: when the TUN reader has added it, and as a
part of its chunk when the chunk has been sent. `Action.due` says what
is still to be counted on account of an action, so a packet that is read
brings twice its size and two length bytes into the hands of the reader,
and every action hands on what it does not count (`exec_balance`). In a
run whose sends succeed the counters and what is due add up to this
(`Balanced`), and when nothing is due the counters have it all.

The counters are the machine's own and wrap. What they lose by it is
seen when it happens (`ProgramEvent.lost`).
-/
import Mathlib.Algebra.BigOperators.Ring.List
import ChainLightning.Proofs.Chunk.Feed
import ChainLightning.Proofs.Schedule.Addresses

namespace ChainLightning

-- ============================================================ definitions

/-- The size of the packet that is read from the TUN device with an
event. -/
def ProgramEvent.readSize : ProgramEvent → List Nat
  | .began (.readTun packet _) => [packet.length]
  | _ => []

/-- The bytes of a snapshot that is taken with an event. -/
def ProgramEvent.snapshotBytes : ProgramEvent → List Nat
  | .performed _ .snapshot e => [e.metrics.snapshot.1.bytesSent.toNat]
  | _ => []

/-- What a counter loses when it wraps. -/
def wrapLoss (counter : UInt64) (bytes : Nat) : Nat :=
  2 ^ 64 * ((counter.toNat + bytes) / 2 ^ 64)

/-- The bytes that the counter of sent bytes loses with an event. -/
def ProgramEvent.lost : ProgramEvent → List Nat
  | .performed _ (.recordPacketTx bytes) e
  | .performed _ (.recordChunkTx bytes) e =>
      [wrapLoss e.metrics.counters.bytesUp bytes]
  | _ => []

/-- The total bytes of the packets that a run reads. -/
def readBytes (seen : List ProgramEvent) : Nat :=
  (seen.flatMap ProgramEvent.readSize).sum

def packetsRead (seen : List ProgramEvent) : Nat :=
  (seen.flatMap ProgramEvent.readSize).length

def lostBytes (seen : List ProgramEvent) : Nat :=
  (seen.flatMap ProgramEvent.lost).sum

/-- The bytes that the snapshots of a run and the counter behind it
account for. -/
def meteredBytes (seen : List ProgramEvent) (p : Program) : Nat :=
  (seen.flatMap ProgramEvent.snapshotBytes).sum
    + p.shared.metrics.counters.bytesUp.toNat

/-- Every payload byte is accounted for once: all bytes read are, and at
most the two length bytes of each packet beside them. -/
def MeteredOnce (seen : List ProgramEvent) (p : Program) : Prop :=
  readBytes seen ≤ meteredBytes seen p
    ∧ meteredBytes seen p ≤ readBytes seen + 2 * packetsRead seen

/-- The sockets send. -/
def SendsOk (r : Reading) (a : Action) (_ : Endpoint) : Prop :=
  match a with
  | .transmitChunk _ _ _ => r.sendOk = true
  | _ => True

instance (r : Reading) (a : Action) (e : Endpoint) :
    Decidable (SendsOk r a e) :=
  decidable_of_iff (SendsWhile (fun _ => True) r a e)
    (by cases a <;> exact Iff.rfl)

/-- The bytes in the aggregator and in the queue. -/
def Endpoint.waiting (e : Endpoint) : Nat :=
  e.aggregator.currentChunk.size + (e.toLinks.map Chunk.size).sum

-- ================================================================ packets

/-- The size of packets with their length bytes. -/
def framedSize (packets : List (List UInt8)) : Nat :=
  (packets.map fun packet => 2 + packet.length).sum

/-- The bytes an aggregator has taken in a run. -/
def Feed.size (s : Feed) : Nat :=
  s.agg.currentChunk.size + (s.chunks.map Chunk.size).sum

private theorem Move.size {ps : List (List UInt8)} {s s' : Feed}
    (h : Move ps s s') : s'.size = s.size + framedSize ps := by
  unfold Feed.size
  cases h with
  | push p =>
      show (s.agg.currentChunk.addPacket p).size + (s.chunks.map _).sum
        = _ + (s.chunks.map _).sum + (2 + p.length + 0)
      rw [addPacket_size]
      omega
  | flow flowId => rfl
  | cut now =>
      show 0 + (List.map Chunk.size (List.map Prod.fst (_ ++ [_]))).sum
        = s.agg.currentChunk.size + (s.chunks.map _).sum + 0
      rw [List.map_append, List.map_append, List.sum_append]
      show 0 + ((s.chunks.map _).sum + (s.agg.currentChunk.size + 0)) = _
      omega
  | stats linkId bandwidthBps rttMs =>
      show (s.agg.updateLinkStats linkId bandwidthBps rttMs).currentChunk.size
        + (s.chunks.map _).sum = _
      rw [(updateLinkStats_current s.agg linkId bandwidthBps rttMs).1]
      rfl

private theorem Moves.size {ps : List (List UInt8)} {s s' : Feed}
    (h : Moves ps s s') : s'.size = s.size + framedSize ps := by
  induction h with
  | done s => rfl
  | step hmove _ ih =>
      rw [ih, hmove.size]
      unfold framedSize
      rw [List.map_append, List.sum_append]
      omega

/-- What an aggregator takes in a call stays in the current chunk or
comes out. -/
theorem apply_sizes (op : AggOp) (a : ChunkAggregator) :
    (op.apply a).2.currentChunk.size
        + ((op.apply a).1.toList.map Chunk.size).sum
      = a.currentChunk.size + framedSize op.packets := by
  -- a run that has taken as many packets as the chunk counts
  obtain ⟨s, hs, hcounted⟩ : ∃ s : Feed, s.agg = a ∧ Counted s :=
    ⟨⟨a, List.replicate a.currentChunk.packetCount [], []⟩, rfl,
      List.length_replicate.symm⟩
  obtain ⟨s', hstep, hagg, hchunks⟩ := step_apply op s
  have hsize := (step_moves hcounted hstep).size
  unfold Feed.size at hsize
  rw [hagg, hchunks, hs, List.map_append, List.sum_append] at hsize
  omega

-- ================================================================ actions

/-- The bytes in an action's hand that are on their way to a chunk, or to
a link in one. -/
def Action.carries : Action → Nat
  | .addPacket packet _ => 2 + packet.length
  | a => (a.cargo.map Chunk.size).sum

/-- The action sends a chunk: it looks up where to, or hands it to the
socket. -/
def Action.sendsChunk : Action → Bool
  | .sendChunk _ _ | .transmitChunk _ _ _ => true
  | _ => false

/-- The bytes an action counts. -/
def Action.counts : Action → Nat
  | .recordPacketTx bytes | .recordChunkTx bytes => bytes
  | _ => 0

/-- What is still to be counted on account of an action. -/
def Action.due (a : Action) : Nat := a.carries + a.counts

/-- The bytes an event puts into a snapshot or loses. -/
def ProgramEvent.settled (event : ProgramEvent) : Nat :=
  event.snapshotBytes.sum + event.lost.sum

/-- A counter and what it loses. -/
private theorem add_wrapLoss (counter : UInt64) (bytes : Nat) :
    (counter + UInt64.ofNat bytes).toNat + wrapLoss counter bytes
      = counter.toNat + bytes := by
  unfold wrapLoss
  rw [UInt64.toNat_add, UInt64.toNat_ofNat', Nat.add_mod_mod,
    Nat.mod_add_div]

/-- What an action counts is in the counter, in a snapshot or lost. -/
theorem meter_balance (r : Reading) (a : Action) (e : Endpoint) :
    (a.meter e.metrics).counters.bytesUp.toNat
        + (ProgramEvent.performed r a e).settled
      = e.metrics.counters.bytesUp.toNat + a.counts := by
  unfold ProgramEvent.settled
  cases a with
  | recordPacketTx bytes =>
      have hloss := add_wrapLoss e.metrics.counters.bytesUp bytes
      show (_ + UInt64.ofNat bytes).toNat + (0 + (_ + 0)) = _
      rw [Nat.zero_add, Nat.add_zero]
      exact hloss
  | recordChunkTx bytes =>
      have hloss := add_wrapLoss e.metrics.counters.bytesUp bytes
      show (_ + UInt64.ofNat bytes).toNat + (0 + (_ + 0)) = _
      rw [Nat.zero_add, Nat.add_zero]
      exact hloss
  | snapshot =>
      show 0 + (e.metrics.counters.bytesUp.toNat + 0 + 0) = _
      rw [Nat.zero_add]
      rfl
  | _ => rfl

/-- What a call takes and emits. -/
private theorem emits_size {r : Reading} {a : Action} {e e' : Endpoint}
    {next : List Action} (heffects : a.Effects r e next e') :
    e'.aggregator.currentChunk.size
        + ((a.emits r e).map Chunk.size).sum
      = e.aggregator.currentChunk.size
        + framedSize ((a.aggOp r).toList.flatMap AggOp.packets) := by
  rw [heffects.aggregator]
  unfold Action.emits
  cases a.aggOp r with
  | none => rfl
  | some op =>
      have hsizes := apply_sizes op e.aggregator
      rw [Option.toList_some, List.flatMap_singleton]
      exact hsizes

/-- What an action carries, other than to a link, stays in its task's
hand, goes into the queue or goes into the aggregator. -/
private theorem queue_balance (r : Reading) (e : Endpoint) {a : Action}
    (hnot : a.sendsChunk = false) :
    ((a.leaves r e).map Chunk.size).sum
        + ((a.queue e.toLinks).map Chunk.size).sum
        + framedSize ((a.aggOp r).toList.flatMap AggOp.packets)
      = a.carries + (e.toLinks.map Chunk.size).sum
        + ((a.emits r e).map Chunk.size).sum := by
  cases a with
  | addPacket packet flowId =>
      have hleaves : Action.leaves r e (.addPacket packet flowId)
          = Action.emits r e (.addPacket packet flowId) := rfl
      rw [hleaves]
      show _ + (e.toLinks.map Chunk.size).sum + (2 + packet.length + 0)
        = 2 + packet.length + _ + _
      omega
  | checkTimeout | updateLinkStats _ _ _ =>
      show _ + (e.toLinks.map Chunk.size).sum + 0 = 0 + _ + _
      rw [Nat.add_zero, Nat.zero_add]
      exact Nat.add_comm _ _
  | takeChunk =>
      show ((e.toLinks.take 1).map Chunk.size).sum
        + (e.toLinks.tail.map Chunk.size).sum + 0 = 0 + _ + 0
      rw [← List.sum_append, ← List.map_append, ← List.drop_one,
        List.take_append_drop, Nat.zero_add]
  | schedule chunk => rfl
  | enqueue chunk =>
      show 0 + ((e.toLinks ++ [chunk]).map Chunk.size).sum + 0
        = chunk.size + 0 + (e.toLinks.map Chunk.size).sum + 0
      rw [List.map_append, List.sum_append]
      show 0 + (_ + (chunk.size + 0)) + 0 = _
      omega
  | sendChunk linkId chunk => cases hnot
  | transmitChunk linkId dest chunk => cases hnot
  | _ => rfl

/-- What is due on account of the actions that an action, other than one
that sends a chunk, leaves to do. -/
private theorem due_leaves {role : Role} {r : Reading} {a : Action}
    {e e' : Endpoint} {next : List Action} (hnot : a.sendsChunk = false)
    (hexec : Endpoint.exec role r a e = some (next, e')) :
    (next.map Action.due).sum = ((a.leaves r e).map Chunk.size).sum := by
  have hdue : ∀ b ∈ next, b.due = (b.chunks.map Chunk.size).sum := by
    intro b hb
    cases exec_leads hexec b hb with
    | sendChunk linkId dest chunk => cases hnot
    | recordChunkTx linkId dest chunk => cases hnot
    | _ => rfl
  rw [List.map_congr_left hdue, ← (exec_effects hexec).leaves,
    List.map_flatMap, List.flatMap_def, List.sum_flatten, List.map_map]
  rfl

/-- A chunk that is sent is still to be counted: a link of the client has
a destination, and the socket sends. -/
private theorem send_due {r : Reading} {a : Action} {e e' : Endpoint}
    {next : List Action} (hsends : a.sendsChunk = true)
    (hok : SendsOk r a e)
    (hlink : ∀ linkId chunk, a = .sendChunk linkId chunk →
      linkId < e.numLinks)
    (hexec : Endpoint.exec .client r a e = some (next, e')) :
    (next.map Action.due).sum = a.due := by
  cases a with
  | sendChunk linkId chunk =>
      have hdest : e.destination .client linkId = some .server := by
        unfold Endpoint.destination
        rw [if_pos (hlink linkId chunk rfl)]
      unfold Endpoint.exec at hexec
      dsimp only at hexec
      rw [hdest] at hexec
      cases hexec
      rfl
  | transmitChunk linkId dest chunk =>
      have hok : r.sendOk = true := hok
      unfold Endpoint.exec Endpoint.transmitChunk at hexec
      dsimp only at hexec
      rw [if_pos hok] at hexec
      cases hexec
      simp [Action.due, Action.carries, Action.counts, Action.cargo,
        Action.chunks]
  | _ => cases hsends

/-- A chunk that is sent moves nothing in the state. -/
private theorem send_waiting {role : Role} {r : Reading} {a : Action}
    {e e' : Endpoint} {next : List Action} (hsends : a.sendsChunk = true)
    (hexec : Endpoint.exec role r a e = some (next, e')) :
    e'.waiting = e.waiting := by
  have heffects := exec_effects hexec
  unfold Endpoint.waiting
  rw [heffects.aggregator, heffects.toLinks]
  cases a with
  | sendChunk linkId chunk => rfl
  | transmitChunk linkId dest chunk => rfl
  | _ => cases hsends

/-- What an action leaves to do and what it leaves in the state makes up
for what was due on its account. -/
theorem exec_balance {r : Reading} {a : Action} {e e' : Endpoint}
    {next : List Action} (hok : SendsOk r a e)
    (hlink : ∀ linkId chunk, a = .sendChunk linkId chunk →
      linkId < e.numLinks)
    (hexec : Endpoint.exec .client r a e = some (next, e')) :
    (next.map Action.due).sum + e'.waiting
        + e'.metrics.counters.bytesUp.toNat
        + (ProgramEvent.performed r a e).settled
      = a.due + e.waiting + e.metrics.counters.bytesUp.toNat := by
  have heffects := exec_effects hexec
  have hmeter := meter_balance r a e
  rw [← heffects.metrics] at hmeter
  have ha : a.due = a.carries + a.counts := rfl
  by_cases hsends : a.sendsChunk = true
  · have hdue := send_due hsends hok hlink hexec
    have hwaiting := send_waiting hsends hexec
    have hcounts : a.counts = 0 := by
      cases a <;> first | rfl | cases hsends
    omega
  · have hnot : a.sendsChunk = false := Bool.eq_false_of_not_eq_true hsends
    have hdue := due_leaves hnot hexec
    have hqueue := queue_balance r e hnot
    have hagg := emits_size heffects
    unfold Endpoint.waiting
    rw [heffects.toLinks]
    omega

-- ============================================================== invariant

/-- What is still to be counted on account of a task. -/
def Program.dueOf (t : Task) (p : Program) : Nat :=
  ((p.pending t).map Action.due).sum

/-- The tasks on whose account something is to be counted. -/
def Program.due (p : Program) : Nat :=
  p.dueOf .tunReader + p.dueOf .timeoutChecker + p.dueOf .chunkSender

/-- What is due once a task has other actions to perform. -/
private theorem dueOf_update_self (t : Task) (acts : List Action)
    (e : Endpoint) (pending : Task → List Action) :
    Program.dueOf t
      { shared := e, pending := Function.update pending t acts }
      = (acts.map Action.due).sum := by
  unfold Program.dueOf
  dsimp only
  rw [Function.update_self]

private theorem dueOf_update_of_ne {t t' : Task} (ht : t' ≠ t)
    (acts : List Action) (e : Endpoint) (p : Program) :
    Program.dueOf t'
      { shared := e, pending := Function.update p.pending t acts }
      = p.dueOf t' := by
  unfold Program.dueOf
  dsimp only
  rw [Function.update_of_ne ht]

/-- Nothing is due on account of the other tasks. -/
private theorem due_others {t : Task} {a : Action} (howns : t.owns a)
    (hreader : t ≠ .tunReader) (hchecker : t ≠ .timeoutChecker)
    (hsender : t ≠ .chunkSender) : a.due = 0 := by
  cases a with
  | addPacket _ _ | recordPacketTx _ => exact absurd howns hreader
  | enqueue _ =>
      rcases howns with h | h
      · exact absurd h hreader
      · exact absurd h hchecker
  | schedule _ | sendChunk _ _ | transmitChunk _ _ _ | recordChunkTx _ =>
      exact absurd howns hsender
  | _ => rfl

/-- What is due changes with what is due on account of the task that
performs an action. -/
private theorem due_perform {p : Program} (horderly : p.Orderly)
    {role : Role} {r : Reading} {t : Task} {a : Action}
    {rest next : List Action} {e : Endpoint}
    (hpending : p.pending t = a :: rest)
    (hexec : Endpoint.exec role r a p.shared = some (next, e)) :
    Program.due
        { shared := e, pending := Function.update p.pending t (next ++ rest) }
        + a.due
      = p.due + (next.map Action.due).sum := by
  have howns : t.owns a := horderly.owned t a (hpending ▸ List.mem_cons_self)
  have hself : Program.dueOf t
      { shared := e, pending := Function.update p.pending t (next ++ rest) }
        + a.due = p.dueOf t + (next.map Action.due).sum := by
    have hbefore : p.dueOf t = a.due + (rest.map Action.due).sum := by
      unfold Program.dueOf
      rw [hpending, List.map_cons, List.sum_cons]
    rw [dueOf_update_self, List.map_append, List.sum_append, hbefore]
    omega
  have hother : ∀ t', t' ≠ t → Program.dueOf t'
      { shared := e, pending := Function.update p.pending t (next ++ rest) }
        = p.dueOf t' :=
    fun t' ht => dueOf_update_of_ne ht (next ++ rest) e p
  unfold Program.due
  by_cases hreader : t = .tunReader
  · subst hreader
    rw [hother .timeoutChecker (by simp), hother .chunkSender (by simp)]
    omega
  by_cases hchecker : t = .timeoutChecker
  · subst hchecker
    rw [hother .tunReader (by simp), hother .chunkSender (by simp)]
    omega
  by_cases hsender : t = .chunkSender
  · subst hsender
    rw [hother .tunReader (by simp), hother .timeoutChecker (by simp)]
    omega
  -- another task: nothing is due on its account, before or after
  rw [hother .tunReader (Ne.symm hreader),
    hother .timeoutChecker (Ne.symm hchecker),
    hother .chunkSender (Ne.symm hsender),
    due_others howns hreader hchecker hsender]
  have hnext : ∀ b ∈ next, b.due = 0 := fun b hb =>
    due_others ((exec_leads hexec b hb).owned howns) hreader hchecker hsender
  rw [List.map_congr_left hnext, List.map_const', List.sum_replicate]
  rfl

/-- A round brings what it reads, twice and with two length bytes. -/
private theorem due_begin {p : Program} {round : Round}
    (statsFromSlice : List UInt8 → Option StatsPacket) (role : Role)
    (hidle : p.pending round.task = []) :
    Program.due { p with
        pending := Function.update p.pending round.task
          (round.actions statsFromSlice role p.shared) }
      = p.due + 2 * (ProgramEvent.began round).readSize.sum
        + 2 * (ProgramEvent.began round).readSize.length := by
  have hself := dueOf_update_self round.task
    (round.actions statsFromSlice role p.shared) p.shared p.pending
  have hbefore : p.dueOf round.task = 0 := by
    unfold Program.dueOf
    rw [hidle]
    rfl
  have hother := fun {t : Task} (ht : t ≠ round.task) => dueOf_update_of_ne
    ht (round.actions statsFromSlice role p.shared) p.shared p
  unfold Program.due
  cases round with
  | readTun packet flowId =>
      rw [hother (t := .timeoutChecker) (by simp [Round.task]),
        hother (t := .chunkSender) (by simp [Round.task])]
      have hround : (((Round.readTun packet flowId).actions statsFromSlice
          role p.shared).map Action.due).sum
          = 2 + packet.length + 0 + (0 + packet.length + 0) := rfl
      have hread : (ProgramEvent.began (.readTun packet
          flowId)).readSize = [packet.length] := rfl
      rw [hround] at hself
      rw [hread, List.sum_singleton, List.length_singleton]
      dsimp only [Round.task] at hself hbefore ⊢
      omega
  | checkTimeout =>
      rw [hother (t := .tunReader) (by simp [Round.task]),
        hother (t := .chunkSender) (by simp [Round.task])]
      exact congrArg (p.dueOf .tunReader + · + p.dueOf .chunkSender)
        (hself.trans hbefore.symm)
  | sendChunk =>
      rw [hother (t := .tunReader) (by simp [Round.task]),
        hother (t := .timeoutChecker) (by simp [Round.task])]
      exact congrArg (p.dueOf .tunReader + p.dueOf .timeoutChecker + ·)
        (hself.trans hbefore.symm)
  | _ =>
      rw [hother (t := .tunReader) (by simp [Round.task]),
        hother (t := .timeoutChecker) (by simp [Round.task]),
        hother (t := .chunkSender) (by simp [Round.task])]
      rfl

/-- The scheduler chooses one of its links, weighted or not. -/
theorem weightedSelect_lt {s : LinkScheduler} (h : Settled s)
    (hlinks : 0 < s.links.length) :
    s.weightedSelect.1 < s.links.length := by
  by_cases hweighted : ∃ l ∈ s.links, 0 < l.weight
  · obtain ⟨l, hl, hid, -⟩ := weightedSelect_weight hweighted
    have hmem : l.id ∈ s.links.map LinkState.id := List.mem_map_of_mem hl
    rw [h.ids, List.mem_range] at hmem
    exact hid ▸ hmem
  · -- neither the loop nor the fallback finds a link
    unfold LinkScheduler.weightedSelect
    dsimp only
    have hnone : s.links.find? (·.weight > 0) = none := by
      refine List.find?_eq_none.mpr fun l hl hpos => hweighted ⟨l, hl, ?_⟩
      simpa using hpos
    cases hsel : LinkScheduler.selectFrom ((s.cursor + 1)
        % s.totalWeight.toUInt64).toUInt32 0 s.links with
    | some linkId =>
        obtain ⟨l, hl, -, hpos⟩ := selectFrom_weight hsel
        exact absurd ⟨l, hl, hpos⟩ hweighted
    | none =>
        rw [hnone]
        exact hlinks

/-- The bytes read, once as packets and once in chunks, are accounted
for, lost by a counter, waiting or due. -/
structure Balanced (seen : List ProgramEvent) (p : Program) : Prop where
  scheduled : Scheduled (fun linkId e => linkId < e.numLinks) p
  links : 0 < p.shared.numLinks
  nonempty : ∀ size ∈ seen.flatMap ProgramEvent.readSize, 0 < size
  balance : meteredBytes seen p + lostBytes seen + p.shared.waiting + p.due
    = 2 * readBytes seen + 2 * packetsRead seen

namespace Balanced

variable {seen : List ProgramEvent} {p : Program}

theorem start (config : Config) {linkBandwidths : List UInt64}
    (hlinks : linkBandwidths ≠ []) (now : Nat → Nat) :
    Balanced [] (Program.start config linkBandwidths now) where
  scheduled := {
    settled := settled_new config.linkScheduler linkBandwidths (now 1)
    links := List.length_mapIdx
    scheduled := fun _ _ hmem => nomatch hmem }
  links := List.length_pos_iff.mpr hlinks
  nonempty := fun _ hmem => nomatch hmem
  balance := rfl

theorem begin (h : Balanced seen p)
    (statsFromSlice : List UInt8 → Option StatsPacket) {role : Role}
    {round : Round} (henabled : round.enabled role p.shared = true)
    (hidle : p.pending round.task = []) :
    Balanced (seen ++ [.began round]) { p with
      pending := Function.update p.pending round.task
        (round.actions statsFromSlice role p.shared) } where
  scheduled := h.scheduled.begin statsFromSlice role round
  links := h.links
  nonempty := by
    intro size hsize
    rw [List.flatMap_append, List.flatMap_singleton] at hsize
    rcases List.mem_append.mp hsize with hsize | hsize
    · exact h.nonempty size hsize
    · cases round with
      | readTun packet flowId =>
          cases List.mem_singleton.mp hsize
          have hbuffer : 0 < packet.length ∧ packet.length ≤ 2000 := by
            simpa [Round.enabled] using henabled
          exact hbuffer.1
      | _ => cases hsize
  balance := by
    have hbalance := h.balance
    have hdue := due_begin statsFromSlice role hidle
    unfold meteredBytes lostBytes readBytes packetsRead at *
    rw [List.flatMap_append, List.flatMap_append, List.flatMap_append,
      List.flatMap_singleton, List.flatMap_singleton, List.flatMap_singleton,
      List.sum_append, List.sum_append, List.sum_append, List.length_append,
      hdue]
    show _ + 0 + _ + (_ + 0) + _ + _ = _
    dsimp only
    omega

theorem perform (h : Balanced seen p) {r : Reading} {t : Task} {a : Action}
    {rest next : List Action} {e : Endpoint} (horderly : p.Orderly)
    (hok : SendsOk r a p.shared) (hpending : p.pending t = a :: rest)
    (hexec : Endpoint.exec .client r a p.shared = some (next, e)) :
    Balanced (seen ++ [.performed r a p.shared])
      { shared := e
        pending := Function.update p.pending t (next ++ rest) } where
  scheduled := by
    refine h.scheduled.perform hpending hexec ?_ ?_
    · intro linkId hlink
      rw [(exec_effects hexec).numLinks]
      exact hlink
    · intro chunk _
      have hlinks := h.scheduled.links
      rw [(schedule_effects p.shared.scheduler _ false).1, ← hlinks]
      exact weightedSelect_lt h.scheduled.settled (hlinks ▸ h.links)
  links := by
    show 0 < e.numLinks
    rw [(exec_effects hexec).numLinks]
    exact h.links
  nonempty := by
    intro size hsize
    rw [List.flatMap_append, List.flatMap_singleton] at hsize
    rcases List.mem_append.mp hsize with hsize | hsize
    · exact h.nonempty size hsize
    · cases hsize
  balance := by
    have howns : t.owns a :=
      horderly.owned t a (hpending ▸ List.mem_cons_self)
    have hbalance := h.balance
    have hdue := due_perform horderly hpending hexec
    have hlink : ∀ linkId chunk, a = .sendChunk linkId chunk →
        linkId < p.shared.numLinks := by
      rintro linkId chunk rfl
      cases howns
      exact h.scheduled.scheduled linkId chunk
        (hpending ▸ List.mem_cons_self)
    have hstep := exec_balance hok hlink hexec
    unfold ProgramEvent.settled at hstep
    unfold meteredBytes lostBytes readBytes packetsRead at *
    rw [List.flatMap_append, List.flatMap_append, List.flatMap_append,
      List.flatMap_singleton, List.flatMap_singleton, List.flatMap_singleton,
      List.sum_append, List.sum_append, List.sum_append, List.length_append]
    show _ = 2 * (_ + 0) + 2 * (_ + 0)
    dsimp only
    omega

end Balanced

-- ================================================================= result

/-- A counter loses whole wraps. -/
private theorem lostBytes_dvd (seen : List ProgramEvent) :
    2 ^ 64 ∣ lostBytes seen := by
  refine List.dvd_sum fun bytes hbytes => ?_
  obtain ⟨event, -, hbytes⟩ := List.mem_flatMap.mp hbytes
  cases event with
  | began round => cases hbytes
  | performed r a e =>
      cases a with
      | recordPacketTx n | recordChunkTx n =>
          cases List.mem_singleton.mp hbytes
          exact Nat.dvd_mul_right _ _
      | _ => cases hbytes

/-- When a client's run, whose sends succeed, has left nothing pending,
every payload byte is accounted for once just in case the counters lost
as much by wrapping as they counted twice. Short of the bytes that make
a counter wrap, this means that no packet was read. -/
theorem metered_once_iff (statsFromSlice : List UInt8 → Option StatsPacket)
    (config : Config) {linkBandwidths : List UInt64}
    (hlinks : linkBandwidths ≠ []) (now : Nat → Nat)
    {steps : List ProgramStep} {p : Program}
    (hok : Trace.Along (Program.step statsFromSlice .client)
      (ProgramStep.Performs SendsOk) steps
      (Program.start config linkBandwidths now))
    (hrun : Trace.run (Program.step statsFromSlice .client) steps
      (Program.start config linkBandwidths now) = some p)
    (hreader : p.pending .tunReader = [])
    (hchecker : p.pending .timeoutChecker = [])
    (hsender : p.pending .chunkSender = [])
    (hcurrent : p.shared.aggregator.currentChunk.isEmpty = true)
    (hqueue : p.shared.toLinks = [])
    {seen : List ProgramEvent} (hseen : seen = Program.events statsFromSlice
      .client steps (Program.start config linkBandwidths now)) :
    (MeteredOnce seen p ↔ readBytes seen ≤ lostBytes seen
      ∧ lostBytes seen ≤ readBytes seen + 2 * packetsRead seen)
    ∧ (2 * readBytes seen + 2 * packetsRead seen < 2 ^ 64 →
        (MeteredOnce seen p ↔ packetsRead seen = 0)) := by
  have h : Balanced seen p := hseen ▸ Program.run_events
    (fun _ _ _ h henabled hidle => h.begin statsFromSlice henabled hidle)
    (fun _ _ _ _ _ _ _ _ h hok horderly hpending hexec =>
      h.perform horderly (hok.head hpending) hpending hexec)
    hok hrun (orderly_idle _) (Balanced.start config hlinks now)
  have hbalance : meteredBytes seen p + lostBytes seen
      = 2 * readBytes seen + 2 * packetsRead seen := by
    have hdue : p.due = 0 := by
      unfold Program.due Program.dueOf
      rw [hreader, hchecker, hsender]
      rfl
    have hsize : p.shared.aggregator.currentChunk.size = 0 :=
      congrArg List.length (List.isEmpty_iff.mp hcurrent)
    have hwaiting : p.shared.waiting = 0 := by
      unfold Endpoint.waiting
      rw [hsize, hqueue]
      rfl
    have hbalance := h.balance
    omega
  have hcount : packetsRead seen ≤ readBytes seen :=
    List.length_le_sum_of_one_le _ h.nonempty
  refine ⟨?_, fun hsmall => ?_⟩
  · unfold MeteredOnce
    omega
  · have hlost : lostBytes seen = 0 :=
      Nat.eq_zero_of_dvd_of_lt (lostBytes_dvd seen) (by omega)
    have hnone : packetsRead seen = 0 → readBytes seen = 0 := by
      intro hread
      unfold readBytes
      rw [List.length_eq_zero_iff.mp hread]
      rfl
    unfold MeteredOnce
    omega

/-- A round of the statistics and one of the timeout checker, with no
packet there. -/
def quietRound : List ProgramStep :=
  .begin .updateStats
    :: List.replicate 15 (.perform .statsUpdater (.atMillis 5))
    ++ [.begin .checkTimeout, .perform .timeoutChecker (.atMillis 5)]

/-- The law there: a snapshot is taken, no packet was read, and every byte
is accounted for. -/
theorem metered_once_iff_quiet : ∃ p,
    Trace.run (Program.step (fun _ => none) .client) quietRound freshClient
        = some p
      ∧ (Program.events (fun _ => none) .client quietRound
          freshClient).flatMap ProgramEvent.snapshotBytes = [0]
      ∧ MeteredOnce (Program.events (fun _ => none) .client quietRound
          freshClient) p := by
  have hend : (Trace.run (Program.step (fun _ => none) .client) quietRound
      freshClient).map (fun p => (
        [Task.tunReader, .timeoutChecker, .chunkSender].map p.pending,
        p.shared.aggregator.currentChunk.isEmpty, p.shared.toLinks))
      = some ([[], [], []], true, []) := by
    decide +kernel
  obtain ⟨p, hrun, hend⟩ := Option.map_eq_some_iff.mp hend
  simp only [List.map_cons, List.map_nil, Prod.mk.injEq, List.cons.injEq,
    and_true] at hend
  obtain ⟨⟨hreader, hchecker, hsender⟩, hcurrent, hqueue⟩ := hend
  exact ⟨p, hrun, by decide +kernel, ((metered_once_iff (fun _ => none)
    Config.default (by decide) (fun _ => 0) (by decide +kernel) hrun hreader
    hchecker hsender hcurrent hqueue rfl).2 (by decide +kernel)).mpr
      (by decide +kernel)⟩

/-- A packet of one byte is read, flushed as a chunk and sent. -/
def oneByteTrip : List ProgramStep :=
  [.begin (.readTun [69] none),
   .perform .tunReader (.atMillis 0),
   .perform .tunReader (.atMillis 0),
   .begin .checkTimeout,
   .perform .timeoutChecker (.atMillis 5),
   .perform .timeoutChecker (.atMillis 5),
   .begin .sendChunk]
    ++ List.replicate 7 (.perform .chunkSender (.atMillis 5))

/-- The run leaves nothing pending, and four bytes in the counter. -/
private theorem oneByteTrip_end : ∃ p,
    Trace.run (Program.step (fun _ => none) .client) oneByteTrip
        freshClient = some p
      ∧ p.pending .tunReader = [] ∧ p.pending .timeoutChecker = []
      ∧ p.pending .chunkSender = []
      ∧ p.shared.aggregator.currentChunk.isEmpty = true
      ∧ p.shared.toLinks = []
      ∧ p.shared.metrics.counters.bytesUp = 4 := by
  have hend : (Trace.run (Program.step (fun _ => none) .client) oneByteTrip
      freshClient).map (fun p => (
        [Task.tunReader, .timeoutChecker, .chunkSender].map p.pending,
        p.shared.aggregator.currentChunk.isEmpty, p.shared.toLinks,
        p.shared.metrics.counters.bytesUp))
      = some ([[], [], []], true, [], 4) := by
    decide +kernel
  obtain ⟨p, hrun, hend⟩ := Option.map_eq_some_iff.mp hend
  simp only [List.map_cons, List.map_nil, Prod.mk.injEq, List.cons.injEq,
    and_true] at hend
  obtain ⟨⟨hreader, hchecker, hsender⟩, hcurrent, hqueue, hup⟩ := hend
  exact ⟨p, hrun, hreader, hchecker, hsender, hcurrent, hqueue, hup⟩

/-- One byte is read in one packet, and four are accounted for. -/
theorem payload_metered_twice : ∃ p,
    Trace.run (Program.step (fun _ => none) .client) oneByteTrip
        freshClient = some p
      ∧ Trace.Along (Program.step (fun _ => none) .client)
        (ProgramStep.Performs SendsOk) oneByteTrip freshClient
      ∧ p.pending .tunReader = [] ∧ p.pending .timeoutChecker = []
      ∧ p.pending .chunkSender = []
      ∧ p.shared.aggregator.currentChunk.isEmpty = true
      ∧ p.shared.toLinks = []
      ∧ readBytes (Program.events (fun _ => none) .client oneByteTrip
          freshClient) = 1
      ∧ packetsRead (Program.events (fun _ => none) .client oneByteTrip
          freshClient) = 1
      ∧ meteredBytes (Program.events (fun _ => none) .client oneByteTrip
          freshClient) p = 4
      ∧ ¬MeteredOnce (Program.events (fun _ => none) .client oneByteTrip
          freshClient) p := by
  obtain ⟨p, hrun, hreader, hchecker, hsender, hcurrent, hqueue, hup⟩ :=
    oneByteTrip_end
  have hread : readBytes (Program.events (fun _ => none) .client oneByteTrip
      freshClient) = 1 := by decide +kernel
  have hcount : packetsRead (Program.events (fun _ => none) .client
      oneByteTrip freshClient) = 1 := by decide +kernel
  have hsnapshots : ((Program.events (fun _ => none) .client oneByteTrip
      freshClient).flatMap ProgramEvent.snapshotBytes).sum = 0 := by
    decide +kernel
  have hmetered : meteredBytes (Program.events (fun _ => none) .client
      oneByteTrip freshClient) p = 4 := by
    unfold meteredBytes
    rw [hsnapshots, hup]
    rfl
  refine ⟨p, hrun, by decide +kernel, hreader, hchecker, hsender, hcurrent,
    hqueue, hread, hcount, hmetered, ?_⟩
  unfold MeteredOnce
  rw [hread, hcount, hmetered]
  decide

end ChainLightning
