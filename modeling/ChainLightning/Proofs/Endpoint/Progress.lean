/-
A program never gets stuck, and left to itself it comes to rest.

The tasks wait for each other in two places, at the two queues: whoever
fills one waits while it is full, and whoever empties it waits while
there is nothing in it. No task waits at both, so there is no circle
(`no_deadlock`): a program in which nothing can move is at rest, unless
an addition of the rate controller has overflowed.

What a program can still do with what it has is limited by what it has
(`Program.remaining`): every section and every round that empties a queue
uses some of it up, whatever order the tasks take turns in
(`no_livelock`).
-/
import ChainLightning.Proofs.Endpoint.Hands
import ChainLightning.Proofs.Rate.Link

namespace ChainLightning

variable {statsFromSlice : List UInt8 → Option StatsPacket} {role : Role}

-- ================================================================ waiting

/-- The action waits at a queue: a full one, or an empty one. -/
def Action.Waits (e : Endpoint) : Action → Prop
  | .enqueue _ => Endpoint.channelCapacity ≤ e.toLinks.length
  | .forward _ => Endpoint.channelCapacity ≤ e.fromLinks.length
  | .takeChunk => e.toLinks = []
  | .takeReceived => e.fromLinks = []
  | _ => False

/-- The action fails: the call it makes on the rate controller overflows
or fails an assertion. -/
def Action.Fails (r : Reading) (e : Endpoint) (a : Action) : Prop :=
  ∃ op, a.rateOp r = some op ∧ op.apply e.rateController = none

/-- Of a call and what is done with its result, only the call can be
undefined. -/
private theorem undefined_of_bind {α β : Type*} {x : Option α} {f : α → β}
    (h : (x.bind fun a => some (f a)) = none) : x = none := by
  cases x with
  | none => rfl
  | some a => cases h

/-- An action that cannot be performed waits or fails. -/
theorem exec_stalls {r : Reading} {a : Action} {e : Endpoint}
    (h : Endpoint.exec role r a e = none) : a.Waits e ∨ a.Fails r e := by
  cases a with
  | enqueue chunk =>
      unfold Endpoint.exec at h
      dsimp only at h
      split at h
      case isTrue => cases h
      case isFalse hfull => exact Or.inl (Nat.le_of_not_lt hfull)
  | forward packet =>
      unfold Endpoint.exec at h
      dsimp only at h
      split at h
      case isTrue => cases h
      case isFalse hfull => exact Or.inl (Nat.le_of_not_lt hfull)
  | takeChunk =>
      unfold Endpoint.exec at h
      dsimp only at h
      split at h
      case h_1 hempty => exact Or.inl hempty
      case h_2 => cases h
  | takeReceived =>
      unfold Endpoint.exec at h
      dsimp only at h
      split at h
      case h_1 hempty => exact Or.inl hempty
      case h_2 => cases h
  | buildProbes =>
      refine Or.inr ⟨_, rfl, ?_⟩
      show (e.rateController.buildProbes r.linkMicros).map Prod.snd = none
      rw [undefined_of_bind h]
      rfl
  | rateTx _ _ | rateRx _ _ | processProbe _ =>
      exact Or.inr ⟨_, rfl, undefined_of_bind h⟩
  | _ => cases h

/-- The action takes a chunk off a queue. -/
def Action.isTake : Action → Bool
  | .takeChunk | .takeReceived => true
  | _ => false

/-- A task that is to take a chunk off a queue has nothing else to do. -/
def Program.Poised (p : Program) : Prop :=
  ∀ t, ∀ a ∈ p.pending t, a.isTake = true → p.pending t = [a]

/-- No other round takes a chunk off a queue. -/
private theorem actions_poised (e : Endpoint) (round : Round) :
    ∀ a ∈ round.actions statsFromSlice role e, a.isTake = true →
      round.actions statsFromSlice role e = [a] := by
  intro a ha htake
  have howns := actions_owned statsFromSlice role e round a ha
  cases a with
  | takeChunk =>
      cases round with
      | sendChunk => rfl
      | receive => cases howns
      | _ => cases howns
  | takeReceived =>
      cases round with
      | writeTun => rfl
      | receive => cases howns
      | _ => cases howns
  | _ => cases htake

/-- A step keeps the tasks at the queues poised. -/
private theorem step_poised {step : ProgramStep} {p p' : Program}
    (hstep : Program.step statsFromSlice role step p = some p')
    (h : p.Poised) : p'.Poised := by
  intro t' b hb htake
  cases step with
  | begin round =>
      unfold Program.step at hstep
      dsimp only at hstep
      split at hstep
      case isFalse => cases hstep
      case isTrue =>
        obtain ⟨-, rfl⟩ := Pool.begin_inv hstep
        by_cases ht : t' = round.task
        · subst ht
          simp only [Function.update_self] at hb ⊢
          exact actions_poised p.shared round b hb htake
        · simp only [Function.update_of_ne ht] at hb ⊢
          exact h t' b hb htake
  | perform t r =>
      obtain ⟨a, rest, next, e, hpending, hexec, rfl⟩ :=
        Pool.perform_inv hstep
      by_cases ht : t' = t
      · subst ht
        simp only [Function.update_self] at hb ⊢
        rcases List.mem_append.mp hb with hb | hb
        · cases exec_leads hexec b hb <;> cases htake
        · -- what stands behind another action takes nothing
          have hone := h t' b (hpending ▸ List.mem_cons_of_mem a hb) htake
          rw [hpending] at hone
          cases hone
          cases hb
      · simp only [Function.update_of_ne ht] at hb ⊢
        exact h t' b hb htake

-- =============================================================== deadlock

/-- Nothing is left to do but to wait for more: the queues are empty, and
every task is between two rounds or waits at its queue. -/
structure Program.AtRest (p : Program) : Prop where
  toLinks : p.shared.toLinks = []
  fromLinks : p.shared.fromLinks = []
  tasks : ∀ t, p.pending t = [] ∨ ∃ a, a.isTake = true ∧ p.pending t = [a]

/-- A step that brings nothing in: a section, or a round that takes a
chunk off a queue. -/
def ProgramStep.drains : ProgramStep → Bool
  | .begin .sendChunk | .begin .writeTun | .perform _ _ => true
  | .begin _ => false

/-- A task is about to fail, if it reads certain clocks. -/
def Program.Failing (p : Program) : Prop :=
  ∃ t a rest r, p.pending t = a :: rest ∧ Action.Fails r p.shared a

/-- A task can go on, whatever it reads, or a task at a queue can start
its round. -/
def Program.CanDrain (statsFromSlice : List UInt8 → Option StatsPacket)
    (role : Role) (p : Program) : Prop :=
  (∃ t, ∀ r, (Program.step statsFromSlice role (.perform t r) p).isSome)
    ∨ ∃ round, (ProgramStep.begin round).drains = true
      ∧ (Program.step statsFromSlice role (.begin round) p).isSome

/-- What cannot go on waits. -/
private theorem waits_of_stuck {p : Program} (hsound : ¬ p.Failing)
    (hstuck : ¬ p.CanDrain statsFromSlice role) {t : Task} {a : Action}
    {rest : List Action} (hpending : p.pending t = a :: rest) :
    a.Waits p.shared := by
  by_contra hgo
  refine hstuck (Or.inl ⟨t, fun r => ?_⟩)
  cases hexec : Endpoint.exec role r a p.shared with
  | none =>
      rcases exec_stalls hexec with hwaits | hfails
      · exact absurd hwaits hgo
      · exact absurd ⟨t, a, rest, r, hpending, hfails⟩ hsound
  | some out =>
      show (p.perform (Endpoint.exec role) r t).isSome = true
      rw [Pool.perform_of_pending hpending, hexec]
      rfl

/-- The task at a queue is not between two rounds. -/
private theorem pending_of_stuck {p : Program}
    (hstuck : ¬ p.CanDrain statsFromSlice role) (round : Round)
    (hdrains : (ProgramStep.begin round).drains = true)
    (henabled : round.enabled role p.shared = true) :
    p.pending round.task ≠ [] := by
  intro hidle
  refine hstuck (Or.inr ⟨round, hdrains, ?_⟩)
  unfold Program.step
  dsimp only
  rw [if_pos henabled, Pool.begin_of_idle hidle]
  rfl

/-- If nothing can move, the queues are empty. -/
private theorem queues_of_stuck {p : Program} (horderly : p.Orderly)
    (hsound : ¬ p.Failing) (hstuck : ¬ p.CanDrain statsFromSlice role) :
    p.shared.toLinks = [] ∧ p.shared.fromLinks = [] := by
  constructor
  · obtain ⟨a, rest, hpending⟩ := List.exists_cons_of_ne_nil
      (pending_of_stuck hstuck .sendChunk rfl rfl)
    have hwaits := waits_of_stuck hsound hstuck hpending
    have howns := horderly.owned _ a (hpending ▸ List.mem_cons_self)
    cases a with
    | takeChunk => exact hwaits
    | enqueue chunk => rcases howns with h | h <;> cases h
    | forward packet => obtain ⟨linkId, h⟩ := howns; cases h
    | takeReceived => cases howns
    | _ => cases hwaits
  · obtain ⟨a, rest, hpending⟩ := List.exists_cons_of_ne_nil
      (pending_of_stuck hstuck .writeTun rfl rfl)
    have hwaits := waits_of_stuck hsound hstuck hpending
    have howns := horderly.owned _ a (hpending ▸ List.mem_cons_self)
    cases a with
    | takeReceived => exact hwaits
    | enqueue chunk => rcases howns with h | h <;> cases h
    | forward packet => obtain ⟨linkId, h⟩ := howns; cases h
    | takeChunk => cases howns
    | _ => cases hwaits

variable {config : Config} {linkBandwidths : List UInt64} {now : Nat → Nat}
  {steps : List ProgramStep} {p : Program}

/-- A run keeps the tasks at the queues poised. -/
private theorem run_poised
    (hrun : Trace.run (Program.step statsFromSlice role) steps
      (Program.start config linkBandwidths now) = some p) : p.Poised :=
  Trace.run_invariant (P := Program.Poised)
    (fun _ _ _ h hstep => step_poised hstep h) hrun
    (fun _ _ h => nomatch h)

/-- A run keeps a program orderly. -/
theorem run_orderly
    (hrun : Trace.run (Program.step statsFromSlice role) steps
      (Program.start config linkBandwidths now) = some p) : p.Orderly :=
  Trace.run_invariant (P := Program.Orderly)
    (fun _ _ _ h hstep => h.step hstep) hrun (orderly_idle _)

/-- There is no deadlock. In every state that a program reaches in which
no call on the rate controller is about to fail, the program is at rest,
some task can go on whatever it reads, or the task at one of the queues
can start its round. -/
theorem no_deadlock (statsFromSlice : List UInt8 → Option StatsPacket)
    (role : Role) (config : Config) (linkBandwidths : List UInt64)
    (now : Nat → Nat) {steps : List ProgramStep} {p : Program}
    (hrun : Trace.run (Program.step statsFromSlice role) steps
      (Program.start config linkBandwidths now) = some p)
    (hsound : ¬ p.Failing) :
    p.AtRest ∨ p.CanDrain statsFromSlice role := by
  by_cases hstuck : p.CanDrain statsFromSlice role
  · exact Or.inr hstuck
  · obtain ⟨hto, hfrom⟩ := queues_of_stuck (run_orderly hrun) hsound hstuck
    refine Or.inl ⟨hto, hfrom, fun t => ?_⟩
    cases hpending : p.pending t with
    | nil => exact Or.inl rfl
    | cons a rest =>
        have hwaits := waits_of_stuck hsound hstuck hpending
        have htake : a.isTake = true := by
          cases a with
          | enqueue chunk =>
              rw [Action.Waits, hto] at hwaits
              exact absurd hwaits (by decide)
          | forward packet =>
              rw [Action.Waits, hfrom] at hwaits
              exact absurd hwaits (by decide)
          | takeChunk | takeReceived => rfl
          | _ => cases hwaits
        have hone := run_poised hrun t a (hpending ▸ List.mem_cons_self) htake
        exact Or.inr ⟨a, htake, hpending ▸ hone⟩

/-- The client waits at both queues and has a packet to add. -/
def waitingAndReading : List ProgramStep :=
  [.begin .sendChunk, .begin .writeTun, .begin (.readTun [69] none)]

/-- The law there. -/
theorem no_deadlock_waiting : ∃ p,
    Trace.run (Program.step (fun _ => none) .client) waitingAndReading
        freshClient = some p
      ∧ p.pending .chunkSender = [.takeChunk]
      ∧ p.pending .tunReader = [.addPacket [69] none, .recordPacketTx 1]
      ∧ (p.AtRest ∨ p.CanDrain (fun _ => none) .client) := by
  refine ⟨_, rfl, rfl, rfl, no_deadlock (fun _ => none) .client
    Config.default expectedBandwidthUp (fun _ => 0)
    (show Trace.run _ waitingAndReading freshClient = some _ from rfl) ?_⟩
  rintro ⟨t, a, rest, r, hpending, op, hop, -⟩
  cases t <;> cases hpending <;> cases hop

-- =============================================================== livelock

/-- What is still to come of an action, at most: itself, what it leaves,
and what becomes of a chunk that it puts into a queue. -/
def Action.cost (numLinks : Nat) : Action → Nat
  | .addPacket _ _ | .checkTimeout => 10
  | .enqueue _ => 9
  | .schedule _ => 6
  | .sendChunk _ _ => 5
  | .transmitChunk _ _ _ => 4
  | .forward p => 3 + 2 * (Chunk.extractFrom p.payload 0).length
  | .writeTun _ | .checkRates | .sendProbe _ => 2
  | .takeChunk | .takeReceived => 0
  | .readStats => 1 + 2 * numLinks
  | .buildProbes => 1 + 2 * numLinks
  | _ => 1

/-- What is still to come of a chunk that is to be written. -/
def Chunk.cost (c : Chunk) : Nat := 2 + 2 * c.extractPackets.length

/-- What is still to come of the chunks in two queues. -/
def backlog (toLinks fromLinks : List Chunk) : Nat :=
  8 * toLinks.length + (fromLinks.map Chunk.cost).sum

/-- One for a task that is to take a chunk off a queue. -/
def Action.taking (a : Action) : Nat :=
  if a.isTake then 1 else 0

/-- The tasks of a program. -/
def Program.tasks (numLinks : Nat) : Finset Task :=
  {.tunReader, .tunWriter, .chunkSender, .statsUpdater, .timeoutChecker,
    .probeSender, .keepalive} ∪ receivers numLinks

/-- The tasks at the queues. -/
def Program.takers : Finset Task := {.chunkSender, .tunWriter}

/-- The most that a program can still do with what it has: what is to
come of the sections it has to run and of the chunks in its queues, and a
round for each task that can still start one. -/
def Program.remaining (p : Program) : Nat :=
  p.load (Action.cost p.shared.numLinks) (Program.tasks p.shared.numLinks)
    + backlog p.shared.toLinks p.shared.fromLinks
    + (2 - p.load Action.taking Program.takers)

/-- The statistics and the rate controller have an entry for each
link. -/
structure Endpoint.Linked (e : Endpoint) : Prop where
  stats : e.stats.links.length = e.numLinks
  rates : e.rateController.states.length = e.numLinks

/-- A program starts with an entry for each link. -/
private theorem linked_start (config : Config) (linkBandwidths : List UInt64)
    (now : Nat → Nat) :
    (Endpoint.start config linkBandwidths now).Linked := by
  constructor
  · show ((List.range linkBandwidths.length).map _).length = _
    rw [List.length_map, List.length_range]
    rfl
  · show ((linkBandwidths.map UInt64.toNat).mapIdx _).length = _
    rw [List.length_mapIdx, List.length_map]
    rfl

/-- An action keeps the entries. -/
private theorem exec_linked {r : Reading} {a : Action} {e e' : Endpoint}
    {next : List Action}
    (hexec : Endpoint.exec role r a e = some (next, e')) (h : e.Linked) :
    e'.Linked := by
  have houtputs := exec_outputs hexec
  have hnum := (exec_effects hexec).numLinks
  constructor
  · rw [houtputs.stats, hnum, ← h.stats]
    cases a with
    | recordTx linkId bytes => exact List.length_modify ..
    | recordRx linkId bytes => exact List.length_modify ..
    | tickStats => exact List.length_mapIdx ..
    | handleAck linkId ack =>
        unfold Action.observe
        dsimp only
        split
        case isTrue => exact List.length_modify ..
        case isFalse => rfl
    | _ => rfl
  · rw [hnum, ← h.rates]
    have hrates := houtputs.rates
    cases hop : a.rateOp r with
    | none =>
        rw [hop] at hrates
        exact congrArg (fun rc => rc.states.length)
          (Option.some.inj hrates).symm
    | some op =>
        rw [hop] at hrates
        exact (apply_link hrates).2.1

/-- There are as many probes as links. -/
theorem probes_length {rc rc' : RateController}
    {now : Nat → UInt64} {probes : List ProbePacket}
    (hbuild : rc.buildProbes now = some (probes, rc')) :
    probes.length = rc.states.length := by
  unfold RateController.buildProbes at hbuild
  obtain ⟨built, hall, heq⟩ := Option.bind_eq_some_iff.mp hbuild
  cases heq
  rw [List.length_map]
  exact (buildAll_inv hall).1

/-- Two updates for each link. -/
private theorem linkUpdates_cost {n : Nat} (s : StatsCollector) :
    ((Endpoint.linkUpdates s).map (Action.cost n)).sum
      = 2 * s.links.length := by
  have hlist : ∀ measured : List (UInt64 × UInt64), ∀ k,
      (((measured.mapIdx fun i m =>
        [Action.updateLink (k + i) m.1 m.2,
          .updateLinkStats (k + i) m.1 (m.2 / 1000).toUInt32]).flatten).map
            (Action.cost n)).sum = 2 * measured.length := by
    intro measured
    induction measured with
    | nil => intro k; rfl
    | cons m measured ih =>
        intro k
        have hrest := ih (k + 1)
        simp only [Nat.add_assoc, Nat.add_comm 1] at hrest
        rw [List.mapIdx_cons, List.flatten_cons, List.map_append,
          List.sum_append, hrest, List.length_cons]
        show 1 + (1 + 0) + 2 * measured.length = _
        omega
  have hzero := hlist (s.bandwidths.zip s.rtts) 0
  simp only [Nat.zero_add] at hzero
  refine hzero.trans ?_
  rw [List.length_zip]
  unfold StatsCollector.bandwidths StatsCollector.rtts
  rw [List.length_map, List.length_map, Nat.min_self]

/-- Actions alike weigh so much each. -/
private theorem cost_map {α : Type*} {f : α → Action} {n k : Nat}
    (hf : ∀ x, (f x).cost n = k) (l : List α) :
    ((l.map f).map (Action.cost n)).sum = k * l.length := by
  induction l with
  | nil => rfl
  | cons x l ih =>
      rw [List.map_cons, List.map_cons, List.sum_cons, ih, hf,
        List.length_cons, Nat.mul_succ, Nat.add_comm]

/-- A chunk, if any, that is to be queued. -/
private theorem cost_enqueue (n : Nat) (chunk : Option Chunk) :
    ((chunk.toList.map Action.enqueue).map (Action.cost n)).sum ≤ 9 := by
  cases chunk with
  | none => exact Nat.zero_le 9
  | some c => exact Nat.le_refl 9

/-- What is to be sent, if there is where to. -/
private theorem cost_transmit {f : Dest → Action} {n k : Nat}
    (hf : ∀ dest, (f dest).cost n = k) (dest : Option Dest) :
    ((dest.toList.map f).map (Action.cost n)).sum ≤ k := by
  rw [cost_map hf]
  cases dest with
  | none => exact Nat.zero_le k
  | some dest => exact (Nat.mul_one k).le

/-- What an action leaves to do costs less than it does itself, unless it
takes a chunk off a queue. -/
private theorem cost_next {r : Reading} {a : Action} {e e' : Endpoint}
    {next : List Action}
    (hexec : Endpoint.exec role r a e = some (next, e')) (h : e.Linked)
    (htake : a.isTake = false) :
    (next.map (Action.cost e.numLinks)).sum < a.cost e.numLinks := by
  cases a with
  | takeChunk | takeReceived => cases htake
  | addPacket packet flowId =>
      have hnext : (e.aggregator.addPacket packet flowId
          (r.instant 0)).1.toList.map Action.enqueue = next :=
        congrArg Prod.fst (Option.some.inj hexec)
      rw [← hnext]
      exact Nat.lt_succ_of_le (cost_enqueue _ _)
  | checkTimeout =>
      have hnext : (e.aggregator.checkTimeout (r.instant 0)
          (r.instant 1)).1.toList.map Action.enqueue = next :=
        congrArg Prod.fst (Option.some.inj hexec)
      rw [← hnext]
      exact Nat.lt_succ_of_le (cost_enqueue _ _)
  | sendChunk linkId chunk =>
      cases hexec
      exact Nat.lt_succ_of_le (cost_transmit
        (f := fun dest => .transmitChunk linkId dest chunk) (fun _ => rfl) _)
  | sendProbe probe =>
      cases hexec
      exact Nat.lt_succ_of_le (cost_transmit
        (f := fun dest => .transmitProbe dest probe) (fun _ => rfl) _)
  | transmitChunk linkId dest chunk =>
      cases hexec
      split
      case isTrue => exact Nat.lt_succ_self 3
      case isFalse => exact Nat.zero_lt_succ 3
  | readStats =>
      cases hexec
      rw [linkUpdates_cost, h.stats]
      exact Nat.lt_one_add_iff.mpr (Nat.le_refl _)
  | buildProbes =>
      obtain ⟨⟨probes, rc⟩, hbuild, hexec⟩ := Option.bind_eq_some_iff.mp hexec
      cases hexec
      rw [cost_map (f := Action.sendProbe) (fun _ => rfl),
        probes_length hbuild, h.rates]
      exact Nat.lt_one_add_iff.mpr (Nat.le_refl _)
  | rateTx _ _ | rateRx _ _ | processProbe _ =>
      obtain ⟨rc, -, hexec⟩ := Option.bind_eq_some_iff.mp hexec
      cases hexec
      exact Nat.zero_lt_one
  | enqueue chunk =>
      unfold Endpoint.exec at hexec
      dsimp only at hexec
      split at hexec <;> cases hexec
      exact Nat.zero_lt_succ 8
  | forward packet =>
      unfold Endpoint.exec at hexec
      dsimp only at hexec
      split at hexec <;> cases hexec
      exact Nat.lt_of_lt_of_le (Nat.zero_lt_succ 2) (Nat.le_add_right 3 _)
  | schedule _ | writeTun _ | checkRates =>
      cases hexec
      exact Nat.lt_succ_self _
  | _ =>
      cases hexec
      exact Nat.zero_lt_one

/-- An action uses up more than it leaves, and what takes a chunk off a
queue by more than the round for which it frees its task. -/
private theorem exec_cost {r : Reading} {a : Action} {e e' : Endpoint}
    {next : List Action}
    (hexec : Endpoint.exec role r a e = some (next, e')) (h : e.Linked) :
    (next.map (Action.cost e.numLinks)).sum
        + backlog e'.toLinks e'.fromLinks + a.taking
      < a.cost e.numLinks + backlog e.toLinks e.fromLinks := by
  have hto := (exec_effects hexec).toLinks
  have hfrom := (exec_outputs hexec).fromLinks
  have hnext := cost_next hexec h
  rw [hto, hfrom]
  unfold backlog
  cases a with
  | takeChunk =>
      unfold Endpoint.exec at hexec
      dsimp only at hexec
      split at hexec <;> cases hexec
      case h_2 chunk rest hqueue =>
        show 6 + (8 * e.toLinks.tail.length + (e.fromLinks.map _).sum) + 1
          < 0 + _
        rw [hqueue, List.tail_cons, List.length_cons]
        omega
  | takeReceived =>
      unfold Endpoint.exec at hexec
      dsimp only at hexec
      split at hexec <;> cases hexec
      case h_2 chunk rest hqueue =>
        rw [cost_map (f := Action.writeTun) (fun _ => rfl)]
        show 2 * chunk.extractPackets.length
          + (8 * e.toLinks.length + (e.fromLinks.tail.map _).sum) + 1 < 0 + _
        rw [hqueue, List.tail_cons, List.map_cons, List.sum_cons, Chunk.cost]
        omega
  | enqueue chunk =>
      have hlen : (e.toLinks ++ [chunk]).length = e.toLinks.length + 1 :=
        List.length_append
      unfold Endpoint.exec at hexec
      dsimp only at hexec
      split at hexec <;> cases hexec
      show 0 + (8 * (e.toLinks ++ [chunk]).length + (e.fromLinks.map _).sum)
        + 0 < 9 + _
      omega
  | forward packet =>
      have hsum : ((e.fromLinks ++ [packet.toChunk (r.instant 0)]).map
          Chunk.cost).sum = (e.fromLinks.map Chunk.cost).sum
            + (2 + 2 * (Chunk.extractFrom packet.payload 0).length) := by
        rw [List.map_append, List.sum_append]
        rfl
      unfold Endpoint.exec at hexec
      dsimp only at hexec
      split at hexec <;> cases hexec
      show 0 + (8 * e.toLinks.length
        + ((e.fromLinks ++ [packet.toChunk (r.instant 0)]).map _).sum) + 0
          < 3 + 2 * (Chunk.extractFrom packet.payload 0).length + _
      omega
  | _ =>
      have hless := hnext rfl
      show _ + (8 * e.toLinks.length + (e.fromLinks.map _).sum) + 0
        < _ + (8 * e.toLinks.length + (e.fromLinks.map _).sum)
      omega

variable {numLinks : Nat}

/-- Every task that has something to do is one of the program's. -/
private theorem mem_tasks {p : Program} (hsilent : p.Silent numLinks)
    {t : Task} {a : Action} {rest : List Action}
    (hpending : p.pending t = a :: rest) : t ∈ Program.tasks numLinks := by
  unfold Program.tasks
  cases t with
  | linkReceiver linkId =>
      exact Finset.mem_union_right _
        (mem_receivers.mpr (hsilent.pending_lt hpending))
  | _ => exact Finset.mem_union_left _ (by decide)

/-- Only the tasks at the queues take a chunk off one. -/
private theorem taking_eq_zero {t : Task} {a : Action} (howns : t.owns a)
    (ht : t ∉ Program.takers) : a.taking = 0 := by
  cases a with
  | takeChunk =>
      cases howns
      exact absurd (by decide) ht
  | takeReceived =>
      cases howns
      exact absurd (by decide) ht
  | _ => rfl

/-- At most one chunk at a time is to be taken off each queue. -/
private theorem taking_le_two {p : Program} (hpoised : p.Poised) :
    p.load Action.taking Program.takers ≤ 2 := by
  have hone : ∀ t, ((p.pending t).map Action.taking).sum ≤ 1 := by
    intro t
    by_cases htake : ∃ a ∈ p.pending t, a.isTake = true
    · obtain ⟨a, ha, htake⟩ := htake
      rw [hpoised t a ha htake]
      show a.taking + 0 ≤ 1
      unfold Action.taking
      split <;> decide
    · have hzero : (p.pending t).map Action.taking
          = (p.pending t).map fun _ => 0 := by
        refine List.map_congr_left fun a ha => ?_
        exact if_neg fun h => htake ⟨a, ha, h⟩
      rw [hzero, List.map_const', List.sum_replicate_nat, Nat.mul_zero]
      exact Nat.zero_le 1
  rw [Pool.load_eq_sum, Program.takers, Finset.sum_pair (by decide)]
  exact Nat.add_le_add (hone _) (hone _)

/-- What the measure needs to know about a program. -/
private structure Metered (numLinks : Nat) (p : Program) : Prop where
  orderly : p.Orderly
  silent : p.Silent numLinks
  poised : p.Poised
  linked : p.shared.Linked

/-- A section uses something up. -/
private theorem perform_lowers {p p' : Program} (h : Metered numLinks p)
    {t : Task} {r : Reading}
    (hstep : Program.step statsFromSlice role (.perform t r) p = some p') :
    p'.remaining < p.remaining := by
  have hpoised := step_poised hstep h.poised
  obtain ⟨a, rest, next, e, hpending, hexec, rfl⟩ := Pool.perform_inv hstep
  have howns := h.orderly.owned t a (hpending ▸ List.mem_cons_self)
  have hnum : e.numLinks = numLinks :=
    (exec_effects hexec).numLinks.trans h.silent.links
  have hcost := exec_cost hexec h.linked
  have hload := Pool.load_perform (w := Action.cost numLinks)
    (Program.tasks numLinks) hpending next
    (fun ht => absurd (mem_tasks h.silent hpending) ht) e
  have htaking := Pool.load_perform (w := Action.taking) Program.takers
    hpending next (fun ht => ⟨taking_eq_zero howns ht, fun b hb =>
      taking_eq_zero ((exec_leads hexec b hb).owned howns) ht⟩) e
  have hnone : (next.map Action.taking).sum = 0 := by
    refine List.sum_eq_zero fun n hn => ?_
    obtain ⟨b, hb, rfl⟩ := List.mem_map.mp hn
    cases exec_leads hexec b hb <;> rfl
  have hold := taking_le_two h.poised
  have hnew := taking_le_two hpoised
  unfold Program.remaining
  dsimp only
  rw [hnum, h.silent.links]
  rw [h.silent.links] at hcost
  omega

/-- So does a round that takes a chunk off a queue. -/
private theorem begin_lowers {p p' : Program} (h : Metered numLinks p)
    {round : Round} (hdrains : (ProgramStep.begin round).drains = true)
    (hstep : Program.step statsFromSlice role (.begin round) p = some p') :
    p'.remaining < p.remaining := by
  have hpoised := step_poised hstep h.poised
  unfold Program.step at hstep
  dsimp only at hstep
  split at hstep
  case isFalse => cases hstep
  case isTrue =>
    obtain ⟨hidle, rfl⟩ := Pool.begin_inv hstep
    have hnew := taking_le_two hpoised
    have hfree : ((round.actions statsFromSlice role p.shared).map
        (Action.cost p.shared.numLinks)).sum = 0
        ∧ ((round.actions statsFromSlice role p.shared).map
          Action.taking).sum = 1
        ∧ round.task ∈ Program.takers
        ∧ round.task ∈ Program.tasks p.shared.numLinks := by
      cases round with
      | sendChunk | writeTun =>
          exact ⟨rfl, rfl, by decide, Finset.mem_union_left _ (by decide)⟩
      | _ => cases hdrains
    have hload := Pool.load_begin (w := Action.cost p.shared.numLinks)
      (Program.tasks p.shared.numLinks) hidle
      (round.actions statsFromSlice role p.shared)
      fun ht => absurd hfree.2.2.2 ht
    have htaking := Pool.load_begin (w := Action.taking) Program.takers hidle
      (round.actions statsFromSlice role p.shared)
      fun ht => absurd hfree.2.2.1 ht
    unfold Program.remaining
    dsimp only
    rw [hload, hfree.1]
    omega

/-- A step keeps what the measure needs. -/
private theorem Metered.step {p p' : Program} (h : Metered numLinks p)
    {step : ProgramStep}
    (hstep : Program.step statsFromSlice role step p = some p') :
    Metered numLinks p' := by
  refine ⟨h.orderly.step hstep, ?_, step_poised hstep h.poised, ?_⟩
  · cases step with
    | begin round =>
        unfold Program.step at hstep
        dsimp only at hstep
        split at hstep
        case isFalse => cases hstep
        case isTrue henabled =>
          obtain ⟨-, rfl⟩ := Pool.begin_inv hstep
          exact h.silent.begin henabled _
    | perform t r =>
        obtain ⟨a, rest, next, e, hpending, hexec, rfl⟩ :=
          Pool.perform_inv hstep
        exact h.silent.perform hpending hexec
  · cases step with
    | begin round =>
        unfold Program.step at hstep
        dsimp only at hstep
        split at hstep
        case isFalse => cases hstep
        case isTrue =>
          obtain ⟨-, rfl⟩ := Pool.begin_inv hstep
          exact h.linked
    | perform t r =>
        obtain ⟨a, rest, next, e, hpending, hexec, rfl⟩ :=
          Pool.perform_inv hstep
        exact exec_linked hexec h.linked

/-- A reachable program has what the measure needs. -/
private theorem run_metered
    (hrun : Trace.run (Program.step statsFromSlice role) steps
      (Program.start config linkBandwidths now) = some p) :
    Metered linkBandwidths.length p :=
  Trace.run_invariant (P := Metered linkBandwidths.length)
    (fun _ _ _ h hstep => h.step hstep) hrun
    ⟨orderly_idle _, .start config linkBandwidths now, (fun _ _ h => nomatch h),
      linked_start config linkBandwidths now⟩

/-- It has an entry for each link. -/
theorem run_linked
    (hrun : Trace.run (Program.step statsFromSlice role) steps
      (Program.start config linkBandwidths now) = some p) :
    p.shared.Linked :=
  (run_metered hrun).linked

/-- There is no livelock. From every state that a program reaches, however
its tasks take turns, it makes no more than `remaining` steps before a
round starts that brings something in. -/
theorem no_livelock (statsFromSlice : List UInt8 → Option StatsPacket)
    (role : Role) (config : Config) (linkBandwidths : List UInt64)
    (now : Nat → Nat) {steps : List ProgramStep} {p : Program}
    (hrun : Trace.run (Program.step statsFromSlice role) steps
      (Program.start config linkBandwidths now) = some p)
    {more : List ProgramStep} {p' : Program}
    (hmore : Trace.run (Program.step statsFromSlice role) more p = some p')
    (hdrains : ∀ step ∈ more, step.drains = true) :
    more.length + p'.remaining ≤ p.remaining := by
  refine (Trace.run_length_le (P := Metered linkBandwidths.length)
    Program.remaining (fun step q q' h hok hstep => ⟨h.step hstep, ?_⟩)
    hdrains hmore (run_metered hrun)).2
  cases step with
  | begin round => exact begin_lowers h hok hstep
  | perform t r => exact perform_lowers h hstep

/-- From there the reader goes on with two of the eleven steps that are
left. -/
theorem no_livelock_reading : ∃ p p',
    Trace.run (Program.step (fun _ => none) .client) waitingAndReading
        freshClient = some p
      ∧ Trace.run (Program.step (fun _ => none) .client)
        (List.replicate 2 (.perform .tunReader (.atMillis 0))) p = some p'
      ∧ p.remaining = 11 ∧ 2 + p'.remaining ≤ p.remaining := by
  refine ⟨_, _, rfl, rfl, by decide +kernel, ?_⟩
  exact no_livelock (fun _ => none) .client Config.default
    expectedBandwidthUp (fun _ => 0)
    (show Trace.run _ waitingAndReading freshClient = some _ from rfl)
    (show Trace.run _ (List.replicate 2 (.perform .tunReader (.atMillis 0)))
      _ = some _ from rfl) (by decide)

end ChainLightning
