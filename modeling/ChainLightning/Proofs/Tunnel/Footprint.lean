/-
How many chunks a program can have queued, and how large they can be.

Both queues are bounded and a task that would overfill one waits, so
there are at most a thousand chunks in each. A chunk on its way to a link
is bounded by the configuration (`Sized`, Delivery.lean), one on its way
to the TUN device by the 16-bit length it arrived with. The invariant
says so of the current chunk, of both queues and of what the tasks have
in hand (`Endpoint.Bounded`, `Action.Bounded`), whatever datagrams
arrive. It says nothing of the slots of the receiver, of the announcements
it notes and of the flow table.
-/
import ChainLightning.Proofs.Chunk.Delivery
import ChainLightning.Proofs.Tunnel.Downlink
import ChainLightning.Proofs.Tunnel.Uplink

namespace ChainLightning

/-- The most a chunk can grow to: the largest chunk size, or one packet
as long as the TUN reader's buffer. -/
def largestChunk (config : ChunkAggregatorConfig) (numLinks : Nat) : Nat :=
  max (largestChunkSize config numLinks) (2 + 2000)

-- ============================================================ one call

/-- The current chunk and the chunk size are bounded. The packets that
went into a chunk are no part of the bound. -/
def ChunkAggregator.Sized (config : ChunkAggregatorConfig) (numLinks : Nat)
    (a : ChunkAggregator) : Prop :=
  ChainLightning.Sized config numLinks 2000 ⟨a, [], []⟩

/-- A call keeps the bounds, and the chunk it emits is within them. -/
theorem apply_sized {config : ChunkAggregatorConfig} {numLinks : Nat}
    {a : ChunkAggregator} (h : a.Sized config numLinks) {op : AggOp}
    (hop : op.Fits 2000) :
    (op.apply a).2.Sized config numLinks
      ∧ ∀ c ∈ (op.apply a).1, c.size ≤ largestChunk config numLinks := by
  -- a run that has put as many packets into the chunk as it counts
  obtain ⟨s, hs, hcounted, hnone⟩ : ∃ s : Feed, s.agg = a ∧ Counted s
      ∧ s.emitted = [] :=
    ⟨⟨a, List.replicate a.currentChunk.packetCount [], []⟩, rfl,
      List.length_replicate.symm, rfl⟩
  have hsized : ChainLightning.Sized config numLinks 2000 s := by
    refine ⟨hs ▸ h.configured, hs ▸ h.links, hs ▸ h.optimal, hs ▸ h.current,
      ?_⟩
    rw [hnone]
    exact fun _ h => nomatch h
  obtain ⟨s', hstep, hagg, hchunks⟩ := step_apply op s
  have hsized' := hsized.moves hop (step_moves hcounted hstep)
  rw [hs] at hagg hchunks
  constructor
  · rw [← hagg]
    exact ⟨hsized'.configured, hsized'.links, hsized'.optimal,
      hsized'.current, fun _ h => nomatch h⟩
  · intro c hc
    have hmem : c ∈ s'.chunks := by
      rw [hchunks]
      exact List.mem_append_right _ (Option.mem_toList.mpr hc)
    obtain ⟨e, he, rfl⟩ := List.mem_map.mp hmem
    exact hsized'.emitted e he

-- ============================================================== invariant

/-- An action keeps a condition of the aggregator, if it adds no packet
longer than the TUN reader's buffer, and the chunk that is emitted is
within a size. -/
def Action.Keeps (A : ChunkAggregator → Prop) (size : Nat) (r : Reading)
    (a : Action) (e : Endpoint) : Prop :=
  ∀ op, a.aggOp r = some op → op.Fits 2000 → A e.aggregator →
    A (op.apply e.aggregator).2
      ∧ ∀ c ∈ (op.apply e.aggregator).1, c.size ≤ size

/-- The queues are bounded, and so is every chunk in them. -/
structure Endpoint.Bounded (A : ChunkAggregator → Prop) (size : Nat)
    (e : Endpoint) : Prop where
  aggregator : A e.aggregator
  toLinks : e.toLinks.length ≤ Endpoint.channelCapacity
    ∧ ∀ c ∈ e.toLinks, c.size ≤ size
  fromLinks : e.fromLinks.length ≤ Endpoint.channelCapacity
    ∧ ∀ c ∈ e.fromLinks, c.size ≤ 65535

/-- What an action has in hand is bounded. -/
structure Action.Bounded (size : Nat) (a : Action) : Prop where
  adds : ∀ packet ∈ a.adds, packet.length ≤ 2000
  chunks : ∀ c ∈ a.cargo, c.size ≤ size
  forwards : ∀ p ∈ a.forwards, p.payload.length ≤ 65535

variable {A : ChunkAggregator → Prop} {size : Nat}

/-- A round starts with nothing larger than the TUN reader's buffer, or
than a length of 16 bits. -/
private theorem actions_bounded
    (statsFromSlice : List UInt8 → Option StatsPacket) (role : Role)
    (round : Round) (e : Endpoint) (henabled : round.enabled role e = true) :
    ∀ a ∈ round.actions statsFromSlice role e, a.Bounded size := by
  intro a ha
  have hcargo := (actions_empty statsFromSlice role e round a ha).1
  have hforwards := (actions_arrived statsFromSlice role e round).2
  refine ⟨fun packet hpacket => ?_, ?_, fun p hp => ?_⟩
  · cases round with
    | readTun packet' flowId =>
        have hbuffer : 0 < packet'.length ∧ packet'.length ≤ 2000 := by
          simpa [Round.enabled] using henabled
        have hadds : a.adds = [] ∨ a.adds = [packet'] := by
          simp only [Round.actions, List.mem_cons, List.not_mem_nil,
            or_false] at ha
          rcases ha with rfl | rfl
          · exact Or.inr rfl
          · exact Or.inl rfl
        rcases hadds with hnone | hone
        · rw [hnone] at hpacket
          cases hpacket
        · rw [hone] at hpacket
          cases List.mem_singleton.mp hpacket
          exact hbuffer.2
    | _ =>
        have howns := actions_owned statsFromSlice role e _ a ha
        cases a with
        | addPacket packet flowId => cases howns
        | _ => cases hpacket
  · rw [hcargo]
    exact fun _ h => absurd h List.not_mem_nil
  · have hp : p ∈ (ProgramEvent.began round).arrived := by
      rw [← hforwards]
      exact List.mem_flatMap.mpr ⟨a, ha, hp⟩
    cases round with
    | receive linkId bytes src =>
        have hlength := chunk_decode_payload (Option.mem_toList.mp hp)
        have hfit := (u16At bytes 18 20).toNat_lt
        omega
    | _ => cases hp

/-- A task waits while the queue it sends to is full. -/
private theorem exec_waits {role : Role} {r : Reading} {a : Action}
    {e e' : Endpoint} {next : List Action}
    (hexec : Endpoint.exec role r a e = some (next, e')) :
    (∀ chunk, a = .enqueue chunk →
      e.toLinks.length < Endpoint.channelCapacity)
    ∧ ∀ p, a = .forward p →
      e.fromLinks.length < Endpoint.channelCapacity := by
  constructor
  · rintro chunk rfl
    by_contra hfull
    rw [Endpoint.exec, if_neg hfull] at hexec
    cases hexec
  · rintro p rfl
    by_contra hfull
    rw [Endpoint.exec, if_neg hfull] at hexec
    cases hexec

/-- An action keeps what it has in hand and what lies in the state
bounded. -/
private theorem exec_bounded {role : Role} {r : Reading} {a : Action}
    {e e' : Endpoint} {next : List Action} (hkeeps : a.Keeps A size r e)
    (ha : a.Bounded size) (h : e.Bounded A size)
    (hexec : Endpoint.exec role r a e = some (next, e')) :
    e'.Bounded A size ∧ ∀ b ∈ next, b.Bounded size := by
  have heffects := exec_effects hexec
  have houtputs := exec_outputs hexec
  -- the aggregator, and the chunk it emits
  have hagg : A e'.aggregator ∧ ∀ c ∈ a.emits r e, c.size ≤ size := by
    have hpackets : (a.aggOp r).toList.flatMap AggOp.packets = a.adds := by
      cases a <;> rfl
    have hadds := ha.adds
    unfold Action.emits
    rw [heffects.aggregator]
    rw [← hpackets] at hadds
    cases hop : a.aggOp r with
    | none => exact ⟨h.aggregator, fun _ h => nomatch h⟩
    | some op =>
        rw [hop, Option.toList_some, List.flatMap_singleton] at hadds
        obtain ⟨hkept, hemitted⟩ := hkeeps op hop hadds h.aggregator
        exact ⟨hkept, fun c hc => hemitted c (Option.mem_toList.mp hc)⟩
  -- the chunks the action leaves in hand or in the queue
  have hmoved : ∀ c ∈ a.leaves r e ++ a.queue e.toLinks ++ a.hands,
      c.size ≤ size := by
    intro c hc
    have hc := (chunks_move r e a).mem_iff.mp hc
    simp only [List.mem_append] at hc
    rcases hc with (hc | hc) | hc
    · exact ha.chunks c (a.chunks_subset_cargo hc)
    · exact hagg.2 c hc
    · exact h.toLinks.2 c hc
  obtain ⟨hwaits, hwaits'⟩ := exec_waits hexec
  refine ⟨⟨hagg.1, ⟨?_, ?_⟩, ⟨?_, ?_⟩⟩, fun b hb => ⟨?_, ?_, ?_⟩⟩
  · rw [heffects.toLinks]
    cases a with
    | enqueue chunk =>
        have hroom := hwaits chunk rfl
        show (e.toLinks ++ [chunk]).length ≤ _
        rw [List.length_append]
        exact hroom
    | takeChunk =>
        show e.toLinks.tail.length ≤ _
        rw [List.length_tail]
        exact (Nat.sub_le _ _).trans h.toLinks.1
    | _ => exact h.toLinks.1
  · rw [heffects.toLinks]
    exact fun c hc => hmoved c
      (List.mem_append_left _ (List.mem_append_right _ hc))
  · rw [houtputs.fromLinks]
    cases a with
    | forward p =>
        have hroom := hwaits' p rfl
        show (e.fromLinks ++ [p.toChunk (r.instant 0)]).length ≤ _
        rw [List.length_append]
        exact hroom
    | takeReceived =>
        show e.fromLinks.tail.length ≤ _
        rw [List.length_tail]
        exact (Nat.sub_le _ _).trans h.fromLinks.1
    | _ => exact h.fromLinks.1
  · rw [houtputs.fromLinks]
    cases a with
    | forward p =>
        intro c hc
        rcases List.mem_append.mp hc with hc | hc
        · exact h.fromLinks.2 c hc
        · cases List.mem_singleton.mp hc
          exact ha.forwards p List.mem_cons_self
    | takeReceived =>
        exact fun c hc => h.fromLinks.2 c (List.mem_of_mem_tail hc)
    | _ => exact h.fromLinks.2
  · rw [List.flatMap_eq_nil_iff.mp (leads_adds (exec_leads hexec)) b hb]
    exact fun _ h => nomatch h
  · intro c hc
    refine hmoved c ?_
    rcases next_cargo hexec b hb c hc with hc | hc
    · exact List.mem_append_left _ (List.mem_append_left _ hc)
    · exact List.mem_append_right _ hc
  · rw [List.flatMap_eq_nil_iff.mp (leads_plain (exec_leads hexec)).1 b hb]
    exact fun _ h => nomatch h

/-- A program whose queues and chunks are bounded. -/
def Program.Bounded (A : ChunkAggregator → Prop) (size : Nat)
    (p : Program) : Prop :=
  Pool.Fine (Endpoint.Bounded A size) (Action.Bounded size) p

theorem bounded_start (config : Config) (linkBandwidths : List UInt64)
    (now : Nat → Nat)
    (hstart : A (ChunkAggregator.new config.chunkAggregator
      linkBandwidths.length (now 0))) :
    (Program.start config linkBandwidths now).Bounded A size :=
  Pool.fine_idle ⟨hstart, ⟨Nat.zero_le _, fun _ h => nomatch h⟩,
    ⟨Nat.zero_le _, fun _ h => nomatch h⟩⟩

/-- A step keeps a program's queues and chunks bounded if its action keeps
the aggregator's condition. -/
theorem step_bounded {statsFromSlice : List UInt8 → Option StatsPacket}
    {role : Role} {step : ProgramStep} {p p' : Program}
    (hkeeps : step.Performs (fun r a e => a.Keeps A size r e) p)
    (hstep : Program.step statsFromSlice role step p = some p')
    (h : p.Bounded A size) : p'.Bounded A size := by
  cases step with
  | begin round =>
      unfold Program.step at hstep
      dsimp only at hstep
      split at hstep
      case isFalse => cases hstep
      case isTrue henabled =>
        exact Pool.Fine.begin h
          (actions_bounded statsFromSlice role round _ henabled) hstep
  | perform t r =>
      obtain ⟨a, rest, next, e, hpending, hexec, rfl⟩ :=
        Pool.perform_inv hstep
      have ha := h.pending t a (hpending ▸ List.mem_cons_self)
      obtain ⟨he, hnext⟩ := exec_bounded
        (ProgramStep.Performs.head hkeeps hpending) ha h.shared hexec
      refine ⟨he, Pool.pending_update h.pending fun b hb => ?_⟩
      rcases List.mem_append.mp hb with hb | hb
      · exact hnext b hb
      · exact h.pending t b (hpending ▸ List.mem_cons_of_mem a hb)

/-- What is queued or in hand is within the size. -/
theorem Program.Bounded.within {p : Program} (h : p.Bounded A size)
    {c : Chunk} (hc : c ∈ p.shared.toLinks
      ∨ ∃ t, c ∈ p.hold Action.cargo t) : c.size ≤ size := by
  rcases hc with hc | ⟨t, hc⟩
  · exact h.shared.toLinks.2 c hc
  · obtain ⟨a, ha, hc⟩ := List.mem_flatMap.mp hc
    exact (h.pending t a ha).chunks c hc

/-- Whatever an action is, it keeps the bounds of the configuration. -/
private theorem performs_keeps {config : ChunkAggregatorConfig}
    {numLinks : Nat} (step : ProgramStep) (p : Program) :
    step.Performs (fun r a e => a.Keeps
      (ChunkAggregator.Sized config numLinks)
      (largestChunk config numLinks) r e) p := by
  cases step with
  | begin round => trivial
  | perform t r =>
      exact fun _ _ _ _ hop hsized => apply_sized hsized hop

/-- Queues and chunks are bounded. In every run from a valid configuration,
whatever is read and whatever datagrams arrive, there are at most a
thousand chunks in each queue; the current chunk, and every chunk queued or
in hand on its way to a link, is within the largest chunk size or one
packet of the TUN reader's buffer; every chunk queued or in hand on its way
to the TUN device is within 65535 bytes. -/
theorem memory_bounded (statsFromSlice : List UInt8 → Option StatsPacket)
    (role : Role) (config : Config) (hvalid : config.validate = .ok ())
    (linkBandwidths : List UInt64) (now : Nat → Nat)
    {steps : List ProgramStep} {p : Program}
    (hrun : Trace.run (Program.step statsFromSlice role) steps
      (Program.start config linkBandwidths now) = some p) :
    p.shared.toLinks.length ≤ 1000 ∧ p.shared.fromLinks.length ≤ 1000
    ∧ (∀ c, c = p.shared.aggregator.currentChunk ∨ c ∈ p.shared.toLinks
        ∨ (∃ t, c ∈ p.hold Action.cargo t) →
      c.size ≤ largestChunk config.chunkAggregator linkBandwidths.length)
    ∧ (∀ c ∈ p.shared.fromLinks, c.size ≤ 65535)
    ∧ ∀ t, ∀ packet ∈ p.hold Action.forwards t,
        packet.payload.length ≤ 65535 := by
  have hbounded := Trace.run_invariant
    (P := Program.Bounded
      (ChunkAggregator.Sized config.chunkAggregator linkBandwidths.length)
      (largestChunk config.chunkAggregator linkBandwidths.length))
    (fun _ _ _ h hstep => step_bounded (performs_keeps _ _) hstep h) hrun
    (bounded_start config linkBandwidths now (sized_start
      (Config.validate_chunk_sizes hvalid) linkBandwidths.length 2000
      (now 0)))
  refine ⟨hbounded.shared.toLinks.1, hbounded.shared.fromLinks.1, ?_,
    hbounded.shared.fromLinks.2, fun t packet hpacket => ?_⟩
  · rintro c (rfl | hc)
    · exact hbounded.shared.aggregator.current
    · exact hbounded.within hc
  · obtain ⟨a, ha, hp⟩ := List.mem_flatMap.mp hpacket
    exact (hbounded.pending t a ha).forwards packet hp

/-- The bound while the reader and the checker have a chunk in hand, with
the default configuration. -/
theorem memory_bounded_in_hand : ∃ p,
    Trace.run (Program.step (fun _ => none) .client) bothInHand freshClient
        = some p
      ∧ (p.hold Action.cargo .tunReader).length = 1
      ∧ ∀ c ∈ p.hold Action.cargo .tunReader, c.size
        ≤ largestChunk Config.default.chunkAggregator 5 := by
  have hhand : (Trace.run (Program.step (fun _ => none) .client) bothInHand
      freshClient).map (fun p => (p.hold Action.cargo .tunReader).length)
      = some 1 := by
    decide +kernel
  obtain ⟨p, hrun, hhand⟩ := Option.map_eq_some_iff.mp hhand
  exact ⟨p, hrun, hhand, fun c hc => (memory_bounded (fun _ => none) .client
    Config.default (by decide +kernel) expectedBandwidthUp
    (fun _ => 0) hrun).2.2.1 c (Or.inr (Or.inr ⟨_, hc⟩))⟩

end ChainLightning
