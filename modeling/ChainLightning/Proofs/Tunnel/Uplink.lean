/-
From the TUN device to the links: no packet is lost or made up inside a
program.

A packet that was read is in one place: in the reader's hand, in the
current chunk, in a chunk that a task has in hand or that is queued, or
in a chunk that was handed to a link. Every action moves packets between
these places and leaves their total (`exec_packets`); what the tasks have
in hand is tallied whatever their order (Tally.lean), so the total is kept
in every interleaving (`uplink_conserves`).

The current chunk holds frames of packets at any moment
(`Endpoint.Framed`); the calls of the aggregator keep that, which is
where what is extracted from a chunk is what was put into it.
-/
import ChainLightning.Lib.Tally
import ChainLightning.Proofs.Chunk.Order
import ChainLightning.Proofs.Endpoint.Outputs

namespace ChainLightning

-- ============================================================ one call

/-- The packets put into the chunks of a run, oldest first. -/
def Feed.items (s : Feed) : List (List UInt8) :=
  (s.emitted.map Prod.snd).flatten ++ s.unsent

/-- A run of the aggregator whose chunks hold the packets put into
them. -/
structure Feed.Framed (s : Feed) : Prop where
  current : s.agg.currentChunk.Holds s.unsent
  emitted : ∀ e ∈ s.emitted, e.1.Holds e.2
  fits : ∀ p ∈ s.items, p.length ≤ 65535

namespace Feed.Framed

variable {s s' : Feed} {ps : List (List UInt8)}

theorem move (h : s.Framed) (hfits : ∀ p ∈ ps, p.length ≤ 65535)
    (hmove : Move ps s s') : s'.Framed ∧ s'.items = s.items ++ ps := by
  cases hmove with
  | push p room =>
      have hp : p.length ≤ 65535 := hfits p List.mem_cons_self
      have hitems : (s.emitted.map Prod.snd).flatten ++ (s.unsent ++ [p])
          = s.items ++ [p] := (List.append_assoc _ _ _).symm
      refine ⟨⟨h.current.addPacket hp, h.emitted, ?_⟩, hitems⟩
      intro q hq
      have hq : q ∈ s.items ++ [p] := by
        rw [← hitems]
        exact hq
      rcases List.mem_append.mp hq with hq | hq
      · exact h.fits q hq
      · rw [List.mem_singleton.mp hq]
        exact hp
  | flow flowId =>
      exact ⟨⟨⟨h.current.data, h.current.count⟩, h.emitted, h.fits⟩,
        (List.append_nil _).symm⟩
  | cut now nonempty =>
      have hitems : ((s.emitted ++ [((s.agg.finalizeCurrentChunk now).1,
          s.unsent)]).map Prod.snd).flatten ++ [] = s.items := by
        rw [List.append_nil, List.map_append, List.flatten_append]
        exact congrArg _ (List.append_nil _)
      refine ⟨⟨Chunk.Holds.new s.agg.nextChunkId now, ?_, ?_⟩, ?_⟩
      · intro e he
        rcases List.mem_append.mp he with he | he
        · exact h.emitted e he
        · rw [List.mem_singleton.mp he]
          exact ⟨h.current.data, h.current.count⟩
      · exact fun q hq => h.fits q (hitems ▸ hq)
      · exact hitems.trans (List.append_nil _).symm
  | stats linkId bandwidthBps rttMs =>
      obtain ⟨hcurrent, -⟩ :=
        updateLinkStats_current s.agg linkId bandwidthBps rttMs
      exact ⟨⟨hcurrent ▸ h.current, h.emitted, h.fits⟩,
        (List.append_nil _).symm⟩

theorem moves (h : s.Framed) (hfits : ∀ p ∈ ps, p.length ≤ 65535)
    (hmoves : Moves ps s s') : s'.Framed ∧ s'.items = s.items ++ ps := by
  induction hmoves with
  | done s => exact ⟨h, (List.append_nil _).symm⟩
  | step hmove _ ih =>
      obtain ⟨h₁, hitems₁⟩ :=
        h.move (fun p hp => hfits p (List.mem_append_left _ hp)) hmove
      obtain ⟨h₂, hitems₂⟩ :=
        ih h₁ fun p hp => hfits p (List.mem_append_right _ hp)
      exact ⟨h₂, by rw [hitems₂, hitems₁, List.append_assoc]⟩

/-- What is extracted from the chunks of a run is what was put into
them. -/
theorem extract (h : s.Framed) :
    s.chunks.flatMap Chunk.extractPackets
        ++ s.agg.currentChunk.extractPackets = s.items := by
  have hfits := List.forall_mem_append.mp h.fits
  have heach : s.emitted.map (fun e => e.1.extractPackets)
      = s.emitted.map Prod.snd := by
    refine List.map_congr_left fun e he => ?_
    refine (h.emitted e he).extractPackets fun p hp => hfits.1 p ?_
    exact List.mem_flatten.mpr ⟨e.2, List.mem_map_of_mem he, hp⟩
  rw [h.current.extractPackets hfits.2, Feed.chunks, List.flatMap_def,
    List.map_map, Feed.items, ← heach]
  rfl

end Feed.Framed

/-- The current chunk is the frames of packets. -/
def Endpoint.Framed (e : Endpoint) : Prop :=
  ∃ ps, e.aggregator.currentChunk.Holds ps ∧ ∀ p ∈ ps, p.length ≤ 65535

/-- A call leaves a chunk of frames, and the packets that were there and
those it adds are in the chunk it emits and in the one it leaves. -/
theorem apply_packets {a : ChunkAggregator} {ps : List (List UInt8)}
    (hholds : a.currentChunk.Holds ps) (hps : ∀ p ∈ ps, p.length ≤ 65535)
    {op : AggOp} (hop : op.Fits 65535) :
    (∃ ps', (op.apply a).2.currentChunk.Holds ps'
        ∧ ∀ p ∈ ps', p.length ≤ 65535)
      ∧ (op.apply a).1.toList.flatMap Chunk.extractPackets
          ++ (op.apply a).2.currentChunk.extractPackets
        = a.currentChunk.extractPackets ++ op.packets := by
  -- a run that stands at this aggregator
  have hframed : Feed.Framed ⟨a, ps, []⟩ :=
    ⟨hholds, (fun _ h => nomatch h), hps⟩
  have hcounted : Counted ⟨a, ps, []⟩ := hholds.count
  obtain ⟨s', hstep, hagg, hchunks⟩ := step_apply op ⟨a, ps, []⟩
  obtain ⟨hframed', hitems⟩ :=
    hframed.moves hop (step_moves hcounted hstep)
  have hcurrent : a.currentChunk.extractPackets = ps :=
    hholds.extractPackets hps
  have hextract := hframed'.extract
  rw [hagg, hchunks, hitems] at hextract
  rw [hagg.symm]
  refine ⟨⟨s'.unsent, hframed'.current, ?_⟩, ?_⟩
  · exact (List.forall_mem_append.mp hframed'.fits).2
  · rw [hagg, hcurrent]
    exact hextract

-- ============================================================ one action

/-- The packets an action has in hand on their way to a link. -/
def Action.packets (a : Action) : List (List UInt8) :=
  a.adds ++ a.chunks.flatMap Chunk.extractPackets

/-- The packets in the current chunk and in the queue. -/
def Endpoint.packets (e : Endpoint) : List (List UInt8) :=
  e.aggregator.currentChunk.extractPackets
    ++ e.toLinks.flatMap Chunk.extractPackets

/-- The tasks that move packets towards the links. -/
def uplink : Finset Task := {.tunReader, .timeoutChecker, .chunkSender}

/-- The other tasks have no packet in hand. -/
theorem packets_owned {t : Task} {a : Action} (howns : t.owns a)
    (ht : t ∉ uplink) : a.packets = [] := by
  have hne : t ≠ .tunReader ∧ t ≠ .timeoutChecker ∧ t ≠ .chunkSender := by
    simpa [uplink] using ht
  cases a with
  | addPacket packet flowId => exact absurd howns hne.1
  | enqueue chunk =>
      rcases howns with h | h
      · exact absurd h hne.1
      · exact absurd h hne.2.1
  | schedule chunk => exact absurd howns hne.2.2
  | sendChunk linkId chunk => exact absurd howns hne.2.2
  | _ => rfl

/-- What an action leaves to do has no packet to add. -/
theorem leads_adds {role : Role} {e : Endpoint} {a : Action}
    {next : List Action}
    (hlead : ∀ b ∈ next, Action.Leads role e a b) :
    next.flatMap Action.adds = [] := by
  refine List.flatMap_eq_nil_iff.mpr fun b hb => ?_
  cases hlead b hb <;> rfl

/-- Chunks that an action has in hand, that are queued or that the
aggregator emits are handed to a link, left in the task's hand or
queued. -/
theorem chunks_move (r : Reading) (e : Endpoint) (a : Action) :
    (a.leaves r e ++ a.queue e.toLinks ++ a.hands).Perm
      (a.chunks ++ a.emits r e ++ e.toLinks) := by
  cases a with
  | addPacket packet flowId =>
      exact .of_eq (List.append_nil _)
  | checkTimeout => exact .of_eq (List.append_nil _)
  | updateLinkStats _ _ _ => exact .of_eq (List.append_nil _)
  | enqueue chunk =>
      show (e.toLinks ++ [chunk] ++ []).Perm ([chunk] ++ e.toLinks)
      rw [List.append_nil]
      exact List.perm_append_comm
  | takeChunk =>
      show (e.toLinks.take 1 ++ e.toLinks.tail ++ []).Perm e.toLinks
      rw [List.append_nil, ← List.drop_one, List.take_append_drop]
  | schedule chunk => exact .of_eq (List.append_nil _)
  | sendChunk linkId chunk => exact List.perm_append_comm
  | _ => exact .of_eq (List.append_nil _)

/-- An action keeps the total of packets: what it has in hand and what
lies in the state before is there or handed to a link behind. -/
theorem exec_packets {role : Role} {r : Reading} {a : Action}
    {e e' : Endpoint} {next : List Action} (hframed : e.Framed)
    (hadds : ∀ packet ∈ a.adds, packet.length ≤ 65535)
    (hexec : Endpoint.exec role r a e = some (next, e')) :
    e'.Framed
      ∧ (next.flatMap Action.packets : Multiset (List UInt8)) + e'.packets
          + a.hands.flatMap Chunk.extractPackets
        = (a.packets : Multiset (List UInt8)) + e.packets := by
  have heffects := exec_effects hexec
  obtain ⟨ps, hholds, hps⟩ := hframed
  -- the aggregator's part
  have hagg : e'.Framed
      ∧ (a.emits r e).flatMap Chunk.extractPackets
          ++ e'.aggregator.currentChunk.extractPackets
        = e.aggregator.currentChunk.extractPackets ++ a.adds := by
    have hpackets : (a.aggOp r).toList.flatMap AggOp.packets = a.adds := by
      cases a <;> rfl
    unfold Endpoint.Framed Action.emits
    rw [heffects.aggregator, ← hpackets]
    rw [← hpackets] at hadds
    cases hop : a.aggOp r with
    | none =>
        refine ⟨⟨ps, hholds, hps⟩, ?_⟩
        exact (List.append_nil _).symm
    | some op =>
        rw [hop, Option.toList_some, List.flatMap_singleton] at hadds
        rw [Option.toList_some, List.flatMap_singleton]
        exact apply_packets hholds hps hadds
  refine ⟨hagg.1, ?_⟩
  -- the chunks' part
  have hnext : next.flatMap Action.packets
      = (a.leaves r e).flatMap Chunk.extractPackets := by
    have hsplit : ∀ acts : List Action, acts.flatMap Action.adds = [] →
        acts.flatMap Action.packets
          = (acts.flatMap Action.chunks).flatMap Chunk.extractPackets := by
      intro acts hacts
      rw [List.flatMap_assoc]
      refine List.flatMap_congr fun b hb => ?_
      have hb : b.adds = [] := List.flatMap_eq_nil_iff.mp hacts b hb
      rw [Action.packets, hb, List.nil_append]
    rw [hsplit next (leads_adds (exec_leads hexec)), heffects.leaves]
  have hmove := (chunks_move r e a).flatMap_right Chunk.extractPackets
  rw [List.flatMap_append, List.flatMap_append, List.flatMap_append,
    List.flatMap_append, ← Multiset.coe_eq_coe] at hmove
  have htotal := congrArg (fun l : List (List UInt8) =>
    (l : Multiset (List UInt8))) hagg.2
  simp only [← Multiset.coe_add] at hmove htotal
  rw [hnext, Endpoint.packets, heffects.toLinks, Action.packets,
    Endpoint.packets]
  simp only [← Multiset.coe_add]
  generalize (((a.leaves r e).flatMap Chunk.extractPackets :
    List (List UInt8)) : Multiset (List UInt8)) = leaves at *
  generalize (((a.queue e.toLinks).flatMap Chunk.extractPackets :
    List (List UInt8)) : Multiset (List UInt8)) = queue at *
  calc leaves + (e'.aggregator.currentChunk.extractPackets + queue)
        + a.hands.flatMap Chunk.extractPackets
      = (leaves + queue + a.hands.flatMap Chunk.extractPackets)
          + e'.aggregator.currentChunk.extractPackets := by ac_rfl
    _ = a.chunks.flatMap Chunk.extractPackets
          + e.toLinks.flatMap Chunk.extractPackets
          + ((a.emits r e).flatMap Chunk.extractPackets
            + e'.aggregator.currentChunk.extractPackets) := by
        rw [hmove]
        ac_rfl
    _ = _ := by
        rw [htotal]
        ac_rfl

-- ================================================================== runs

/-- The packets a run has read are where the program has put them. -/
structure Uplinked (seen : List ProgramEvent) (p : Program) : Prop where
  fine : Pool.Fine Endpoint.Framed
    (fun a => ∀ packet ∈ a.adds, packet.length ≤ 65535) p
  balance : (seen.flatMap ProgramEvent.read : Multiset (List UInt8))
    = p.tally Action.packets uplink + p.shared.packets
      + (seen.flatMap ProgramEvent.handed).flatMap Chunk.extractPackets

theorem uplinked_start (config : Config) (linkBandwidths : List UInt64)
    (now : Nat → Nat) :
    Uplinked [] (Program.start config linkBandwidths now) where
  fine := Pool.fine_idle ⟨[], Chunk.Holds.new 0 (now 0), fun _ h => nomatch h⟩
  balance := by
    have hcurrent : (Chunk.new 0 (now 0)).extractPackets = [] :=
      (Chunk.Holds.new 0 (now 0)).extractPackets fun _ h => nomatch h
    have hpackets : Endpoint.packets
        (Endpoint.start config linkBandwidths now) = [] :=
      congrArg (· ++ []) hcurrent
    rw [Program.start, Pool.tally_idle, zero_add]
    exact (congrArg _ hpackets.symm).trans (add_zero _).symm

namespace Uplinked

variable {seen : List ProgramEvent} {p : Program}

/-- A round brings the packet it reads into its task's hand. -/
private theorem actions_packets
    (statsFromSlice : List UInt8 → Option StatsPacket) (role : Role)
    (e : Endpoint) (round : Round) :
    (round.actions statsFromSlice role e).flatMap Action.packets
      = (ProgramEvent.began round).read := by
  cases round with
  | readTun packet flowId => rfl
  | receive linkId bytes src =>
      refine List.flatMap_eq_nil_iff.mpr fun a ha => ?_
      refine packets_owned (t := .linkReceiver linkId) ?_ (by simp [uplink])
      exact actions_owned statsFromSlice role e (.receive linkId bytes src) a
        ha
  | updateStats =>
      refine List.flatMap_eq_nil_iff.mpr fun a ha => ?_
      refine packets_owned (t := .statsUpdater) ?_ (by simp [uplink])
      exact actions_owned statsFromSlice role e .updateStats a ha
  | sendKeepalives =>
      refine List.flatMap_eq_nil_iff.mpr fun a ha => ?_
      refine packets_owned (t := .keepalive) ?_ (by simp [uplink])
      exact actions_owned statsFromSlice role e .sendKeepalives a ha
  | _ => rfl

/-- The packet that is read is no longer than the buffer. -/
private theorem read_fits {role : Role} {e : Endpoint} {round : Round}
    (henabled : round.enabled role e = true) :
    ∀ packet ∈ (ProgramEvent.began round).read, packet.length ≤ 65535 := by
  intro packet hpacket
  cases round with
  | readTun packet' flowId =>
      cases List.mem_singleton.mp hpacket
      have hbuffer : 0 < packet.length ∧ packet.length ≤ 2000 := by
        simpa [Round.enabled] using henabled
      omega
  | _ => cases hpacket

theorem begin (h : Uplinked seen p)
    {statsFromSlice : List UInt8 → Option StatsPacket} {role : Role}
    {round : Round} (henabled : round.enabled role p.shared = true)
    (hidle : p.pending round.task = []) :
    Uplinked (seen ++ [.began round])
      { p with
        pending := Function.update p.pending round.task
          (round.actions statsFromSlice role p.shared) } := by
  have hpackets := actions_packets statsFromSlice role p.shared round
  constructor
  · refine h.fine.begin (fun a ha packet hpacket => ?_)
      (Pool.begin_of_idle hidle)
    refine read_fits henabled packet ?_
    rw [← hpackets]
    exact List.mem_flatMap.mpr ⟨a, ha, List.mem_append_left _ hpacket⟩
  · have htally := Pool.tally_begin Action.packets uplink hidle fun ht =>
      List.flatMap_eq_nil_iff.mpr fun a ha =>
        packets_owned (actions_owned statsFromSlice role p.shared round a ha)
          ht
    have hhanded : (seen ++ [ProgramEvent.began round]).flatMap
        ProgramEvent.handed
        = seen.flatMap ProgramEvent.handed := by
      rw [List.flatMap_append]
      exact List.append_nil _
    rw [htally, hpackets, hhanded, List.flatMap_append,
      List.flatMap_singleton, ← Multiset.coe_add, h.balance]
    ac_rfl

theorem perform (h : Uplinked seen p) {role : Role} {r : Reading} {t : Task}
    {a : Action} {rest next : List Action} {e : Endpoint}
    (horderly : p.Orderly) (hpending : p.pending t = a :: rest)
    (hexec : Endpoint.exec role r a p.shared = some (next, e)) :
    Uplinked (seen ++ [.performed r a p.shared])
      { shared := e, pending := Function.update p.pending t (next ++ rest) } := by
  have hmem : a ∈ p.pending t := hpending ▸ List.mem_cons_self
  have howns : t.owns a := horderly.owned t a hmem
  obtain ⟨hframed, hsection⟩ :=
    exec_packets h.fine.shared (h.fine.pending t a hmem) hexec
  constructor
  · have hstep : p.perform (Endpoint.exec role) r t = some
        { shared := e, pending := Function.update p.pending t (next ++ rest) } := by
      rw [Pool.perform_of_pending hpending, hexec]
      rfl
    refine h.fine.perform (fun b s next s' hb hs hexec => ?_) hstep
    refine ⟨(exec_packets hs hb hexec).1, fun b' hb' packet hpacket => ?_⟩
    rw [List.flatMap_eq_nil_iff.mp (leads_adds (exec_leads hexec)) b' hb']
      at hpacket
    cases hpacket
  · have hbalance := Pool.balance_perform Action.packets
      (fun e => (e.packets : Multiset (List UInt8))) uplink hpending
      (fun ht => ⟨packets_owned howns ht, List.flatMap_eq_nil_iff.mpr
        fun b hb => packets_owned ((exec_leads hexec b hb).owned howns) ht⟩)
      (hsection.trans (add_zero _).symm)
    have hread : (seen ++ [ProgramEvent.performed r a p.shared]).flatMap
        ProgramEvent.read = seen.flatMap ProgramEvent.read := by
      rw [List.flatMap_append]
      exact List.append_nil _
    have hhanded : (seen ++ [ProgramEvent.performed r a p.shared]).flatMap
        ProgramEvent.handed = seen.flatMap ProgramEvent.handed ++ a.hands := by
      rw [List.flatMap_append, List.flatMap_singleton]
      rfl
    rw [hread, hhanded, List.flatMap_append, ← Multiset.coe_add, h.balance,
      ← add_zero (p.tally Action.packets uplink + p.shared.packets),
      ← hbalance]
    ac_rfl

end Uplinked

/-- What a run has read is in the hands of the tasks that move it, in the
current chunk, in the queue, or handed to a link; each packet as often as
it was read. -/
theorem run_uplinked {statsFromSlice : List UInt8 → Option StatsPacket}
    {role : Role} {config : Config} {linkBandwidths : List UInt64}
    {now : Nat → Nat} {steps : List ProgramStep} {p : Program}
    (hrun : Trace.run (Program.step statsFromSlice role) steps
      (Program.start config linkBandwidths now) = some p) :
    Uplinked (Program.events statsFromSlice role steps
      (Program.start config linkBandwidths now)) p :=
  Program.run_events (P := Uplinked)
    (fun _ _ _ h henabled hidle => h.begin henabled hidle)
    (fun _ _ _ _ _ _ _ _ h _ horderly hpending hexec =>
      h.perform horderly hpending hexec)
    (Trace.Along.of_forall (fun _ _ _ => trivial) _) hrun (orderly_idle _)
    (uplinked_start config linkBandwidths now)

/-- No packet is lost or made up on its way to the links. In every run of
a program, however its tasks take turns and whatever datagrams arrive, the
packets read from the TUN device are, each as often as it was read, those
in the hands of the three tasks, in the current chunk, in the queue and in
the chunks that were handed to a link. -/
theorem uplink_conserves (statsFromSlice : List UInt8 → Option StatsPacket)
    (role : Role) (config : Config) (linkBandwidths : List UInt64)
    (now : Nat → Nat) {steps : List ProgramStep} {p : Program}
    (hrun : Trace.run (Program.step statsFromSlice role) steps
      (Program.start config linkBandwidths now) = some p) :
    ((Program.events statsFromSlice role steps
        (Program.start config linkBandwidths now)).flatMap
          ProgramEvent.read).Perm
      (p.hold Action.packets .tunReader
        ++ p.hold Action.packets .timeoutChecker
        ++ p.hold Action.packets .chunkSender
        ++ p.shared.aggregator.currentChunk.extractPackets
        ++ p.shared.toLinks.flatMap Chunk.extractPackets
        ++ ((Program.events statsFromSlice role steps
          (Program.start config linkBandwidths now)).flatMap
            ProgramEvent.handed).flatMap Chunk.extractPackets) := by
  have hbalance := (run_uplinked hrun).balance
  have htally : p.tally Action.packets uplink
      = (p.hold Action.packets .tunReader : Multiset (List UInt8))
        + p.hold Action.packets .timeoutChecker
        + p.hold Action.packets .chunkSender := by
    unfold Pool.tally uplink
    rw [Finset.sum_insert (by simp), Finset.sum_insert (by simp),
      Finset.sum_singleton, add_assoc]
  refine Multiset.coe_eq_coe.mp ?_
  rw [hbalance, htally, Endpoint.packets]
  simp only [← Multiset.coe_add]
  ac_rfl

/-- The law while the reader and the checker have a chunk in hand. -/
theorem uplink_conserves_in_hand : ∃ p,
    Trace.run (Program.step (fun _ => none) .client) bothInHand freshClient
        = some p
      ∧ [[69], List.replicate 1398 69].Perm
        (p.hold Action.packets .tunReader
          ++ p.hold Action.packets .timeoutChecker
          ++ p.hold Action.packets .chunkSender
          ++ p.shared.aggregator.currentChunk.extractPackets
          ++ p.shared.toLinks.flatMap Chunk.extractPackets
          ++ []) := by
  obtain ⟨p, hrun⟩ := Option.isSome_iff_exists.mp (show (Trace.run
      (Program.step (fun _ => none) .client) bothInHand
      freshClient).isSome = true by decide +kernel)
  have hread : (Program.events (fun _ => none) .client bothInHand
      freshClient).flatMap ProgramEvent.read
      = [[69], List.replicate 1398 69] := by
    decide +kernel
  have hhanded : (Program.events (fun _ => none) .client bothInHand
      freshClient).flatMap ProgramEvent.handed = [] := by
    decide +kernel
  have hlaw := uplink_conserves (fun _ => none) .client Config.default
    expectedBandwidthUp (fun _ => 0) hrun
  rw [show Program.start Config.default expectedBandwidthUp (fun _ => 0)
    = freshClient from rfl, hread, hhanded] at hlaw
  exact ⟨p, hrun, hlaw⟩

end ChainLightning
