/-
The tunnel, end to end.

What one program reads from its TUN device and what the other writes to
its own are tied together by the two halves of a program (Uplink.lean,
Downlink.lean) and the log between them (Network.lean). Whatever the
network loses, repeats or reorders, and however the tasks take turns,
nothing is written that was not read on the far side, and nothing more
often than datagrams were repeated (`tunnel_safe`). What else the tunnel
guarantees depends on the network: where data arrives in the order it was
sent, what is written is a part of what was read, in order
(`tunnel_in_order`); where nothing is lost or repeated, it is all of it
once the tasks have come to rest (`tunnel_lossless`).
-/
import ChainLightning.Lib.Pick
import ChainLightning.Proofs.Tunnel.Steady

namespace ChainLightning

variable {statsFromSlice : List UInt8 → Option StatsPacket}

/-- The packets that come out of a datagram. -/
def Datagram.packets (d : Datagram) : List (List UInt8) :=
  d.data.flatMap ChunkPacket.packets

/-- The datagram carries a chunk. -/
def Datagram.isData (d : Datagram) : Bool :=
  (ChunkPacket.decode d.bytes).isSome

/-- Of some places in a log, those of the datagrams that carry chunks. -/
def dataPlaces (log : List Datagram) (places : List Nat) : List Nat :=
  places.filter fun i => log[i]?.any Datagram.isData

/-- The action loses no chunk: one that is handed to a link has a
destination, and the socket sends it. -/
def Action.goes (role : Role) (r : Reading) (a : Action) (e : Endpoint) :
    Bool :=
  match a with
  | .sendChunk linkId _ => (e.destination role linkId).isSome
  | .transmitChunk _ _ _ => r.sendOk
  | _ => true

/-- Every chunk that is handed to a link goes out. -/
def Goes (role : Role) (r : Reading) (a : Action) (e : Endpoint) : Prop :=
  a.goes role r e = true

instance (role : Role) (r : Reading) (a : Action) (e : Endpoint) :
    Decidable (Goes role r a e) :=
  inferInstanceAs (Decidable (a.goes role r e = true))

/-- Nothing is on its way to a link. -/
structure Program.UplinkIdle (p : Program) : Prop where
  tasks : ∀ t ∈ uplink, p.pending t = []
  queue : p.shared.toLinks = []
  current : p.shared.aggregator.currentChunk.isEmpty = true

/-- Nothing is on its way to the TUN device. -/
structure Program.DownlinkIdle (p : Program) : Prop where
  receivers : ∀ linkId < p.shared.numLinks,
    p.pending (.linkReceiver linkId) = []
  writer : p.pending .tunWriter = []
  queue : p.shared.fromLinks = []

private theorem packets_of_not_data (d : Datagram) (h : d.isData = false) :
    d.packets = [] := by
  unfold Datagram.packets Datagram.data
  rw [Option.isSome_eq_false_iff.mp h |> Option.isNone_iff_eq_none.mp]
  rfl

/-- A program at rest holds no packet. -/
private theorem packets_of_idle {p : Program} (hframed : p.shared.Framed)
    (hidle : p.UplinkIdle) : p.shared.packets = [] := by
  obtain ⟨ps, hholds, hfits⟩ := hframed
  unfold Endpoint.packets
  rw [hholds.extractPackets hfits, hholds.isEmpty_iff.mp hidle.current,
    hidle.queue]
  rfl

-- ============================================================== the sender

/-- The packets that a run puts on the wire, event by event. -/
private theorem run_packets {role : Role} {config : Config}
    {linkBandwidths : List UInt64} {now : Nat → Nat}
    {steps : List ProgramStep} {p : Program}
    (hrun : Trace.run (Program.step statsFromSlice role) steps
      (Program.start config linkBandwidths now) = some p) :
    p.shared.sent.flatMap Datagram.packets
      = (Program.events statsFromSlice role steps
        (Program.start config linkBandwidths now)).flatMap fun event =>
          ((event.sends role).flatMap Datagram.data).flatMap
            ChunkPacket.packets := by
  rw [run_sent hrun (orderly_idle _), List.flatMap_append,
    List.flatMap_assoc]
  exact List.flatMap_congr fun event _ => List.flatMap_assoc.symm

/-- What is on the wire is a part of what was handed to the links. -/
theorem run_wire {role : Role} {config : Config}
    {linkBandwidths : List UInt64} {now : Nat → Nat}
    {steps : List ProgramStep} {p : Program}
    (hrun : Trace.run (Program.step statsFromSlice role) steps
      (Program.start config linkBandwidths now) = some p) :
    (p.shared.sent.flatMap Datagram.packets).Sublist
      (((Program.events statsFromSlice role steps
        (Program.start config linkBandwidths now)).flatMap
          ProgramEvent.handed).flatMap Chunk.extractPackets) := by
  refine .trans ?_
    ((run_transmits_handed hrun (orderly_idle _) rfl).flatMap _)
  rw [run_packets hrun, List.flatMap_assoc]
  refine .flatMap_right _ fun event _ => ?_
  cases event with
  | began round => exact .refl _
  | performed r a e =>
      unfold ProgramEvent.sends
      rcases sends_data role r a with hnone | ⟨l, dest, chunk, rfl, hone⟩
      · rw [hnone]
        exact List.nil_sublist _
      · rw [hone]
        show (_ ++ []).Sublist (chunk.extractPackets ++ [])
        rw [List.append_nil, List.append_nil]
        exact (received_packets l chunk).sublist

/-- Where every chunk that is handed to a link has a destination, and the
chunk sender has nothing to do, it has transmitted them all. -/
private theorem run_transmits_all {c : Config} {bandwidths : List UInt64}
    {clock : Nat → Nat} {psteps : List ProgramStep} {p : Program}
    (hgoes : Trace.Along (Program.step statsFromSlice role)
      (ProgramStep.Performs (Goes role)) psteps
      (Program.start c bandwidths clock))
    (hrun : Trace.run (Program.step statsFromSlice role) psteps
      (Program.start c bandwidths clock) = some p)
    (hidle : p.pending .chunkSender = []) :
    (Program.events statsFromSlice role psteps
        (Program.start c bandwidths clock)).flatMap
          (ProgramEvent.done Action.transmits)
      = (Program.events statsFromSlice role psteps
        (Program.start c bandwidths clock)).flatMap
          ProgramEvent.handed := by
  have hrouted := run_transmits hrun (orderly_idle _) rfl
  rw [Pool.hold_of_pending hidle, List.flatMap_nil, List.append_nil]
    at hrouted
  rw [hrouted]
  refine List.flatMap_congr fun event hevent => ?_
  cases event with
  | began round => rfl
  | performed r a e =>
      have hgo := run_performed hgoes hrun (orderly_idle _) r a e hevent
      cases a with
      | sendChunk linkId chunk =>
          obtain ⟨dest, hdest⟩ := Option.isSome_iff_exists.mp hgo
          show (e.destination role linkId).toList.map _ = [chunk]
          rw [hdest]
          rfl
      | _ => rfl

/-- Where every chunk goes out and none is too long for its length field,
all that was handed to the links is on the wire once the chunk sender has
nothing to do. -/
theorem run_wire_all {role : Role} {c : Config} {bandwidths : List UInt64}
    {clock : Nat → Nat}
    (hsmall : c.chunkAggregator.minChunkSize < 65536)
    {psteps : List ProgramStep} {p : Program}
    (hsteady : Trace.Along (Program.step statsFromSlice role)
      (fun _ p => p.Steady c.chunkAggregator) psteps
      (Program.start c bandwidths clock))
    (hgoes : Trace.Along (Program.step statsFromSlice role)
      (ProgramStep.Performs (Goes role)) psteps
      (Program.start c bandwidths clock))
    (hrun : Trace.run (Program.step statsFromSlice role) psteps
      (Program.start c bandwidths clock) = some p)
    (hidle : p.pending .chunkSender = []) :
    p.shared.sent.flatMap Datagram.packets
      = ((Program.events statsFromSlice role psteps
        (Program.start c bandwidths clock)).flatMap
          ProgramEvent.handed).flatMap Chunk.extractPackets := by
  have hsized : Trace.Along (Program.step statsFromSlice role)
      (ProgramStep.Performs fun r a e => Goes role r a e
        ∧ a.Bounded (steadyChunk c.chunkAggregator))
      psteps (Program.start c bandwidths clock) := by
    refine Trace.Along.imp ?_ (hgoes.and hsteady)
    intro step q ⟨hgo, hbounded⟩
    cases step with
    | begin round => trivial
    | perform t r =>
        intro a ha
        exact ⟨hgo a ha, hbounded.pending t a (List.mem_of_head? ha)⟩
  have hfits : steadyChunk c.chunkAggregator < 65536 :=
    max_lt hsmall (by norm_num)
  rw [← run_transmits_all hgoes hrun hidle, run_packets hrun,
    List.flatMap_assoc]
  refine List.flatMap_congr fun event hevent => ?_
  cases event with
  | began round => rfl
  | performed r a e =>
      obtain ⟨hok, hsize⟩ :=
        run_performed hsized hrun (orderly_idle _) r a e hevent
      have hquiet : (∀ l dest chunk, a ≠ .transmitChunk l dest chunk) →
          (a.sends role r).flatMap Datagram.data = [] := by
        intro hne
        rcases sends_data role r a with hnone | ⟨l, dest, chunk, heq, -⟩
        · exact hnone
        · exact absurd heq (hne l dest chunk)
      unfold ProgramEvent.sends
      cases a with
      | transmitChunk linkId dest chunk =>
          have hchunk : chunk.size ≤ steadyChunk c.chunkAggregator :=
            hsize.chunks chunk List.mem_cons_self
          dsimp only
          rw [sends_data_of_ok hok]
          show _ ++ [] = _ ++ []
          rw [received_packets_of_fits (hchunk.trans_lt hfits)]
      | _ =>
          dsimp only
          rw [hquiet fun _ _ _ h => nomatch h]
          rfl

-- ============================================================ the receiver

/-- The data packets that arrive at a program are read from the far
side's log, at the places that the network delivers. -/
theorem run_arrived {steps : List SystemStep} {s s' : System}
    (hrun : Trace.run (System.step statsFromSlice) steps s = some s')
    (role : Role) :
    (System.events statsFromSlice role steps s).flatMap ProgramEvent.arrived
      = (Log.pick (s'.program role.peer).shared.sent
          (steps.flatMap (SystemStep.delivers role))).flatMap
            Datagram.data := by
  have harrived : (System.events statsFromSlice role steps s).flatMap
      ProgramEvent.arrived
      = ((System.events statsFromSlice role steps s).flatMap
        ProgramEvent.datagram).flatMap
          fun d => (ChunkPacket.decode d.2).toList := by
    rw [List.flatMap_assoc]
    refine List.flatMap_congr fun event _ => ?_
    cases event with
    | began round =>
        cases round with
        | receive linkId bytes src => exact (List.append_nil _).symm
        | _ => rfl
    | performed r a e => rfl
  rw [harrived, run_datagrams hrun role]
  generalize steps.flatMap (SystemStep.delivers role) = places
  unfold Log.pick
  rw [List.flatMap_assoc, List.flatMap_assoc]
  refine List.flatMap_congr fun i _ => ?_
  rw [List.flatMap_map]
  rfl

section Run

variable {config : Role → Config} {linkBandwidths : Role → List UInt64}
  {now : Role → Nat → Nat} {steps : List SystemStep} {s : System}

theorem system_uplinked
    (hrun : Trace.run (System.step statsFromSlice) steps
      (System.start config linkBandwidths now) = some s) (role : Role) :
    Uplinked (System.events statsFromSlice role steps
      (System.start config linkBandwidths now)) (s.program role) := by
  rw [events_start]
  exact run_uplinked (run_program_start hrun role)

theorem system_downlinked
    (hrun : Trace.run (System.step statsFromSlice) steps
      (System.start config linkBandwidths now) = some s) (role : Role) :
    Downlinked (System.events statsFromSlice role steps
      (System.start config linkBandwidths now)) (s.program role) := by
  rw [events_start]
  exact run_downlinked (run_program_start hrun role)

theorem system_received
    (hrun : Trace.run (System.step statsFromSlice) steps
      (System.start config linkBandwidths now) = some s) (role : Role) :
    ((System.events statsFromSlice role steps
        (System.start config linkBandwidths now)).flatMap
          ProgramEvent.forwarded : Multiset ChunkPacket)
      + (s.program role).tally Action.forwards
        (receivers (linkBandwidths role).length)
    = (System.events statsFromSlice role steps
        (System.start config linkBandwidths now)).flatMap
          ProgramEvent.arrived := by
  rw [events_start]
  exact run_received (run_program_start hrun role)

theorem system_wire
    (hrun : Trace.run (System.step statsFromSlice) steps
      (System.start config linkBandwidths now) = some s) (role : Role) :
    ((s.program role).shared.sent.flatMap Datagram.packets).Sublist
      (((System.events statsFromSlice role steps
        (System.start config linkBandwidths now)).flatMap
          ProgramEvent.handed).flatMap Chunk.extractPackets) := by
  rw [events_start]
  exact run_wire (run_program_start hrun role)

/-- What was put on the wire was read. -/
theorem wire_le_reads
    (hrun : Trace.run (System.step statsFromSlice) steps
      (System.start config linkBandwidths now) = some s) (role : Role) :
    ((s.program role).shared.sent.flatMap Datagram.packets).Subperm
      (steps.flatMap (SystemStep.reads role)) := by
  refine (system_wire hrun role).subperm.trans ?_
  rw [← run_reads hrun role, ← Multiset.coe_le,
    (system_uplinked hrun role).balance]
  exact Multiset.le_add_left _ _

/-- What was written has arrived. -/
theorem written_le_arrived
    (hrun : Trace.run (System.step statsFromSlice) steps
      (System.start config linkBandwidths now) = some s) (role : Role) :
    (s.program role).shared.written.Subperm
      ((Log.pick (s.program role.peer).shared.sent
        (steps.flatMap (SystemStep.delivers role))).flatMap
          Datagram.packets) := by
  have hdown := system_downlinked hrun role
  have hwritten : (s.program role).shared.written.Subperm
      (((System.events statsFromSlice role steps
        (System.start config linkBandwidths now)).flatMap
          ProgramEvent.forwarded).flatMap ChunkPacket.packets) := by
    rw [← hdown.fifo, List.append_assoc]
    exact (List.sublist_append_left _ _).subperm
  have hforwarded : ((System.events statsFromSlice role steps
      (System.start config linkBandwidths now)).flatMap
        ProgramEvent.forwarded).Subperm
      ((System.events statsFromSlice role steps
        (System.start config linkBandwidths now)).flatMap
          ProgramEvent.arrived) := by
    rw [← Multiset.coe_le, ← system_received hrun role]
    exact Multiset.le_add_right _ _
  rw [run_arrived hrun role] at hforwarded
  obtain ⟨l, hperm, hsub⟩ := hforwarded
  have hpackets : (Log.pick (s.program role.peer).shared.sent
      (steps.flatMap (SystemStep.delivers role))).flatMap Datagram.packets
      = ((Log.pick (s.program role.peer).shared.sent
        (steps.flatMap (SystemStep.delivers role))).flatMap
          Datagram.data).flatMap ChunkPacket.packets := List.flatMap_assoc.symm
  rw [hpackets]
  exact hwritten.trans ((hperm.symm.flatMap_right _).subperm.trans
    (hsub.flatMap _).subperm)

/-- A packet is written no more often than it was read, times the most
often that a datagram was delivered. -/
theorem written_count_le
    (hrun : Trace.run (System.step statsFromSlice) steps
      (System.start config linkBandwidths now) = some s) (role : Role)
    {k : Nat}
    (hk : ∀ i, (steps.flatMap (SystemStep.delivers role)).count i ≤ k)
    (packet : List UInt8) :
    (s.program role).shared.written.count packet
      ≤ k * (steps.flatMap (SystemStep.reads role.peer)).count packet := by
  calc (s.program role).shared.written.count packet
      ≤ ((Log.pick (s.program role.peer).shared.sent
          (steps.flatMap (SystemStep.delivers role))).flatMap
            Datagram.packets).count packet :=
        (written_le_arrived hrun role).count_le packet
    _ ≤ k * ((s.program role.peer).shared.sent.flatMap
          Datagram.packets).count packet := by
        rw [List.count_flatMap, List.count_flatMap]
        exact Log.sum_pick_le _ (delivers_sent hrun role) hk
    _ ≤ _ := Nat.mul_le_mul_left k ((wire_le_reads hrun role.peer).count_le _)

-- ================================================================== order

/-- Where every chunk is queued in its turn, the links are handed the
packets in the order they were read. -/
theorem handed_prefix_reads {role : Role} {c : Config}
    {bandwidths : List UInt64} {clock : Nat → Nat}
    {psteps : List ProgramStep} {p : Program}
    (hturn : Trace.Along (Program.step statsFromSlice role) SendsInTurn
      psteps (Program.start c bandwidths clock))
    (hrun : Trace.run (Program.step statsFromSlice role) psteps
      (Program.start c bandwidths clock) = some p) :
    ((Program.events statsFromSlice role psteps
        (Program.start c bandwidths clock)).flatMap
          ProgramEvent.handed).flatMap Chunk.extractPackets
      <+: (Program.events statsFromSlice role psteps
        (Program.start c bandwidths clock)).flatMap ProgramEvent.read := by
  have horderly : (Program.start c bandwidths clock).Orderly :=
    orderly_idle _
  have hfifo := queue_fifo hrun horderly
  obtain ⟨hfits, ops, feed, hfeed, -, -, hread, hands, hchunks, -⟩ :=
    Program.run_events (P := InTurn c bandwidths clock)
      (fun _ _ _ h henabled hidle => h.begin henabled hidle)
      (fun _ _ _ _ _ _ _ _ h hok horderly hpending hexec =>
        h.perform hok horderly hpending hexec)
      hturn hrun horderly inTurn_start
  generalize Program.events statsFromSlice role psteps
    (Program.start c bandwidths clock) = seen at *
  have hopsfit : ∀ op ∈ ops, op.Fits 65535 := by
    intro op hop packet hpacket
    refine hfits packet ?_
    rw [hread]
    exact List.mem_append_left _ (List.mem_flatMap.mpr ⟨op, hop, hpacket⟩)
  obtain ⟨b, hsim, hitems⟩ := run_sim hopsfit (sim_start _ _ _) hfeed
  -- handed before entered, entered before emitted, emitted before read
  have hentered : seen.flatMap ProgramEvent.handed
      <+: seen.flatMap ProgramEvent.entered := by
    have hqueue : seen.flatMap ProgramEvent.entered = _ := hfifo
    rw [hqueue, List.append_assoc]
    exact List.prefix_append _ _
  have hemitted : seen.flatMap ProgramEvent.handed <+: feed.chunks :=
    hentered.trans (hchunks ▸ List.prefix_append _ hands)
  obtain ⟨later, hlater⟩ := hemitted
  have hextract := hsim.extract_chunks
  rw [← hlater, List.flatMap_append] at hextract
  have hall : ops.flatMap AggOp.packets
      = (seen.flatMap ProgramEvent.handed).flatMap Chunk.extractPackets
        ++ (later.flatMap Chunk.extractPackets ++ b.pending) := by
    rw [← List.append_assoc, hextract]
    exact hitems.symm
  rw [hread, hall, List.append_assoc]
  exact List.prefix_append _ _

/-- Data that arrives on one link is written in the order it arrives. -/
theorem written_prefix_arrived
    (hrun : Trace.run (System.step statsFromSlice) steps
      (System.start config linkBandwidths now) = some s) (role : Role)
    {linkId : Nat}
    (hlink : ∀ i ∈ steps.flatMap (SystemStep.delivers role),
      ∀ d ∈ (s.program role.peer).shared.sent[i]?, d.isData = true →
        d.linkId = linkId) :
    (s.program role).shared.written
      <+: (Log.pick (s.program role.peer).shared.sent
        (steps.flatMap (SystemStep.delivers role))).flatMap
          Datagram.packets := by
  have hdown := system_downlinked hrun role
  have hdatagrams := run_datagrams hrun role
  -- every arrival is of a datagram in the log
  have harrives : ∀ event ∈ System.events statsFromSlice role steps
      (System.start config linkBandwidths now), event.ArrivesOn linkId := by
    intro event hevent
    cases event with
    | performed r a e => trivial
    | began round =>
        cases round with
        | receive l bytes src =>
            intro hdecode
            have hmem : (l, bytes) ∈ (System.events statsFromSlice role steps
                (System.start config linkBandwidths now)).flatMap
                  ProgramEvent.datagram :=
              List.mem_flatMap.mpr ⟨_, hevent, List.mem_cons_self⟩
            rw [hdatagrams] at hmem
            obtain ⟨i, hi, hmem⟩ := List.mem_flatMap.mp hmem
            obtain ⟨d, hd, heq⟩ := List.mem_map.mp hmem
            cases heq
            exact hlink i hi d (Option.mem_toList.mp hd)
              (Option.isSome_iff_ne_none.mpr hdecode)
        | _ => trivial
  obtain ⟨hordered, -⟩ := hdown.ordered linkId harrives
  have hforwarded : (System.events statsFromSlice role steps
      (System.start config linkBandwidths now)).flatMap
        ProgramEvent.forwarded
      <+: (Log.pick (s.program role.peer).shared.sent
        (steps.flatMap (SystemStep.delivers role))).flatMap
          Datagram.data := by
    rw [← run_arrived hrun role, ← hordered]
    exact List.prefix_append _ _
  have hwritten : (s.program role).shared.written
      <+: ((System.events statsFromSlice role steps
        (System.start config linkBandwidths now)).flatMap
          ProgramEvent.forwarded).flatMap ChunkPacket.packets := by
    rw [← hdown.fifo, List.append_assoc]
    exact List.prefix_append _ _
  obtain ⟨later, hlater⟩ := hforwarded
  refine hwritten.trans ?_
  have hpackets : (Log.pick (s.program role.peer).shared.sent
      (steps.flatMap (SystemStep.delivers role))).flatMap Datagram.packets
      = ((Log.pick (s.program role.peer).shared.sent
        (steps.flatMap (SystemStep.delivers role))).flatMap
          Datagram.data).flatMap ChunkPacket.packets := List.flatMap_assoc.symm
  rw [hpackets, ← hlater, List.flatMap_append]
  exact List.prefix_append _ _

-- ================================================================ results

/-- The tunnel makes nothing up. In every run of both programs, whatever
the network loses, repeats, reorders or delivers late, every packet that
is written to a TUN device was read from the far one; and if no datagram
is delivered to a program more than `k` times, it writes no packet more
than `k` times as often as it was read. -/
theorem tunnel_safe (statsFromSlice : List UInt8 → Option StatsPacket)
    (config : Role → Config) (linkBandwidths : Role → List UInt64)
    (now : Role → Nat → Nat) {steps : List SystemStep} {s : System}
    (hrun : Trace.run (System.step statsFromSlice) steps
      (System.start config linkBandwidths now) = some s) (role : Role) :
    (∀ packet ∈ (s.program role).shared.written,
      packet ∈ steps.flatMap (SystemStep.reads role.peer))
    ∧ ∀ k, (∀ i, (steps.flatMap (SystemStep.delivers role)).count i ≤ k) →
        ∀ packet, (s.program role).shared.written.count packet
          ≤ k * (steps.flatMap (SystemStep.reads role.peer)).count packet := by
  refine ⟨fun packet hpacket => ?_,
    fun k hk packet => written_count_le hrun role hk packet⟩
  by_contra hnot
  have hcount := written_count_le hrun role
    (fun i => List.count_le_length) packet
  rw [List.count_eq_zero_of_not_mem hnot, Nat.mul_zero] at hcount
  exact absurd hpacket (List.count_eq_zero.mp (Nat.le_zero.mp hcount))

/-- The client reads a packet, waits for the aggregation timeout and sends
the chunk. -/
def clientSendsAt (packet : List UInt8) (micros : Nat) : List SystemStep :=
  [.begin .client (.readTun packet none),
   .perform .client .tunReader (readingAt micros),
   .perform .client .tunReader (readingAt micros),
   .begin .client .checkTimeout,
   .perform .client .timeoutChecker (readingAt (micros + 5000)),
   .perform .client .timeoutChecker (readingAt (micros + 5000)),
   .begin .client .sendChunk]
    ++ List.replicate 7
      (.perform .client .chunkSender (readingAt (micros + 5000)))

/-- The server receives one of the chunks and writes its packet. -/
def serverWritesFrom (i : Nat) : List SystemStep :=
  .deliver .server i ⟨1, 40000⟩
    :: List.replicate 6
      (.perform .server (.linkReceiver 0) (readingAt 30000))
    ++ .begin .server .writeTun
    :: List.replicate 3 (.perform .server .tunWriter (readingAt 30000))

/-- One chunk is sent. -/
def clientSends : List SystemStep := clientSendsAt [69] 0

/-- The first chunk arrives. -/
def serverWrites : List SystemStep := serverWritesFrom 0

/-- The law where the network delivers the chunk twice. -/
theorem tunnel_safe_repeated : ∃ s,
    Trace.run (System.step fun _ => none)
        (clientSends ++ serverWrites ++ serverWrites) freshSystem = some s
      ∧ s.server.shared.written = [[69], [69]]
      ∧ s.server.shared.written.count [69]
        ≤ 2 * ((clientSends ++ serverWrites ++ serverWrites).flatMap
          (SystemStep.reads .client)).count [69] := by
  have hwritten : (Trace.run (System.step fun _ => none)
      (clientSends ++ serverWrites ++ serverWrites) freshSystem).map
        (fun s => s.server.shared.written) = some [[69], [69]] := by
    decide +kernel
  obtain ⟨s, hrun, hwritten⟩ := Option.map_eq_some_iff.mp hwritten
  have hplaces : (clientSends ++ serverWrites ++ serverWrites).flatMap
      (SystemStep.delivers .server) = [0, 0] := rfl
  refine ⟨s, hrun, hwritten, (tunnel_safe (fun _ => none)
    (fun _ => Config.default) _ (fun _ _ => 0) hrun .server).2 2 ?_ [69]⟩
  rw [hplaces]
  intro i
  exact List.count_le_length

/-- A tunnel over one link is in order. Where the sender's chunks are
queued in their turn, and of the datagrams that carry chunks the network
delivers those of one link, some or all, in the order they were sent, what
is written is a part of what was read, in the same order. -/
theorem tunnel_in_order (statsFromSlice : List UInt8 → Option StatsPacket)
    (config : Role → Config) (linkBandwidths : Role → List UInt64)
    (now : Role → Nat → Nat) {steps : List SystemStep} {s : System}
    (hrun : Trace.run (System.step statsFromSlice) steps
      (System.start config linkBandwidths now) = some s) (role : Role)
    (hturn : Trace.Along (Program.step statsFromSlice role.peer) SendsInTurn
      (System.programSteps statsFromSlice role.peer steps
        (System.start config linkBandwidths now))
      (Program.start (config role.peer) (linkBandwidths role.peer)
        (now role.peer)))
    (horder : (dataPlaces (s.program role.peer).shared.sent
      (steps.flatMap (SystemStep.delivers role))).Pairwise (· < ·))
    (linkId : Nat)
    (hlink : ∀ i ∈ steps.flatMap (SystemStep.delivers role),
      ∀ d ∈ (s.program role.peer).shared.sent[i]?, d.isData = true →
        d.linkId = linkId) :
    (s.program role).shared.written.Sublist
      (steps.flatMap (SystemStep.reads role.peer)) := by
  have hreads := handed_prefix_reads hturn (run_program_start hrun role.peer)
  rw [← events_start, run_reads hrun role.peer] at hreads
  have hlog : ((Log.pick (s.program role.peer).shared.sent
      (steps.flatMap (SystemStep.delivers role))).flatMap
        Datagram.packets).Sublist
      ((s.program role.peer).shared.sent.flatMap Datagram.packets) := by
    rw [← Log.pick_filter packets_of_not_data]
    exact (Log.pick_sublist horder).flatMap _
  exact (written_prefix_arrived hrun role hlink).sublist.trans
    (hlog.trans ((system_wire hrun role.peer).trans hreads.sublist))

/-- Three chunks are sent, and the network loses the second. -/
def secondLost : List SystemStep :=
  clientSendsAt [69] 0 ++ clientSendsAt [70] 5000 ++ clientSendsAt [71] 10000
    ++ serverWritesFrom 0 ++ serverWritesFrom 2

/-- The law there: the first and the third packet are written in order. -/
theorem tunnel_in_order_second_lost : ∃ s,
    Trace.run (System.step fun _ => none) secondLost freshSystem = some s
      ∧ s.server.shared.written = [[69], [71]]
      ∧ secondLost.flatMap (SystemStep.reads .client) = [[69], [70], [71]]
      ∧ s.server.shared.written.Sublist
        (secondLost.flatMap (SystemStep.reads .client)) := by
  have hall : (Trace.run (System.step fun _ => none) secondLost
      freshSystem).map (fun s =>
        (s.client.shared.sent.map Datagram.linkId,
          s.server.shared.written)) = some ([0, 0, 0], [[69], [71]]) := by
    decide +kernel
  obtain ⟨s, hrun, hall⟩ := Option.map_eq_some_iff.mp hall
  injection hall with hsent hwritten
  have hplaces : secondLost.flatMap (SystemStep.delivers .server)
      = [0, 2] := rfl
  refine ⟨s, hrun, hwritten, rfl, tunnel_in_order (fun _ => none)
    (fun _ => Config.default) _ (fun _ _ => 0) hrun .server
    (by decide +kernel) ?_ 0 ?_⟩
  · rw [hplaces]
    exact List.Pairwise.filter _ (by decide)
  · intro i _ d hd _
    have hmem : d.linkId ∈ s.client.shared.sent.map Datagram.linkId :=
      List.mem_map_of_mem (List.mem_of_getElem? hd)
    rw [hsent] at hmem
    simpa using hmem

/-- A tunnel without loss loses nothing. Where every chunk finds a
destination and a socket that sends it, the smallest chunk size fits the
length field, the network delivers every datagram that carries a chunk
once, and both programs have come to rest, what is written is what was
read, each packet as often as it was read. -/
theorem tunnel_lossless (statsFromSlice : List UInt8 → Option StatsPacket)
    (config : Role → Config) (linkBandwidths : Role → List UInt64)
    (now : Role → Nat → Nat) {steps : List SystemStep} {s : System}
    (hrun : Trace.run (System.step statsFromSlice) steps
      (System.start config linkBandwidths now) = some s) (role : Role)
    (hsmall : (config role.peer).chunkAggregator.minChunkSize < 65536)
    (hgoes : Trace.Along (Program.step statsFromSlice role.peer)
      (ProgramStep.Performs (Goes role.peer))
      (System.programSteps statsFromSlice role.peer steps
        (System.start config linkBandwidths now))
      (Program.start (config role.peer) (linkBandwidths role.peer)
        (now role.peer)))
    (honce : (dataPlaces (s.program role.peer).shared.sent
        (steps.flatMap (SystemStep.delivers role))).Perm
      (dataPlaces (s.program role.peer).shared.sent
        (List.range (s.program role.peer).shared.sent.length)))
    (hup : (s.program role.peer).UplinkIdle)
    (hdown : (s.program role).DownlinkIdle) :
    (s.program role).shared.written.Perm
      (steps.flatMap (SystemStep.reads role.peer)) := by
  have hfar := system_uplinked hrun role.peer
  have hnear := system_downlinked hrun role
  have hwire := run_wire_all hsmall (run_steady hrun role.peer).1 hgoes
    (run_program_start hrun role.peer) (hup.tasks .chunkSender (by decide))
  rw [← events_start] at hwire
  have hlinks : (s.program role).shared.numLinks
      = (linkBandwidths role).length := (run_silent
    (run_program_start hrun role)).links
  -- the receiver has written what has arrived
  have hwritten : (s.program role).shared.written.Perm
      ((Log.pick (s.program role.peer).shared.sent
        (steps.flatMap (SystemStep.delivers role))).flatMap
          Datagram.packets) := by
    have hfifo := hnear.fifo
    have hreceived := system_received hrun role
    rw [Pool.tally_eq_zero fun t ht => by
      obtain ⟨linkId, hlt, rfl⟩ := Finset.mem_image.mp ht
      exact Pool.hold_of_pending (hdown.receivers linkId
        (hlinks ▸ Finset.mem_range.mp hlt)), add_zero,
      Multiset.coe_eq_coe, run_arrived hrun role] at hreceived
    rw [Pool.hold_of_pending hdown.writer, hdown.queue, List.flatMap_nil,
      List.flatMap_nil, List.append_nil, List.append_nil] at hfifo
    rw [hfifo]
    refine (hreceived.flatMap_right _).trans ?_
    exact .of_eq List.flatMap_assoc
  -- which is all that is on the wire
  have hlog : ((Log.pick (s.program role.peer).shared.sent
      (steps.flatMap (SystemStep.delivers role))).flatMap
        Datagram.packets).Perm
      ((s.program role.peer).shared.sent.flatMap Datagram.packets) := by
    rw [← Log.pick_filter packets_of_not_data]
    refine ((honce.flatMap_right _).flatMap_right _).trans (.of_eq ?_)
    have hall := Log.pick_filter packets_of_not_data
      (s.program role.peer).shared.sent
      (List.range (s.program role.peer).shared.sent.length)
    rw [Log.pick_range, List.take_length] at hall
    exact hall
  -- and all that was read
  have hread : (steps.flatMap (SystemStep.reads role.peer)).Perm
      ((s.program role.peer).shared.sent.flatMap Datagram.packets) := by
    have hbalance := hfar.balance
    rw [Pool.tally_eq_zero fun t ht =>
      Pool.hold_of_pending (hup.tasks t ht), zero_add,
      packets_of_idle hfar.fine.shared hup, run_reads hrun role.peer,
      ← hwire] at hbalance
    exact Multiset.coe_eq_coe.mp (hbalance.trans (zero_add _))
  exact hwritten.trans (hlog.trans hread.symm)

/-- Two chunks are sent, and the second arrives first. -/
def secondFirst : List SystemStep :=
  clientSendsAt [69] 0 ++ clientSendsAt [70] 5000 ++ serverWritesFrom 1
    ++ serverWritesFrom 0

/-- The law there, when both programs have come to rest: both packets are
written, in the order they arrived. -/
theorem tunnel_lossless_second_first : ∃ s,
    Trace.run (System.step fun _ => none) secondFirst freshSystem = some s
      ∧ s.server.shared.written = [[70], [69]]
      ∧ secondFirst.flatMap (SystemStep.reads .client) = [[69], [70]]
      ∧ s.server.shared.written.Perm
        (secondFirst.flatMap (SystemStep.reads .client)) := by
  have hall : (Trace.run (System.step fun _ => none) secondFirst
      freshSystem).map (fun s =>
        (s.client.shared.sent.length,
          [Task.tunReader, .timeoutChecker, .chunkSender].map
            s.client.pending,
          s.client.shared.toLinks,
          s.client.shared.aggregator.currentChunk.isEmpty))
      = some (2, [[], [], []], [], true) := by
    decide +kernel
  have hwritten : (Trace.run (System.step fun _ => none) secondFirst
      freshSystem).map (·.server.shared.written) = some [[70], [69]] := by
    decide +kernel
  have hrest : (Trace.run (System.step fun _ => none) secondFirst
      freshSystem).map (fun s =>
        (s.server.shared.numLinks,
          (List.range 5).map fun l => s.server.pending (.linkReceiver l),
          s.server.pending .tunWriter, s.server.shared.fromLinks))
      = some (5, [[], [], [], [], []], [], []) := by
    decide +kernel
  obtain ⟨s, hrun, hall⟩ := Option.map_eq_some_iff.mp hall
  obtain ⟨s', hrun', hrest⟩ := Option.map_eq_some_iff.mp hrest
  cases hrun.symm.trans hrun'
  rw [hrun, Option.map_some, Option.some.injEq] at hwritten
  injection hall with hlength hall
  injection hall with htasks hall
  injection hall with hqueue hcurrent
  injection hrest with hlinks hrest
  injection hrest with hreceivers hrest
  injection hrest with hwriter hempty
  have hplaces : secondFirst.flatMap (SystemStep.delivers .server)
      = [1, 0] := rfl
  refine ⟨s, hrun, hwritten, rfl, tunnel_lossless (fun _ => none)
    (fun _ => Config.default) _ (fun _ _ => 0) hrun .server (by decide)
    (by decide +kernel) ?_ ⟨?_, hqueue, hcurrent⟩ ⟨?_, hwriter, hempty⟩⟩
  · rw [hplaces]
    show (dataPlaces s.client.shared.sent [1, 0]).Perm
      (dataPlaces s.client.shared.sent
        (List.range s.client.shared.sent.length))
    rw [hlength]
    exact List.Perm.filter _ (by decide)
  · intro t ht
    simp only [List.map_cons, List.map_nil, List.cons.injEq] at htasks
    simp only [uplink, Finset.mem_insert, Finset.mem_singleton] at ht
    rcases ht with rfl | rfl | rfl
    · exact htasks.1
    · exact htasks.2.1
    · exact htasks.2.2.1
  · intro l hl
    rw [show (s.program Role.server).shared.numLinks = 5 from hlinks] at hl
    have hidle : ∀ acts ∈ (List.range 5).map fun l =>
        s.server.pending (.linkReceiver l), acts = [] := by
      rw [hreceivers]
      simp
    exact hidle _ (List.mem_map.mpr ⟨l, List.mem_range.mpr hl, rfl⟩)

end Run

end ChainLightning
