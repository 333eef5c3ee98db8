/-
What the two programs say to each other.

Of the six kinds of packets four are ever sent, each with the link it is
sent on in its link byte (`Packet.SentOn`); so no program is ever told of
a chunk ahead of its data, and the reassembly buffers stay as they were
made (`wire_closed`).

A chunk is acknowledged on the link it arrived on. The acknowledgements
that a link's receiver sends are those of the chunks that arrived on the
link, in this order (`acks_follow_arrivals`), so a program is
acknowledged only what it has sent on that link, and no more often than
datagrams were repeated (`acks_honest`).

The counters of the two sides agree in the same way: what one side counts
as received, the other has counted as sent (`received_le_sent`).
-/
import ChainLightning.Proofs.Endpoint.Counters
import ChainLightning.Proofs.Tunnel.EndToEnd
import ChainLightning.Proofs.Tunnel.Identity

namespace ChainLightning

variable {statsFromSlice : List UInt8 → Option StatsPacket}

-- ============================================================ four kinds

/-- The packets that are sent on a link: its data, which is a whole chunk,
its acknowledgements, which echo nothing, its keepalives and its
probes. -/
def Packet.SentOn (linkId : Nat) : Packet → Prop
  | .data p => p.linkId = UInt8.ofNat linkId ∧ p.offset = 0
  | .ack p => p.linkId = UInt8.ofNat linkId ∧ p.echoTimestampUs = 0
  | .keepalive p => p.linkId = UInt8.ofNat linkId
  | .probe p => p.linkId.toNat = linkId
  | .announce _ | .stats _ => False

/-- The datagram is on one of the links, and is read as a packet that is
sent on it. -/
def Datagram.Tunnel (statsFromSlice : List UInt8 → Option StatsPacket)
    (numLinks : Nat) (d : Datagram) : Prop :=
  d.linkId < numLinks ∧ ∃ p, Packet.decode statsFromSlice d.bytes = some p
    ∧ p.SentOn d.linkId

/-- An action that hands datagrams to the sockets of links that are there
only, and that handles no announcement. -/
def Action.Tunnel (numLinks : Nat) : Action → Prop
  | .sendAck linkId _ _ | .transmitChunk linkId _ _
  | .sendKeepalive linkId => linkId < numLinks
  | .transmitProbe _ probe => probe.linkId.toNat < numLinks
  | .handleAnnouncement _ => False
  | _ => True

/-- A link with a destination is there. -/
private theorem destination_lt {role : Role} {linkId : Nat} {e : Endpoint}
    {dest : Dest} (h : e.destination role linkId = some dest) :
    linkId < e.numLinks := by
  by_contra hge
  unfold Endpoint.destination at h
  rw [if_neg hge] at h
  cases h

/-- Every datagram that an action sends is of one of the four kinds. -/
private theorem sends_tunnel {role : Role} {r : Reading} {a : Action}
    {n : Nat} (ha : a.Tunnel n) :
    ∀ d ∈ a.sends role r, d.Tunnel statsFromSlice n := by
  intro d hd
  have hd := mem_sends hd
  cases a with
  | transmitChunk linkId dest chunk =>
      cases List.mem_singleton.mp hd
      exact ⟨ha, _, decode_chunkBytes statsFromSlice linkId chunk, rfl, rfl⟩
  | sendAck linkId chunkId src =>
      cases List.mem_singleton.mp hd
      exact ⟨ha, _, decode_ackBytes statsFromSlice linkId chunkId r.micros,
        rfl, rfl⟩
  | transmitProbe dest probe =>
      cases List.mem_singleton.mp hd
      exact ⟨ha, _, decode_probe statsFromSlice probe, rfl⟩
  | sendKeepalive linkId =>
      cases List.mem_singleton.mp hd
      exact ⟨ha, _, decode_keepaliveBytes statsFromSlice linkId r.micros,
        rfl⟩
  | _ => cases hd

/-- A round that does not start with a datagram acknowledges nothing and
handles no announcement. -/
private theorem actions_tunnel {round : Round}
    (hreceive : round.isReceive = false) (role : Role) (e : Endpoint) :
    ∀ a ∈ round.actions statsFromSlice role e, a.Tunnel e.numLinks := by
  intro a ha
  have howns := actions_owned statsFromSlice role e round a ha
  have hempty := actions_empty statsFromSlice role e round a ha
  cases a with
  | sendAck | handleAnnouncement =>
      obtain ⟨linkId, htask⟩ := howns
      cases round with
      | receive => cases hreceive
      | _ => cases htask
  | transmitChunk linkId dest chunk => cases hempty.1
  | transmitProbe dest probe => cases hempty.2
  | sendKeepalive linkId =>
      cases round with
      | sendKeepalives =>
          obtain ⟨l, hl, heq⟩ := List.mem_map.mp ha
          cases heq
          exact List.mem_range.mp hl
      | _ => cases howns
  | _ => trivial

/-- Nor does one that starts with a datagram of the far side, but for the
acknowledgement on the datagram's link. -/
private theorem receive_tunnel {role : Role} {d : Datagram} {m n : Nat}
    {src : SocketAddr} {e : Endpoint}
    (hd : d.Tunnel statsFromSlice m) (hlink : d.linkId < n) :
    ∀ a ∈ Round.actions statsFromSlice role e
      (.receive d.linkId d.bytes src), a.Tunnel n := by
  obtain ⟨-, p, hdecode, hsent⟩ := hd
  have hhandle : ∀ a ∈ Round.handle d.linkId d.bytes.length src
      (Packet.decode statsFromSlice d.bytes), a.Tunnel n := by
    rw [hdecode]
    cases p with
    | announce | stats => exact hsent.elim
    | data p => simp [Round.handle, Action.Tunnel, hlink]
    | _ => simp [Round.handle, Action.Tunnel]
  intro a ha
  cases role with
  | client => exact hhandle a ha
  | server =>
      rcases List.mem_cons.mp ha with rfl | ha
      · trivial
      · exact hhandle a ha

/-- The laws of the four kinds. -/
private theorem tunnel_laws (config : Role → Config) (n : Role → Nat) :
    System.Laws statsFromSlice (fun _ _ => True)
      (fun role e => e.numLinks = n role
        ∧ e.receiver = ChunkReceiver.new (config role).receiver)
      (fun role a => a.Tunnel (n role))
      (fun role d => d.Tunnel statsFromSlice (n role)) where
  round := fun role _ e hreceive _ hI =>
    hI.1 ▸ actions_tunnel hreceive role e
  receive := by
    intro role d src e hd henabled hI
    have hlt : d.linkId < e.numLinks := of_decide_eq_true henabled
    exact receive_tunnel hd (hI.1 ▸ hlt)
  exec := by
    intro role r a e next e' _ ha ⟨hlinks, hreceiver⟩ hexec
    have houtputs := exec_outputs hexec
    refine ⟨⟨(exec_effects hexec).numLinks.trans hlinks, ?_⟩, ?_,
      sends_tunnel ha⟩
    · rw [houtputs.receiver, ← hreceiver]
      cases a with
      | handleAnnouncement => exact ha.elim
      | _ => rfl
    · intro b hb
      cases exec_leads hexec b hb with
      | sendChunk linkId dest chunk hdest => exact hlinks ▸ destination_lt hdest
      | sendProbe dest probe hdest => exact hlinks ▸ destination_lt hdest
      | _ => trivial

/-- The language of the tunnel. In every run of both programs, whatever
the network does, every datagram that a program has sent is on one of its
links and is read on the far side as data, an acknowledgement, a keepalive
or a probe of that link; no chunk is ever announced, and the reassembly
buffer of either program is as it was at the start. -/
theorem wire_closed (statsFromSlice : List UInt8 → Option StatsPacket)
    (config : Role → Config) (linkBandwidths : Role → List UInt64)
    (now : Role → Nat → Nat) {steps : List SystemStep} {s : System}
    (hrun : Trace.run (System.step statsFromSlice) steps
      (System.start config linkBandwidths now) = some s) (role : Role) :
    (∀ d ∈ (s.program role).shared.sent,
      d.linkId < (linkBandwidths role).length
        ∧ ∃ p, Packet.decode statsFromSlice d.bytes = some p
          ∧ p.SentOn d.linkId)
    ∧ (s.program role).shared.receiver
      = ChunkReceiver.new (config role).receiver := by
  have hlawful := run_lawful
    (tunnel_laws config fun role => (linkBandwidths role).length)
    (Trace.Along.of_forall (fun _ _ _ _ => trivial) _) hrun ⟨?_, ?_⟩
  · exact ⟨hlawful.wire role, (hlawful.fine role).shared.2⟩
  · intro role
    rw [start_program]
    exact Pool.fine_idle ⟨rfl, rfl⟩
  · intro role d hd
    cases role <;> cases hd

/-- The law for the acknowledgement of the one chunk. -/
theorem wire_closed_acknowledged : ∃ s,
    Trace.run (System.step fun _ => none) (clientSends ++ serverWrites)
        freshSystem = some s
      ∧ s.server.shared.sent.map Datagram.linkId = [0]
      ∧ ∀ d ∈ s.server.shared.sent,
        d.linkId < 5 ∧ ∃ p, Packet.decode (fun _ => none) d.bytes = some p
          ∧ p.SentOn d.linkId := by
  have hsent : (Trace.run (System.step fun _ => none)
      (clientSends ++ serverWrites) freshSystem).map
        (fun s => s.server.shared.sent.map Datagram.linkId) = some [0] := by
    decide +kernel
  obtain ⟨s, hrun, hsent⟩ := Option.map_eq_some_iff.mp hsent
  exact ⟨s, hrun, hsent, (wire_closed (fun _ => none)
    (fun _ => Config.default) _ (fun _ _ => 0) hrun .server).1⟩

-- ======================================================= acknowledgements

/-- The acknowledgement an action is about to send on a link: where it
goes, and of which chunk it is. -/
def Action.acksOn (role : Role) (linkId : Nat) : Action → List (Dest × ChunkId)
  | .sendAck l chunkId src =>
      if l = linkId then [(Endpoint.replyDest role src, chunkId)] else []
  | _ => []

/-- The chunk that arrives on a link with a round, with where the reply to
it goes. -/
def Round.chunkOn (role : Role) (linkId : Nat) : Round → List (Dest × ChunkId)
  | .receive l bytes src =>
      if l = linkId then
        (ChunkPacket.decode bytes).toList.map fun p =>
          (Endpoint.replyDest role src, p.chunkId)
      else []
  | _ => []

/-- The acknowledgement that a datagram on a link is read as. -/
def Datagram.ackOn (linkId : Nat) (d : Datagram) : List (Dest × ChunkId) :=
  if d.linkId = linkId then
    (AckPacket.decode d.bytes).toList.map fun ack => (d.dest, ack.chunkId)
  else []

/-- The action loses no acknowledgement: the socket sends it. -/
def Action.acknowledges (r : Reading) : Action → Bool
  | .sendAck _ _ _ => r.sendOk
  | _ => true

/-- Every acknowledgement finds a socket that sends it. -/
def Acknowledges (r : Reading) (a : Action) (_ : Endpoint) : Prop :=
  a.acknowledges r = true

instance (r : Reading) (a : Action) (e : Endpoint) :
    Decidable (Acknowledges r a e) :=
  inferInstanceAs (Decidable (a.acknowledges r = true))

private theorem data_ne_ack : msgData ≠ msgAck := by decide

private theorem probe_ne_ack : msgProbe ≠ msgAck := by decide

private theorem keepalive_ne_ack : msgKeepalive ≠ msgAck := by decide

/-- A datagram with another tag is not read as an acknowledgement. -/
private theorem ackOn_of_tag {bytes : List UInt8} (l linkId : Nat)
    (dest : Dest) (htag : byteAt bytes 0 ≠ msgAck) :
    Datagram.ackOn linkId { linkId := l, dest, bytes } = [] := by
  have hnone : AckPacket.decode bytes = none := by
    unfold AckPacket.decode
    split
    case isTrue => rfl
    case isFalse => rfl
  unfold Datagram.ackOn
  dsimp only
  rw [hnone]
  exact ite_self _

/-- What an action puts on the wire of a link by way of acknowledgement is
what it has in hand, if the socket sends it. -/
theorem sends_acks (role : Role) (r : Reading) (a : Action) (e : Endpoint)
    (linkId : Nat) :
    ((a.sends role r).flatMap (Datagram.ackOn linkId)).Sublist
        (a.acksOn role linkId)
      ∧ (Acknowledges r a e →
        (a.sends role r).flatMap (Datagram.ackOn linkId)
          = a.acksOn role linkId) := by
  have hother : (∀ d ∈ a.datagrams role r, d.ackOn linkId = []) →
      a.acksOn role linkId = [] →
      ((a.sends role r).flatMap (Datagram.ackOn linkId)).Sublist
          (a.acksOn role linkId)
        ∧ (Acknowledges r a e →
          (a.sends role r).flatMap (Datagram.ackOn linkId)
            = a.acksOn role linkId) := by
    intro hnone hacks
    have hsends : (a.sends role r).flatMap (Datagram.ackOn linkId) = [] :=
      List.flatMap_eq_nil_iff.mpr fun d hd => hnone d (mem_sends hd)
    rw [hsends, hacks]
    exact ⟨.refl _, fun _ => rfl⟩
  cases a with
  | sendAck l chunkId src =>
      have hread : Datagram.ackOn linkId {
          linkId := l
          dest := Endpoint.replyDest role src
          bytes := Endpoint.ackBytes l chunkId r.micros }
          = Action.acksOn role linkId (.sendAck l chunkId src) := by
        have hdecode : AckPacket.decode
            (Endpoint.ackBytes l chunkId r.micros) = some {
              chunkId
              linkId := UInt8.ofNat l
              echoTimestampUs := 0
              recvTimestampUs := r.micros } := by
          rw [← List.append_nil (Endpoint.ackBytes l chunkId r.micros)]
          exact ack_decode_encode _ _
        unfold Datagram.ackOn Action.acksOn
        dsimp only
        rw [hdecode]
        rfl
      unfold Action.sends Action.datagrams
      dsimp only
      by_cases hok : r.sendOk = true
      · rw [if_pos hok, List.flatMap_singleton, hread]
        exact ⟨.refl _, fun _ => rfl⟩
      · rw [if_neg hok]
        exact ⟨List.nil_sublist _, fun h => absurd h hok⟩
  | transmitChunk l dest chunk =>
      refine hother (fun d hd => ?_) rfl
      cases List.mem_singleton.mp hd
      exact ackOn_of_tag l linkId dest (ne_of_eq_of_ne rfl data_ne_ack)
  | transmitProbe dest probe =>
      refine hother (fun d hd => ?_) rfl
      cases List.mem_singleton.mp hd
      exact ackOn_of_tag _ linkId dest (ne_of_eq_of_ne rfl probe_ne_ack)
  | sendKeepalive l =>
      refine hother (fun d hd => ?_) rfl
      cases List.mem_singleton.mp hd
      exact ackOn_of_tag l linkId _ (ne_of_eq_of_ne rfl keepalive_ne_ack)
  | _ => exact hother (fun d hd => nomatch hd) rfl

/-- A round has in hand the acknowledgement of the chunk that arrives. -/
private theorem actions_acks (role : Role) (e : Endpoint) (linkId : Nat)
    (round : Round) :
    (round.actions statsFromSlice role e).flatMap
        (Action.acksOn role linkId) = round.chunkOn role linkId := by
  rw [actions_arrivals statsFromSlice (fun a ha => by
    cases a with
    | sendAck => cases ha
    | _ => rfl)]
  cases round with
  | receive l bytes src =>
      unfold Round.chunkOn Round.arrivals
      dsimp only
      cases ChunkPacket.decode bytes with
      | none => exact (ite_self _).symm
      | some p => exact List.append_nil _
  | _ => rfl

variable {role : Role} {config : Config} {linkBandwidths : List UInt64}
  {now : Nat → Nat}

/-- The acknowledgements due on a link are those of the chunks that
arrived on it. -/
private theorem run_acks_due (linkId : Nat) {steps : List ProgramStep}
    {p : Program}
    (hrun : Trace.run (Program.step statsFromSlice role) steps
      (Program.start config linkBandwidths now) = some p) :
    (Program.events statsFromSlice role steps
        (Program.start config linkBandwidths now)).flatMap
          (ProgramEvent.done (Action.acksOn role linkId))
        ++ p.hold (Action.acksOn role linkId) (.linkReceiver linkId)
      = (Program.events statsFromSlice role steps
        (Program.start config linkBandwidths now)).flatMap
          (ProgramEvent.brought (Round.chunkOn role linkId)) :=
  run_hand (f := Action.acksOn role linkId)
    (g := Round.chunkOn role linkId) (t := .linkReceiver linkId)
    (fun round e => actions_acks role e linkId round)
    (fun round ht => by
      cases round with
      | receive l bytes src =>
          exact if_neg fun heq => ht (congrArg Task.linkReceiver heq)
      | _ => rfl)
    (fun r a e next e' hexec => List.flatMap_eq_nil_iff.mpr fun b hb => by
      cases exec_leads hexec b hb <;> rfl) hrun

/-- The acknowledgements in the log, event by event. -/
private theorem run_acks_log (linkId : Nat) {steps : List ProgramStep}
    {p : Program}
    (hrun : Trace.run (Program.step statsFromSlice role) steps
      (Program.start config linkBandwidths now) = some p) :
    p.shared.sent.flatMap (Datagram.ackOn linkId)
      = (Program.events statsFromSlice role steps
        (Program.start config linkBandwidths now)).flatMap fun event =>
          (event.sends role).flatMap (Datagram.ackOn linkId) := by
  rw [run_sent hrun (orderly_idle _), List.flatMap_append,
    List.flatMap_assoc]
  rfl

/-- The acknowledgements sent on a link are among those due. -/
theorem run_acks_sublist (linkId : Nat) {steps : List ProgramStep}
    {p : Program}
    (hrun : Trace.run (Program.step statsFromSlice role) steps
      (Program.start config linkBandwidths now) = some p) :
    (p.shared.sent.flatMap (Datagram.ackOn linkId)
        ++ p.hold (Action.acksOn role linkId) (.linkReceiver linkId)).Sublist
      ((Program.events statsFromSlice role steps
        (Program.start config linkBandwidths now)).flatMap
          (ProgramEvent.brought (Round.chunkOn role linkId))) := by
  rw [← run_acks_due linkId hrun, run_acks_log linkId hrun]
  refine List.Sublist.append_right (.flatMap_right _ fun event _ => ?_) _
  cases event with
  | began round => exact .refl _
  | performed r a e => exact (sends_acks role r a e linkId).1

/-- Acknowledgements follow arrivals. In every run of a program the
acknowledgements it has sent on a link, and then the one in the hand of
the link's receiver, are among those of the chunks that arrived on the
link, each to the sender of its chunk, in the order the chunks arrived;
where the socket sends every acknowledgement, they are all of them. -/
theorem acks_follow_arrivals
    (statsFromSlice : List UInt8 → Option StatsPacket) (role : Role)
    (config : Config) (linkBandwidths : List UInt64) (now : Nat → Nat)
    {steps : List ProgramStep} {p : Program}
    (hrun : Trace.run (Program.step statsFromSlice role) steps
      (Program.start config linkBandwidths now) = some p) (linkId : Nat) :
    (p.shared.sent.flatMap (Datagram.ackOn linkId)
        ++ p.hold (Action.acksOn role linkId) (.linkReceiver linkId)).Sublist
      ((Program.events statsFromSlice role steps
        (Program.start config linkBandwidths now)).flatMap
          (ProgramEvent.brought (Round.chunkOn role linkId)))
    ∧ (Trace.Along (Program.step statsFromSlice role)
        (ProgramStep.Performs Acknowledges) steps
        (Program.start config linkBandwidths now) →
      p.shared.sent.flatMap (Datagram.ackOn linkId)
          ++ p.hold (Action.acksOn role linkId) (.linkReceiver linkId)
        = (Program.events statsFromSlice role steps
          (Program.start config linkBandwidths now)).flatMap
            (ProgramEvent.brought (Round.chunkOn role linkId))) := by
  refine ⟨run_acks_sublist linkId hrun, fun hall => ?_⟩
  rw [← run_acks_due linkId hrun, run_acks_log linkId hrun]
  refine congrArg (· ++ _) (List.flatMap_congr fun event hevent => ?_)
  cases event with
  | began round => rfl
  | performed r a e =>
      exact (sends_acks role r a e linkId).2
        (run_performed hall hrun (orderly_idle _) r a e hevent)

/-- Two chunks arrive on a link, one after the other; the second one is
queued. -/
def ackThenHold : List ProgramStep :=
  .begin (.receive 0 (Endpoint.chunkBytes 0 (Chunk.new 0 0)) ⟨1, 40000⟩)
    :: List.replicate 6 (.perform (.linkReceiver 0) (.atMillis 5))
    ++ .begin (.receive 0 (Endpoint.chunkBytes 0 (Chunk.new 1 0)) ⟨1, 40001⟩)
    :: List.replicate 5 (.perform (.linkReceiver 0) (.atMillis 5))

/-- The law where two chunks arrive on one link and the second one's
acknowledgement is in hand. -/
theorem acks_follow_arrivals_in_hand : ∃ p,
    Trace.run (Program.step (fun _ => none) .server) ackThenHold freshServer
        = some p
      ∧ p.hold (Action.acksOn .server 0) (.linkReceiver 0)
        = [(.client ⟨1, 40001⟩, 1)]
      ∧ p.shared.sent.flatMap (Datagram.ackOn 0)
          ++ p.hold (Action.acksOn .server 0) (.linkReceiver 0)
        = [(.client ⟨1, 40000⟩, 0), (.client ⟨1, 40001⟩, 1)] := by
  have hhand : (Trace.run (Program.step (fun _ => none) .server) ackThenHold
      freshServer).map (fun p =>
        p.hold (Action.acksOn .server 0) (.linkReceiver 0))
      = some [(.client ⟨1, 40001⟩, 1)] := by
    decide +kernel
  obtain ⟨p, hrun, hhand⟩ := Option.map_eq_some_iff.mp hhand
  refine ⟨p, hrun, hhand, ((acks_follow_arrivals (fun _ => none) .server
    Config.default expectedBandwidthDown (fun _ => 0) hrun 0).2
      (by decide +kernel)).trans ?_⟩
  decide +kernel

-- ============================================================ end to end

/-- The chunk that a datagram on a link carries. -/
def Datagram.chunksOn (linkId : Nat) (d : Datagram) : List ChunkId :=
  if d.linkId = linkId then d.data.map ChunkPacket.chunkId else []

/-- The chunks that arrive on a link are those that the far side's log
holds at the places that were delivered. -/
private theorem arrivals_pick {steps : List SystemStep} {s s' : System}
    (hrun : Trace.run (System.step statsFromSlice) steps s = some s')
    (role : Role) (linkId : Nat) :
    ((System.events statsFromSlice role steps s).flatMap
        (ProgramEvent.brought (Round.chunkOn role linkId))).map Prod.snd
      = (Log.pick (s'.program role.peer).shared.sent
        (steps.flatMap (SystemStep.delivers role))).flatMap
          (Datagram.chunksOn linkId) := by
  rw [List.map_flatMap, ← brought_pick (g := fun round =>
    (Round.chunkOn role linkId round).map Prod.snd) (fun d src => ?_)
    (fun round hround => ?_) hrun role]
  · refine List.flatMap_congr fun event _ => ?_
    cases event <;> rfl
  · unfold Round.chunkOn Datagram.chunksOn Datagram.data
    dsimp only
    split
    case isTrue => rw [List.map_map]; rfl
    case isFalse => rfl
  · cases round with
    | receive => cases hround
    | _ => rfl

/-- Acknowledgements are honest. In every run of both programs, whatever
the network does, a chunk that the far side has acknowledged on a link was
sent on that link; and if no datagram is delivered to the far side more
than `k` times, it acknowledges no chunk more than `k` times on a link, as
long as the run has at most 2^64 steps. -/
theorem acks_honest (statsFromSlice : List UInt8 → Option StatsPacket)
    (config : Role → Config) (linkBandwidths : Role → List UInt64)
    (now : Role → Nat → Nat) {steps : List SystemStep} {s : System}
    (hrun : Trace.run (System.step statsFromSlice) steps
      (System.start config linkBandwidths now) = some s) (role : Role)
    (linkId : Nat) :
    (∀ ack ∈ (s.program role).shared.sent.flatMap (Datagram.ackOn linkId),
      ack.2 ∈ (s.program role.peer).shared.sent.flatMap
        (Datagram.chunksOn linkId))
    ∧ ∀ k, steps.length ≤ 2 ^ 64 →
        (∀ i, (steps.flatMap (SystemStep.delivers role)).count i ≤ k) →
        ∀ chunkId, (((s.program role).shared.sent.flatMap
          (Datagram.ackOn linkId)).map Prod.snd).count chunkId ≤ k := by
  have hacks : (((s.program role).shared.sent.flatMap
      (Datagram.ackOn linkId)).map Prod.snd).Sublist
      ((Log.pick (s.program role.peer).shared.sent
        (steps.flatMap (SystemStep.delivers role))).flatMap
          (Datagram.chunksOn linkId)) := by
    have hfollow := run_acks_sublist linkId (run_program_start hrun role)
    rw [← arrivals_pick hrun role linkId]
    rw [events_start]
    exact ((List.sublist_append_left _ _).trans hfollow).map Prod.snd
  constructor
  · intro ack hack
    obtain ⟨d, hd, hchunk⟩ := List.mem_flatMap.mp
      (hacks.subset (List.mem_map_of_mem hack))
    obtain ⟨i, -, hi⟩ := Log.mem_pick.mp hd
    exact List.mem_flatMap.mpr ⟨d, List.mem_of_getElem? hi, hchunk⟩
  · intro k hshort hk chunkId
    have hlog : ((s.program role.peer).shared.sent.flatMap
        (Datagram.chunksOn linkId)).count chunkId ≤ 1 := by
      refine List.nodup_iff_count_le_one.mp ?_ chunkId
      have hpeer := run_program_start hrun role.peer
      refine ((run_handed_nodup hpeer
        ((programSteps_length_le _ _ _).trans hshort)).sublist
          (run_data_ids hpeer)).sublist ?_
      rw [List.map_flatMap]
      refine .flatMap_right _ fun d _ => ?_
      unfold Datagram.chunksOn
      split
      · exact .refl _
      · exact List.nil_sublist _
    calc (((s.program role).shared.sent.flatMap
          (Datagram.ackOn linkId)).map Prod.snd).count chunkId
        ≤ ((Log.pick (s.program role.peer).shared.sent
            (steps.flatMap (SystemStep.delivers role))).flatMap
              (Datagram.chunksOn linkId)).count chunkId :=
          hacks.count_le chunkId
      _ ≤ k * ((s.program role.peer).shared.sent.flatMap
            (Datagram.chunksOn linkId)).count chunkId := by
          rw [List.count_flatMap, List.count_flatMap]
          exact Log.sum_pick_le _ (delivers_sent hrun role) hk
      _ ≤ k * 1 := Nat.mul_le_mul_left k hlog
      _ = k := Nat.mul_one k

/-- The law where the network delivers the one chunk twice. -/
theorem acks_honest_repeated : ∃ s,
    Trace.run (System.step fun _ => none)
        (clientSends ++ serverWrites ++ serverWrites) freshSystem = some s
      ∧ (s.server.shared.sent.flatMap (Datagram.ackOn 0)).map Prod.snd
        = [0, 0]
      ∧ 0 ∈ s.client.shared.sent.flatMap (Datagram.chunksOn 0)
      ∧ ((s.server.shared.sent.flatMap
        (Datagram.ackOn 0)).map Prod.snd).count 0 ≤ 2 := by
  have hacks : (Trace.run (System.step fun _ => none)
      (clientSends ++ serverWrites ++ serverWrites) freshSystem).map
        (fun s => (s.server.shared.sent.flatMap (Datagram.ackOn 0)).map
          Prod.snd) = some [0, 0] := by
    decide +kernel
  obtain ⟨s, hrun, hacks⟩ := Option.map_eq_some_iff.mp hacks
  have hlaw := acks_honest (fun _ => none) (fun _ => Config.default) _
    (fun _ _ => 0) hrun .server 0
  have hplaces : (clientSends ++ serverWrites ++ serverWrites).flatMap
      (SystemStep.delivers .server) = [0, 0] := rfl
  have hack : 0 ∈ (s.server.shared.sent.flatMap
      (Datagram.ackOn 0)).map Prod.snd := hacks ▸ List.mem_cons_self
  obtain ⟨ack, hmem, hid⟩ := List.mem_map.mp hack
  refine ⟨s, hrun, hacks, hid ▸ hlaw.1 ack hmem,
    hlaw.2 2 (by decide) (fun i => ?_) 0⟩
  rw [hplaces]
  exact List.count_le_length

-- =============================================================== counters

/-- The chunks that arrive on a link weigh no more than those the far side
has handed to it, times the most often that a datagram was delivered. -/
private theorem arrived_le_sent {steps : List SystemStep} {s s' : System}
    (hrun : Trace.run (System.step statsFromSlice) steps s = some s')
    (role : Role) (linkId : Nat) {k : Nat}
    (hk : ∀ i, (steps.flatMap (SystemStep.delivers role)).count i ≤ k)
    (w : Nat → Nat) :
    (((System.events statsFromSlice role steps s).flatMap
        (ProgramEvent.brought (Round.chunkBytesOn linkId))).map w).sum
      ≤ k * (((s'.program role.peer).shared.sent.flatMap
        (Datagram.chunkBytesOn linkId)).map w).sum := by
  have hweigh : ∀ l : List Datagram,
      ((l.flatMap (Datagram.chunkBytesOn linkId)).map w).sum
        = (l.map fun d => ((d.chunkBytesOn linkId).map w).sum).sum := by
    intro l
    rw [List.map_flatMap, List.flatMap_def, List.sum_flatten, List.map_map]
    rfl
  rw [brought_pick (h := Datagram.chunkBytesOn linkId) (fun d src => ?_)
    (fun round hround => ?_) hrun role, hweigh, hweigh]
  · exact Log.sum_pick_le _ (delivers_sent hrun role) hk
  · unfold Round.chunkBytesOn Datagram.chunkBytesOn Datagram.data
    rfl
  · cases round with
    | receive => cases hround
    | _ => rfl

/-- What one side counts as received, the other has sent. In every run of
both programs in which no datagram is delivered to a program more than `k`
times, the packets and bytes that its rate controller has counted as
received on a link, with the records still due, are at most `k` times
those that the far side's has counted as sent there, with its own. -/
theorem received_le_sent (statsFromSlice : List UInt8 → Option StatsPacket)
    (config : Role → Config) (linkBandwidths : Role → List UInt64)
    (now : Role → Nat → Nat) {steps : List SystemStep} {s : System}
    (hrun : Trace.run (System.step statsFromSlice) steps
      (System.start config linkBandwidths now) = some s) (role : Role)
    {linkId : Nat} (hlink : linkId < (linkBandwidths role).length)
    (hpeer : linkId < (linkBandwidths role.peer).length) {k : Nat}
    (hk : ∀ i, (steps.flatMap (SystemStep.delivers role)).count i ≤ k) :
    ∃ near far,
      (s.program role).shared.rateController.states[linkId]? = some near
      ∧ (s.program role.peer).shared.rateController.states[linkId]?
        = some far
      ∧ near.totalRxPackets + ((s.program role).hold
          (Action.countsRx linkId) (.linkReceiver linkId)).length
        ≤ k * (far.totalTxPackets + ((s.program role.peer).hold
          (Action.countsTx linkId) .chunkSender).length)
      ∧ near.totalRxBytes + ((s.program role).hold
          (Action.countsRx linkId) (.linkReceiver linkId)).sum
        ≤ k * (far.totalTxBytes + ((s.program role.peer).hold
          (Action.countsTx linkId) .chunkSender).sum) := by
  obtain ⟨near, hnear, hrxPackets, hrxBytes⟩ :=
    run_counters_received hlink (run_program_start hrun role)
  obtain ⟨far, hfar, htxPackets, htxBytes⟩ :=
    run_counters_sent hpeer (run_program_start hrun role.peer)
  have hle := arrived_le_sent hrun role linkId hk
  rw [events_start] at hle
  refine ⟨near, far, hnear, hfar, ?_, ?_⟩
  · rw [hrxPackets, htxPackets]
    have hcount := hle fun _ => 1
    rwa [List.map_const', List.map_const', List.sum_replicate_nat,
      List.sum_replicate_nat, Nat.mul_one, Nat.mul_one] at hcount
  · rw [hrxBytes, htxBytes]
    have hsum := hle id
    rwa [List.map_id, List.map_id] at hsum

/-- The law where the one chunk is delivered twice. -/
theorem received_le_sent_repeated : ∃ s near far,
    Trace.run (System.step fun _ => none)
        (clientSends ++ serverWrites ++ serverWrites) freshSystem = some s
      ∧ s.server.shared.rateController.states[0]? = some near
      ∧ s.client.shared.rateController.states[0]? = some far
      ∧ near.totalRxPackets + (s.server.hold (Action.countsRx 0)
          (.linkReceiver 0)).length
        ≤ 2 * (far.totalTxPackets + (s.client.hold (Action.countsTx 0)
          .chunkSender).length) := by
  obtain ⟨s, hrun⟩ := Option.isSome_iff_exists.mp (show (Trace.run
      (System.step fun _ => none) (clientSends ++ serverWrites
      ++ serverWrites) freshSystem).isSome = true by decide +kernel)
  have hplaces : (clientSends ++ serverWrites ++ serverWrites).flatMap
      (SystemStep.delivers .server) = [0, 0] := rfl
  obtain ⟨near, far, hnear, hfar, hle, -⟩ := received_le_sent
    (fun _ => none) (fun _ => Config.default) _ (fun _ _ => 0) hrun .server
    (show 0 < expectedBandwidthDown.length by decide)
    (show 0 < expectedBandwidthUp.length by decide)
    (k := 2) (fun i => by
      rw [hplaces]
      exact List.count_le_length)
  exact ⟨s, near, far, hrun, hnear, hfar, hle⟩

end ChainLightning
