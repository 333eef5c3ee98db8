/-
What an action does on the way from a link to the TUN device, and what
it hands to a socket.

`Action.Effects` (Tasks.lean) covers the parts of the state that chunks
pass on their way to a link; `Action.Outputs` covers the others: the
queue of the TUN writer, the reassembly buffer, the two collectors, the
learned addresses, and the two logs, of the datagrams sent and of the
packets written. Its theorem (`exec_outputs`) is the only place where
the actions are opened for them.
-/
import ChainLightning.Proofs.Endpoint.Malformed
import ChainLightning.Proofs.Endpoint.Tasks

namespace ChainLightning

-- ============================================================= datagrams

/-- The datagram that an action hands to a socket. -/
def Action.datagrams (role : Role) (r : Reading) : Action → List Datagram
  | .sendAck linkId chunkId src =>
      [{ linkId
         dest := Endpoint.replyDest role src
         bytes := Endpoint.ackBytes linkId chunkId r.micros }]
  | .sendKeepalive linkId =>
      [{ linkId
         dest := .server
         bytes := Endpoint.keepaliveBytes linkId r.micros }]
  | a => a.addressed

/-- The datagram that an action sends: nothing if the socket fails. -/
def Action.sends (role : Role) (r : Reading) (a : Action) : List Datagram :=
  if r.sendOk then a.datagrams role r else []

theorem mem_sends {role : Role} {r : Reading} {a : Action} {d : Datagram}
    (hd : d ∈ a.sends role r) : d ∈ a.datagrams role r := by
  unfold Action.sends at hd
  split at hd
  case isTrue => exact hd
  case isFalse => cases hd

-- =============================================================== outputs

/-- The packet an action writes to the TUN device. -/
def Action.writes : Action → List (List UInt8)
  | .writeTun packet => [packet]
  | _ => []

/-- What an action does to the queue of the TUN writer. -/
def Action.intake (r : Reading) : Action → List Chunk → List Chunk
  | .forward p, chunks => chunks ++ [p.toChunk (r.instant 0)]
  | .takeReceived, chunks => chunks.tail
  | _, chunks => chunks

/-- The packets that an action takes off that queue to be written. -/
def Action.opens (e : Endpoint) : Action → List (List UInt8)
  | .takeReceived => (e.fromLinks.take 1).flatMap Chunk.extractPackets
  | _ => []

/-- What an action does to the reassembly buffer. -/
def Action.reassemble (r : Reading) : Action → ChunkReceiver → ChunkReceiver
  | .handleAnnouncement ann, receiver =>
      receiver.handleAnnouncement ann (r.instant 0)
  | _, receiver => receiver

/-- What an action does to the learned addresses. -/
def Action.learns : Action → List (Option SocketAddr) →
    List (Option SocketAddr)
  | .learnAddr linkId src, addrs => addrs.set linkId (some src)
  | _, addrs => addrs

/-- The call an action makes on the rate controller. -/
def Action.rateOp (r : Reading) : Action → Option RateOp
  | .rateRx linkId bytes => some (.recordRx linkId bytes)
  | .rateTx linkId bytes => some (.recordTx linkId bytes)
  | .processProbe probe =>
      some (.processProbe { micros := r.micros, instant := r.instant 0 } probe)
  | .buildProbes => some (.buildProbes r.linkMicros)
  | .checkRates => some (.checkTimeouts r.instant)
  | _ => none

/-- What an action does to the statistics. -/
def Action.observe (r : Reading) : Action → StatsCollector → StatsCollector
  | .recordTx linkId bytes, s => s.recordTx linkId (UInt64.ofNat bytes)
  | .recordRx linkId bytes, s => s.recordRx linkId (UInt64.ofNat bytes)
  | .handleAck linkId ack, s =>
      if ack.echoTimestampUs > 0 ∧ r.micros > ack.echoTimestampUs then
        s.recordRtt linkId (r.micros - ack.echoTimestampUs)
      else s
  | .tickStats, s => s.tick r.instant
  | _, s => s

/-- What an action does to the parts of the state on the way from a link
to the TUN device, and what it puts out. -/
structure Action.Outputs (role : Role) (r : Reading) (a : Action)
    (e : Endpoint) (next : List Action) (e' : Endpoint) : Prop where
  sent : e'.sent = e.sent ++ a.sends role r
  written : e'.written = e.written ++ a.writes
  fromLinks : e'.fromLinks = a.intake r e.fromLinks
  opens : next.flatMap Action.writes = a.opens e
  receiver : e'.receiver = a.reassemble r e.receiver
  addrs : e'.addrs = a.learns e.addrs
  rates : (a.rateOp r).elim (some e.rateController)
    (fun op => op.apply e.rateController) = some e'.rateController
  stats : e'.stats = a.observe r e.stats

/-- A socket call logs what it is handed, if it succeeds. -/
private theorem transmit_sends (r : Reading) (linkId : Nat) (dest : Dest)
    (bytes : List UInt8) (e : Endpoint) :
    e.transmit r linkId dest bytes
      = { e with
          sent := e.sent
            ++ if r.sendOk then [{ linkId, dest, bytes }] else [] } := by
  unfold Endpoint.transmit
  split
  case isTrue => rfl
  case isFalse => rw [List.append_nil]

/-- An action that hands nothing to a socket leaves the log. -/
private theorem sends_none {role : Role} {r : Reading} {a : Action}
    (h : a.datagrams role r = []) (sent : List Datagram) :
    sent = sent ++ a.sends role r := by
  unfold Action.sends
  rw [h, ite_self, List.append_nil]

/-- Actions that write nothing. -/
private theorem opens_none {next : List Action}
    (h : ∀ b ∈ next, b.writes = []) :
    next.flatMap Action.writes = [] :=
  List.flatMap_eq_nil_iff.mpr h

/-- An action has its outputs and no others. -/
theorem exec_outputs {role : Role} {r : Reading} {a : Action}
    {e e' : Endpoint} {next : List Action}
    (hexec : Endpoint.exec role r a e = some (next, e')) :
    a.Outputs role r e next e' := by
  have hlead := exec_leads hexec
  have hquiet : ∀ {l : List Action}, (∀ b ∈ l, Action.Leads role e a b) →
      (∀ b, Action.Leads role e a b → b.writes = []) →
      l.flatMap Action.writes = [] :=
    fun hl hb => opens_none fun b hmem => hb b (hl b hmem)
  cases a with
  | takeReceived =>
      unfold Endpoint.exec at hexec
      dsimp only at hexec
      split at hexec <;> cases hexec
      case h_2 chunk rest hqueue =>
        refine ⟨sends_none rfl _, (List.append_nil _).symm, ?_, ?_,
          rfl, rfl, rfl, rfl⟩
        · show rest = e.fromLinks.tail
          rw [hqueue, List.tail_cons]
        · show _ = (e.fromLinks.take 1).flatMap Chunk.extractPackets
          rw [hqueue, List.take_succ_cons, List.take_zero,
            List.flatMap_singleton, List.flatMap_map]
          exact List.flatMap_singleton' _
  | learnAddr linkId src =>
      cases hexec
      rw [learn_eq]
      exact ⟨sends_none rfl _, (List.append_nil _).symm, rfl, rfl,
        rfl, rfl, rfl, rfl⟩
  | handleAck linkId ack =>
      cases hexec
      unfold Endpoint.handleAck
      split
      case isTrue h =>
        exact ⟨sends_none rfl _, (List.append_nil _).symm, rfl, rfl,
          rfl, rfl, rfl, (if_pos h).symm⟩
      case isFalse h =>
        exact ⟨sends_none rfl _, (List.append_nil _).symm, rfl, rfl,
          rfl, rfl, rfl, (if_neg h).symm⟩
  | transmitChunk linkId dest chunk =>
      injection hexec with hexec
      injection hexec with hnext he
      rw [← he, transmit_sends]
      refine ⟨rfl, (List.append_nil _).symm, rfl, hquiet hlead ?_, rfl, rfl,
        rfl, rfl⟩
      intro b hb
      cases hb <;> rfl
  | transmitProbe _ _ | sendAck _ _ _ | sendKeepalive _ =>
      cases hexec
      rw [transmit_sends]
      exact ⟨rfl, (List.append_nil _).symm, rfl, rfl, rfl, rfl, rfl, rfl⟩
  | writeTun packet =>
      cases hexec
      exact ⟨sends_none rfl _, rfl, rfl, rfl, rfl, rfl, rfl, rfl⟩
  | buildProbes =>
      obtain ⟨⟨probes, rc⟩, hbuild, hexec⟩ :=
        Option.bind_eq_some_iff.mp hexec
      cases hexec
      refine ⟨sends_none rfl _, (List.append_nil _).symm, rfl,
        hquiet hlead ?_, rfl, rfl, congrArg (Option.map Prod.snd) hbuild, rfl⟩
      intro b hb
      cases hb
      rfl
  | rateTx _ _ | rateRx _ _ | processProbe _ =>
      obtain ⟨rc, hrate, hexec⟩ := Option.bind_eq_some_iff.mp hexec
      cases hexec
      exact ⟨sends_none rfl _, (List.append_nil _).symm, rfl, rfl,
        rfl, rfl, hrate, rfl⟩
  | enqueue _ | takeChunk | forward _ =>
      unfold Endpoint.exec at hexec
      dsimp only at hexec
      split at hexec <;> cases hexec
      exact ⟨sends_none rfl _, (List.append_nil _).symm, rfl, rfl,
        rfl, rfl, rfl, rfl⟩
  | _ =>
      cases hexec
      refine ⟨sends_none rfl _, (List.append_nil _).symm, rfl,
        hquiet hlead ?_, rfl, rfl, rfl, rfl⟩
      intro b hb
      cases hb <;> rfl

-- =================================================================== runs

/-- The datagrams that are sent with an event. -/
def ProgramEvent.sends (role : Role) : ProgramEvent → List Datagram
  | .began _ => []
  | .performed r a _ => a.sends role r

/-- What a run puts in the log is what its actions send. -/
theorem run_sent {statsFromSlice : List UInt8 → Option StatsPacket}
    {role : Role} {steps : List ProgramStep} {p p' : Program}
    (hrun : Trace.run (Program.step statsFromSlice role) steps p = some p')
    (horderly : p.Orderly) :
    p'.shared.sent = p.shared.sent
      ++ (Program.events statsFromSlice role steps p).flatMap
        (ProgramEvent.sends role) := by
  refine Program.run_events (P := fun seen q => q.shared.sent
    = p.shared.sent ++ seen.flatMap (ProgramEvent.sends role))
    ?_ ?_ (Trace.Along.of_forall (fun _ _ _ => trivial) _) hrun horderly
    (List.append_nil _).symm
  · intro seen round q hq _ _
    rw [List.flatMap_append]
    exact hq.trans (congrArg _ (List.append_nil _).symm)
  · intro seen t r a rest next e q hq _ _ _ hexec
    rw [List.flatMap_append, List.flatMap_singleton, ← List.append_assoc,
      ← hq]
    exact (exec_outputs hexec).sent

/-- Of what is noted once in an event at most, a run notes no more than it
has steps. -/
theorem run_notes_length_le
    {statsFromSlice : List UInt8 → Option StatsPacket} {role : Role}
    {β : Type*} {g : ProgramEvent → List β}
    (hg : ∀ event, (g event).length ≤ 1) (steps : List ProgramStep)
    (p : Program) :
    ((Program.events statsFromSlice role steps p).flatMap g).length
      ≤ steps.length := by
  have hevents : (Program.events statsFromSlice role steps p).length
      ≤ steps.length := by
    refine Trace.record_length_le (fun step q => ?_) steps p
    cases step with
    | begin round => exact Nat.le_refl 1
    | perform t r =>
        unfold ProgramStep.events
        dsimp only
        split
        · exact Nat.zero_le 1
        · exact Nat.le_refl 1
  refine le_trans ?_ hevents
  generalize Program.events statsFromSlice role steps p = seen
  induction seen with
  | nil => exact Nat.le_refl 0
  | cons event seen ih =>
      rw [List.flatMap_cons, List.length_append, List.length_cons]
      have hfirst := hg event
      omega

/-- What every action of a run meets, every action seen of it has met. -/
theorem run_performed {statsFromSlice : List UInt8 → Option StatsPacket}
    {role : Role} {ok : Reading → Action → Endpoint → Prop}
    {steps : List ProgramStep} {p p' : Program}
    (halong : Trace.Along (Program.step statsFromSlice role)
      (ProgramStep.Performs ok) steps p)
    (hrun : Trace.run (Program.step statsFromSlice role) steps p = some p')
    (horderly : p.Orderly) :
    ∀ r a e, .performed r a e ∈ Program.events statsFromSlice role steps p →
      ok r a e := by
  refine Program.run_events
    (P := fun seen _ => ∀ r a e, .performed r a e ∈ seen → ok r a e)
    ?_ ?_ halong hrun horderly (fun _ _ _ h => nomatch h)
  · intro seen round q hq _ _ r a e hmem
    rcases List.mem_append.mp hmem with hmem | hmem
    · exact hq r a e hmem
    · cases List.mem_singleton.mp hmem
  · intro seen t r' a' rest next e' q hq hok _ hpending _ r a e hmem
    rcases List.mem_append.mp hmem with hmem | hmem
    · exact hq r a e hmem
    · cases List.mem_singleton.mp hmem
      exact hok.head hpending

end ChainLightning
