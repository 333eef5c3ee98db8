/-
A datagram that is no packet, on the server.

Its round is one action: the sender's address is learned before the
datagram is decoded, and a datagram that does not decode leaves nothing
else to do (`malformed_actions`). Whatever the other tasks do between
the start and the end of that round, they do as if the datagram had not
come (`run_assign`): the round amounts to learning the address.

So such a datagram moves the destination of its link's data and probes
to its sender, and nothing else; it is inert exactly when its sender is
the address already learned.
-/
import ChainLightning.Endpoint

namespace ChainLightning

-- ============================================================ one datagram

/-- The endpoint with the address of a link replaced. -/
def Endpoint.withAddr (linkId : Nat) (src : SocketAddr) (e : Endpoint) :
    Endpoint :=
  { e with addrs := e.addrs.set linkId (some src) }

/-- Learning an address replaces that of its link; the check before it
only saves the assignment. -/
theorem learn_eq (linkId : Nat) (src : SocketAddr) (e : Endpoint) :
    e.learn linkId src = e.withAddr linkId src := by
  unfold Endpoint.learn Endpoint.withAddr
  by_cases hnew : e.addrs[linkId]? ≠ some (some src)
  · rw [if_pos hnew]
  rw [if_neg hnew]
  obtain ⟨hlt, hget⟩ :=
    List.getElem?_eq_some_iff.mp (not_not.mp hnew)
  rw [← hget, List.set_getElem_self hlt]

variable {statsFromSlice : List UInt8 → Option StatsPacket}

/-- The server's round for a datagram that is no packet. -/
theorem malformed_actions {bytes : List UInt8}
    (hbad : Packet.decode statsFromSlice bytes = none) (linkId : Nat)
    (src : SocketAddr) (e : Endpoint) :
    Round.actions statsFromSlice .server e (.receive linkId bytes src)
      = [.learnAddr linkId src] := by
  unfold Round.actions
  dsimp only
  rw [hbad]
  rfl

-- =========================================================== other tasks

/-- The task that takes a step. -/
def ProgramStep.task : ProgramStep → Task
  | .begin round => round.task
  | .perform task _ => task

/-- What a task has to do makes no difference to a step of another. -/
theorem step_assign {role : Role} {t : Task} {step : ProgramStep}
    (hother : step.task ≠ t) (acts : List Action) (p : Program) :
    Program.step statsFromSlice role step (p.assign t acts)
      = (Program.step statsFromSlice role step p).map
        (Pool.assign t acts) := by
  cases step with
  | begin round =>
      unfold Program.step
      dsimp only
      rw [Pool.assign_shared]
      by_cases henabled : round.enabled role p.shared
      · rw [if_pos henabled, if_pos henabled]
        exact Pool.begin_assign hother acts _ p
      · rw [if_neg henabled, if_neg henabled]
        rfl
  | perform task reading => exact Pool.perform_assign hother acts p

/-- What a task has to do makes no difference to a run of the others. -/
theorem run_assign {role : Role} {t : Task} {steps : List ProgramStep}
    (hother : ∀ step ∈ steps, step.task ≠ t) (acts : List Action)
    (p : Program) :
    Trace.run (Program.step statsFromSlice role) steps (p.assign t acts)
      = (Trace.run (Program.step statsFromSlice role) steps p).map
        (Pool.assign t acts) := by
  induction steps generalizing p with
  | nil => rfl
  | cons step steps ih =>
      have hfirst := hother step List.mem_cons_self
      have hrest : ∀ step ∈ steps, step.task ≠ t :=
        fun s hs => hother s (List.mem_cons_of_mem step hs)
      rw [Trace.run_cons, Trace.run_cons, step_assign hfirst]
      cases Program.step statsFromSlice role step p with
      | none => rfl
      | some p' => exact ih hrest p'

/-- Steps of the others leave what a task has to do. -/
theorem run_pending {role : Role} {t : Task} {steps : List ProgramStep}
    (hother : ∀ step ∈ steps, step.task ≠ t) {p p' : Program}
    (hrun : Trace.run (Program.step statsFromSlice role) steps p
      = some p') :
    p'.pending t = p.pending t := by
  have hsame : p.assign t (p.pending t) = p := by
    unfold Pool.assign
    rw [Function.update_eq_self]
  have h : Trace.run (Program.step statsFromSlice role) steps
      (p.assign t (p.pending t)) = _ := run_assign hother (p.pending t) p
  rw [hsame, hrun] at h
  injection h with h
  rw [h, Pool.assign_pending_self]

-- ============================================================== the round

/-- The round of a datagram that is no packet, with any steps of the
other tasks between its start and its end: those steps, and the sender
learned. -/
theorem malformed_round {bytes : List UInt8}
    (hbad : Packet.decode statsFromSlice bytes = none) {linkId : Nat}
    (src : SocketAddr) {p : Program} (hlink : linkId < p.shared.numLinks)
    (hidle : p.pending (.linkReceiver linkId) = [])
    {others : List ProgramStep}
    (hothers : ∀ step ∈ others, step.task ≠ .linkReceiver linkId)
    (reading : Reading) :
    Trace.run (Program.step statsFromSlice .server)
        (.begin (.receive linkId bytes src) :: others
          ++ [.perform (.linkReceiver linkId) reading]) p
      = (Trace.run (Program.step statsFromSlice .server) others p).map
        fun q => { q with shared := q.shared.withAddr linkId src } := by
  have hbegin : Program.step statsFromSlice .server
      (.begin (.receive linkId bytes src)) p
      = some (p.assign (.linkReceiver linkId) [.learnAddr linkId src]) := by
    have henabled : Round.enabled .server p.shared
        (.receive linkId bytes src) = true := decide_eq_true hlink
    unfold Program.step
    dsimp only
    rw [if_pos henabled, malformed_actions hbad]
    exact Pool.begin_of_idle hidle
  rw [List.cons_append, Trace.run_cons, hbegin, Option.bind_some,
    Trace.run_append, run_assign hothers]
  cases hrun : Trace.run (Program.step statsFromSlice .server) others p with
  | none => rfl
  | some q =>
      have hq : q.pending (.linkReceiver linkId) = [] :=
        (run_pending hothers hrun).trans hidle
      rw [Option.map_some, Option.bind_some, Trace.run_cons,
        Option.map_some]
      unfold Program.step
      dsimp only
      rw [Pool.perform_of_pending (Pool.assign_pending_self ..)]
      simp only [Endpoint.exec, Option.map_some, Option.bind_some,
        Trace.run_nil, Pool.assign, List.append_nil, Function.update_idem,
        learn_eq]
      rw [← hq, Function.update_eq_self]

/-- Where a link's data and probes are to go, once an address was
learned. -/
theorem destination_withAddr (linkId : Nat) (src : SocketAddr)
    (e : Endpoint) (l : Nat) :
    (e.withAddr linkId src).destination .server l
      = if l = linkId ∧ l < e.addrs.length ∧ l < e.numLinks then
          some (.client src)
        else e.destination .server l := by
  unfold Endpoint.destination Endpoint.withAddr
  dsimp only
  by_cases hl : l < e.numLinks
  · rw [if_pos hl, if_pos hl]
    by_cases heq : l = linkId
    · subst heq
      by_cases hlen : l < e.addrs.length
      · rw [List.getElem?_set_self hlen, if_pos ⟨rfl, hlen, hl⟩]
        rfl
      · rw [List.set_eq_of_length_le (Nat.le_of_not_lt hlen),
          if_neg (fun h => hlen h.2.1)]
    · rw [List.getElem?_set_ne (Ne.symm heq), if_neg (fun h => heq h.1)]
  · rw [if_neg hl, if_neg hl, if_neg (fun h => hl h.2.2)]

/-- Replacing an address changes something unless it was the learned
one. -/
theorem withAddr_eq_self_iff {linkId : Nat} {src : SocketAddr}
    {e : Endpoint} (hlen : linkId < e.addrs.length) :
    e.withAddr linkId src = e ↔ e.addrs[linkId]? = some (some src) := by
  constructor
  · intro h
    have haddrs : e.addrs.set linkId (some src) = e.addrs :=
      congrArg Endpoint.addrs h
    rw [← haddrs]
    exact List.getElem?_set_self hlen
  · intro h
    rw [← learn_eq]
    unfold Endpoint.learn
    rw [if_neg (not_not_intro h)]

/-- A datagram that does not decode, whatever the other tasks do during
its round, has its sender learned as the address of its link and changes
nothing else: the link's data and probes go there whose destination is
looked up from then on, those of the other links where they went. So it is inert exactly when its sender
is the address learned already. -/
theorem malformed_datagram_learned_only
    (statsFromSlice : List UInt8 → Option StatsPacket) {bytes : List UInt8}
    (hbad : Packet.decode statsFromSlice bytes = none) {linkId : Nat}
    (src : SocketAddr) :
    (∀ p : Program, linkId < p.shared.numLinks →
      p.pending (.linkReceiver linkId) = [] →
      ∀ others : List ProgramStep,
        (∀ step ∈ others, step.task ≠ .linkReceiver linkId) →
        ∀ reading,
          Trace.run (Program.step statsFromSlice .server)
              (.begin (.receive linkId bytes src) :: others
                ++ [.perform (.linkReceiver linkId) reading]) p
            = (Trace.run (Program.step statsFromSlice .server) others
                p).map
              fun q => { q with shared := q.shared.withAddr linkId src })
    ∧ ∀ e : Endpoint, linkId < e.numLinks → linkId < e.addrs.length →
        (∀ l, (e.withAddr linkId src).destination .server l
          = if l = linkId then some (.client src)
            else e.destination .server l)
        ∧ (e.withAddr linkId src = e
            ↔ e.addrs[linkId]? = some (some src)) := by
  refine ⟨?_, ?_⟩
  · intro p hlink hidle others hothers reading
    exact malformed_round hbad src hlink hidle hothers reading
  · intro e hlink hlen
    refine ⟨fun l => ?_, withAddr_eq_self_iff hlen⟩
    rw [destination_withAddr]
    by_cases hl : l = linkId
    · subst hl
      rw [if_pos ⟨rfl, hlen, hlink⟩, if_pos rfl]
    · rw [if_neg (fun h => hl h.1), if_neg hl]

/-- The server at its start, with the default configuration. -/
def freshServer : Program :=
  Pool.idle (Endpoint.start Config.default expectedBandwidthDown fun _ => 0)

/-- Clocks at rest, and sockets that send. -/
def stillReading : Reading where
  micros := 0
  instant := fun _ => 0
  linkMicros := fun _ => 0
  sendOk := true

/-- The law at a single stray byte on the first link, with the stats
updater at work. -/
theorem malformed_datagram_learned_only_stray_byte :
    Trace.run (Program.step (fun _ => none) .server)
        [.begin (.receive 0 [255] ⟨1, 40000⟩), .begin .updateStats,
         .perform (.linkReceiver 0) stillReading] freshServer
      = (Trace.run (Program.step (fun _ => none) .server)
          [.begin .updateStats] freshServer).map
        fun q => { q with shared := q.shared.withAddr 0 ⟨1, 40000⟩ } :=
  (malformed_datagram_learned_only (fun _ => none) rfl ⟨1, 40000⟩).1
    freshServer (by decide) rfl [.begin .updateStats]
    (fun _ h => List.mem_singleton.mp h ▸ (by decide)) stillReading

/-- A keepalive teaches the server its client's address. A stray byte
from elsewhere, which is no packet, then moves the link's destination,
and the next probe goes there. -/
theorem malformed_datagram_redirects :
    Packet.decode (fun _ => none) [255] = none
    ∧ ∃ p q r,
      Trace.run (Program.step (fun _ => none) .server)
          [.begin (.receive 0 (Endpoint.keepaliveBytes 0 0) ⟨1, 40000⟩),
           .perform (.linkReceiver 0) stillReading] freshServer = some p
      ∧ Trace.run (Program.step (fun _ => none) .server)
          [.begin (.receive 0 [255] ⟨2, 50000⟩),
           .perform (.linkReceiver 0) stillReading] p = some q
      ∧ p.shared.addrs ≠ q.shared.addrs
      ∧ p.shared.destination .server 0 = some (.client ⟨1, 40000⟩)
      ∧ Trace.run (Program.step (fun _ => none) .server)
          [.begin .sendProbes, .perform .probeSender stillReading,
           .perform .probeSender stillReading,
           .perform .probeSender stillReading] q = some r
      ∧ r.shared.sent.map Datagram.dest = [.client ⟨2, 50000⟩] := by
  refine ⟨rfl, ?_⟩
  have hrun : (Trace.run (Program.step (fun _ => none) .server)
      [.begin (.receive 0 (Endpoint.keepaliveBytes 0 0) ⟨1, 40000⟩),
       .perform (.linkReceiver 0) stillReading] freshServer).bind
      (fun p => (Trace.run (Program.step (fun _ => none) .server)
        [.begin (.receive 0 [255] ⟨2, 50000⟩),
         .perform (.linkReceiver 0) stillReading] p).bind
        fun q => (Trace.run (Program.step (fun _ => none) .server)
          [.begin .sendProbes, .perform .probeSender stillReading,
           .perform .probeSender stillReading,
           .perform .probeSender stillReading] q).map
          fun r => (p.shared.addrs[0]?, q.shared.addrs[0]?,
            p.shared.destination .server 0,
            r.shared.sent.map Datagram.dest))
      = some (some (some ⟨1, 40000⟩), some (some ⟨2, 50000⟩),
          some (.client ⟨1, 40000⟩), [.client ⟨2, 50000⟩]) := by
    decide +kernel
  obtain ⟨p, hp, hrun⟩ := Option.bind_eq_some_iff.mp hrun
  obtain ⟨q, hq, hrun⟩ := Option.bind_eq_some_iff.mp hrun
  obtain ⟨r, hr, hrun⟩ := Option.map_eq_some_iff.mp hrun
  injection hrun with hbefore hrun
  injection hrun with hafter hrun
  injection hrun with hdest hsent
  refine ⟨p, q, r, hp, hq, ?_, hdest, hr, hsent⟩
  intro hsame
  rw [hsame, hafter] at hbefore
  revert hbefore
  decide

end ChainLightning
