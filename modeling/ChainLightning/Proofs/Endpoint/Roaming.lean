/-
The server follows the client.

The server knows a link's client only by the senders of the datagrams
that arrive on the link. Of these the link's receiver learns one after the
other (`learned_in_order`), and the address kept for a link is the last
one learned (`Learned`). An acknowledgement goes to the sender of its
chunk; where a chunk or a probe goes is looked up, and another address may
be learned before it reaches the socket. So whatever the server sends on a
link goes to an address that it has heard the client from on that link,
and all but the acknowledgements to the address that it had learned last
when it looked it up (`server_follows_client`).
-/
import ChainLightning.Proofs.Endpoint.Hands
import ChainLightning.Proofs.Wire

namespace ChainLightning

-- ============================================================ definitions

/-- The address an action is about to learn for a link. -/
def Action.learnsOn (linkId : Nat) : Action → List SocketAddr
  | .learnAddr l src => if l = linkId then [src] else []
  | _ => []

/-- The sender of a datagram on a link. -/
def Round.heardOn (linkId : Nat) : Round → List SocketAddr
  | .receive l _ src => if l = linkId then [src] else []
  | _ => []

/-- The addresses that were learned for a link. -/
def learned (linkId : Nat) (seen : List ProgramEvent) : List SocketAddr :=
  seen.flatMap (ProgramEvent.done (Action.learnsOn linkId))

/-- The addresses that a link was heard from. -/
def heard (linkId : Nat) (seen : List ProgramEvent) : List SocketAddr :=
  seen.flatMap (ProgramEvent.brought (Round.heardOn linkId))

/-- The datagram is read as an acknowledgement. -/
def Datagram.isAck (d : Datagram) : Bool := (AckPacket.decode d.bytes).isSome

/-- The link and the bytes of a datagram whose destination an action looks
up. -/
def Action.lookups : Action → List (Nat × List UInt8)
  | .sendChunk linkId chunk =>
      [(linkId, Endpoint.chunkBytes linkId chunk)]
  | .sendProbe probe => [(probe.linkId.toNat, probe.encode)]
  | _ => []

/-- The destination of a datagram was looked up some events ago, and is
the address that was learned last for its link before that. -/
def Datagram.LookedUp (earlier : List ProgramEvent) (d : Datagram) : Prop :=
  ∃ before event after, earlier = before ++ event :: after
    ∧ (d.linkId, d.bytes) ∈ ProgramEvent.done Action.lookups event
    ∧ ∃ src, (learned d.linkId before).getLast? = some src
      ∧ d.dest = .client src

/-- Where a datagram of the server goes, after some events: to an address
that its link was heard from, and to the one learned last when it was
looked up if it is no acknowledgement. -/
structure Datagram.Follows (earlier : List ProgramEvent) (d : Datagram) :
    Prop where
  heard : ∃ src ∈ heard d.linkId earlier, d.dest = .client src
  last : d.isAck = false → d.LookedUp earlier

-- =============================================================== learning

variable {statsFromSlice : List UInt8 → Option StatsPacket}

/-- The server's round for a datagram has its sender in hand. -/
private theorem actions_learns (linkId : Nat) (e : Endpoint)
    (round : Round) :
    (round.actions statsFromSlice .server e).flatMap
        (Action.learnsOn linkId) = round.heardOn linkId := by
  cases round with
  | receive l bytes src =>
      have hhandle : (Round.handle l bytes.length src
          (Packet.decode statsFromSlice bytes)).flatMap
            (Action.learnsOn linkId) = [] := by
        cases Packet.decode statsFromSlice bytes with
        | none => rfl
        | some packet => cases packet <;> rfl
      exact (congrArg (_ ++ ·) hhandle).trans (List.append_nil _)
  | updateStats =>
      unfold Round.actions
      dsimp only
      split <;> rfl
  | sendKeepalives =>
      refine List.flatMap_eq_nil_iff.mpr fun a ha => ?_
      obtain ⟨l, -, rfl⟩ := List.mem_map.mp ha
      rfl
  | _ => rfl

/-- A link's receiver learns the senders in the order their datagrams
arrive. -/
theorem learned_in_order {config : Config} {linkBandwidths : List UInt64}
    {now : Nat → Nat} {steps : List ProgramStep} {p : Program}
    (hrun : Trace.run (Program.step statsFromSlice .server) steps
      (Program.start config linkBandwidths now) = some p) (linkId : Nat) :
    learned linkId (Program.events statsFromSlice .server steps
        (Program.start config linkBandwidths now))
        ++ p.hold (Action.learnsOn linkId) (.linkReceiver linkId)
      = heard linkId (Program.events statsFromSlice .server steps
        (Program.start config linkBandwidths now)) :=
  run_hand (g := Round.heardOn linkId)
    (fun round e => actions_learns linkId e round)
    (fun round ht => by
      cases round with
      | receive l bytes src =>
          exact if_neg fun heq => ht (congrArg Task.linkReceiver heq)
      | _ => rfl)
    (fun r a e next e' hexec => List.flatMap_eq_nil_iff.mpr fun b hb => by
      cases exec_leads hexec b hb <;> rfl) hrun

-- ============================================================== invariant

/-- The address that an action is about to learn or to reply to is one
that its link was heard from, and a datagram in its hand goes where it
was looked up to go. The server sends no keepalives. -/
def Action.Heard (seen : List ProgramEvent) : Action → Prop
  | .learnAddr linkId src | .sendAck linkId _ src => src ∈ heard linkId seen
  | .sendKeepalive _ => False
  | a => ∀ d ∈ a.addressed, d.Follows seen

/-- The addresses the server keeps are those learned last, what it is
about to learn, to reply to or to send to was heard, and every datagram it
has sent follows. -/
structure Learned (seen : List ProgramEvent) (p : Program) : Prop where
  addrs : p.shared.addrs = (List.range p.shared.numLinks).map fun linkId =>
    (learned linkId seen).getLast?
  behind : ∀ linkId, ∀ src ∈ learned linkId seen, src ∈ heard linkId seen
  pending : ∀ t, ∀ a ∈ p.pending t, a.Heard seen
  sends : Trace.Throughout (fun earlier event =>
    ∀ d ∈ event.sends .server, d.Follows earlier) seen

theorem learned_start (config : Config) (linkBandwidths : List UInt64)
    (now : Nat → Nat) :
    Learned [] (Program.start config linkBandwidths now) where
  addrs := by
    show List.replicate linkBandwidths.length none
      = (List.range linkBandwidths.length).map fun _ => none
    rw [List.map_const', List.length_range]
  behind := fun _ _ h => nomatch h
  pending := fun _ _ h => nomatch h
  sends := Trace.throughout_nil _

private theorem learned_began (linkId : Nat) (seen : List ProgramEvent)
    (round : Round) :
    learned linkId (seen ++ [.began round]) = learned linkId seen := by
  unfold learned
  rw [List.flatMap_append]
  exact List.append_nil _

private theorem learned_performed (linkId : Nat) (seen : List ProgramEvent)
    (r : Reading) (a : Action) (e : Endpoint) :
    learned linkId (seen ++ [.performed r a e])
      = learned linkId seen ++ a.learnsOn linkId := by
  unfold learned
  rw [List.flatMap_append, List.flatMap_singleton]
  rfl

private theorem heard_performed (linkId : Nat) (seen : List ProgramEvent)
    (r : Reading) (a : Action) (e : Endpoint) :
    heard linkId (seen ++ [.performed r a e]) = heard linkId seen := by
  unfold heard
  rw [List.flatMap_append]
  exact List.append_nil _

private theorem heard_began (linkId : Nat) (seen : List ProgramEvent)
    (round : Round) :
    heard linkId (seen ++ [.began round])
      = heard linkId seen ++ round.heardOn linkId := by
  unfold heard
  rw [List.flatMap_append, List.flatMap_singleton]
  rfl

private theorem heard_append {linkId : Nat} {seen : List ProgramEvent}
    {src : SocketAddr} (h : src ∈ heard linkId seen)
    (more : List ProgramEvent) : src ∈ heard linkId (seen ++ more) := by
  unfold heard
  rw [List.flatMap_append]
  exact List.mem_append_left _ h

/-- Where a datagram goes, it goes after some more events. -/
theorem Datagram.Follows.append {seen : List ProgramEvent} {d : Datagram}
    (h : d.Follows seen) (more : List ProgramEvent) :
    d.Follows (seen ++ more) := by
  obtain ⟨src, hsrc, hdest⟩ := h.heard
  refine ⟨⟨src, heard_append hsrc more, hdest⟩, fun hack => ?_⟩
  obtain ⟨before, event, after, rfl, hlookup⟩ := h.last hack
  exact ⟨before, event, after ++ more, by simp, hlookup⟩

/-- What was heard stays heard. -/
theorem Action.Heard.append {seen : List ProgramEvent} {a : Action}
    (h : a.Heard seen) (more : List ProgramEvent) :
    a.Heard (seen ++ more) := by
  cases a with
  | learnAddr linkId src => exact heard_append h more
  | sendAck linkId chunkId src => exact heard_append h more
  | sendKeepalive linkId => exact h
  | _ => exact fun d hd => (h d hd).append more

/-- A round learns and replies to the sender of its datagram only. -/
private theorem actions_heard {e : Endpoint} {seen : List ProgramEvent}
    {round : Round} (henabled : round.enabled .server e = true) :
    ∀ a ∈ round.actions statsFromSlice .server e,
      a.Heard (seen ++ [.began round]) := by
  intro a ha
  have howns := actions_owned statsFromSlice .server e round a ha
  have hnone := (actions_empty statsFromSlice .server e round a ha).2
  have hquiet : ∀ d ∈ a.addressed, d.Follows (seen ++ [.began round]) := by
    rw [hnone]
    exact fun d hd => nomatch hd
  cases round with
  | receive l bytes src =>
      have hsrc : src ∈ heard l
          (seen ++ [.began (.receive l bytes src)]) := by
        rw [heard_began]
        refine List.mem_append_right _ ?_
        unfold Round.heardOn
        dsimp only
        rw [if_pos rfl]
        exact List.mem_cons_self
      rcases List.mem_cons.mp ha with rfl | ha
      · exact hsrc
      · cases hdecode : Packet.decode statsFromSlice bytes with
        | none =>
            rw [hdecode] at ha
            cases ha
        | some packet =>
            rw [hdecode] at ha
            cases packet <;> simp [Round.handle] at ha
            case data p =>
              rcases ha with rfl | rfl | rfl | rfl | rfl
              · exact hquiet
              · exact hquiet
              · exact hquiet
              · exact hquiet
              · exact hsrc
            all_goals
              subst ha
              exact hquiet
  | sendKeepalives => exact absurd henabled (by simp [Round.enabled])
  | _ =>
      cases a with
      | learnAddr | sendAck =>
          obtain ⟨l, htask⟩ := howns
          cases htask
      | sendKeepalive => cases howns
      | _ => exact hquiet

/-- Where a link's data and probes are to go is looked up. -/
private theorem destination_follows {seen : List ProgramEvent} {p : Program}
    (h : Learned seen p) {d : Datagram} {r : Reading} {a : Action}
    (hdest : p.shared.destination .server d.linkId = some d.dest)
    (hlookup : (d.linkId, d.bytes) ∈ a.lookups) :
    d.Follows (seen ++ [.performed r a p.shared]) := by
  unfold Endpoint.destination at hdest
  split at hdest
  case isFalse => cases hdest
  case isTrue hlink =>
    dsimp only at hdest
    rw [h.addrs, List.getElem?_map, List.getElem?_range hlink] at hdest
    obtain ⟨src, hlast, hdest⟩ := Option.map_eq_some_iff.mp hdest
    have hlast : (learned d.linkId seen).getLast? = some src := hlast
    have hheard : src ∈ heard d.linkId seen :=
      h.behind _ src (List.mem_of_getLast? hlast)
    exact ⟨⟨src, heard_append hheard _, hdest.symm⟩, fun _ =>
      ⟨seen, _, [], rfl, hlookup, src, hlast, hdest.symm⟩⟩

/-- Whatever an action sends follows. -/
private theorem sends_follow {seen : List ProgramEvent} {r : Reading}
    {a : Action} (ha : a.Heard seen) :
    ∀ d ∈ a.sends .server r, d.Follows seen := by
  intro d hd
  have hd := mem_sends hd
  cases a with
  | sendAck linkId chunkId src =>
      cases List.mem_singleton.mp hd
      refine ⟨⟨src, ha, rfl⟩, fun hack => ?_⟩
      have hdecode : AckPacket.decode
          (Endpoint.ackBytes linkId chunkId r.micros) ≠ none := by
        rw [← List.append_nil (Endpoint.ackBytes linkId chunkId r.micros)]
        exact Option.ne_none_iff_exists'.mpr ⟨_, ack_decode_encode _ _⟩
      exact absurd (Option.isSome_eq_false_iff.mp hack)
        (by rwa [Option.isNone_iff_eq_none])
  | sendKeepalive linkId => exact ha.elim
  | learnAddr linkId src => cases hd
  | _ => exact ha d hd

namespace Learned

variable {seen : List ProgramEvent} {p : Program}

theorem begin (h : Learned seen p) {round : Round}
    (henabled : round.enabled .server p.shared = true) :
    Learned (seen ++ [.began round])
      { p with
        pending := Function.update p.pending round.task
          (round.actions statsFromSlice .server p.shared) } := by
  refine ⟨?_, ?_, ?_, h.sends.snoc fun d hd => nomatch hd⟩
  · simp only [learned_began]
    exact h.addrs
  · intro linkId src hsrc
    rw [learned_began] at hsrc
    exact heard_append (h.behind linkId src hsrc) _
  · exact Pool.pending_update (fun t a ha => (h.pending t a ha).append _)
      (actions_heard henabled)

theorem perform (h : Learned seen p) {r : Reading} {t : Task} {a : Action}
    {rest next : List Action} {e : Endpoint}
    (hpending : p.pending t = a :: rest)
    (hexec : Endpoint.exec .server r a p.shared = some (next, e)) :
    Learned (seen ++ [.performed r a p.shared])
      { shared := e, pending := Function.update p.pending t (next ++ rest) } := by
  have hheard : a.Heard seen :=
    h.pending t a (hpending ▸ List.mem_cons_self)
  refine ⟨?_, ?_, ?_, h.sends.snoc (sends_follow hheard)⟩
  · show e.addrs = (List.range e.numLinks).map _
    rw [(exec_outputs hexec).addrs, (exec_effects hexec).numLinks]
    simp only [learned_performed]
    cases a with
    | learnAddr l src =>
        show p.shared.addrs.set l (some src) = _
        rw [h.addrs]
        refine List.ext_getElem (by simp) fun i hi _ => ?_
        rw [List.getElem_set, List.getElem_map, List.getElem_map,
          List.getElem_range]
        unfold Action.learnsOn
        dsimp only
        split
        case isTrue => exact List.getLast?_concat.symm
        case isFalse => rw [List.append_nil]
    | _ =>
        show p.shared.addrs = _
        rw [h.addrs]
        simp only [Action.learnsOn, List.append_nil]
  · intro linkId src hsrc
    rw [learned_performed] at hsrc
    rw [heard_performed]
    rcases List.mem_append.mp hsrc with hsrc | hsrc
    · exact h.behind linkId src hsrc
    · cases a with
      | learnAddr l src' =>
          unfold Action.learnsOn at hsrc
          dsimp only at hsrc
          split at hsrc
          case isFalse => cases hsrc
          case isTrue hl =>
            cases List.mem_singleton.mp hsrc
            exact hl ▸ hheard
      | _ => cases hsrc
  · refine Pool.pending_update (fun t b hb => (h.pending t b hb).append _)
      fun b hb => ?_
    rcases List.mem_append.mp hb with hb | hb
    · cases exec_leads hexec b hb with
      | sendChunk linkId dest chunk hdest | sendProbe dest probe hdest =>
          intro d hd
          cases List.mem_singleton.mp hd
          exact destination_follows h hdest List.mem_cons_self
      | _ => exact fun d hd => nomatch hd
    · exact (h.pending t b (hpending ▸ List.mem_cons_of_mem a hb)).append _

end Learned

/-- The server follows the client. In every run of the server, the
addresses it learns for a link are the senders of the datagrams that
arrive on the link, in order, but for the one in its receiver's hand;
whatever it sends on a link goes to an address that it has heard the link
from before, and all but the acknowledgements to the one it had learned
last when it looked it up. -/
theorem server_follows_client
    (statsFromSlice : List UInt8 → Option StatsPacket) (config : Config)
    (linkBandwidths : List UInt64) (now : Nat → Nat)
    {steps : List ProgramStep} {p : Program}
    (hrun : Trace.run (Program.step statsFromSlice .server) steps
      (Program.start config linkBandwidths now) = some p) :
    (∀ linkId, learned linkId (Program.events statsFromSlice .server steps
        (Program.start config linkBandwidths now))
        ++ p.hold (Action.learnsOn linkId) (.linkReceiver linkId)
      = heard linkId (Program.events statsFromSlice .server steps
        (Program.start config linkBandwidths now)))
    ∧ Trace.Throughout (fun earlier event =>
        ∀ d ∈ event.sends .server, d.Follows earlier)
      (Program.events statsFromSlice .server steps
        (Program.start config linkBandwidths now)) := by
  have hlearned := Program.run_events (P := Learned)
    (fun _ _ _ h henabled _ => h.begin henabled)
    (fun _ _ _ _ _ _ _ _ h _ _ hpending hexec => h.perform hpending hexec)
    (Trace.Along.of_forall (fun _ _ _ => trivial) _) hrun (orderly_idle _)
    (learned_start config linkBandwidths now)
  exact ⟨learned_in_order hrun, hlearned.sends⟩

/-- A packet is read, and flushed as a chunk 5 ms later. -/
def flushOne (ms : Nat) : List ProgramStep :=
  [.begin (.readTun [69] none),
   .perform .tunReader (.atMillis ms),
   .perform .tunReader (.atMillis ms),
   .begin .checkTimeout,
   .perform .timeoutChecker (.atMillis (ms + 5)),
   .perform .timeoutChecker (.atMillis (ms + 5)),
   .begin .sendChunk]

/-- A link is heard from one address, and the chunk sender looks up where
the first chunk is to go. Before it reaches the socket the link is heard
from another address; then a second chunk is sent. -/
def clientMoves : List ProgramStep :=
  [.begin (.receive 0 [] ⟨1, 40000⟩),
   .perform (.linkReceiver 0) (.atMillis 0)]
    ++ flushOne 0 ++ List.replicate 3 (.perform .chunkSender (.atMillis 5))
    ++ [.begin (.receive 0 [] ⟨1, 40001⟩),
        .perform (.linkReceiver 0) (.atMillis 5)]
    ++ List.replicate 4 (.perform .chunkSender (.atMillis 5))
    ++ flushOne 5 ++ List.replicate 7 (.perform .chunkSender (.atMillis 10))

/-- The law there: the first chunk goes to the address that was looked up,
the second to the new one. -/
theorem server_follows_client_moves : ∃ p,
    Trace.run (Program.step (fun _ => none) .server) clientMoves freshServer
        = some p
      ∧ p.shared.sent.map (fun d => (d.linkId, d.dest))
        = [(0, .client ⟨1, 40000⟩), (0, .client ⟨1, 40001⟩)]
      ∧ Trace.Throughout (fun earlier event =>
          ∀ d ∈ event.sends .server, d.Follows earlier)
        (Program.events (fun _ => none) .server clientMoves freshServer) := by
  have hsent : (Trace.run (Program.step (fun _ => none) .server) clientMoves
      freshServer).map (fun p =>
        p.shared.sent.map fun d => (d.linkId, d.dest))
      = some [(0, .client ⟨1, 40000⟩), (0, .client ⟨1, 40001⟩)] := by
    decide +kernel
  obtain ⟨p, hrun, hsent⟩ := Option.map_eq_some_iff.mp hsent
  exact ⟨p, hrun, hsent, (server_follows_client (fun _ => none)
    Config.default expectedBandwidthDown (fun _ => 0) hrun).2⟩

end ChainLightning
