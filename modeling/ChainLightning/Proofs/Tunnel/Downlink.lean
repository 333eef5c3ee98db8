/-
From the links to the TUN device: what is written is what has arrived.

A data packet that arrives is in its link receiver's hand until it is
queued for the TUN writer, which takes the queue from the front and
writes the packets of a chunk one after the other. The second half is
first in, first out: the packets written, in the writer's hand and
queued are those of the chunks queued so far, in this order
(`Downlinked.fifo`). The first half is not, since the receivers of the
links take turns, but it loses and doubles nothing (`run_received`), and
where data arrives on one link only it keeps the order too
(`Downlinked.ordered`).
-/
import ChainLightning.Proofs.Endpoint.Hands
import ChainLightning.Proofs.Tunnel.Datagrams

namespace ChainLightning

-- ============================================================ definitions

/-- The data packet that arrives with an event. -/
def ProgramEvent.arrived : ProgramEvent → List ChunkPacket
  | .began (.receive _ bytes _) => (ChunkPacket.decode bytes).toList
  | _ => []

/-- The data packet an action is about to queue for the TUN writer. -/
def Action.forwards : Action → List ChunkPacket
  | .forward p => [p]
  | _ => []

/-- The data packet that is queued for the TUN writer with an event. -/
def ProgramEvent.forwarded : ProgramEvent → List ChunkPacket :=
  ProgramEvent.done Action.forwards

/-- The data that an event brings, if any, comes on a link. -/
def ProgramEvent.ArrivesOn (linkId : Nat) : ProgramEvent → Prop
  | .began (.receive l bytes _) =>
      ChunkPacket.decode bytes ≠ none → l = linkId
  | _ => True

-- =============================================================== actions

/-- Only a link's receiver has a data packet in hand. -/
theorem forwards_owned {t : Task} {a : Action} (howns : t.owns a)
    (ht : ∀ linkId, t ≠ .linkReceiver linkId) : a.forwards = [] := by
  cases a with
  | forward p =>
      obtain ⟨linkId, h⟩ := howns
      exact absurd h (ht linkId)
  | _ => rfl

/-- Only the TUN writer writes. -/
theorem writes_owned {t : Task} {a : Action} (howns : t.owns a)
    (ht : t ≠ .tunWriter) (e : Endpoint) :
    a.writes = [] ∧ a.opens e = [] := by
  cases a with
  | writeTun packet => exact absurd howns ht
  | takeReceived => exact absurd howns ht
  | _ => exact ⟨rfl, rfl⟩

/-- What an action leaves to do has no data packet in hand, and takes
nothing off the writer's queue. -/
theorem leads_plain {role : Role} {e : Endpoint} {a : Action}
    {next : List Action}
    (hlead : ∀ b ∈ next, Action.Leads role e a b) :
    next.flatMap Action.forwards = [] ∧ .takeReceived ∉ next := by
  constructor
  · refine List.flatMap_eq_nil_iff.mpr fun b hb => ?_
    cases hlead b hb <;> rfl
  · intro hmem
    cases hlead _ hmem

/-- What is taken off the queue and what is left in it is what was in it
and what is put there. -/
private theorem intake_opens (r : Reading) (a : Action) (e : Endpoint) :
    a.opens e ++ (a.intake r e.fromLinks).flatMap Chunk.extractPackets
      = e.fromLinks.flatMap Chunk.extractPackets
        ++ a.forwards.flatMap ChunkPacket.packets := by
  cases a with
  | takeReceived =>
      show (e.fromLinks.take 1).flatMap _ ++ e.fromLinks.tail.flatMap _
        = e.fromLinks.flatMap _ ++ []
      rw [← List.flatMap_append, ← List.drop_one, List.take_append_drop,
        List.append_nil]
  | forward p =>
      show (e.fromLinks ++ [p.toChunk (r.instant 0)]).flatMap _ = _
      rw [List.flatMap_append]
      rfl
  | _ => exact (List.append_nil _).symm

/-- A round writes nothing before it has taken a chunk, and a data packet
that arrives is in the hand of its link's receiver. -/
theorem actions_arrived
    (statsFromSlice : List UInt8 → Option StatsPacket) (role : Role)
    (e : Endpoint) (round : Round) :
    (round.actions statsFromSlice role e).flatMap Action.writes = []
      ∧ (round.actions statsFromSlice role e).flatMap Action.forwards
        = (ProgramEvent.began round).arrived := by
  constructor
  · by_cases ht : round.task = .tunWriter
    · cases round with
      | writeTun => rfl
      | _ => cases ht
    · exact List.flatMap_eq_nil_iff.mpr fun a ha => (writes_owned
        (actions_owned statsFromSlice role e round a ha) ht e).1
  · rw [actions_arrivals statsFromSlice (fun a ha => by
      cases a with
      | forward => cases ha
      | _ => rfl)]
    cases round with
    | receive linkId bytes src =>
        unfold ProgramEvent.arrived Round.arrivals
        dsimp only
        cases ChunkPacket.decode bytes <;> rfl
    | _ => rfl

-- ============================================================== invariant

/-- What a run has received is where the program has put it. -/
structure Downlinked (seen : List ProgramEvent) (p : Program) : Prop where
  -- a chunk is taken when the last one is written
  alone : p.pending .tunWriter = [.takeReceived]
    ∨ .takeReceived ∉ p.pending .tunWriter
  fifo : p.shared.written ++ p.hold Action.writes .tunWriter
      ++ p.shared.fromLinks.flatMap Chunk.extractPackets
    = (seen.flatMap ProgramEvent.forwarded).flatMap ChunkPacket.packets
  ordered : ∀ linkId, (∀ event ∈ seen, event.ArrivesOn linkId) →
    seen.flatMap ProgramEvent.forwarded
        ++ p.hold Action.forwards (.linkReceiver linkId)
      = seen.flatMap ProgramEvent.arrived
    ∧ ∀ t, t ≠ .linkReceiver linkId → p.hold Action.forwards t = []

theorem downlinked_start (config : Config) (linkBandwidths : List UInt64)
    (now : Nat → Nat) :
    Downlinked [] (Program.start config linkBandwidths now) where
  alone := Or.inr (fun h => nomatch h)
  fifo := rfl
  ordered := fun _ _ => ⟨rfl, fun _ _ => rfl⟩

namespace Downlinked

variable {seen : List ProgramEvent} {p : Program}

theorem begin (h : Downlinked seen p)
    {statsFromSlice : List UInt8 → Option StatsPacket} {role : Role}
    {round : Round} (henabled : round.enabled role p.shared = true)
    (hidle : p.pending round.task = []) :
    Downlinked (seen ++ [.began round])
      { p with
        pending := Function.update p.pending round.task
          (round.actions statsFromSlice role p.shared) } := by
  obtain ⟨hwrites, hforwards⟩ :=
    actions_arrived statsFromSlice role p.shared round
  have hforwarded : (seen ++ [ProgramEvent.began round]).flatMap
      ProgramEvent.forwarded = seen.flatMap ProgramEvent.forwarded := by
    rw [List.flatMap_append]
    exact List.append_nil _
  have harrived : (seen ++ [ProgramEvent.began round]).flatMap
      ProgramEvent.arrived
      = seen.flatMap ProgramEvent.arrived
        ++ (ProgramEvent.began round).arrived := by
    rw [List.flatMap_append, List.flatMap_singleton]
  have hself : ∀ {β : Type} (f : Action → List β) (t : Task),
      t = round.task → p.hold f t = [] := by
    rintro β f t rfl
    exact Pool.hold_of_pending hidle
  refine ⟨?_, ?_, ?_⟩
  · show Function.update p.pending round.task _ .tunWriter = _
      ∨ _ ∉ Function.update p.pending round.task _ .tunWriter
    by_cases ht : Task.tunWriter = round.task
    · cases round with
      | writeTun => exact Or.inl (Function.update_self ..)
      | _ => cases ht
    · rw [Function.update_of_ne ht]
      exact h.alone
  · rw [hforwarded, ← h.fifo]
    by_cases ht : Task.tunWriter = round.task
    · rw [hself Action.writes _ ht, ht, Pool.hold_update_self, hwrites]
    · rw [Pool.hold_update_of_ne ht]
      rfl
  · intro linkId hlink
    obtain ⟨hbefore, hlast⟩ := List.forall_mem_append.mp hlink
    have harrives : (ProgramEvent.began round).ArrivesOn linkId :=
      hlast _ List.mem_cons_self
    obtain ⟨hordered, hrest⟩ := h.ordered linkId hbefore
    -- data that arrives on another link is none
    have hnone : round.task ≠ .linkReceiver linkId →
        (ProgramEvent.began round).arrived = [] := by
      intro ht
      cases round with
      | receive l bytes src =>
          have hne : l ≠ linkId := fun heq => ht (congrArg _ heq)
          show (ChunkPacket.decode bytes).toList = []
          rw [not_not.mp (mt harrives hne)]
          rfl
      | _ => rfl
    rw [hforwarded, harrived, ← hordered]
    constructor
    · by_cases ht : Task.linkReceiver linkId = round.task
      · rw [hself Action.forwards _ ht, ht, Pool.hold_update_self, hforwards,
          List.append_nil]
      · rw [Pool.hold_update_of_ne ht, hnone (Ne.symm ht), List.append_nil]
        rfl
    · intro t hne
      by_cases ht : t = round.task
      · rw [ht, Pool.hold_update_self, hforwards]
        exact hnone (ht ▸ hne)
      · rw [Pool.hold_update_of_ne ht]
        exact hrest t hne

theorem perform (h : Downlinked seen p) {role : Role} {r : Reading}
    {t : Task} {a : Action} {rest next : List Action} {e : Endpoint}
    (horderly : p.Orderly) (hpending : p.pending t = a :: rest)
    (hexec : Endpoint.exec role r a p.shared = some (next, e)) :
    Downlinked (seen ++ [.performed r a p.shared])
      { shared := e, pending := Function.update p.pending t (next ++ rest) } := by
  have houtputs := exec_outputs hexec
  have howns : t.owns a := horderly.owned t a (hpending ▸ List.mem_cons_self)
  obtain ⟨hforwards, htake⟩ := leads_plain (exec_leads hexec)
  have hforwarded : (seen ++ [ProgramEvent.performed r a p.shared]).flatMap
      ProgramEvent.forwarded
      = seen.flatMap ProgramEvent.forwarded ++ a.forwards := by
    rw [List.flatMap_append, List.flatMap_singleton]
    rfl
  have harrived : (seen ++ [ProgramEvent.performed r a p.shared]).flatMap
      ProgramEvent.arrived = seen.flatMap ProgramEvent.arrived := by
    rw [List.flatMap_append]
    exact List.append_nil _
  -- nothing is behind a chunk that is taken
  have halone : .takeReceived ∉ rest ∧ (a = .takeReceived → rest = []) := by
    by_cases ht : t = .tunWriter
    · subst ht
      rcases h.alone with hone | hnot
      · rw [hpending] at hone
        cases hone
        exact ⟨List.not_mem_nil, fun _ => rfl⟩
      · rw [hpending] at hnot
        exact ⟨fun hmem => hnot (List.mem_cons_of_mem _ hmem),
          fun heq => absurd (heq ▸ List.mem_cons_self) hnot⟩
    · refine ⟨fun hmem => ht ?_, fun heq => ?_⟩
      · exact horderly.owned t _ (hpending ▸ List.mem_cons_of_mem a hmem)
      · subst heq
        exact absurd howns ht
  refine ⟨?_, ?_, ?_⟩
  · show Function.update p.pending t _ .tunWriter = _
      ∨ .takeReceived ∉ Function.update p.pending t _ .tunWriter
    by_cases ht : Task.tunWriter = t
    · subst ht
      rw [Function.update_self]
      refine Or.inr fun hmem => ?_
      rcases List.mem_append.mp hmem with hmem | hmem
      · exact htake hmem
      · exact halone.1 hmem
    · rw [Function.update_of_ne ht]
      exact h.alone
  · rw [hforwarded, List.flatMap_append, ← h.fifo,
      List.append_assoc (p.shared.written ++ p.hold Action.writes .tunWriter),
      ← intake_opens r a p.shared]
    show e.written ++ _ ++ e.fromLinks.flatMap _ = _
    rw [houtputs.written, houtputs.fromLinks]
    by_cases ht : t = .tunWriter
    · subst ht
      -- the writer holds what it is about to write, then the rest
      have hfirst : a.opens p.shared ++ rest.flatMap Action.writes
          = rest.flatMap Action.writes ++ a.opens p.shared := by
        by_cases htaken : a = .takeReceived
        · rw [halone.2 htaken]
          exact List.append_nil _
        · have hopens : a.opens p.shared = [] := by
            cases a with
            | takeReceived => exact absurd rfl htaken
            | _ => rfl
          rw [hopens]
          exact (List.append_nil _).symm
      rw [Pool.hold_update_self, Pool.hold_of_pending hpending,
        List.flatMap_append, houtputs.opens, hfirst, List.flatMap_cons]
      simp only [List.append_assoc]
    · obtain ⟨hwrites, hopens⟩ := writes_owned howns ht p.shared
      rw [Pool.hold_update_of_ne (Ne.symm ht), hwrites, hopens,
        List.append_nil]
      simp only [List.append_assoc]
      rfl
  · intro linkId hlink
    obtain ⟨hbefore, -⟩ := List.forall_mem_append.mp hlink
    obtain ⟨hordered, hrest⟩ := h.ordered linkId hbefore
    rw [hforwarded, harrived, ← hordered]
    by_cases ht : t = .linkReceiver linkId
    · subst ht
      refine ⟨?_, fun t' hne => ?_⟩
      · rw [Pool.hold_update_self, Pool.hold_of_pending hpending,
          List.flatMap_append, hforwards, List.flatMap_cons,
          List.append_assoc]
        rfl
      · rw [Pool.hold_update_of_ne hne]
        exact hrest t' hne
    · -- another task holds no data packet
      have hhold := hrest t ht
      rw [Pool.hold_of_pending hpending, List.flatMap_cons,
        List.append_eq_nil_iff] at hhold
      rw [hhold.1, List.append_nil]
      refine ⟨?_, fun t' hne => ?_⟩
      · rw [Pool.hold_update_of_ne (Ne.symm ht)]
        rfl
      · by_cases heq : t' = t
        · subst heq
          rw [Pool.hold_update_self, List.flatMap_append, hforwards, hhold.2]
          rfl
        · rw [Pool.hold_update_of_ne heq]
          exact hrest t' hne

end Downlinked

/-- What a run has received is in the hands of the links' receivers, in
the queue of the TUN writer, in its hand, or written. -/
theorem run_downlinked {statsFromSlice : List UInt8 → Option StatsPacket}
    {role : Role} {config : Config} {linkBandwidths : List UInt64}
    {now : Nat → Nat} {steps : List ProgramStep} {p : Program}
    (hrun : Trace.run (Program.step statsFromSlice role) steps
      (Program.start config linkBandwidths now) = some p) :
    Downlinked (Program.events statsFromSlice role steps
      (Program.start config linkBandwidths now)) p :=
  Program.run_events (P := Downlinked)
    (fun _ _ _ h henabled hidle => h.begin henabled hidle)
    (fun _ _ _ _ _ _ _ _ h _ horderly hpending hexec =>
      h.perform horderly hpending hexec)
    (Trace.Along.of_forall (fun _ _ _ => trivial) _) hrun (orderly_idle _)
    (downlinked_start config linkBandwidths now)

/-- What has arrived was queued or is in the receivers' hands. -/
theorem run_received {statsFromSlice : List UInt8 → Option StatsPacket}
    {role : Role} {config : Config} {linkBandwidths : List UInt64}
    {now : Nat → Nat} {steps : List ProgramStep} {p : Program}
    (hrun : Trace.run (Program.step statsFromSlice role) steps
      (Program.start config linkBandwidths now) = some p) :
    ((Program.events statsFromSlice role steps
        (Program.start config linkBandwidths now)).flatMap
          ProgramEvent.forwarded : Multiset ChunkPacket)
      + p.tally Action.forwards (receivers linkBandwidths.length)
    = (Program.events statsFromSlice role steps
        (Program.start config linkBandwidths now)).flatMap
          ProgramEvent.arrived := by
  refine run_tally _ (fun t a howns ht hthere => ?_)
    (fun round e => (actions_arrived statsFromSlice role e round).2)
    (fun _ _ _ _ _ hexec => (leads_plain (exec_leads hexec)).1) hrun
  refine forwards_owned howns fun linkId heq => ht ?_
  rw [heq]
  exact mem_receivers.mpr (hthere linkId heq)

/-- What arrives is written, in the order it is queued. In every run of a
program, the packets written to the TUN device are, in order, the first of
those in the chunks queued for it, with the writer's hand and the queue
behind them; and what was queued and what the links' receivers have in
hand is what has arrived, each data packet as often as it did. -/
theorem downlink_exact (statsFromSlice : List UInt8 → Option StatsPacket)
    (role : Role) (config : Config) (linkBandwidths : List UInt64)
    (now : Nat → Nat) {steps : List ProgramStep} {p : Program}
    (hrun : Trace.run (Program.step statsFromSlice role) steps
      (Program.start config linkBandwidths now) = some p) :
    ((Program.events statsFromSlice role steps
        (Program.start config linkBandwidths now)).flatMap
          ProgramEvent.forwarded).flatMap ChunkPacket.packets
      = p.shared.written ++ p.hold Action.writes .tunWriter
        ++ p.shared.fromLinks.flatMap Chunk.extractPackets
    ∧ ((Program.events statsFromSlice role steps
        (Program.start config linkBandwidths now)).flatMap
          ProgramEvent.arrived).Perm
      ((Program.events statsFromSlice role steps
          (Program.start config linkBandwidths now)).flatMap
            ProgramEvent.forwarded
        ++ (List.range linkBandwidths.length).flatMap fun linkId =>
          p.hold Action.forwards (.linkReceiver linkId)) := by
  refine ⟨(run_downlinked hrun).fifo.symm, Multiset.coe_eq_coe.mp ?_⟩
  rw [← run_received hrun, tally_receivers, Multiset.coe_add]

/-- A chunk of one packet. -/
private def oneByteChunk (byte : UInt8) : Chunk :=
  (Chunk.new 0 0).addPacket [byte]

/-- Chunks arrive on two links; the second one's is queued and taken to be
written while the first one's is in its receiver's hand. -/
def twoArrive : List ProgramStep :=
  [.begin (.receive 0 (Endpoint.chunkBytes 0 (oneByteChunk 69)) ⟨1, 40000⟩),
   .begin (.receive 1 (Endpoint.chunkBytes 1 (oneByteChunk 70)) ⟨1, 40001⟩)]
    ++ List.replicate 5 (.perform (.linkReceiver 1) (.atMillis 5))
    ++ [.begin .writeTun, .perform .tunWriter (.atMillis 5)]

/-- The law there. -/
theorem downlink_exact_two_links : ∃ p,
    Trace.run (Program.step (fun _ => none) .server) twoArrive freshServer
        = some p
      ∧ p.hold Action.writes .tunWriter = [[70]]
      ∧ ((Program.events (fun _ => none) .server twoArrive
          freshServer).flatMap ProgramEvent.arrived).Perm
        ((Program.events (fun _ => none) .server twoArrive
            freshServer).flatMap ProgramEvent.forwarded
          ++ (List.range 5).flatMap fun linkId =>
            p.hold Action.forwards (.linkReceiver linkId)) := by
  have hhand : (Trace.run (Program.step (fun _ => none) .server) twoArrive
      freshServer).map (fun p => p.hold Action.writes .tunWriter)
      = some [[70]] := by
    decide +kernel
  obtain ⟨p, hrun, hhand⟩ := Option.map_eq_some_iff.mp hhand
  exact ⟨p, hrun, hhand, (downlink_exact (fun _ => none) .server
    Config.default expectedBandwidthDown (fun _ => 0) hrun).2⟩

end ChainLightning
