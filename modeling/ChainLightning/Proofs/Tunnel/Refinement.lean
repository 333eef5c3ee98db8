/-
The programs refine the model of one link.

The model of a link (Network.lean of the model) has two rate controllers,
counts a data packet when it sends it, and knows no tasks. Here every run
of both programs is shown to be one of that model, on any of their links
(`programs_refine_link`): the sections that call the rate controller are
the events, and a datagram that a socket was handed is a message in
flight, from the moment it is recorded or built. The programs deliver a
datagram any number of times; in the model each delivery but the last is
of a duplicate (`deliver_again`).

The one thing that the model has and the tasks do not is that a packet is
counted when it is sent: a chunk sender hands a chunk to a socket first
and records it afterwards. So the runs are those in which a chunk arrives
when the far side's sender has recorded what it has sent
(`SystemStep.Recorded`).
-/
import ChainLightning.Network
import ChainLightning.Proofs.Endpoint.Counters
import ChainLightning.Proofs.Tunnel.EndToEnd

namespace ChainLightning

-- =============================================================== the model

/-- The party that a program plays on a link. -/
def Role.party : Role → Party
  | .client => .a
  | .server => .b

theorem Role.party_peer (role : Role) : role.peer.party = role.party.peer := by
  cases role <;> rfl

/-- The program that plays a party. -/
def Party.role : Party → Role
  | .a => .client
  | .b => .server

@[simp] theorem Role.role_party (role : Role) : role.party.role = role := by
  cases role <;> rfl

/-- How the two programs set up their rate controllers. -/
def Setup.ofPrograms (config : Role → Config)
    (linkBandwidths : Role → List UInt64) (now : Role → Nat → Nat) :
    Setup where
  config := fun p => (config p.role).rateControl
  maxRates := fun p => (linkBandwidths p.role).map UInt64.toNat
  now := fun p id => now p.role (2 + (linkBandwidths p.role).length + id)

/-- A data packet of some length is in flight. -/
def Net.HasData (net : Net) (p : Party) (bytes : Nat) : Prop :=
  ∃ id, .data id bytes ∈ (net.node p).wire

/-- A probe is in flight. -/
def Net.HasProbe (net : Net) (p : Party) (probe : ProbePacket) : Prop :=
  ∃ report : Report, report.probe = probe
    ∧ .probe report ∈ (net.node p).wire

/-- What is in flight stays in flight. -/
def Net.Grows (net net' : Net) : Prop :=
  ∀ p, ∀ m ∈ (net.node p).wire, m ∈ (net'.node p).wire

theorem Net.Grows.data {net net' : Net} (h : net.Grows net') {p : Party}
    {bytes : Nat} (hdata : net.HasData p bytes) : net'.HasData p bytes := by
  obtain ⟨id, hmem⟩ := hdata
  exact ⟨id, h p _ hmem⟩

theorem Net.Grows.probe {net net' : Net} (h : net.Grows net') {p : Party}
    {probe : ProbePacket} (hprobe : net.HasProbe p probe) :
    net'.HasProbe p probe := by
  obtain ⟨report, hreport, hmem⟩ := hprobe
  exact ⟨report, hreport, h p _ hmem⟩

/-- Some events of a link change one party's controller and lose nothing
in flight. -/
structure Net.Moves (link : UInt8) (p : Party) (rc : RateController)
    (net net' : Net) : Prop where
  run : ∃ events, Trace.run (Net.step link) events net = some net'
  self : (net'.node p).rc = rc
  peer : (net'.node p.peer).rc = (net.node p.peer).rc
  grows : net.Grows net'

namespace Net

variable {link : UInt8} {net : Net} {p : Party} {rc : RateController}

theorem Moves.refl (link : UInt8) (net : Net) (p : Party) :
    Moves link p (net.node p).rc net net :=
  ⟨⟨[], rfl⟩, rfl, rfl, fun _ _ h => h⟩

/-- An event that replaces one party's node. -/
private theorem moves_set {event : Event} {n : Node}
    (hstep : Net.step link event net = some (net.set p n))
    (hgrows : ∀ m ∈ (net.node p).wire, m ∈ n.wire) :
    Moves link p n.rc net (net.set p n) := by
  refine ⟨⟨[event], ?_⟩, by rw [node_set_self], by rw [node_set_peer], ?_⟩
  · rw [Trace.run_cons, hstep]
    rfl
  · intro q m hm
    by_cases hq : q = p
    · subst hq
      rw [node_set_self]
      exact hgrows m hm
    · have hpeer : q = p.peer := by
        cases q <;> cases p <;> first | rfl | exact absurd rfl hq
      rw [hpeer, node_set_peer]
      exact hpeer ▸ hm

/-- A record of a data packet that is sent. -/
theorem moves_send {bytes : Nat}
    (h : (net.node p).rc.recordTx link.toNat bytes = some rc) :
    ∃ net', Moves link p rc net net' ∧ net'.HasData p bytes := by
  have hstep : Net.step link (.send p bytes) net
      = some (net.set p { net.node p with
        rc
        sent := (net.node p).sent + 1
        wire := (net.node p).wire ++ [.data (net.node p).sent bytes] }) := by
    unfold Net.step Node.send
    dsimp only
    rw [h]
    rfl
  refine ⟨_, moves_set hstep fun m hm => List.mem_append_left _ hm,
    (net.node p).sent, ?_⟩
  rw [node_set_self]
  exact List.mem_append_right _ List.mem_cons_self

/-- A call that is no concern of the link. -/
theorem moves_call {op : RateOp} (hforeign : op.foreign link = true)
    (h : op.apply (net.node p).rc = some rc) :
    ∃ net', Moves link p rc net net' := by
  have hstep : Net.step link (.call p op) net
      = some (net.set p { net.node p with rc }) := by
    unfold Net.step Node.call
    dsimp only
    rw [if_pos hforeign, h]
    rfl
  exact ⟨_, moves_set hstep fun m hm => hm⟩

/-- Probes are built; the link's own one is in flight. -/
theorem moves_build {now : Nat → UInt64} {probes : List ProbePacket}
    {probe : ProbePacket}
    (h : (net.node p).rc.buildProbes now = some (probes, rc))
    (hprobe : probes[link.toNat]? = some probe) :
    ∃ net', Moves link p rc net net' ∧ net'.HasProbe p probe := by
  let report : Report := {
    index := (net.node p).built.length
    probe
    sent := (net.node p).sent
    received := (net.node p).received }
  have hstep : Net.step link (.build p now) net
      = some (net.set p { net.node p with
        rc
        built := (net.node p).built ++ [report]
        wire := (net.node p).wire ++ [.probe report] }) := by
    unfold Net.step Node.build
    dsimp only
    rw [h]
    show (probes[link.toNat]?.bind _).bind _ = _
    rw [hprobe]
    rfl
  refine ⟨_, moves_set hstep fun m hm => List.mem_append_left _ hm, report,
    rfl, ?_⟩
  rw [node_set_self]
  exact List.mem_append_right _ List.mem_cons_self

/-- Receiving a message leaves what the receiver has in flight. -/
private theorem receive_wire {clk : Clock} {m : Msg} {n n' : Node}
    (h : n.receive link clk m = some n') : n'.wire = n.wire := by
  cases m with
  | data id bytes =>
      obtain ⟨rc', -, h⟩ := Option.bind_eq_some_iff.mp h
      cases h
      rfl
  | probe report =>
      obtain ⟨receipt, -, h⟩ := Option.bind_eq_some_iff.mp h
      obtain ⟨rc', -, h⟩ := Option.bind_eq_some_iff.mp h
      cases h
      rfl

/-- A message in flight is duplicated and delivered: it is received, and
still in flight. -/
theorem deliver_again {clk : Clock} {m : Msg} {n : Node}
    (hm : m ∈ (net.node p.peer).wire)
    (hreceive : (net.node p).receive link clk m = some n) :
    ∃ net', Moves link p n.rc net net' := by
  obtain ⟨i, hi, hget⟩ := List.getElem_of_mem hm
  have hfirst : (net.node p.peer).wire[i]? = some m := by
    rw [List.getElem?_eq_getElem hi, hget]
  -- the sender with the duplicate
  let sender : Node := { net.node p.peer with
    wire := (net.node p.peer).wire ++ [m] }
  have hdup : Net.step link (.duplicate p.peer i) net
      = some (net.set p.peer sender) := by
    unfold Net.step
    dsimp only
    rw [hfirst]
    rfl
  have hdeliver : Net.step link (.deliver p.peer i clk)
      (net.set p.peer sender)
      = some (((net.set p.peer sender).set p.peer (sender.lose i)).set p
        n) := by
    have hget : ((net.set p.peer sender).node p.peer).wire[i]? = some m := by
      rw [node_set_self]
      exact (List.getElem?_append_left hi).trans hfirst
    unfold Net.step
    dsimp only
    rw [hget, Party.peer_peer, node_set_self, node_peer_set, Option.bind_eq_bind,
      Option.bind_some, hreceive]
    rfl
  -- the duplicate is in flight behind the delivery
  have hstays : ∀ x ∈ (net.node p.peer).wire, x ∈ (sender.lose i).wire := by
    intro x hx
    rw [Node.lose_wire, List.eraseIdx_append_of_lt_length hi]
    have hsplit := (List.getElem_cons_eraseIdx_perm hi).mem_iff.mpr hx
    rcases List.mem_cons.mp hsplit with rfl | hx
    · exact List.mem_append_right _ (hget ▸ List.mem_cons_self)
    · exact List.mem_append_left _ hx
  refine ⟨((net.set p.peer sender).set p.peer (sender.lose i)).set p n,
    ⟨[.duplicate p.peer i, .deliver p.peer i clk], ?_⟩, ?_, ?_, ?_⟩
  · rw [Trace.run_cons, hdup, Option.bind_some, Trace.run_cons, hdeliver]
    rfl
  · rw [node_set_self]
  · rw [node_set_peer, node_set_self]
    rfl
  · intro q x hx
    by_cases hq : q = p
    · subst hq
      rw [node_set_self, receive_wire hreceive]
      exact hx
    · have hpeer : q = p.peer := by
        cases q <;> cases p <;> first | rfl | exact absurd rfl hq
      rw [hpeer, node_set_peer, node_set_self]
      exact hstays x (hpeer ▸ hx)

/-- A call on one party's controller is made in the model if what it counts
as received on the link, or processes there, is in flight. -/
theorem moves_apply {op : RateOp} (h : op.apply (net.node p).rc = some rc)
    (hlink : link.toNat < (net.node p).rc.states.length)
    (hdata : ∀ bytes, op = .recordRx link.toNat bytes →
      net.HasData p.peer bytes)
    (hprobe : ∀ clk probe, op = .processProbe clk probe →
      probe.linkId = link → net.HasProbe p.peer probe) :
    ∃ net', Moves link p rc net net'
      ∧ (∀ bytes, op = .recordTx link.toNat bytes → net'.HasData p bytes)
      ∧ ∀ now, op = .buildProbes now → ∃ probes,
          (net.node p).rc.buildProbes now = some (probes, rc)
          ∧ ∀ probe ∈ probes[link.toNat]?, net'.HasProbe p probe := by
  cases op with
  | recordTx l bytes =>
      by_cases hl : l = link.toNat
      · subst hl
        obtain ⟨net', hmoves, hhas⟩ := moves_send h
        refine ⟨net', hmoves, fun b heq => ?_, fun _ heq => nomatch heq⟩
        cases heq
        exact hhas
      · obtain ⟨net', hmoves⟩ := moves_call
          (show RateOp.foreign link (.recordTx l bytes) = true from
            decide_eq_true hl) h
        refine ⟨net', hmoves, fun b heq => ?_, fun _ heq => nomatch heq⟩
        cases heq
        exact absurd rfl hl
  | recordRx l bytes =>
      by_cases hl : l = link.toNat
      · subst hl
        obtain ⟨id, hmem⟩ := hdata bytes rfl
        have hreceive : (net.node p).receive link ⟨0, 0⟩ (.data id bytes)
            = some { net.node p with
              rc, received := id :: (net.node p).received } := by
          unfold Node.receive
          dsimp only
          rw [show (net.node p).rc.recordRx link.toNat bytes = some rc from h]
          rfl
        obtain ⟨net', hmoves⟩ := deliver_again hmem hreceive
        exact ⟨net', hmoves, (fun _ heq => nomatch heq),
          fun _ heq => nomatch heq⟩
      · obtain ⟨net', hmoves⟩ := moves_call
          (show RateOp.foreign link (.recordRx l bytes) = true from
            decide_eq_true hl) h
        exact ⟨net', hmoves, (fun _ heq => nomatch heq),
          fun _ heq => nomatch heq⟩
  | buildProbes now =>
      obtain ⟨⟨probes, rc'⟩, hbuild, rfl⟩ := Option.map_eq_some_iff.mp h
      obtain ⟨-, -, hall⟩ := buildProbes_inv hbuild
      obtain ⟨probe, -, -, hget, -⟩ :=
        hall link.toNat _ (List.getElem?_eq_getElem hlink)
      obtain ⟨net', hmoves, hhas⟩ := moves_build hbuild hget
      refine ⟨net', hmoves, (fun _ heq => nomatch heq), fun now' heq => ?_⟩
      cases heq
      refine ⟨probes, hbuild, fun probe' hprobe' => ?_⟩
      rw [hget] at hprobe'
      cases hprobe'
      exact hhas
  | processProbe clk probe =>
      by_cases hl : probe.linkId = link
      · subst hl
        obtain ⟨report, rfl, hmem⟩ := hprobe clk probe rfl rfl
        obtain ⟨confidence, hconf, -⟩ := Option.bind_eq_some_iff.mp h
        have hreceive : (net.node p).receive report.probe.linkId clk
            (.probe report) = some { net.node p with
              rc
              processed := (net.node p).processed ++ [{
                report
                sent := (net.node p).sent
                received := (net.node p).received.length
                confidence }] } := by
          unfold Node.receive Node.receipt
          dsimp only
          rw [hconf]
          show ((net.node p).rc.processProbe clk report.probe).bind _ = _
          rw [show (net.node p).rc.processProbe clk report.probe = some rc
            from h]
          rfl
        obtain ⟨net', hmoves⟩ := deliver_again hmem hreceive
        exact ⟨net', hmoves, (fun _ heq => nomatch heq),
          fun _ heq => nomatch heq⟩
      · obtain ⟨net', hmoves⟩ := moves_call
          (show RateOp.foreign link (.processProbe clk probe) = true from
            decide_eq_true hl) h
        exact ⟨net', hmoves, (fun _ heq => nomatch heq),
          fun _ heq => nomatch heq⟩
  | checkTimeouts now =>
      obtain ⟨net', hmoves⟩ := moves_call rfl h
      exact ⟨net', hmoves, (fun _ heq => nomatch heq),
        fun _ heq => nomatch heq⟩

end Net

-- ============================================================= one section

/-- The links of a controller carry their own numbers. -/
structure RateController.Numbered (numLinks : Nat) (rc : RateController) :
    Prop where
  length : rc.states.length = numLinks
  linkId : ∀ (i : Nat) s, rc.states[i]? = some s → s.linkId = i

/-- A call keeps them. -/
theorem apply_numbered {op : RateOp} {rc rc' : RateController} {n : Nat}
    (h : rc.Numbered n) (hop : op.apply rc = some rc') : rc'.Numbered n := by
  obtain ⟨-, hlength, hlink⟩ := apply_link hop
  refine ⟨hlength.trans h.length, fun i s' hs' => ?_⟩
  have hi : i < rc.states.length := by
    rw [← hlength]
    exact (List.getElem?_eq_some_iff.mp hs').1
  obtain ⟨s₁, hstep, hs₁⟩ := hlink i _ (List.getElem?_eq_getElem hi)
  rw [hs'] at hs₁
  cases hs₁
  exact (linkStep_ahead hstep).linkId.trans
    (h.linkId i _ (List.getElem?_eq_getElem hi))

/-- Of the probes that are built, those of a link are at its place. -/
theorem probes_place {rc rc' : RateController} {n : Nat}
    (h : rc.Numbered n) (hn : n ≤ 256) {now : Nat → UInt64}
    {probes : List ProbePacket}
    (hbuild : rc.buildProbes now = some (probes, rc')) :
    ∀ probe ∈ probes, probes[probe.linkId.toNat]? = some probe := by
  intro probe hmem
  have hlength : probes.length = rc.states.length := by
    unfold RateController.buildProbes at hbuild
    obtain ⟨built, hall, heq⟩ := Option.bind_eq_some_iff.mp hbuild
    cases heq
    rw [List.length_map]
    exact (buildAll_inv hall).1
  obtain ⟨i, hi, hget⟩ := List.getElem_of_mem hmem
  have hi' : i < rc.states.length := hlength ▸ hi
  obtain ⟨probe', s', hone, hprobe', -⟩ :=
    (buildProbes_inv hbuild).2.2 i _ (List.getElem?_eq_getElem hi')
  rw [List.getElem?_eq_getElem hi, hget] at hprobe'
  cases hprobe'
  have hid : probe.linkId = UInt8.ofNat i := by
    rw [(RateState.buildProbe_inv hone).1,
      h.linkId i _ (List.getElem?_eq_getElem hi')]
  have hsmall : i < 256 := by
    have hlen := h.length
    omega
  rw [hid, UInt8.toNat_ofNat', Nat.mod_eq_of_lt hsmall,
    List.getElem?_eq_getElem hi, hget]

/-- What an action is about to count as received on the link or to process
is in flight from the far side, and a probe it is about to send is in
flight already. -/
def Action.Shadowed (link : UInt8) (net : Net) (role : Role) : Action → Prop
  | .rateRx l bytes => l = link.toNat → net.HasData role.party.peer bytes
  | .processProbe probe =>
      probe.linkId = link → net.HasProbe role.party.peer probe
  | .sendProbe probe | .transmitProbe _ probe =>
      probe.linkId = link → net.HasProbe role.party probe
  | _ => True

theorem Action.Shadowed.mono {link : UInt8} {net net' : Net} {role : Role}
    {a : Action} (h : a.Shadowed link net role) (hgrows : net.Grows net') :
    a.Shadowed link net' role := by
  cases a with
  | rateRx l bytes => exact fun hl => hgrows.data (h hl)
  | processProbe probe => exact fun hl => hgrows.probe (h hl)
  | sendProbe probe => exact fun hl => hgrows.probe (h hl)
  | transmitProbe dest probe => exact fun hl => hgrows.probe (h hl)
  | _ => trivial

/-- A section is made in the model. -/
theorem exec_moves {link : UInt8} {net : Net} {role : Role} {r : Reading}
    {a : Action} {e e' : Endpoint} {next : List Action} {n : Nat}
    (hrc : (net.node role.party).rc = e.rateController)
    (hnumbered : e.rateController.Numbered n) (hn : n ≤ 256)
    (hlink : link.toNat < n) (ha : a.Shadowed link net role)
    (hexec : Endpoint.exec role r a e = some (next, e')) :
    ∃ net', Net.Moves link role.party e'.rateController net net'
      ∧ (∀ bytes, a = .rateTx link.toNat bytes →
        net'.HasData role.party bytes)
      ∧ ∀ b ∈ next, b.Shadowed link net' role := by
  have hrates := (exec_outputs hexec).rates
  have hlength : link.toNat < (net.node role.party).rc.states.length := by
    rw [hrc, hnumbered.length]
    exact hlink
  cases hop : a.rateOp r with
  | none =>
      rw [hop] at hrates
      have hsame : e.rateController = e'.rateController :=
        Option.some.inj hrates
      refine ⟨net, ?_, fun bytes heq => ?_, fun b hb => ?_⟩
      · rw [← hsame, ← hrc]
        exact .refl link net role.party
      · subst heq
        cases hop
      · cases exec_leads hexec b hb with
        | buildProbes probe => cases hop
        | sendProbe dest probe hdest => exact ha
        | _ => trivial
  | some op =>
      rw [hop] at hrates
      have happly : op.apply (net.node role.party).rc
          = some e'.rateController := by
        rw [hrc]
        exact hrates
      obtain ⟨net', hmoves, hsent, hbuilt⟩ := Net.moves_apply happly hlength
        (fun bytes heq => by
          subst heq
          cases a <;> cases hop
          exact ha rfl)
        (fun clk probe heq hl => by
          subst heq
          cases a <;> cases hop
          exact ha hl)
      refine ⟨net', hmoves, fun bytes heq => ?_, fun b hb => ?_⟩
      · subst heq
        cases hop
        exact hsent bytes rfl
      · cases exec_leads hexec b hb with
        | buildProbes probe =>
            cases hop
            obtain ⟨probes, hbuild, hhas⟩ := hbuilt _ rfl
            rw [hrc] at hbuild
            obtain ⟨⟨probes', rc'⟩, hbuild', hexec'⟩ :=
              Option.bind_eq_some_iff.mp hexec
            rw [hbuild] at hbuild'
            cases hbuild'
            have hprobes : probes.map Action.sendProbe = next :=
              congrArg Prod.fst (Option.some.inj hexec')
            rw [← hprobes] at hb
            obtain ⟨probe', hprobe, heq⟩ := List.mem_map.mp hb
            cases heq
            intro hl
            refine hhas probe ?_
            rw [← hl]
            exact probes_place hnumbered hn hbuild probe hprobe
        | sendProbe dest probe hdest => cases hop
        | _ => trivial

-- ============================================================= simulation

/-- What a program has recorded and built is in flight in the model, and
what it is about to count or to process is in flight from the far side. -/
structure Program.Shadowed (link : UInt8) (net : Net) (role : Role)
    (p : Program) : Prop where
  rc : (net.node role.party).rc = p.shared.rateController
  data : ∀ d ∈ p.shared.sent, ∀ bytes ∈ d.chunkBytesOn link.toNat,
    net.HasData role.party bytes
      ∨ .rateTx link.toNat bytes ∈ p.pending .chunkSender
  probes : ∀ d ∈ p.shared.sent, ∀ probe ∈ ProbePacket.decode d.bytes,
    probe.linkId = link → net.HasProbe role.party probe
  hands : ∀ t, ∀ a ∈ p.pending t, a.Shadowed link net role

/-- The action records a chunk that was sent. -/
def Action.records : Action → Bool
  | .rateTx _ _ => true
  | _ => false

/-- A chunk arrives when the far side's sender has recorded what it has
sent. -/
def SystemStep.Recorded : SystemStep → System → Prop
  | .deliver role i _, s =>
      ∀ d ∈ (s.program role.peer).shared.sent[i]?, d.isData = true →
        ∀ a ∈ (s.program role.peer).pending .chunkSender, a.records = false
  | _, _ => True

instance (step : SystemStep) (s : System) : Decidable (step.Recorded s) := by
  cases step <;> unfold SystemStep.Recorded <;> infer_instance

namespace Program.Shadowed

variable {link : UInt8} {net net' : Net} {role : Role} {p : Program}

/-- What the far side does is no concern of a program. -/
theorem far (h : p.Shadowed link net role) {rc : RateController}
    (hmoves : Net.Moves link role.party.peer rc net net') :
    p.Shadowed link net' role where
  rc := by
    have hpeer := hmoves.peer
    rw [Party.peer_peer] at hpeer
    exact hpeer.trans h.rc
  data := fun d hd bytes hbytes =>
    (h.data d hd bytes hbytes).imp_left hmoves.grows.data
  probes := fun d hd probe hprobe hl =>
    hmoves.grows.probe (h.probes d hd probe hprobe hl)
  hands := fun t a ha => (h.hands t a ha).mono hmoves.grows

theorem begin (h : p.Shadowed link net role) {round : Round}
    {acts : List Action} (hidle : p.pending round.task = [])
    (hacts : ∀ a ∈ acts, a.Shadowed link net role) :
    Shadowed link net role
      { p with pending := Function.update p.pending round.task acts } where
  rc := h.rc
  data := by
    intro d hd bytes hbytes
    refine (h.data d hd bytes hbytes).imp_right fun hmem => ?_
    show _ ∈ Function.update p.pending round.task acts .chunkSender
    by_cases ht : Task.chunkSender = round.task
    · rw [ht, hidle] at hmem
      cases hmem
    · rwa [Function.update_of_ne ht]
  probes := h.probes
  hands := Pool.pending_update h.hands hacts

theorem perform (h : p.Shadowed link net role) {n : Nat}
    (hnumbered : p.shared.rateController.Numbered n) (hn : n ≤ 256)
    (hlink : link.toNat < n) (horderly : p.Orderly) {r : Reading} {t : Task}
    {a : Action} {rest next : List Action} {e : Endpoint}
    (hpending : p.pending t = a :: rest)
    (hexec : Endpoint.exec role r a p.shared = some (next, e)) :
    ∃ net', Net.Moves link role.party e.rateController net net'
      ∧ Shadowed link net' role
        { shared := e
          pending := Function.update p.pending t (next ++ rest) } := by
  have howns : t.owns a := horderly.owned t a (hpending ▸ List.mem_cons_self)
  obtain ⟨net', hmoves, hrecorded, hnext⟩ := exec_moves h.rc hnumbered hn
    hlink (h.hands t a (hpending ▸ List.mem_cons_self)) hexec
  refine ⟨net', hmoves, hmoves.self, ?_, ?_, ?_⟩
  · intro d hd bytes hbytes
    show _ ∨ _ ∈ Function.update p.pending t (next ++ rest) .chunkSender
    have hd : d ∈ e.sent := hd
    rw [(exec_outputs hexec).sent] at hd
    rcases List.mem_append.mp hd with hd | hd
    · rcases h.data d hd bytes hbytes with hhas | hmem
      · exact Or.inl (hmoves.grows.data hhas)
      · by_cases ht : Task.chunkSender = t
        · subst ht
          rw [hpending] at hmem
          rcases List.mem_cons.mp hmem with heq | hmem
          · exact Or.inl (hrecorded bytes heq.symm)
          · rw [Function.update_self]
            exact Or.inr (List.mem_append_right _ hmem)
        · rw [Function.update_of_ne ht]
          exact Or.inr hmem
    · -- a chunk that goes out now leaves its record to be made
      have hcount : bytes ∈ next.flatMap (Action.countsTx link.toNat) := by
        rw [exec_counts link.toNat hexec]
        exact List.mem_flatMap.mpr ⟨d, hd, hbytes⟩
      obtain ⟨b, hb, hbytes⟩ := List.mem_flatMap.mp hcount
      have hbowns : t.owns b := (exec_leads hexec b hb).owned howns
      cases b with
      | rateTx l bytes' =>
          unfold Action.countsTx at hbytes
          dsimp only at hbytes
          split at hbytes
          case isFalse => cases hbytes
          case isTrue hl =>
            cases List.mem_singleton.mp hbytes
            cases hl
            rw [show t = .chunkSender from hbowns, Function.update_self]
            exact Or.inr (List.mem_append_left _ hb)
      | _ => cases hbytes
  · intro d hd probe hprobe hl
    have hd : d ∈ e.sent := hd
    rw [(exec_outputs hexec).sent] at hd
    rcases List.mem_append.mp hd with hd | hd
    · exact hmoves.grows.probe (h.probes d hd probe hprobe hl)
    · have ha : a.Shadowed link net role :=
        h.hands t a (hpending ▸ List.mem_cons_self)
      obtain ⟨dest, rfl⟩ := sends_probes hd hprobe
      exact hmoves.grows.probe (ha hl)
  · refine Pool.pending_update
      (fun t b hb => (h.hands t b hb).mono hmoves.grows) fun b hb => ?_
    rcases List.mem_append.mp hb with hb | hb
    · exact hnext b hb
    · exact (h.hands t b (hpending ▸ List.mem_cons_of_mem a hb)).mono
        hmoves.grows

end Program.Shadowed

variable {statsFromSlice : List UInt8 → Option StatsPacket}

/-- A round that does not start with a datagram counts and processes
nothing, and sends no probe before it has built it. -/
private theorem actions_shadowed {round : Round}
    (hreceive : round.isReceive = false) (role : Role) (e : Endpoint)
    (link : UInt8) (net : Net) :
    ∀ a ∈ round.actions statsFromSlice role e, a.Shadowed link net role := by
  intro a ha
  have howns := actions_owned statsFromSlice role e round a ha
  cases a with
  | rateRx | processProbe =>
      obtain ⟨linkId, htask⟩ := howns
      cases round with
      | receive => cases hreceive
      | _ => cases htask
  | sendProbe probe =>
      cases round with
      | sendProbes => cases List.mem_singleton.mp ha
      | _ => cases howns
  | transmitProbe dest probe =>
      cases (actions_empty statsFromSlice role e round _ ha).2
  | _ => trivial

/-- What is done with a datagram of the far side is in flight from it. -/
private theorem receive_shadowed {link : UInt8} {net : Net} {role : Role}
    {far : Program} (h : far.Shadowed link net role.peer) {d : Datagram}
    (hd : d ∈ far.shared.sent)
    (hrecorded : d.isData = true →
      ∀ a ∈ far.pending .chunkSender, a.records = false)
    (src : SocketAddr) (e : Endpoint) :
    ∀ a ∈ Round.actions statsFromSlice role e
      (.receive d.linkId d.bytes src), a.Shadowed link net role := by
  have hhandle : ∀ a ∈ Round.handle d.linkId d.bytes.length src
      (Packet.decode statsFromSlice d.bytes), a.Shadowed link net role := by
    intro a ha
    cases hdecode : Packet.decode statsFromSlice d.bytes with
    | none =>
        rw [hdecode] at ha
        cases ha
    | some packet =>
        rw [hdecode] at ha
        cases packet with
        | data p =>
            have hchunk := (decode_data_iff statsFromSlice).mp hdecode
            have hdata : d.isData = true := by
              unfold Datagram.isData
              rw [hchunk]
              rfl
            have hcount : d.linkId = link.toNat →
                net.HasData role.party.peer d.bytes.length := by
              intro hl
              have hmem : d.bytes.length ∈ d.chunkBytesOn link.toNat := by
                unfold Datagram.chunkBytesOn Datagram.data
                rw [if_pos hl, hchunk]
                exact List.mem_cons_self
              rcases h.data d hd _ hmem with hhas | hdue
              · rwa [Role.party_peer] at hhas
              · exact absurd (hrecorded hdata _ hdue)
                  (by simp [Action.records])
            simp only [Round.handle, List.mem_cons, List.not_mem_nil,
              or_false] at ha
            rcases ha with rfl | rfl | rfl | rfl | rfl
            · trivial
            · trivial
            · exact hcount
            · trivial
            · trivial
        | probe probe =>
            have hprobe := (decode_probe_iff statsFromSlice).mp hdecode
            cases List.mem_singleton.mp ha
            intro hl
            rw [← Role.party_peer]
            exact h.probes d hd probe hprobe hl
        | announce | ack =>
            cases List.mem_singleton.mp ha
            trivial
        | stats | keepalive => cases ha
  intro a ha
  cases role with
  | client => exact hhandle a ha
  | server =>
      rcases List.mem_cons.mp ha with rfl | ha
      · trivial
      · exact hhandle a ha

/-- Both programs are orderly and number their links, and a run of the
model stands where they do. -/
structure System.Refines (setup : Setup) (link : UInt8) (n : Role → Nat)
    (s : System) : Prop where
  orderly : ∀ role, (s.program role).Orderly
  numbered : ∀ role,
    (s.program role).shared.rateController.Numbered (n role)
  shadow : ∃ events net,
    Trace.run (Net.step link) events setup.start = some net
    ∧ ∀ role, (s.program role).Shadowed link net role

/-- The start of a round by one program. -/
private theorem refines_begin {setup : Setup} {link : UInt8}
    {n : Role → Nat} {s : System} (h : s.Refines setup link n) {role : Role}
    {round : Round} {p : Program}
    (hacts : ∀ net, (∀ role, (s.program role).Shadowed link net role) →
      ∀ a ∈ round.actions statsFromSlice role (s.program role).shared,
        a.Shadowed link net role)
    (hstep : Program.step statsFromSlice role (.begin round)
      (s.program role) = some p) : (s.set role p).Refines setup link n := by
  have horderly := (h.orderly role).step hstep
  obtain ⟨events, net, hrun, hshadow⟩ := h.shadow
  unfold Program.step at hstep
  dsimp only at hstep
  split at hstep
  case isFalse => cases hstep
  case isTrue henabled =>
    obtain ⟨hidle, rfl⟩ := Pool.begin_inv hstep
    refine ⟨fun r => ?_, fun r => ?_, events, net, hrun, fun r => ?_⟩ <;>
      by_cases hr : r = role
    · subst hr
      rwa [System.program_set_self]
    · rw [System.program_set_of_ne hr]
      exact h.orderly r
    · subst hr
      rw [System.program_set_self]
      exact h.numbered r
    · rw [System.program_set_of_ne hr]
      exact h.numbered r
    · subst hr
      rw [System.program_set_self]
      exact (hshadow r).begin hidle (hacts net hshadow)
    · rw [System.program_set_of_ne hr]
      exact hshadow r

/-- A step of the system is made in the model. -/
private theorem refines_step {setup : Setup} {link : UInt8} {n : Role → Nat}
    (hn : ∀ role, n role ≤ 256) (hlink : ∀ role, link.toNat < n role)
    {step : SystemStep} {s s' : System} (h : s.Refines setup link n)
    (hrecorded : step.Recorded s)
    (hstep : System.step statsFromSlice step s = some s') :
    s'.Refines setup link n := by
  cases step with
  | begin role round =>
      unfold System.step at hstep
      dsimp only at hstep
      split at hstep
      case isTrue => cases hstep
      case isFalse hreceive =>
        obtain ⟨p, hp, rfl⟩ := Option.map_eq_some_iff.mp hstep
        exact refines_begin h (fun net _ => actions_shadowed
          (Bool.eq_false_iff.mpr hreceive) role _ link net) hp
  | deliver role i src =>
      obtain ⟨d, p, hd, hp, rfl⟩ := deliver_inv hstep
      exact refines_begin h (fun net hshadow =>
        receive_shadowed (hshadow role.peer) (List.mem_of_getElem? hd)
          (hrecorded d hd) src _) hp
  | perform role t reading =>
      obtain ⟨p, hp, rfl⟩ := Option.map_eq_some_iff.mp hstep
      have horderly := (h.orderly role).step hp
      obtain ⟨a, rest, next, e, hpending, hexec, rfl⟩ := Pool.perform_inv hp
      obtain ⟨events, net, hrun, hshadow⟩ := h.shadow
      obtain ⟨net', hmoves, hself⟩ := (hshadow role).perform
        (h.numbered role) (hn role) (hlink role) (h.orderly role) hpending
        hexec
      have hnumbered : e.rateController.Numbered (n role) := by
        have hrates := (exec_outputs hexec).rates
        cases hop : a.rateOp reading with
        | none =>
            rw [hop] at hrates
            exact Option.some.inj hrates ▸ h.numbered role
        | some op =>
            rw [hop] at hrates
            exact apply_numbered (h.numbered role) hrates
      obtain ⟨more, hmore⟩ := hmoves.run
      refine ⟨fun r => ?_, fun r => ?_, events ++ more, net', ?_,
        fun r => ?_⟩
      · by_cases hr : r = role
        · subst hr
          rwa [System.program_set_self]
        · rw [System.program_set_of_ne hr]
          exact h.orderly r
      · by_cases hr : r = role
        · subst hr
          rwa [System.program_set_self]
        · rw [System.program_set_of_ne hr]
          exact h.numbered r
      · rw [Trace.run_append, hrun]
        exact hmore
      · by_cases hr : r = role
        · subst hr
          rwa [System.program_set_self]
        · rw [System.program_set_of_ne hr]
          have hpeer : role = r.peer := by
            cases r <;> cases role <;> first | rfl | exact absurd rfl hr
          subst hpeer
          rw [Role.party_peer] at hmoves
          exact (hshadow r).far hmoves

/-- The programs refine the model of a link. On each of their links, every
run of both programs in which chunks arrive when the far side's sender has
recorded what it has sent is a run of the model, whatever else the network
loses, repeats or reorders: some events of the link lead from the fresh
controllers to the two that the programs have. -/
theorem programs_refine_link
    (statsFromSlice : List UInt8 → Option StatsPacket)
    (config : Role → Config) (linkBandwidths : Role → List UInt64)
    (now : Role → Nat → Nat) {steps : List SystemStep} {s : System}
    (hrun : Trace.run (System.step statsFromSlice) steps
      (System.start config linkBandwidths now) = some s)
    (hrecorded : Trace.Along (System.step statsFromSlice)
      SystemStep.Recorded steps (System.start config linkBandwidths now))
    (hfew : ∀ role, (linkBandwidths role).length ≤ 256) {link : UInt8}
    (hlink : ∀ role, link.toNat < (linkBandwidths role).length) :
    ∃ events net,
      Trace.run (Net.step link) events
          (Setup.ofPrograms config linkBandwidths now).start = some net
      ∧ net.a.rc = s.client.shared.rateController
      ∧ net.b.rc = s.server.shared.rateController := by
  have hstart : (System.start config linkBandwidths now).Refines
      (Setup.ofPrograms config linkBandwidths now) link
      fun role => (linkBandwidths role).length := by
    refine ⟨fun role => ?_, fun role => ?_, [], _, rfl, fun role => ?_⟩
    · rw [start_program]
      exact orderly_idle _
    · rw [start_program]
      refine ⟨?_, fun i st hst => ?_⟩
      · show ((List.map UInt64.toNat _).mapIdx _).length = _
        rw [List.length_mapIdx, List.length_map]
      · obtain ⟨rate, -, rfl⟩ := new_states hst
        rfl
    · rw [start_program]
      refine ⟨?_, (fun _ h => nomatch h), (fun _ h => nomatch h),
        fun _ _ h => nomatch h⟩
      cases role <;> rfl
  have hrefines := Trace.run_along
    (P := System.Refines (Setup.ofPrograms config linkBandwidths now) link
      fun role => (linkBandwidths role).length)
    (fun _ _ _ h hok hstep => refines_step hfew hlink h hok hstep)
    hrecorded hrun hstart
  obtain ⟨events, net, hnet, hshadow⟩ := hrefines.shadow
  exact ⟨events, net, hnet, (hshadow .client).rc, (hshadow .server).rc⟩

/-- The bandwidths that the two programs are set up with. -/
def freshBandwidths : Role → List UInt64
  | .client => expectedBandwidthUp
  | .server => expectedBandwidthDown

/-- The law where the one chunk crosses and is recorded on both sides. -/
theorem programs_refine_link_one_chunk : ∃ s events net,
    Trace.run (System.step fun _ => none) (clientSends ++ serverWrites)
        freshSystem = some s
      ∧ s.server.shared.rateController.states[0]?.map
        RateState.totalRxPackets = some 1
      ∧ Trace.run (Net.step 0) events
        (Setup.ofPrograms (fun _ => Config.default) freshBandwidths
          fun _ _ => 0).start = some net
      ∧ net.b.rc = s.server.shared.rateController := by
  have hcount : (Trace.run (System.step fun _ => none)
      (clientSends ++ serverWrites) freshSystem).map (fun s =>
        s.server.shared.rateController.states[0]?.map
          RateState.totalRxPackets) = some (some 1) := by
    decide +kernel
  obtain ⟨s, hrun, hcount⟩ := Option.map_eq_some_iff.mp hcount
  obtain ⟨events, net, hnet, -, hserver⟩ := programs_refine_link
    (fun _ => none) (fun _ => Config.default) freshBandwidths
    (fun _ _ => 0) hrun (by decide +kernel)
    (fun role => by cases role <;> decide) (show ∀ role,
      (0 : UInt8).toNat < (freshBandwidths role).length from
      fun role => by cases role <;> decide)
  exact ⟨s, events, net, hrun, hcount, hnet, hserver⟩

end ChainLightning
