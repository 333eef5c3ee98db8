/-
What the two controllers have counted, whatever the network does.

The controller's counters and both of its snapshots (one moved when a
probe is built, one when a probe is processed) are functions of the
endpoint's records: `Node.Counted`. As long as fewer than `2 ^ 32`
packets are recorded between two builds, the probes an endpoint builds
are meter readings: each reports the increment since the one before
(Lib/Meter.lean). None of this depends on what is lost, duplicated or
reordered; the disciplines come on top, in the modules that need them.
-/
import ChainLightning.Network
import ChainLightning.Lib.Meter
import ChainLightning.Proofs.Rate.Link
import ChainLightning.Proofs.Rate.Stages

namespace ChainLightning

open Meter

/-- Packets a probe reports as received, a number. -/
def Report.rx (r : Report) : Nat := r.probe.rxPackets.toNat

/-- Packets a probe reports as sent, a number. -/
def Report.tx (r : Report) : Nat := r.probe.txPackets.toNat

/-- How many packets the builder had received. -/
def Report.got (r : Report) : Nat := r.received.length

/-- Nothing that loss is judged by, nor the judgement, has changed. -/
structure RateState.SameLoss (s s' : RateState) : Prop where
  state : s'.state = s.state
  sendLoss : s'.sendLoss = s.sendLoss
  recvLoss : s'.recvLoss = s.recvLoss
  sendTxAcc : s'.sendTxAcc = s.sendTxAcc
  sendRxAcc : s'.sendRxAcc = s.sendRxAcc
  recvTxAcc : s'.recvTxAcc = s.recvTxAcc
  recvRxAcc : s'.recvRxAcc = s.recvRxAcc

-- ============================================================== one endpoint

/-- Fewer than `2 ^ 32` packets were sent, and received, since the last
probe was built. -/
def Node.fewNew (n : Node) : Bool :=
  n.sent - reading Report.sent 0 n.built < 2 ^ 32
    && n.received.length - reading Report.got 0 n.built < 2 ^ 32

/-- The controller's link state `s` counts what the endpoint records. -/
structure Node.Counted (cfg : RateControlConfig) (link : UInt8) (n : Node)
    (s : RateState) : Prop where
  config : n.rc.config = cfg
  here : n.rc.states[link.toNat]? = some s
  linkId : s.linkId = link.toNat
  tx : s.totalTxPackets = n.sent
  rx : s.totalRxPackets = n.received.length
  probeTx : s.lastProbeTxPackets = reading Report.sent 0 n.built
  probeRx : s.lastProbeRxPackets = reading Report.got 0 n.built
  behind : reading Report.sent 0 n.built ≤ n.sent
    ∧ reading Report.got 0 n.built ≤ n.received.length
  lossTx : s.lastLossTxPackets = reading Receipt.sent 0 n.processed
  lossRx : s.lastLossRxPackets = reading Receipt.received 0 n.processed
  sentMeter : Telescopes Report.tx Report.sent 0 n.built
  gotMeter : Telescopes Report.rx Report.got 0 n.built
  stamped : ∀ (i : Nat) (r : Report), n.built[i]? = some r →
    r.index = i ∧ r.probe.linkId = link

namespace Node

variable {cfg : RateControlConfig} {link : UInt8} {n n' : Node}
  {s : RateState} {clk : Clock}

/-- A call on the endpoint's controller, seen on the link. -/
private theorem apply_here {rc' : RateController}
    (h : n.Counted cfg link s) (op : RateOp)
    (hop : op.apply n.rc = some rc') :
    rc'.config = cfg ∧ ∃ s', op.linkStep n.rc link.toNat s = some s'
      ∧ rc'.states[link.toNat]? = some s' := by
  obtain ⟨hcfg, -, hlink⟩ := apply_link hop
  exact ⟨hcfg.trans h.config, hlink _ s h.here⟩

/-- Sending counts one packet more. -/
theorem Counted.send {bytes : Nat} (h : n.Counted cfg link s)
    (hn : n.send link bytes = some n') :
    ∃ s', n'.Counted cfg link s' ∧ s.SameLoss s'
      ∧ n' = { n with
          rc := n'.rc
          sent := n.sent + 1
          wire := n.wire ++ [.data n.sent bytes] } := by
  obtain ⟨rc', hrc, hsome⟩ := Option.bind_eq_some_iff.mp hn
  cases hsome
  obtain ⟨hcfg, s', hs', hget⟩ :=
    apply_here h (.recordTx link.toNat bytes) hrc
  simp only [RateOp.linkStep, if_pos] at hs'
  have hinv := RateState.recordTx_inv hs'
  refine ⟨s', ?_⟩
  subst hinv
  refine ⟨?_, ⟨rfl, rfl, rfl, rfl, rfl, rfl, rfl⟩, rfl⟩
  exact { h with
    config := hcfg
    here := hget
    tx := congrArg (· + 1) h.tx
    behind := ⟨Nat.le_succ_of_le h.behind.1, h.behind.2⟩ }

/-- Building sends a report that continues the meters. -/
theorem Counted.build {now : Nat → UInt64} (h : n.Counted cfg link s)
    (hfew : n.fewNew = true) (hn : n.build link now = some n') :
    ∃ s' report, n'.Counted cfg link s' ∧ s.SameLoss s'
      ∧ report.sent = n.sent ∧ report.received = n.received
      ∧ n' = { n with
          rc := n'.rc
          built := n.built ++ [report]
          wire := n.wire ++ [.probe report] } := by
  obtain ⟨⟨probes, rc'⟩, hrc, hn⟩ := Option.bind_eq_some_iff.mp hn
  obtain ⟨probe, hprobe, hsome⟩ := Option.bind_eq_some_iff.mp hn
  cases hsome
  obtain ⟨hcfg, -, hall⟩ := buildProbes_inv hrc
  obtain ⟨p, s', hb, hp, hget⟩ := hall _ s h.here
  rw [hprobe] at hp
  cases hp
  obtain ⟨hid, htx, hrx, hdtx, hdrx, hinv⟩ := RateState.buildProbe_inv hb
  simp only [fewNew, Bool.and_eq_true, decide_eq_true_eq] at hfew
  rw [h.tx, h.probeTx] at htx hdtx
  rw [h.rx, h.probeRx] at hrx hdrx
  rw [Nat.mod_eq_of_lt hfew.1] at hdtx
  rw [Nat.mod_eq_of_lt hfew.2] at hdrx
  refine ⟨s', ⟨n.built.length, probe, n.sent, n.received⟩, ?_⟩
  subst hinv
  refine ⟨?_, ⟨rfl, rfl, rfl, rfl, rfl, rfl, rfl⟩, rfl, rfl, rfl⟩
  exact { h with
    config := hcfg.trans h.config
    here := hget
    probeTx := by
      rw [reading_snoc]
      exact h.tx
    probeRx := by
      rw [reading_snoc]
      exact h.rx
    behind := by
      rw [reading_snoc, reading_snoc]
      exact ⟨Nat.le_refl _, Nat.le_refl _⟩
    sentMeter := by
      refine telescopes_snoc h.sentMeter ?_
      show _ + probe.txPackets.toNat = n.sent
      rw [hdtx, Nat.add_sub_cancel' htx]
    gotMeter := by
      refine telescopes_snoc h.gotMeter ?_
      show _ + probe.rxPackets.toNat = n.received.length
      rw [hdrx, Nat.add_sub_cancel' hrx]
    stamped := by
      intro i r hr
      rcases Nat.lt_trichotomy i n.built.length with hlt | rfl | hgt
      · rw [List.getElem?_append_left hlt] at hr
        exact h.stamped i r hr
      · rw [List.getElem?_concat_length] at hr
        cases hr
        refine ⟨rfl, ?_⟩
        show probe.linkId = link
        rw [hid, h.linkId]
        exact UInt8.ofNat_toNat
      · have hlen : (n.built ++ [(⟨n.built.length, probe, n.sent,
            n.received⟩ : Report)]).length ≤ i := by
          rw [List.length_append]
          exact hgt
        rw [List.getElem?_eq_none hlen] at hr
        cases hr }

/-- Receiving data counts one packet more. -/
theorem Counted.receive_data {id bytes : Nat} (h : n.Counted cfg link s)
    (hn : n.receive link clk (.data id bytes) = some n') :
    ∃ s', n'.Counted cfg link s' ∧ s.SameLoss s'
      ∧ n' = { n with rc := n'.rc, received := id :: n.received } := by
  obtain ⟨rc', hrc, hsome⟩ := Option.bind_eq_some_iff.mp hn
  cases hsome
  obtain ⟨hcfg, s', hs', hget⟩ :=
    apply_here h (.recordRx link.toNat bytes) hrc
  simp only [RateOp.linkStep, if_pos] at hs'
  have hinv := RateState.recordRx_inv hs'
  refine ⟨s', ?_⟩
  subst hinv
  refine ⟨?_, ⟨rfl, rfl, rfl, rfl, rfl, rfl, rfl⟩, rfl⟩
  exact { h with
    config := hcfg
    here := hget
    rx := congrArg (· + 1) h.rx
    behind := ⟨h.behind.1, Nat.le_succ_of_le h.behind.2⟩ }

/-- Receiving a probe of this link processes it and files a receipt. -/
theorem Counted.receive_probe {report : Report}
    (h : n.Counted cfg link s) (hlink : report.probe.linkId = link)
    (hn : n.receive link clk (.probe report) = some n') :
    ∃ s' c suppress, n'.Counted cfg link s'
      ∧ n.receipt link report = some c
      ∧ s.processProbe cfg clk c.confidence suppress report.probe = some s'
      ∧ n' = { n with
          rc := n'.rc, processed := n.processed ++ [c] } := by
  obtain ⟨c, hc, hn⟩ := Option.bind_eq_some_iff.mp hn
  obtain ⟨rc', hrc, hsome⟩ := Option.bind_eq_some_iff.mp hn
  obtain ⟨confidence, hconf, hreceipt⟩ := Option.bind_eq_some_iff.mp hc
  cases hsome
  cases hreceipt
  obtain ⟨hcfg, s', hs', hget⟩ :=
    apply_here h (.processProbe clk report.probe) hrc
  have hl : report.probe.linkId.toNat = link.toNat := by rw [hlink]
  simp only [RateOp.linkStep, if_pos hl, hconf, Option.bind_some,
    h.config] at hs'
  obtain ⟨hframe, hset⟩ := RateState.processProbe_frame hs'
  refine ⟨s', _, _, ?_, hc, hs', rfl⟩
  exact {
    config := hcfg
    here := hget
    linkId := hframe.linkId.trans h.linkId
    tx := hframe.totalTxPackets.trans h.tx
    rx := hframe.totalRxPackets.trans h.rx
    probeTx := hframe.lastProbeTxPackets.trans h.probeTx
    probeRx := hframe.lastProbeRxPackets.trans h.probeRx
    behind := h.behind
    lossTx := by
      rw [reading_snoc, hset.1, hframe.totalTxPackets]
      exact h.tx
    lossRx := by
      rw [reading_snoc, hset.2, hframe.totalRxPackets]
      exact h.rx
    sentMeter := h.sentMeter
    gotMeter := h.gotMeter
    stamped := h.stamped }

/-- A foreign call changes no counter; only a timeout changes the
link's state at all. -/
theorem Counted.call {op : RateOp} (h : n.Counted cfg link s)
    (hop : op.foreign link = true) (hn : n.call op = some n') :
    ∃ s', n'.Counted cfg link s' ∧ n' = { n with rc := n'.rc }
      ∧ (s' = s ∨ ∃ now, op = .checkTimeouts now
        ∧ s' = s.checkTimeout cfg (now link.toNat)) := by
  obtain ⟨rc', hrc, hsome⟩ := Option.bind_eq_some_iff.mp hn
  cases hsome
  obtain ⟨hcfg, s', hs', hget⟩ := apply_here h op hrc
  have hkeep : s' = s →
      Counted cfg link { n with rc := rc' } s' := by
    rintro rfl
    exact { h with config := hcfg, here := hget }
  cases op with
  | recordTx linkId bytes =>
      have hne : linkId ≠ link.toNat := by simpa [RateOp.foreign] using hop
      simp only [RateOp.linkStep, if_neg hne, Option.some_inj] at hs'
      exact ⟨s', hkeep hs'.symm, rfl, Or.inl hs'.symm⟩
  | recordRx linkId bytes =>
      have hne : linkId ≠ link.toNat := by simpa [RateOp.foreign] using hop
      simp only [RateOp.linkStep, if_neg hne, Option.some_inj] at hs'
      exact ⟨s', hkeep hs'.symm, rfl, Or.inl hs'.symm⟩
  | buildProbes now => cases hop
  | processProbe clk probe =>
      have hne : probe.linkId ≠ link := by simpa [RateOp.foreign] using hop
      have hne' : ¬probe.linkId.toNat = link.toNat :=
        fun heq => hne (UInt8.toNat_inj.mp heq)
      simp only [RateOp.linkStep, if_neg hne', Option.some_inj] at hs'
      exact ⟨s', hkeep hs'.symm, rfl, Or.inl hs'.symm⟩
  | checkTimeouts now =>
      have hcheck : s' = s.checkTimeout cfg (now link.toNat) := by
        simp only [RateOp.linkStep, Option.some_inj] at hs'
        rw [← hs', h.config]
      refine ⟨s', ?_, rfl, Or.inr ⟨now, rfl, hcheck⟩⟩
      unfold RateState.checkTimeout at hcheck
      split at hcheck
      case isTrue =>
          subst hcheck
          exact { h with config := hcfg, here := hget }
      case isFalse => exact hkeep hcheck

/-- A fresh endpoint has counted nothing. -/
theorem counted_new (cfg : RateControlConfig) {maxRates : List Nat}
    (now : Nat → Nat) (hlink : link.toNat < maxRates.length) :
    ∃ s, (Node.new (RateController.new cfg maxRates now)).Counted cfg link s
      ∧ s = RateState.new link.toNat (maxRates[link.toNat])
        cfg.minRateFraction (now link.toNat) := by
  refine ⟨_, ?_, rfl⟩
  have hget : (RateController.new cfg maxRates now).states[link.toNat]?
      = some (RateState.new link.toNat (maxRates[link.toNat])
        cfg.minRateFraction (now link.toNat)) := by
    show (maxRates.mapIdx _)[link.toNat]? = _
    rw [List.getElem?_mapIdx, List.getElem?_eq_getElem hlink]
    rfl
  exact {
    config := rfl
    here := hget
    linkId := rfl
    tx := rfl
    rx := rfl
    probeTx := rfl
    probeRx := rfl
    behind := ⟨Nat.le_refl 0, Nat.le_refl 0⟩
    lossTx := rfl
    lossRx := rfl
    sentMeter := trivial
    gotMeter := trivial
    stamped := by
      intro i r hr
      cases hr }

end Node

-- ============================================================ both endpoints

/-- Both controllers count, probes in flight have been built by their
sender, and processed probes by the far side. -/
structure Net.Counted (setup : Setup) (link : UInt8) (net : Net) :
    Prop where
  nodes : ∀ p, ∃ s, (net.node p).Counted (setup.config p) link s
  flying : ∀ (p : Party) (r : Report), .probe r ∈ (net.node p).wire →
    r ∈ (net.node p).built
  filed : ∀ (p : Party), ∀ receipt ∈ (net.node p).processed,
    receipt.report ∈ (net.node p.peer).built

/-- An event that builds a probe finds fewer than `2 ^ 32` packets to
report in either direction. -/
def Event.few : Event → Net → Bool
  | .build p _, net => (net.node p).fewNew
  | _, _ => true

theorem Party.eq_or_peer (p q : Party) : q = p ∨ q = p.peer := by
  cases p <;> cases q <;> simp [Party.peer]

namespace Net

variable {setup : Setup} {link : UInt8} {net net' : Net}

/-- Every probe in flight is for this link. -/
theorem Counted.probe_linkId (h : net.Counted setup link) {p : Party}
    {r : Report} (hr : r ∈ (net.node p).built) : r.probe.linkId = link := by
  obtain ⟨s, hs⟩ := h.nodes p
  obtain ⟨i, hi⟩ := List.mem_iff_getElem?.mp hr
  exact (hs.stamped i r hi).2

/-- Replacing one endpoint by one that counts, whose probes in flight
were built and whose receipts are for probes of the far side. -/
private theorem Counted.set (h : net.Counted setup link) {p : Party}
    {n : Node} (hn : ∃ s, n.Counted (setup.config p) link s)
    (hbuilt : ∀ r ∈ (net.node p).built, r ∈ n.built)
    (hwire : ∀ r, .probe r ∈ n.wire → r ∈ n.built)
    (hfiled : ∀ receipt ∈ n.processed,
      receipt.report ∈ (net.node p.peer).built) :
    (net.set p n).Counted setup link where
  nodes := by
    intro q
    rcases Party.eq_or_peer p q with rfl | rfl
    · rw [node_set_self]
      exact hn
    · rw [node_set_peer]
      exact h.nodes p.peer
  flying := by
    intro q r hr
    rcases Party.eq_or_peer p q with rfl | rfl
    · rw [node_set_self] at hr ⊢
      exact hwire r hr
    · rw [node_set_peer] at hr ⊢
      exact h.flying p.peer r hr
  filed := by
    intro q receipt hr
    rcases Party.eq_or_peer p q with rfl | rfl
    · rw [node_set_self] at hr
      rw [node_set_peer]
      exact hfiled receipt hr
    · rw [node_set_peer] at hr
      rw [Party.peer_peer, node_set_self]
      have hold := h.filed p.peer receipt hr
      rw [Party.peer_peer] at hold
      exact hbuilt _ hold

/-- Removing a message keeps the counts. -/
theorem Counted.lose (h : net.Counted setup link) (p : Party) (i : Nat) :
    (net.set p ((net.node p).lose i)).Counted setup link := by
  obtain ⟨s, hs⟩ := h.nodes p
  refine h.set ⟨s, { hs with }⟩ (fun r hr => hr) ?_ (h.filed p)
  intro r hr
  exact h.flying p r (List.mem_of_mem_eraseIdx hr)

/-- Receiving a message that the far side sent keeps the counts. -/
theorem Counted.receive {clk : Clock} {m : Msg} {p : Party} {n : Node}
    (h : net.Counted setup link)
    (hm : ∀ r, m = .probe r → r ∈ (net.node p.peer).built)
    (hn : (net.node p).receive link clk m = some n) :
    (net.set p n).Counted setup link := by
  obtain ⟨s, hs⟩ := h.nodes p
  cases m with
  | data id bytes =>
      obtain ⟨s', hs', -, heq⟩ := hs.receive_data hn
      rw [heq] at hs' ⊢
      exact h.set ⟨s', hs'⟩ (fun r hr => hr) (h.flying p) (h.filed p)
  | probe report =>
      have hbuilt := hm report rfl
      obtain ⟨s', c, suppress, hs', hc, -, heq⟩ :=
        hs.receive_probe (h.probe_linkId hbuilt) hn
      obtain ⟨confidence, -, hreceipt⟩ := Option.bind_eq_some_iff.mp hc
      cases hreceipt
      rw [heq] at hs' ⊢
      refine h.set ⟨s', hs'⟩ (fun r hr => hr) (h.flying p) ?_
      intro receipt hr
      rcases List.mem_append.mp hr with hr | hr
      · exact h.filed p receipt hr
      · rw [List.mem_singleton.mp hr]
        exact hbuilt

/-- Whatever happens on the link, the counts stay right. -/
theorem Counted.step {e : Event} (h : net.Counted setup link)
    (hfew : e.few net = true) (hstep : Net.step link e net = some net') :
    net'.Counted setup link := by
  cases e with
  | send p bytes =>
      obtain ⟨n, hn, hsome⟩ := Option.bind_eq_some_iff.mp hstep
      cases hsome
      obtain ⟨s, hs⟩ := h.nodes p
      obtain ⟨s', hs', -, heq⟩ := hs.send hn
      rw [heq] at hs' ⊢
      refine h.set ⟨s', hs'⟩ (fun r hr => hr) ?_ (h.filed p)
      intro r hr
      rcases List.mem_append.mp hr with hr | hr
      · exact h.flying p r hr
      · cases List.mem_singleton.mp hr
  | build p now =>
      obtain ⟨n, hn, hsome⟩ := Option.bind_eq_some_iff.mp hstep
      cases hsome
      obtain ⟨s, hs⟩ := h.nodes p
      obtain ⟨s', report, hs', -, -, -, heq⟩ := hs.build hfew hn
      rw [heq] at hs' ⊢
      refine h.set ⟨s', hs'⟩ ?_ ?_ (h.filed p)
      · intro r hr
        exact List.mem_append_left _ hr
      · intro r hr
        rcases List.mem_append.mp hr with hr | hr
        · exact List.mem_append_left _ (h.flying p r hr)
        · cases List.mem_singleton.mp hr
          exact List.mem_append_right _ (List.mem_singleton.mpr rfl)
  | deliver p i clk =>
      obtain ⟨m, hm, hstep⟩ := Option.bind_eq_some_iff.mp hstep
      obtain ⟨n, hn, hsome⟩ := Option.bind_eq_some_iff.mp hstep
      cases hsome
      rw [← node_set_peer net p ((net.node p).lose i)] at hn
      refine (h.lose p i).receive ?_ hn
      rintro r rfl
      rw [Party.peer_peer, node_set_self]
      exact h.flying p r (List.mem_of_getElem? hm)
  | lose p i =>
      obtain ⟨m, hm, hsome⟩ := Option.bind_eq_some_iff.mp hstep
      cases hsome
      exact h.lose p i
  | duplicate p i =>
      obtain ⟨m, hm, hsome⟩ := Option.bind_eq_some_iff.mp hstep
      cases hsome
      obtain ⟨s, hs⟩ := h.nodes p
      refine h.set ⟨s, { hs with }⟩ (fun r hr => hr) ?_ (h.filed p)
      intro r hr
      rcases List.mem_append.mp hr with hr | hr
      · exact h.flying p r hr
      · rw [← List.mem_singleton.mp hr] at hm
        exact h.flying p r (List.mem_of_getElem? hm)
  | call p op =>
      simp only [Net.step] at hstep
      split at hstep
      case isTrue hop =>
          obtain ⟨n, hn, hsome⟩ := Option.bind_eq_some_iff.mp hstep
          cases hsome
          obtain ⟨s, hs⟩ := h.nodes p
          obtain ⟨s', hs', heq, -⟩ := hs.call hop hn
          rw [heq] at hs' ⊢
          exact h.set ⟨s', hs'⟩ (fun r hr => hr) (h.flying p) (h.filed p)
      case isFalse => cases hstep

/-- What an event does to the link of one of the two: the accounts stay,
and the state too unless timeouts are checked; or a probe arrives and is
processed. -/
inductive LinkStep (setup : Setup) (link : UInt8) (q : Party) (net net' : Net)
    (s s' : RateState) : Event → Prop where
  | same {e : Event} (hsame : s.SameLoss s')
      (hrecords : (net'.node q).processed = (net.node q).processed) :
      LinkStep setup link q net net' s s' e
  | timeout {now : Nat → Nat}
      (hcheck : s' = s.checkTimeout (setup.config q) (now link.toNat))
      (hrecords : (net'.node q).processed = (net.node q).processed) :
      LinkStep setup link q net net' s s' (.call q (.checkTimeouts now))
  | probe {i : Nat} {clk : Clock} {c : Receipt} {suppress : Bool}
      (hwire : (net.node q.peer).wire[i]? = some (.probe c.report))
      (hreceipt : (net.node q).receipt link c.report = some c)
      (hprobe : s.processProbe (setup.config q) clk c.confidence suppress
        c.report.probe = some s')
      (hrecords : (net'.node q).processed = (net.node q).processed ++ [c]) :
      LinkStep setup link q net net' s s' (.deliver q.peer i clk)

/-- Every event does one of these, to either link. -/
theorem Counted.step_link {e : Event} (h : net.Counted setup link)
    (hfew : e.few net = true) (hstep : Net.step link e net = some net')
    {q : Party} {s : RateState}
    (hs : (net.node q).Counted (setup.config q) link s) :
    ∃ s', (net'.node q).Counted (setup.config q) link s'
      ∧ LinkStep setup link q net net' s s' e := by
  have hstay : ∀ {p : Party} {n : Node}, q = p.peer →
      net' = net.set p n → ∃ s', (net'.node q).Counted (setup.config q) link s'
        ∧ LinkStep setup link q net net' s s' e := by
    rintro p n rfl rfl
    rw [node_set_peer]
    exact ⟨s, hs, .same ⟨rfl, rfl, rfl, rfl, rfl, rfl, rfl⟩
      (by rw [node_set_peer])⟩
  cases e with
  | send p bytes =>
      obtain ⟨n, hn, hsome⟩ := Option.bind_eq_some_iff.mp hstep
      cases hsome
      rcases Party.eq_or_peer p q with rfl | hq
      · obtain ⟨s', hs', hsame, heq⟩ := hs.send hn
        refine ⟨s', by rwa [node_set_self], .same hsame ?_⟩
        rw [node_set_self, heq]
      · exact hstay hq rfl
  | build p now =>
      obtain ⟨n, hn, hsome⟩ := Option.bind_eq_some_iff.mp hstep
      cases hsome
      rcases Party.eq_or_peer p q with rfl | hq
      · obtain ⟨s', report, hs', hsame, -, -, heq⟩ := hs.build hfew hn
        refine ⟨s', by rwa [node_set_self], .same hsame ?_⟩
        rw [node_set_self, heq]
      · exact hstay hq rfl
  | deliver p i clk =>
      obtain ⟨m, hm, hstep⟩ := Option.bind_eq_some_iff.mp hstep
      obtain ⟨n, hn, hsome⟩ := Option.bind_eq_some_iff.mp hstep
      cases hsome
      rcases Party.eq_or_peer p q with rfl | rfl
      · have hnode : ((net.set q ((net.node q).lose i)).set q.peer n).node q
            = (net.node q).lose i := by
          have hpeer := node_set_peer (net.set q ((net.node q).lose i))
            q.peer n
          rw [Party.peer_peer, node_set_self] at hpeer
          exact hpeer
        rw [hnode]
        exact ⟨s, { hs with }, .same ⟨rfl, rfl, rfl, rfl, rfl, rfl, rfl⟩
          (by rw [hnode]; rfl)⟩
      · cases m with
        | data id bytes =>
            obtain ⟨s', hs', hsame, heq⟩ := hs.receive_data hn
            refine ⟨s', by rwa [node_set_self], .same hsame ?_⟩
            rw [node_set_self, heq]
        | probe report =>
            have hlink := h.probe_linkId
              (h.flying p report (List.mem_of_getElem? hm))
            obtain ⟨s', c, suppress, hs', hc, hprobe, heq⟩ :=
              hs.receive_probe hlink hn
            obtain rfl : c.report = report := by
              obtain ⟨confidence, -, hreceipt⟩ := Option.bind_eq_some_iff.mp hc
              cases hreceipt
              rfl
            have hwire : (net.node p.peer.peer).wire[i]?
                = some (.probe c.report) := by
              rw [Party.peer_peer]
              exact hm
            generalize hnet : (net.set p ((net.node p).lose i)).set p.peer n
              = net'
            have hrecords : net'.node p.peer = n := by
              rw [← hnet, node_set_self]
            have hprobe' := LinkStep.probe hwire hc hprobe
              (show (net'.node p.peer).processed = _ by rw [hrecords, heq])
            rw [Party.peer_peer] at hprobe'
            exact ⟨s', by rwa [hrecords], hprobe'⟩
  | lose p i =>
      obtain ⟨m, hm, hsome⟩ := Option.bind_eq_some_iff.mp hstep
      cases hsome
      rcases Party.eq_or_peer p q with rfl | hq
      · rw [node_set_self]
        exact ⟨s, { hs with }, .same ⟨rfl, rfl, rfl, rfl, rfl, rfl, rfl⟩
          (by rw [node_set_self]; rfl)⟩
      · exact hstay hq rfl
  | duplicate p i =>
      obtain ⟨m, hm, hsome⟩ := Option.bind_eq_some_iff.mp hstep
      cases hsome
      rcases Party.eq_or_peer p q with rfl | hq
      · rw [node_set_self]
        exact ⟨s, { hs with }, .same ⟨rfl, rfl, rfl, rfl, rfl, rfl, rfl⟩
          (by rw [node_set_self])⟩
      · exact hstay hq rfl
  | call p op =>
      simp only [Net.step] at hstep
      split at hstep
      case isTrue hop =>
          obtain ⟨n, hn, hsome⟩ := Option.bind_eq_some_iff.mp hstep
          cases hsome
          rcases Party.eq_or_peer p q with rfl | hq
          · obtain ⟨s', hs', heq, hcall⟩ := hs.call hop hn
            have hrecords : ((net.set q n).node q).processed
                = (net.node q).processed := by
              rw [node_set_self, heq]
            refine ⟨s', by rwa [node_set_self], ?_⟩
            rcases hcall with rfl | ⟨now, rfl, rfl⟩
            · exact .same ⟨rfl, rfl, rfl, rfl, rfl, rfl, rfl⟩ hrecords
            · exact .timeout rfl hrecords
          · exact hstay hq rfl
      case isFalse => cases hstep

/-- Nothing has been counted at the start. -/
theorem counted_start
    (hlink : ∀ p, link.toNat < (setup.maxRates p).length) :
    setup.start.Counted setup link where
  nodes := by
    intro p
    obtain ⟨s, hs, -⟩ := Node.counted_new (setup.config p) (setup.now p)
      (hlink p)
    rw [Setup.start_node]
    exact ⟨s, hs⟩
  flying := by
    intro p r hr
    rw [Setup.start_node] at hr
    cases hr
  filed := by
    intro p receipt hr
    rw [Setup.start_node] at hr
    cases hr

/-- The counts are right after any run that keeps the increments below
`2 ^ 32`. -/
theorem counted_run
    (hlink : ∀ p, link.toNat < (setup.maxRates p).length)
    {events : List Event}
    (hfew : Trace.Along (Net.step link) (fun e net => e.few net = true)
      events setup.start)
    (hrun : Trace.run (Net.step link) events setup.start = some net) :
    net.Counted setup link :=
  Trace.run_along (fun _ _ _ h hok hstep => h.step hok hstep) hfew hrun
    (counted_start hlink)

end Net

end ChainLightning
