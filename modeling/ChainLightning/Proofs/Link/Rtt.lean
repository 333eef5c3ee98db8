/-
Round-trip times on a link.

The events of a link happen at times, and each party's clock shows the
time at an offset of its own. A party takes an RTT sample from a probe
that echoes a timestamp of its own: the clock now, less that timestamp.
The timestamp was stored when the far side processed the party's probe
(`Hearing`), and sent back whenever the far side built its next probes
(`Build`), so three stretches of time make up the sample: the party's
probe on its way, the timestamp held by the far side, and the probe that
carries the echo on its way back (`probe_rtt_includes_hold`). The sample
is network time exactly when nothing was held.

What is recorded about a run (`Timed`) is the time of every build with
the hearing it echoes, and every sample; `Node.Dated` ties the records
to the controller's own fields, one lemma an event.
-/
import ChainLightning.Proofs.Link.Counts
import ChainLightning.Proofs.Rate.Load

namespace ChainLightning

open RateState (rttSample smoothRtt)

-- ===================================================== statement vocabulary

/-- A processed probe of the far side: its place among the probes built
there, and when it was processed. -/
structure Hearing where
  index : Nat
  time : Nat
  deriving DecidableEq

/-- A built probe: when it was built, and the probe whose timestamp it
echoes. -/
structure Build where
  time : Nat
  heard : Option Hearing
  deriving DecidableEq

/-- An RTT sample: the place of the probe that gave it among those built
on the far side, when it was taken, and its value. -/
structure Sample where
  index : Nat
  time : Nat
  rttUs : Nat
  deriving DecidableEq

/-- A link with the times of its events: for each party its builds, in
the order of its probes, the probe it has processed last, and the samples
it has taken. -/
structure Timed where
  net : Net
  time : Nat
  builds : Party → List Build
  heard : Party → Option Hearing
  samples : Party → List Sample

namespace Timed

/-- Both endpoints, fresh. -/
def start (setup : Setup) : Timed where
  net := setup.start
  time := 0
  builds := fun _ => []
  heard := fun _ => none
  samples := fun _ => []

/-- What an event at a time adds to the records. A build and a processed
probe read their party's clock. -/
def file (link : UInt8) (offset : Party → Nat) (t : Nat) (net : Net)
    (s : Timed) : Event → Option Timed
  | .build p now =>
      if (now link.toNat).toNat = t + offset p then some { s with
        net
        time := t
        builds := Function.update s.builds p
          (s.builds p ++ [{ time := t, heard := s.heard p }]) }
      else none
  | .deliver p i clk =>
      match (s.net.node p).wire[i]? with
      | some (.probe report) =>
          if clk.micros.toNat = t + offset p.peer then some { s with
            net
            time := t
            heard := Function.update s.heard p.peer
              (some { index := report.index, time := t })
            samples := Function.update s.samples p.peer
              (s.samples p.peer
                ++ (rttSample clk.micros report.probe).toList.map fun rttUs =>
                  { index := report.index, time := t, rttUs }) }
          else none
      | _ => some { s with net, time := t }
  | _ => some { s with net, time := t }

/-- An event at a time; time does not go back. -/
def step (link : UInt8) (offset : Party → Nat) :
    Nat × Event → Timed → Option Timed
  | (t, e), s =>
      if s.time ≤ t then do
        let net ← Net.step link e s.net
        s.file link offset t net e
      else none

end Timed

-- ============================================================ one endpoint

/-- The timestamp `stamp` is the one of the probe `heard`, built at a time
that `builds` records, and the probe was processed between then and
`now`. -/
def Heard (offset : Nat) (builds : List Build) (now : Nat) (stamp : UInt64) :
    Option Hearing → Prop
  | none => stamp = 0
  | some heard => ∃ b, builds[heard.index]? = some b
      ∧ stamp.toNat = b.time + offset
      ∧ b.time ≤ heard.time ∧ heard.time ≤ now

/-- An entry of a list stays an entry of every longer one. -/
private theorem getElem?_of_append {α : Type*} {l l' : List α} {i : Nat}
    {x : α} (h : l[i]? = some x) : (l ++ l')[i]? = some x := by
  rw [List.getElem?_append_left (List.getElem?_eq_some_iff.mp h).1]
  exact h

theorem Heard.later {offset now t : Nat} {builds : List Build}
    {stamp : UInt64} {heard : Option Hearing}
    (h : Heard offset builds now stamp heard) (ht : now ≤ t)
    (more : List Build) :
    Heard offset (builds ++ more) t stamp heard := by
  cases heard with
  | none => exact h
  | some heard =>
      obtain ⟨b, hb, hstamp, hbefore, hnow⟩ := h
      exact ⟨b, getElem?_of_append hb, hstamp, hbefore, hnow.trans ht⟩

/-- What a sample is made of: the far side built the probe that gave it,
echoing the probe of this side that it had processed last. -/
def Sample.Explained (builds peers : List Build) (x : Sample) : Prop :=
  ∃ carrier heard own, peers[x.index]? = some carrier
    ∧ carrier.heard = some heard ∧ builds[heard.index]? = some own
    ∧ own.time ≤ heard.time ∧ heard.time ≤ carrier.time
    ∧ carrier.time ≤ x.time ∧ x.rttUs = x.time - own.time

theorem Sample.Explained.later {builds peers : List Build} {x : Sample}
    (h : x.Explained builds peers) (more more' : List Build) :
    x.Explained (builds ++ more) (peers ++ more') := by
  obtain ⟨carrier, heard, own, hcarrier, hheard, hown, htimes⟩ := h
  exact ⟨carrier, heard, own, getElem?_of_append hcarrier, hheard,
    getElem?_of_append hown, htimes⟩

/-- The RTT that a link has after its samples. -/
def smoothedRtt (cfg : RateControlConfig) (samples : List Sample) : Nat :=
  samples.foldl (fun srttUs x => smoothRtt cfg srttUs x.rttUs) 0

/-- The offsets of the own clock and of the far side's, and the records of
both sides. -/
structure Records where
  offset : Nat
  peerOffset : Nat
  builds : List Build
  peers : List Build
  heard : Option Hearing
  samples : List Sample

/-- The records of an endpoint are what its controller acts on: the
timestamp to echo is that of the probe heard last, the smoothed RTT that
of the samples, every probe carries the time it was built at and echoes
what was heard by then, and every sample is explained. -/
structure Node.Dated (cfg : RateControlConfig) (link : UInt8) (now : Nat)
    (r : Records) (n : Node) : Prop where
  config : n.rc.config = cfg
  here : ∃ st, n.rc.states[link.toNat]? = some st
    ∧ st.linkId = link.toNat
    ∧ Heard r.peerOffset r.peers now st.lastRemoteTimestampUs r.heard
    ∧ st.srttUs = smoothedRtt cfg r.samples
  length : r.builds.length = n.built.length
  built : ∀ (i : Nat) (report : Report), n.built[i]? = some report →
    report.index = i ∧ report.probe.linkId = link
      ∧ ∃ b, r.builds[i]? = some b
        ∧ report.probe.timestampUs.toNat = b.time + r.offset
        ∧ b.time ≤ now
        ∧ Heard r.peerOffset r.peers b.time report.probe.echoTimestampUs
          b.heard
  flying : ∀ report, .probe report ∈ n.wire →
    n.built[report.index]? = some report
  explained : ∀ x ∈ r.samples, x.Explained r.builds r.peers

namespace Node.Dated

variable {cfg : RateControlConfig} {link : UInt8} {now : Nat} {r : Records}
  {n n' : Node}

/-- Time passes, and the far side builds probes. -/
theorem later (h : n.Dated cfg link now r) {t : Nat} (ht : now ≤ t)
    (more : List Build) :
    n.Dated cfg link t { r with peers := r.peers ++ more } where
  config := h.config
  here := by
    obtain ⟨st, hst, hid, hheard, hsrtt⟩ := h.here
    exact ⟨st, hst, hid, hheard.later ht more, hsrtt⟩
  length := h.length
  built := by
    intro i report hreport
    obtain ⟨hindex, hlink, b, hb, hstamp, hbefore, hheard⟩ :=
      h.built i report hreport
    exact ⟨hindex, hlink, b, hb, hstamp, hbefore.trans ht,
      hheard.later le_rfl more⟩
  flying := h.flying
  explained := by
    intro x hx
    have hold := (h.explained x hx).later [] more
    rwa [List.append_nil] at hold

/-- Time passes. -/
theorem wait (h : n.Dated cfg link now r) {t : Nat} (ht : now ≤ t) :
    n.Dated cfg link t r := by
  have hlater := h.later ht []
  rwa [List.append_nil] at hlater

/-- A call that neither builds the link's probe nor processes one leaves
what the records say of its state. -/
private theorem linkStep_notes {op : RateOp} {rc : RateController}
    {st st' : RateState} (hop : op.foreign link = true
      ∨ (∃ bytes, op = .recordTx link.toNat bytes)
      ∨ ∃ bytes, op = .recordRx link.toNat bytes)
    (hstep : op.linkStep rc link.toNat st = some st') :
    st'.linkId = st.linkId
      ∧ st'.lastRemoteTimestampUs = st.lastRemoteTimestampUs
      ∧ st'.srttUs = st.srttUs := by
  cases op with
  | recordTx linkId bytes =>
      unfold RateOp.linkStep at hstep
      dsimp only at hstep
      split at hstep
      case isTrue =>
        rw [RateState.recordTx_inv hstep]
        exact ⟨rfl, rfl, rfl⟩
      case isFalse =>
        cases hstep
        exact ⟨rfl, rfl, rfl⟩
  | recordRx linkId bytes =>
      unfold RateOp.linkStep at hstep
      dsimp only at hstep
      split at hstep
      case isTrue =>
        rw [RateState.recordRx_inv hstep]
        exact ⟨rfl, rfl, rfl⟩
      case isFalse =>
        cases hstep
        exact ⟨rfl, rfl, rfl⟩
  | buildProbes now =>
      rcases hop with hop | ⟨bytes, hop⟩ | ⟨bytes, hop⟩ <;> cases hop
  | processProbe clk probe =>
      rcases hop with hop | ⟨bytes, hop⟩ | ⟨bytes, hop⟩
      · have hne : ¬probe.linkId.toNat = link.toNat := by
          intro heq
          have hne : probe.linkId ≠ link := by simpa [RateOp.foreign] using hop
          exact hne (UInt8.toNat_inj.mp heq)
        unfold RateOp.linkStep at hstep
        dsimp only at hstep
        rw [if_neg hne] at hstep
        cases hstep
        exact ⟨rfl, rfl, rfl⟩
      · cases hop
      · cases hop
  | checkTimeouts now =>
      cases hstep
      unfold RateState.checkTimeout
      split <;> exact ⟨rfl, rfl, rfl⟩

/-- Such a call, with the records and the probes as they were. -/
private theorem keep (h : n.Dated cfg link now r) (op : RateOp)
    {rc : RateController}
    (hop : op.foreign link = true
      ∨ (∃ bytes, op = .recordTx link.toNat bytes)
      ∨ ∃ bytes, op = .recordRx link.toNat bytes)
    (hrc : op.apply n.rc = some rc) (hn : n'.rc = rc)
    (hbuilt : n'.built = n.built)
    (hwire : ∀ report, .probe report ∈ n'.wire → .probe report ∈ n.wire) :
    n'.Dated cfg link now r where
  config := by
    rw [hn]
    exact (apply_link hrc).1.trans h.config
  here := by
    obtain ⟨st, hst, hid, hheard, hsrtt⟩ := h.here
    obtain ⟨st', hstep, hst'⟩ := (apply_link hrc).2.2 _ st hst
    obtain ⟨hid', hremote, hsrtt'⟩ := linkStep_notes hop hstep
    rw [hn]
    refine ⟨st', hst', hid'.trans hid, ?_, hsrtt'.trans hsrtt⟩
    rw [hremote]
    exact hheard
  length := by
    rw [hbuilt]
    exact h.length
  built := by
    rw [hbuilt]
    exact h.built
  flying := by
    intro report hreport
    rw [hbuilt]
    exact h.flying report (hwire report hreport)
  explained := h.explained

/-- Sending a data packet. -/
theorem send (h : n.Dated cfg link now r) {bytes : Nat}
    (hn : n.send link bytes = some n') : n'.Dated cfg link now r := by
  obtain ⟨rc, hrc, hsome⟩ := Option.bind_eq_some_iff.mp hn
  cases hsome
  refine h.keep (.recordTx link.toNat bytes) (.inr (.inl ⟨bytes, rfl⟩)) hrc
    rfl rfl ?_
  intro report hreport
  rcases List.mem_append.mp hreport with hreport | hreport
  · exact hreport
  · cases List.mem_singleton.mp hreport

/-- Receiving a data packet. -/
theorem receive_data (h : n.Dated cfg link now r) {clk : Clock}
    {id bytes : Nat} (hn : n.receive link clk (.data id bytes) = some n') :
    n'.Dated cfg link now r := by
  obtain ⟨rc, hrc, hsome⟩ := Option.bind_eq_some_iff.mp hn
  cases hsome
  exact h.keep (.recordRx link.toNat bytes) (.inr (.inr ⟨bytes, rfl⟩))
    hrc rfl rfl fun _ hreport => hreport

/-- A call for other links, or for the timeouts. -/
theorem call (h : n.Dated cfg link now r) {op : RateOp}
    (hop : op.foreign link = true) (hn : n.call op = some n') :
    n'.Dated cfg link now r := by
  obtain ⟨rc, hrc, hsome⟩ := Option.bind_eq_some_iff.mp hn
  cases hsome
  exact h.keep op (.inl hop) hrc rfl rfl fun _ hreport => hreport

/-- Fewer messages in flight, or one twice. -/
theorem rewire (h : n.Dated cfg link now r) {wire : List Msg}
    (hwire : ∀ m ∈ wire, m ∈ n.wire) :
    Dated cfg link now r { n with wire } :=
  { h with flying := fun report hreport =>
      h.flying report (hwire _ hreport) }

/-- Building a probe: it carries the time, and echoes what was heard
last. -/
theorem build (h : n.Dated cfg link now r) {clock : Nat → UInt64}
    (hclock : (clock link.toNat).toNat = now + r.offset)
    (hn : n.build link clock = some n') :
    n'.Dated cfg link now
      { r with builds := r.builds ++ [{ time := now, heard := r.heard }] } := by
  obtain ⟨⟨probes, rc⟩, hrc, hn⟩ := Option.bind_eq_some_iff.mp hn
  obtain ⟨probe, hprobe, hsome⟩ := Option.bind_eq_some_iff.mp hn
  cases hsome
  obtain ⟨hcfg, -, hall⟩ := buildProbes_inv hrc
  obtain ⟨st, hst, hid, hheard, hsrtt⟩ := h.here
  obtain ⟨p, st', hb, hp, hst'⟩ := hall _ st hst
  rw [hprobe] at hp
  cases hp
  obtain ⟨hstamp, hecho⟩ := RateState.buildProbe_stamps hb
  obtain ⟨hlink, -, -, -, -, hinv⟩ := RateState.buildProbe_inv hb
  exact {
    config := hcfg.trans h.config
    here := by
      refine ⟨st', hst', ?_, ?_, ?_⟩
      · rw [hinv]
        exact hid
      · rw [hinv]
        exact hheard
      · rw [hinv]
        exact hsrtt
    length := by
      rw [List.length_append, List.length_append, h.length]
      rfl
    built := by
      intro i report hreport
      rcases Nat.lt_trichotomy i n.built.length with hlt | rfl | hgt
      · rw [List.getElem?_append_left hlt] at hreport
        obtain ⟨hindex, hlink, b, hb, hrest⟩ := h.built i report hreport
        exact ⟨hindex, hlink, b, getElem?_of_append hb, hrest⟩
      · rw [List.getElem?_concat_length] at hreport
        cases hreport
        refine ⟨rfl, ?_, { time := now, heard := r.heard }, ?_, ?_, le_rfl, ?_⟩
        · show probe.linkId = link
          rw [hlink, hid, UInt8.ofNat_toNat]
        · show (r.builds ++ [_])[n.built.length]? = _
          rw [← h.length, List.getElem?_concat_length]
        · show probe.timestampUs.toNat = now + r.offset
          rw [hstamp]
          exact hclock
        · show Heard r.peerOffset r.peers now probe.echoTimestampUs r.heard
          rw [hecho]
          exact hheard
      · rw [List.getElem?_eq_none (by rw [List.length_append]; exact hgt)]
          at hreport
        cases hreport
    flying := by
      intro report hreport
      rcases List.mem_append.mp hreport with hreport | hreport
      · exact getElem?_of_append (h.flying report hreport)
      · cases List.mem_singleton.mp hreport
        exact List.getElem?_concat_length
    explained := by
      intro x hx
      have hold := (h.explained x hx).later [{ time := now, heard := r.heard }]
        []
      rwa [List.append_nil] at hold }

/-- Every recorded build is that of a probe. -/
theorem report_of_build (h : n.Dated cfg link now r) {i : Nat} {b : Build}
    (hb : r.builds[i]? = some b) : ∃ report, n.built[i]? = some report := by
  have hlt := (List.getElem?_eq_some_iff.mp hb).1
  rw [h.length] at hlt
  exact ⟨_, List.getElem?_eq_getElem hlt⟩

/-- A sample is smoothed. -/
private theorem smoothedRtt_append (cfg : RateControlConfig)
    (samples : List Sample) (index time : Nat) (sample : Option Nat) :
    smoothedRtt cfg (samples
        ++ sample.toList.map fun rttUs =>
          ({ index, time, rttUs } : Sample))
      = sample.elim (smoothedRtt cfg samples)
        (smoothRtt cfg (smoothedRtt cfg samples)) := by
  cases sample with
  | none => exact congrArg _ (List.append_nil samples)
  | some rttUs => exact List.foldl_concat ..

/-- Processing a probe of the far side: its timestamp is heard, and the
timestamp it echoes gives a sample. -/
theorem receive_probe (h : n.Dated cfg link now r) {clk : Clock}
    {report : Report} {carrier : Build}
    (hclock : clk.micros.toNat = now + r.offset)
    (hlink : report.probe.linkId = link)
    (hcarrier : r.peers[report.index]? = some carrier)
    (hstamp : report.probe.timestampUs.toNat = carrier.time + r.peerOffset)
    (hbefore : carrier.time ≤ now)
    (hechoed : Heard r.offset r.builds carrier.time
      report.probe.echoTimestampUs carrier.heard)
    (hn : n.receive link clk (.probe report) = some n') :
    n'.Dated cfg link now { r with
      heard := some { index := report.index, time := now }
      samples := r.samples
        ++ (rttSample clk.micros report.probe).toList.map fun rttUs =>
          { index := report.index, time := now, rttUs } } := by
  obtain ⟨receipt, -, hn⟩ := Option.bind_eq_some_iff.mp hn
  obtain ⟨rc, hrc, hsome⟩ := Option.bind_eq_some_iff.mp hn
  cases hsome
  have happly : (RateOp.processProbe clk report.probe).apply n.rc = some rc :=
    hrc
  obtain ⟨hcfg, -, hall⟩ := apply_link happly
  obtain ⟨st, hst, hid, -, hsrtt⟩ := h.here
  obtain ⟨st', hstep, hst'⟩ := hall _ st hst
  have hl : report.probe.linkId.toNat = link.toNat := by rw [hlink]
  simp only [RateOp.linkStep, if_pos hl, h.config] at hstep
  obtain ⟨confidence, -, hprobe⟩ := Option.bind_eq_some_iff.mp hstep
  obtain ⟨-, hremote, hsrtt'⟩ := RateState.processProbe_arrival hprobe
  have hframe := (RateState.processProbe_frame hprobe).1
  exact {
    config := hcfg.trans h.config
    here := by
      refine ⟨st', hst', hframe.linkId.trans hid, ?_, ?_⟩
      · rw [hremote]
        exact ⟨carrier, hcarrier, hstamp, hbefore, le_rfl⟩
      · rw [smoothedRtt_append, hsrtt', hsrtt]
    length := h.length
    built := h.built
    flying := h.flying
    explained := by
      intro x hx
      rcases List.mem_append.mp hx with hx | hx
      · exact h.explained x hx
      obtain ⟨rttUs, hrtt, rfl⟩ := List.mem_map.mp hx
      rw [Option.mem_toList] at hrtt
      unfold rttSample at hrtt
      split at hrtt
      case isFalse => cases hrtt
      case isTrue hpositive =>
        -- a probe that echoes nothing gives no sample
        cases hheard : carrier.heard with
        | none =>
            rw [hheard] at hechoed
            rw [show report.probe.echoTimestampUs = 0 from hechoed]
              at hpositive
            exact absurd hpositive.1 (by decide)
        | some heard =>
            rw [hheard] at hechoed
            obtain ⟨own, hown, hecho, hsent, hheld⟩ := hechoed
            refine ⟨carrier, heard, own, hcarrier, hheard, hown, hsent, hheld,
              hbefore, ?_⟩
            injection hrtt with hrtt
            show rttUs = now - own.time
            omega }

end Node.Dated

-- ============================================================ both endpoints

namespace Timed

/-- The records of one party. -/
def records (offset : Party → Nat) (s : Timed) (p : Party) : Records where
  offset := offset p
  peerOffset := offset p.peer
  builds := s.builds p
  peers := s.builds p.peer
  heard := s.heard p
  samples := s.samples p

/-- Both parties' records are what their controllers act on. -/
def Dated (setup : Setup) (link : UInt8) (offset : Party → Nat)
    (s : Timed) : Prop :=
  ∀ p, (s.net.node p).Dated (setup.config p) link s.time
    (s.records offset p)

variable {setup : Setup} {link : UInt8} {offset : Party → Nat}
  {s s' : Timed}

theorem dated_start
    (hlink : ∀ p, link.toNat < (setup.maxRates p).length) :
    (start setup).Dated setup link offset := by
  intro p
  have hlt := hlink p
  have hget : (RateController.new (setup.config p) (setup.maxRates p)
      (setup.now p)).states[link.toNat]?
      = some (RateState.new link.toNat (setup.maxRates p)[link.toNat]
        (setup.config p).minRateFraction (setup.now p link.toNat)) := by
    show ((setup.maxRates p).mapIdx _)[link.toNat]? = _
    rw [List.getElem?_mapIdx, List.getElem?_eq_getElem hlt]
    rfl
  show (setup.start.node p).Dated _ _ _ _
  rw [Setup.start_node]
  exact {
    config := rfl
    here := ⟨_, hget, rfl, rfl, rfl⟩
    length := rfl
    built := fun i report h => by cases h
    flying := fun report h => by cases h
    explained := fun x h => by cases h }

/-- One endpoint does something that is not recorded. -/
private theorem Dated.set (h : s.Dated setup link offset) {t : Nat}
    (ht : s.time ≤ t) {p : Party} {n : Node}
    (hn : n.Dated (setup.config p) link t (s.records offset p)) :
    ({ s with net := s.net.set p n, time := t } : Timed).Dated setup link
      offset := by
  intro q
  rcases Party.eq_or_peer p q with rfl | rfl
  · show ((s.net.set q n).node q).Dated _ _ _ _
    rw [Net.node_set_self]
    exact hn
  · show ((s.net.set p n).node p.peer).Dated _ _ _ _
    rw [Net.node_set_peer]
    exact (h p.peer).wait ht

/-- Taking a message off the wire. -/
private theorem Dated.lose (h : s.Dated setup link offset) {t : Nat}
    (ht : s.time ≤ t) (p : Party) (i : Nat) :
    ({ s with net := s.net.set p ((s.net.node p).lose i), time := t }
      : Timed).Dated setup link offset :=
  h.set ht (((h p).wait ht).rewire fun _ hm => List.mem_of_mem_eraseIdx hm)

/-- A party builds a probe. -/
private theorem Dated.build (h : s.Dated setup link offset) {t : Nat}
    (ht : s.time ≤ t) {p : Party} {clock : Nat → UInt64} {n : Node}
    (hclock : (clock link.toNat).toNat = t + offset p)
    (hn : (s.net.node p).build link clock = some n) :
    ({ s with
      net := s.net.set p n
      time := t
      builds := Function.update s.builds p
        (s.builds p ++ [{ time := t, heard := s.heard p }]) }
      : Timed).Dated setup link offset := by
  intro q
  unfold records
  rcases Party.eq_or_peer p q with rfl | rfl
  · dsimp only
    rw [Net.node_set_self, Function.update_self,
      Function.update_of_ne (Party.peer_ne q)]
    exact ((h q).wait ht).build hclock hn
  · dsimp only
    rw [Net.node_set_peer, Function.update_of_ne (Party.peer_ne p),
      Party.peer_peer, Function.update_self]
    have hlater := (h p.peer).later ht [{ time := t, heard := s.heard p }]
    unfold records at hlater
    rw [Party.peer_peer] at hlater
    exact hlater

/-- A party processes a probe that the far side has built. -/
private theorem Dated.receive (h : s.Dated setup link offset) {t : Nat}
    (ht : s.time ≤ t) {p : Party} {clk : Clock} {report : Report} {n : Node}
    (hclock : clk.micros.toNat = t + offset p)
    (hbuilt : (s.net.node p.peer).built[report.index]? = some report)
    (hn : (s.net.node p).receive link clk (.probe report) = some n) :
    ({ s with
      net := s.net.set p n
      time := t
      heard := Function.update s.heard p
        (some { index := report.index, time := t })
      samples := Function.update s.samples p (s.samples p
        ++ (rttSample clk.micros report.probe).toList.map fun rttUs =>
          { index := report.index, time := t, rttUs }) }
      : Timed).Dated setup link offset := by
  obtain ⟨-, hlink, carrier, hcarrier, hstamp, hbefore, hechoed⟩ :=
    (h p.peer).built _ report hbuilt
  unfold records at hcarrier hstamp hechoed
  dsimp only at hcarrier hstamp hechoed
  rw [Party.peer_peer] at hechoed
  intro q
  unfold records
  rcases Party.eq_or_peer p q with rfl | rfl
  · dsimp only
    rw [Net.node_set_self, Function.update_self, Function.update_self]
    exact ((h q).wait ht).receive_probe hclock hlink hcarrier hstamp
      (hbefore.trans ht) hechoed hn
  · dsimp only
    rw [Net.node_set_peer, Function.update_of_ne (Party.peer_ne p),
      Function.update_of_ne (Party.peer_ne p)]
    exact (h p.peer).wait ht

/-- A message of the far side arrives. -/
private theorem Dated.deliver (h : s.Dated setup link offset) {t : Nat}
    (ht : s.time ≤ t) {p : Party} {i : Nat} {clk : Clock} {m : Msg}
    {n : Node} (hm : (s.net.node p).wire[i]? = some m)
    (hn : (s.net.node p.peer).receive link clk m = some n)
    (hfile : s.file link offset t
      ((s.net.set p ((s.net.node p).lose i)).set p.peer n)
      (.deliver p i clk) = some s') :
    s'.Dated setup link offset := by
  have hlost := h.lose ht p i
  rw [← Net.node_set_peer s.net p ((s.net.node p).lose i)] at hn
  cases m with
  | data id bytes =>
      simp only [file, hm] at hfile
      cases hfile
      exact hlost.set le_rfl ((hlost p.peer).receive_data hn)
  | probe report =>
      simp only [file, hm] at hfile
      split at hfile
      case isFalse => cases hfile
      case isTrue hclock =>
        cases hfile
        refine hlost.receive le_rfl hclock ?_ hn
        show ((s.net.set p ((s.net.node p).lose i)).node
          p.peer.peer).built[report.index]? = some report
        rw [Party.peer_peer, Net.node_set_self, Node.lose_built]
        exact (h p).flying report (List.mem_of_getElem? hm)

/-- Whatever happens on the link, the records stay right. -/
theorem Dated.step {e : Nat × Event} (h : s.Dated setup link offset)
    (hstep : step link offset e s = some s') :
    s'.Dated setup link offset := by
  obtain ⟨t, e⟩ := e
  unfold Timed.step at hstep
  dsimp only at hstep
  split at hstep
  case isFalse => cases hstep
  case isTrue ht =>
    obtain ⟨net, hnet, hfile⟩ := Option.bind_eq_some_iff.mp hstep
    cases e with
    | send p bytes =>
        obtain ⟨n, hn, hsome⟩ := Option.bind_eq_some_iff.mp hnet
        cases hsome
        cases hfile
        exact h.set ht (((h p).wait ht).send hn)
    | build p now =>
        obtain ⟨n, hn, hsome⟩ := Option.bind_eq_some_iff.mp hnet
        cases hsome
        unfold file at hfile
        dsimp only at hfile
        split at hfile
        case isFalse => cases hfile
        case isTrue hclock =>
          cases hfile
          exact h.build ht hclock hn
    | deliver p i clk =>
        obtain ⟨m, hm, hnet⟩ := Option.bind_eq_some_iff.mp hnet
        obtain ⟨n, hn, hsome⟩ := Option.bind_eq_some_iff.mp hnet
        cases hsome
        exact h.deliver ht hm hn hfile
    | lose p i =>
        obtain ⟨m, -, hsome⟩ := Option.bind_eq_some_iff.mp hnet
        cases hsome
        cases hfile
        exact h.lose ht p i
    | duplicate p i =>
        obtain ⟨m, hm, hsome⟩ := Option.bind_eq_some_iff.mp hnet
        cases hsome
        cases hfile
        refine h.set ht (((h p).wait ht).rewire ?_)
        intro m' hm'
        rcases List.mem_append.mp hm' with hm' | hm'
        · exact hm'
        · cases List.mem_singleton.mp hm'
          exact List.mem_of_getElem? hm
    | call p op =>
        simp only [Net.step] at hnet
        split at hnet
        case isFalse => cases hnet
        case isTrue hop =>
          obtain ⟨n, hn, hsome⟩ := Option.bind_eq_some_iff.mp hnet
          cases hsome
          cases hfile
          exact h.set ht (((h p).wait ht).call hop hn)

/-- A probe echoes the timestamp of the probe that its builder had heard
last. -/
theorem Dated.echo_eq (h : s.Dated setup link offset) {p : Party} {i : Nat}
    {carrier own : Build} {heard : Hearing} {echo sent : Report}
    (hcarrier : (s.builds p.peer)[i]? = some carrier)
    (hheard : carrier.heard = some heard)
    (hown : (s.builds p)[heard.index]? = some own)
    (hecho : (s.net.node p.peer).built[i]? = some echo)
    (hsent : (s.net.node p).built[heard.index]? = some sent) :
    echo.probe.echoTimestampUs = sent.probe.timestampUs := by
  obtain ⟨-, -, b, hb, -, -, hb'⟩ := (h p.peer).built _ echo hecho
  rw [show b = carrier from Option.some.inj (hb.symm.trans hcarrier),
    hheard] at hb'
  obtain ⟨c, hc, hstamp, -⟩ := hb'
  unfold records at hc hstamp
  dsimp only at hc hstamp
  rw [Party.peer_peer] at hc hstamp
  obtain ⟨-, -, d, hd, hstamp', -⟩ := (h p).built _ sent hsent
  rw [show c = own from Option.some.inj (hc.symm.trans hown)] at hstamp
  rw [show d = own from Option.some.inj (hd.symm.trans hown)] at hstamp'
  exact UInt64.toNat_inj.mp (hstamp.trans hstamp'.symm)

/-- The records are right after every run. -/
theorem dated_run (hlink : ∀ p, link.toNat < (setup.maxRates p).length)
    {events : List (Nat × Event)}
    (hrun : Trace.run (step link offset) events (start setup) = some s) :
    s.Dated setup link offset :=
  Trace.run_invariant (fun _ _ _ h hstep => h.step hstep) hrun
    (dated_start hlink)

end Timed

-- ============================================================ main results

/-- However the two controllers' probes are timed, lost, duplicated or
overtaken, an RTT sample is the delay of the party's probe whose timestamp
is echoed (`own` to `heard`), plus the time for which the far side held
that timestamp before it built the probe that echoes it (`heard` to
`carrier`), plus the delay of that probe (`carrier` to the sample). It is
the two delays alone exactly when the timestamp was not held. -/
theorem probe_rtt_includes_hold {setup : Setup} {link : UInt8}
    {offset : Party → Nat} {events : List (Nat × Event)} {s : Timed}
    (hlink : ∀ p, link.toNat < (setup.maxRates p).length)
    (hrun : Trace.run (Timed.step link offset) events (Timed.start setup)
      = some s) (p : Party) :
    (∃ st, (s.net.node p).rc.states[link.toNat]? = some st
      ∧ st.srttUs = smoothedRtt (setup.config p) (s.samples p))
    ∧ ∀ x ∈ s.samples p, ∃ own heard carrier sent echo,
      (s.builds p.peer)[x.index]? = some carrier
      ∧ carrier.heard = some heard
      ∧ (s.builds p)[heard.index]? = some own
      ∧ (s.net.node p.peer).built[x.index]? = some echo
      ∧ (s.net.node p).built[heard.index]? = some sent
      ∧ echo.probe.echoTimestampUs = sent.probe.timestampUs
      ∧ (own.time ≤ heard.time ∧ heard.time ≤ carrier.time
        ∧ carrier.time ≤ x.time)
      ∧ x.rttUs = (heard.time - own.time) + (carrier.time - heard.time)
        + (x.time - carrier.time)
      ∧ (x.rttUs = (heard.time - own.time) + (x.time - carrier.time)
        ↔ carrier.time = heard.time) := by
  have hdated := Timed.dated_run hlink hrun
  obtain ⟨st, hst, -, -, hsrtt⟩ := (hdated p).here
  refine ⟨⟨st, hst, hsrtt⟩, ?_⟩
  intro x hx
  obtain ⟨carrier, heard, own, hcarrier, hheard, hown, hsent, hheld, hback,
    hrtt⟩ := (hdated p).explained x hx
  obtain ⟨echo, hecho⟩ := (hdated p.peer).report_of_build hcarrier
  obtain ⟨sent, hsentGet⟩ := (hdated p).report_of_build hown
  exact ⟨own, heard, carrier, sent, echo, hcarrier, hheard, hown, hecho,
    hsentGet, hdated.echo_eq hcarrier hheard hown hecho hsentGet,
    ⟨hsent, hheld, hback⟩, by omega, by omega⟩

private def hourglass : Setup where
  config _ := .default
  maxRates _ := [7500000]
  now _ _ := 0

private def buildAt (p : Party) (t : Nat) : Nat × Event :=
  (t, .build p fun _ => .ofNat t)

private def deliverAt (p : Party) (t : Nat) : Nat × Event :=
  (t, .deliver p 0 ⟨.ofNat t, 0⟩)

/-- Both probes take half a millisecond, and the far side builds its probe
98.5 ms after it has processed the one it echoes. -/
private def heldRun : List (Nat × Event) :=
  [buildAt .a 1000, deliverAt .a 1500, buildAt .b 100000,
    deliverAt .b 100500]

private theorem heldRun_samples :
    (Trace.run (Timed.step 0 fun _ => 0) heldRun
      (Timed.start hourglass)).map
        (fun s => (s.samples .a, s.builds .a, s.builds .b))
      = some ([⟨0, 100500, 99500⟩], [⟨1000, none⟩],
        [⟨100000, some ⟨0, 1500⟩⟩]) := by
  decide +kernel

theorem probe_rtt_includes_hold_once :
    ∃ s, Trace.run (Timed.step 0 fun _ => 0) heldRun (Timed.start hourglass)
        = some s
      ∧ (∃ st, (s.net.node .a).rc.states[0]? = some st ∧ st.srttUs = 99500)
      ∧ ∀ x ∈ s.samples .a, x.rttUs = 500 + 98500 + 500 := by
  obtain ⟨s, hrun, hs⟩ := Option.map_eq_some_iff.mp heldRun_samples
  simp only [Prod.mk.injEq] at hs
  obtain ⟨hsamples, ha, hb⟩ := hs
  have hlink : ∀ p, (0 : UInt8).toNat < (hourglass.maxRates p).length :=
    fun _ => Nat.zero_lt_one
  obtain ⟨⟨st, hst, hsrtt⟩, hall⟩ :=
    probe_rtt_includes_hold hlink hrun .a
  rw [hsamples] at hsrtt
  refine ⟨s, hrun, ⟨st, hst, hsrtt⟩, ?_⟩
  intro x hx
  obtain ⟨own, heard, carrier, sent, echo, hcarrier, hheard, hown, -, -, -, -,
    hrtt, -⟩ := hall x hx
  rw [hsamples, List.mem_singleton] at hx
  rw [show s.builds Party.a.peer = _ from hb, hx] at hcarrier
  cases hcarrier
  cases hheard
  rw [ha] at hown
  cases hown
  rw [hrtt, hx]
  rfl

/-- A sample is not the delays of the two probes. -/
theorem held_time_sampled :
    ¬ ∀ (setup : Setup) (link : UInt8) (offset : Party → Nat)
      (events : List (Nat × Event)) (s : Timed),
      (∀ p, link.toNat < (setup.maxRates p).length) →
      Trace.run (Timed.step link offset) events (Timed.start setup)
        = some s →
      ∀ p, ∀ x ∈ s.samples p, ∀ carrier heard own,
        (s.builds p.peer)[x.index]? = some carrier →
        carrier.heard = some heard →
        (s.builds p)[heard.index]? = some own →
        x.rttUs = (heard.time - own.time) + (x.time - carrier.time) := by
  intro hall
  obtain ⟨s, hrun, hs⟩ := Option.map_eq_some_iff.mp heldRun_samples
  simp only [Prod.mk.injEq] at hs
  obtain ⟨hsamples, ha, hb⟩ := hs
  have hsample := hall hourglass 0 (fun _ => 0) heldRun s
    (fun _ => Nat.zero_lt_one) hrun .a ⟨0, 100500, 99500⟩
    (by rw [hsamples]; exact List.mem_singleton.mpr rfl)
    ⟨100000, some ⟨0, 1500⟩⟩ ⟨0, 1500⟩ ⟨1000, none⟩
    (by rw [show s.builds Party.a.peer = _ from hb]; rfl) rfl
    (by rw [ha]; rfl)
  exact absurd hsample (by decide)

end ChainLightning
