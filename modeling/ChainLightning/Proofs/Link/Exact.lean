/-
Exact accounting between the two snapshot schemes.

An endpoint's own count of packets sent is cut when a probe is
processed, the far side's count of packets received when it was built.
With probes delivered once and in order, the reported counts telescope
(`Ordered`), and with no data packet duplicated what the far side had
received is a set of packets sent (`Distinct`). So the difference of the
two counts is the number of packets that were sent by the processing and
not received by the build: `loss_accounting_exact`.
-/
import ChainLightning.Proofs.Link.Counts

namespace ChainLightning

open Meter

-- ================================================== effects on the records

/-- What an event does to the records and the wires, whatever the
controllers make of it. -/
inductive Effect (net : Net) : Event → Net → Prop where
  | send {p : Party} {bytes : Nat} (rc : RateController) :
      Effect net (.send p bytes) (net.set p { net.node p with
        rc
        sent := (net.node p).sent + 1
        wire := (net.node p).wire ++ [.data (net.node p).sent bytes] })
  | build {p : Party} {now : Nat → UInt64}
      (rc : RateController) (report : Report)
      (hsent : report.sent = (net.node p).sent)
      (hreceived : report.received = (net.node p).received) :
      Effect net (.build p now) (net.set p { net.node p with
        rc
        built := (net.node p).built ++ [report]
        wire := (net.node p).wire ++ [.probe report] })
  | data {p : Party} {i : Nat} {clk : Clock} {id bytes : Nat}
      (rc : RateController)
      (hm : (net.node p).wire[i]? = some (.data id bytes)) :
      Effect net (.deliver p i clk)
        ((net.set p ((net.node p).lose i)).set p.peer
          { net.node p.peer with
            rc, received := id :: (net.node p.peer).received })
  | probe {p : Party} {i : Nat} {clk : Clock} {report : Report}
      (rc : RateController) (confidence : ℚ)
      (hm : (net.node p).wire[i]? = some (.probe report)) :
      Effect net (.deliver p i clk)
        ((net.set p ((net.node p).lose i)).set p.peer
          { net.node p.peer with
            rc
            processed := (net.node p.peer).processed
              ++ [⟨report, (net.node p.peer).sent,
                (net.node p.peer).received.length, confidence⟩] })
  | lose {p : Party} {i : Nat} {m : Msg}
      (hm : (net.node p).wire[i]? = some m) :
      Effect net (.lose p i) (net.set p ((net.node p).lose i))
  | duplicate {p : Party} {i : Nat} {m : Msg}
      (hm : (net.node p).wire[i]? = some m) :
      Effect net (.duplicate p i) (net.set p { net.node p with
        wire := (net.node p).wire ++ [m] })
  | call {p : Party} {op : RateOp} (rc : RateController) :
      Effect net (.call p op) (net.set p { net.node p with rc })

/-- Every event has its effect. -/
theorem step_effect {link : UInt8} {e : Event} {net net' : Net}
    (h : Net.step link e net = some net') : Effect net e net' := by
  cases e with
  | send p bytes =>
      obtain ⟨n, hn, hsome⟩ := Option.bind_eq_some_iff.mp h
      obtain ⟨rc, -, hn⟩ := Option.bind_eq_some_iff.mp hn
      cases hn
      cases hsome
      exact .send rc
  | build p now =>
      obtain ⟨n, hn, hsome⟩ := Option.bind_eq_some_iff.mp h
      obtain ⟨⟨probes, rc⟩, -, hn⟩ := Option.bind_eq_some_iff.mp hn
      obtain ⟨probe, -, hn⟩ := Option.bind_eq_some_iff.mp hn
      cases hn
      cases hsome
      exact .build rc _ rfl rfl
  | deliver p i clk =>
      obtain ⟨m, hm, h⟩ := Option.bind_eq_some_iff.mp h
      obtain ⟨n, hn, hsome⟩ := Option.bind_eq_some_iff.mp h
      cases hsome
      cases m with
      | data id bytes =>
          obtain ⟨rc, -, hn⟩ := Option.bind_eq_some_iff.mp hn
          cases hn
          exact .data rc hm
      | probe report =>
          obtain ⟨c, hc, hn⟩ := Option.bind_eq_some_iff.mp hn
          obtain ⟨rc, -, hn⟩ := Option.bind_eq_some_iff.mp hn
          obtain ⟨confidence, -, hreceipt⟩ := Option.bind_eq_some_iff.mp hc
          cases hn
          cases hreceipt
          exact .probe rc confidence hm
  | lose p i =>
      obtain ⟨m, hm, hsome⟩ := Option.bind_eq_some_iff.mp h
      cases hsome
      exact .lose hm
  | duplicate p i =>
      obtain ⟨m, hm, hsome⟩ := Option.bind_eq_some_iff.mp h
      cases hsome
      exact .duplicate hm
  | call p op =>
      simp only [Net.step] at h
      split at h
      case isTrue =>
          obtain ⟨n, hn, hsome⟩ := Option.bind_eq_some_iff.mp h
          obtain ⟨rc, -, hn⟩ := Option.bind_eq_some_iff.mp hn
          cases hn
          cases hsome
          exact .call rc
      case isFalse => cases h

section

variable {e : Event} {net net' : Net}

/-- No event takes back a packet sent. -/
theorem Effect.sent_le (h : Effect net e net') (q : Party) :
    (net.node q).sent ≤ (net'.node q).sent := by
  cases h with
  | @send p =>
      rcases Party.eq_or_peer p q with rfl | rfl
      · rw [Net.node_set_self]
        exact Nat.le_succ _
      · rw [Net.node_set_peer]
  | @build p | @data p | @probe p | @lose p | @duplicate p | @call p =>
      rcases Party.eq_or_peer p q with rfl | rfl <;> simp

/-- A probe that is new among those built reports the packets received by
then. -/
theorem Effect.built (h : Effect net e net') {q : Party} {r : Report}
    (hr : r ∈ (net'.node q).built) :
    r ∈ (net.node q).built ∨ r.received = (net.node q).received := by
  cases h with
  | @build p now rc report hsent hreceived =>
      rcases Party.eq_or_peer p q with rfl | rfl
      · rw [Net.node_set_self] at hr
        rcases List.mem_append.mp hr with hr | hr
        · exact .inl hr
        · exact .inr (List.mem_singleton.mp hr ▸ hreceived)
      · exact .inl (by simpa using hr)
  | @send p | @data p | @probe p | @lose p | @duplicate p | @call p =>
      rcases Party.eq_or_peer p q with rfl | rfl <;>
        exact .inl (by simpa using hr)

/-- A probe that is new among those processed comes off the wire. -/
theorem Effect.filed (h : Effect net e net') {q : Party} {c : Receipt}
    (hc : c ∈ (net'.node q).processed) :
    c ∈ (net.node q).processed ∨ c.sent = (net.node q).sent
      ∧ ∃ i : Nat,
        (net.node q.peer).wire[i]? = some (.probe c.report) := by
  cases h with
  | @probe p i clk report rc confidence hm =>
      rcases Party.eq_or_peer p q with rfl | rfl
      · exact .inl (by simpa using hc)
      · rw [Net.node_set_self] at hc
        rcases List.mem_append.mp hc with hc | hc
        · exact .inl hc
        · cases List.mem_singleton.mp hc
          rw [Party.peer_peer]
          exact .inr ⟨rfl, i, hm⟩
  | @send p | @build p | @data p | @lose p | @duplicate p | @call p =>
      rcases Party.eq_or_peer p q with rfl | rfl <;>
        exact .inl (by simpa using hc)

end

-- ============================================================ the discipline

/-- The network delivers every probe once and in order, and duplicates
nothing; data packets may be lost and overtake. -/
def Event.probesExact : Event → Net → Bool
  | .deliver p i _, net =>
      ((net.node p).wire[i]?).all Msg.isData
        || ((net.node p).wire.take i).all Msg.isData
  | .lose p i, net => ((net.node p).wire[i]?).all Msg.isData
  | .duplicate _ _, _ => false
  | _, _ => true

/-- The probes among messages, in order. -/
def probesOf (w : List Msg) : List Report := w.filterMap Msg.report?

/-- The number of a data packet. -/
def Msg.id? : Msg → Option Nat
  | .data id _ => some id
  | .probe _ => none

/-- The numbers of the data packets among messages, in order. -/
def idsOf (w : List Msg) : List Nat := w.filterMap Msg.id?

@[simp] theorem probesOf_snoc_data (w : List Msg) (id bytes : Nat) :
    probesOf (w ++ [.data id bytes]) = probesOf w := by
  simp [probesOf, Msg.report?]

@[simp] theorem probesOf_snoc_probe (w : List Msg) (r : Report) :
    probesOf (w ++ [.probe r]) = probesOf w ++ [r] := by
  simp [probesOf, Msg.report?]

@[simp] theorem idsOf_snoc_data (w : List Msg) (id bytes : Nat) :
    idsOf (w ++ [.data id bytes]) = idsOf w ++ [id] := by
  simp [idsOf, Msg.id?]

@[simp] theorem idsOf_snoc_probe (w : List Msg) (r : Report) :
    idsOf (w ++ [.probe r]) = idsOf w := by
  simp [idsOf, Msg.id?]

/-- A list around one of its elements. -/
private theorem split_at {α : Type*} {l : List α} {i : Nat} {m : α}
    (h : l[i]? = some m) :
    l = l.take i ++ m :: l.drop (i + 1)
      ∧ l.eraseIdx i = l.take i ++ l.drop (i + 1) := by
  obtain ⟨hi, rfl⟩ := List.getElem?_eq_some_iff.mp h
  refine ⟨?_, List.eraseIdx_eq_take_drop_succ l i⟩
  rw [List.getElem_cons_drop hi, List.take_append_drop]

/-- Taking a data packet off the wire leaves the probes alone. -/
theorem probesOf_eraseIdx_data {w : List Msg} {i : Nat} {m : Msg}
    (h : w[i]? = some m) (hm : m.isData = true) :
    probesOf (w.eraseIdx i) = probesOf w := by
  obtain ⟨hw, he⟩ := split_at h
  have hnone : m.report? = none := by
    cases m with
    | data id bytes => rfl
    | probe report => cases hm
  unfold probesOf
  rw [he]
  conv_rhs => rw [hw]
  rw [List.filterMap_append, List.filterMap_append,
    List.filterMap_cons_none hnone]

/-- Taking the first probe off the wire. -/
theorem probesOf_eraseIdx_probe {w : List Msg} {i : Nat} {r : Report}
    (h : w[i]? = some (.probe r))
    (hfirst : (w.take i).all Msg.isData = true) :
    probesOf w = r :: probesOf (w.eraseIdx i) := by
  obtain ⟨hw, he⟩ := split_at h
  have hnone : (w.take i).filterMap Msg.report? = [] := by
    rw [List.filterMap_eq_nil_iff]
    intro m hm
    have hdata := List.all_eq_true.mp hfirst m hm
    cases m with
    | data id bytes => rfl
    | probe report => cases hdata
  unfold probesOf
  rw [he]
  conv_lhs => rw [hw]
  rw [List.filterMap_append, List.filterMap_append, hnone,
    List.filterMap_cons_some (show Msg.report? (.probe r) = some r from rfl)]
  rfl

/-- Taking a data packet off the wire takes its number. -/
theorem idsOf_eraseIdx_data {w : List Msg} {i id bytes : Nat}
    (h : w[i]? = some (.data id bytes)) :
    (idsOf w).Perm (id :: idsOf (w.eraseIdx i)) := by
  obtain ⟨hw, he⟩ := split_at h
  unfold idsOf
  rw [he]
  conv_lhs => rw [hw]
  rw [List.filterMap_append, List.filterMap_append,
    List.filterMap_cons_some (show Msg.id? (.data id bytes) = some id from rfl)]
  exact List.perm_middle

/-- Taking any message off the wire adds no number. -/
theorem idsOf_eraseIdx_sublist (w : List Msg) (i : Nat) :
    (idsOf (w.eraseIdx i)).Sublist (idsOf w) :=
  (List.eraseIdx_sublist w i).filterMap _

-- ========================================================== probes in order

/-- The probes a party has built are the ones the far side has processed
followed by the ones in flight. -/
def Net.Ordered (net : Net) : Prop :=
  ∀ p, (net.node p).built
    = (net.node p.peer).processed.map Receipt.report
      ++ probesOf (net.node p).wire

theorem Net.Ordered.step {e : Event} {net net' : Net} (h : net.Ordered)
    (hok : e.probesExact net = true) (heff : Effect net e net') :
    net'.Ordered := by
  cases heff with
  | @send p bytes rc =>
      intro q
      rcases Party.eq_or_peer p q with rfl | rfl
      · simp [h q]
      · simpa using h p.peer
  | @build p now rc report hsent hreceived =>
      intro q
      rcases Party.eq_or_peer p q with rfl | rfl
      · simp [h q]
      · simpa using h p.peer
  | @data p i clk id bytes rc hm =>
      intro q
      rcases Party.eq_or_peer p q with rfl | rfl
      · simp [h q, probesOf_eraseIdx_data hm rfl]
      · simpa using h p.peer
  | @probe p i clk report rc confidence hm =>
      have hfirst : ((net.node p).wire.take i).all Msg.isData = true := by
        simpa [Event.probesExact, hm, Msg.isData] using hok
      intro q
      rcases Party.eq_or_peer p q with rfl | rfl
      · simp [h q, probesOf_eraseIdx_probe hm hfirst]
      · simpa using h p.peer
  | @lose p i m hm =>
      have hdata : m.isData = true := by
        simpa [Event.probesExact, hm] using hok
      intro q
      rcases Party.eq_or_peer p q with rfl | rfl
      · simp [h q, probesOf_eraseIdx_data hm hdata]
      · simpa using h p.peer
  | duplicate hm => cases hok
  | @call p op rc =>
      intro q
      rcases Party.eq_or_peer p q with rfl | rfl
      · simpa using h q
      · simpa using h p.peer

-- ========================================================= packets distinct

/-- Distinct packets among the first `bound` sent. -/
def Distinct (bound : Nat) (ids : List Nat) : Prop :=
  ids.Nodup ∧ ∀ id ∈ ids, id < bound

theorem Distinct.mono {bound bound' : Nat} {ids : List Nat}
    (h : Distinct bound ids) (hle : bound ≤ bound') : Distinct bound' ids :=
  ⟨h.1, fun id hid => Nat.lt_of_lt_of_le (h.2 id hid) hle⟩

theorem Distinct.sublist {bound : Nat} {ids ids' : List Nat}
    (h : Distinct bound ids) (hsub : ids'.Sublist ids) :
    Distinct bound ids' :=
  ⟨h.1.sublist hsub, fun id hid => h.2 id (hsub.subset hid)⟩

theorem Distinct.perm {bound : Nat} {ids ids' : List Nat}
    (h : Distinct bound ids) (hperm : ids.Perm ids') :
    Distinct bound ids' :=
  ⟨hperm.nodup_iff.mp h.1, fun id hid => h.2 id (hperm.mem_iff.mpr hid)⟩

/-- The next packet is not among them yet. -/
theorem Distinct.snoc {bound : Nat} {ids : List Nat}
    (h : Distinct bound ids) : Distinct (bound + 1) (ids ++ [bound]) := by
  refine ⟨?_, ?_⟩
  · refine List.Nodup.append h.1 (List.nodup_singleton bound) ?_
    intro id hid hb
    rw [List.mem_singleton.mp hb] at hid
    exact Nat.lt_irrefl _ (h.2 bound hid)
  · intro id hid
    rcases List.mem_append.mp hid with hid | hid
    · exact Nat.lt_succ_of_lt (h.2 id hid)
    · rw [List.mem_singleton.mp hid]
      exact Nat.lt_succ_self bound

/-- The packets not among distinct ones of the first `bound`. -/
theorem Distinct.card_sdiff {bound : Nat} {ids : List Nat}
    (h : Distinct bound ids) :
    (Finset.range bound \ ids.toFinset).card + ids.length = bound := by
  have hsub : ids.toFinset ⊆ Finset.range bound := by
    intro id hid
    exact Finset.mem_range.mpr (h.2 id (List.mem_toFinset.mp hid))
  rw [← List.toFinset_card_of_nodup h.1,
    Finset.card_sdiff_add_card_eq_card hsub, Finset.card_range]

theorem Distinct.length_le {bound : Nat} {ids : List Nat}
    (h : Distinct bound ids) : ids.length ≤ bound := by
  have hcard := h.card_sdiff
  omega

/-- No packet is received twice: the packets received or in flight are
distinct ones of those sent, and so were the ones any probe was built or
processed with. -/
structure Net.NoCopies (net : Net) : Prop where
  ids : ∀ p, Distinct (net.node p).sent
    ((net.node p.peer).received ++ idsOf (net.node p).wire)
  built : ∀ p, ∀ r ∈ (net.node p).built,
    Distinct (net.node p.peer).sent r.received
  filed : ∀ p, ∀ c ∈ (net.node p).processed, Distinct c.sent c.report.received

/-- A probe in flight has been built. -/
theorem Net.Ordered.built_of_flying {net : Net} (h : net.Ordered)
    {p : Party} {i : Nat} {r : Report}
    (hr : (net.node p).wire[i]? = some (.probe r)) :
    r ∈ (net.node p).built := by
  rw [h p]
  refine List.mem_append_right _ (List.mem_filterMap.mpr ?_)
  exact ⟨.probe r, List.mem_of_getElem? hr, rfl⟩

/-- The packets received or in flight stay distinct ones of those sent. -/
theorem Net.NoCopies.ids_step {e : Event} {net net' : Net}
    (h : net.NoCopies) (hok : e.probesExact net = true)
    (heff : Effect net e net') (q : Party) :
    Distinct (net'.node q).sent
      ((net'.node q.peer).received ++ idsOf (net'.node q).wire) := by
  have hlose : ∀ p i, Distinct (net.node p).sent
      ((net.node p.peer).received
        ++ idsOf ((net.node p).wire.eraseIdx i)) := by
    intro p i
    exact (h.ids p).sublist
      ((List.Sublist.refl (net.node p.peer).received).append
        (idsOf_eraseIdx_sublist (net.node p).wire i))
  cases heff with
  | @send p bytes rc =>
      rcases Party.eq_or_peer p q with rfl | rfl
      · have hs := (h.ids q).snoc
        simpa [List.append_assoc] using hs
      · simpa using h.ids p.peer
  | @data p i clk id bytes rc hm =>
      rcases Party.eq_or_peer p q with rfl | rfl
      · -- the packet moves from the wire to the received ones
        have hperm : ((net.node q.peer).received
            ++ idsOf (net.node q).wire).Perm
            (id :: (net.node q.peer).received
              ++ idsOf ((net.node q).wire.eraseIdx i)) :=
          ((idsOf_eraseIdx_data hm).append_left _).trans List.perm_middle
        simpa using (h.ids q).perm hperm
      · simpa using h.ids p.peer
  | @probe p i | @lose p i =>
      rcases Party.eq_or_peer p q with rfl | rfl
      · simpa using hlose q i
      · simpa using h.ids p.peer
  | duplicate hm => cases hok
  | @build p | @call p =>
      rcases Party.eq_or_peer p q with rfl | rfl
      · simpa using h.ids q
      · simpa using h.ids p.peer

theorem Net.NoCopies.step {e : Event} {net net' : Net} (h : net.NoCopies)
    (hord : net.Ordered) (hok : e.probesExact net = true)
    (heff : Effect net e net') : net'.NoCopies := by
  refine ⟨h.ids_step hok heff, ?_, ?_⟩
  · intro q r hr
    rcases heff.built hr with hold | hnew
    · exact (h.built q r hold).mono (heff.sent_le q.peer)
    · rw [hnew]
      have hi := h.ids q.peer
      rw [Party.peer_peer] at hi
      exact (hi.sublist (List.sublist_append_left _ _)).mono
        (heff.sent_le q.peer)
  · intro q c hc
    rcases heff.filed hc with hold | ⟨hsent, i, hm⟩
    · exact h.filed q c hold
    · have hb := h.built q.peer c.report (hord.built_of_flying hm)
      rw [Party.peer_peer] at hb
      rw [hsent]
      exact hb

/-- At the start nothing is in flight or filed. -/
theorem Net.exact_start (setup : Setup) :
    setup.start.Ordered ∧ setup.start.NoCopies := by
  refine ⟨fun p => ?_, fun p => ?_, fun p => ?_, fun p => ?_⟩
  · rw [Setup.start_node, Setup.start_node]
    rfl
  · rw [Setup.start_node, Setup.start_node]
    exact ⟨List.nodup_nil, fun id hid => absurd hid List.not_mem_nil⟩
  · rw [Setup.start_node]
    exact fun r hr => absurd hr List.not_mem_nil
  · rw [Setup.start_node]
    exact fun c hc => absurd hc List.not_mem_nil

/-- Runs over a network that delivers probes exactly once keep the
probes in order and the packets distinct. -/
theorem Net.exact_run {setup : Setup} {link : UInt8} {events : List Event}
    {net : Net}
    (hexact : Trace.Along (Net.step link)
      (fun e net => e.probesExact net = true) events setup.start)
    (hrun : Trace.run (Net.step link) events setup.start = some net) :
    net.Ordered ∧ net.NoCopies := by
  refine Trace.run_along (P := fun net => net.Ordered ∧ net.NoCopies)
    ?_ hexact hrun (Net.exact_start setup)
  intro e net net' h hok hstep
  have heff := step_effect hstep
  exact ⟨h.1.step hok heff, h.2.step h.1 hok heff⟩

-- =============================================================== the result

/-- After `p` has processed a probe, the count of its packets at that
moment exceeds what the probes it has processed reported by the number of
packets it had sent by then and the far side had not received when it
built that probe. -/
theorem loss_accounting_exact {setup : Setup} {link : UInt8}
    (hlink : ∀ p, link.toNat < (setup.maxRates p).length)
    {events : List Event} {net : Net}
    (hrun : Trace.run (Net.step link) events setup.start = some net)
    (hfew : Trace.Along (Net.step link) (fun e net => e.few net = true)
      events setup.start)
    (hexact : Trace.Along (Net.step link)
      (fun e net => e.probesExact net = true) events setup.start)
    {p : Party} {earlier : List Receipt} {newest : Receipt}
    (hlast : (net.node p).processed = earlier ++ [newest]) :
    ∃ s, (net.node p).rc.states[link.toNat]? = some s
      ∧ s.lastLossTxPackets
        = ((net.node p).processed.map fun c => c.report.rx).sum
          + (Finset.range newest.sent
              \ newest.report.received.toFinset).card := by
  have hcounted := Net.counted_run hlink hfew hrun
  obtain ⟨hord, hcopies⟩ := Net.exact_run hexact hrun
  obtain ⟨s, hs⟩ := hcounted.nodes p
  obtain ⟨speer, hpeer⟩ := hcounted.nodes p.peer
  have hloss : s.lastLossTxPackets = newest.sent := by
    rw [hs.lossTx, hlast, reading_snoc]
  -- what was reported telescopes to what the newest probe had received
  have hreported : ((net.node p).processed.map fun c => c.report.rx).sum
      = newest.report.received.length := by
    have hmeter := hpeer.gotMeter
    rw [hord p.peer, Party.peer_peer] at hmeter
    have hsum := telescopes_sum (telescopes_map (telescopes_left hmeter))
    rw [hlast, reading_snoc, Nat.zero_add] at hsum
    rw [hlast]
    exact hsum
  have hnewest : newest ∈ (net.node p).processed := by
    rw [hlast]
    exact List.mem_append_right _ (List.mem_singleton.mpr rfl)
  have hcard := (hcopies.filed p newest hnewest).card_sdiff
  exact ⟨s, hs.here, by omega⟩

/-- One link of 60 Mbps with the default configuration, alike on both
sides. -/
private def defaultSetup : Setup where
  config _ := .default
  maxRates _ := [7500000]
  now _ _ := 0

/-- Three packets, of which one is lost and one is in flight when the far
side builds its probe. -/
theorem loss_accounting_exact_three_packets :
    ∃ net newest s, Trace.run (Net.step 0)
        [.send .a 100, .send .a 100, .lose .a 0, .deliver .a 0 ⟨0, 0⟩,
          .send .a 100, .build .b fun _ => 0, .deliver .b 0 ⟨0, 0⟩]
        defaultSetup.start = some net
      ∧ (net.node .a).processed = [newest]
      ∧ (net.node .a).rc.states[0]? = some s
      ∧ s.lastLossTxPackets
        = ((net.node .a).processed.map fun c => c.report.rx).sum
          + (Finset.range newest.sent
              \ newest.report.received.toFinset).card := by
  have hone : (Trace.run (Net.step 0)
        [.send .a 100, .send .a 100, .lose .a 0, .deliver .a 0 ⟨0, 0⟩,
          .send .a 100, .build .b fun _ => 0, .deliver .b 0 ⟨0, 0⟩]
        defaultSetup.start).map (fun net => (net.node .a).processed.length)
      = some 1 := by
    decide +kernel
  obtain ⟨net, hrun, hlen⟩ := Option.map_eq_some_iff.mp hone
  obtain ⟨newest, hlast⟩ := List.length_eq_one_iff.mp hlen
  have hlast' : (net.node .a).processed = [] ++ [newest] := hlast
  obtain ⟨s, hs, heq⟩ := loss_accounting_exact
    (by intro p; exact Nat.zero_lt_one) hrun (by decide +kernel)
    (by decide +kernel) hlast'
  exact ⟨net, newest, s, hrun, hlast, hs, heq⟩

end ChainLightning
