/-
What probes add to the sending direction.

Every processed probe settles a cycle in the account of the sending
direction: our packets sent since the last processed one, and the packets
that it reports received. The sequence number is not looked at. So with
TAPA off the account is settled with one pair of counts for each processed
copy (`sendCounts`), and what was added to the delivered side of it
(`credited`) is the sum over the far side's probes, each weighted by how
often it was processed (`probe_credit_accounting`). If no probe is
processed twice that stays within what the far side had received, and
falls short of it by exactly the probes that have not arrived; a second
copy adds its packets a second time (`probe_credited_twice`).
-/
import ChainLightning.Proofs.Link.Exact
import ChainLightning.Proofs.Rate.Directions

namespace ChainLightning

open Meter RateState

-- ======================================================== what is added

namespace Ledger

variable {minPackets : Nat}

/-- An account has no more on its delivered side than was added to it, -/
theorem settleAll_rxAcc_le (minPackets : Nat) (counts : List (Nat × Nat)) :
    ∀ l : Ledger, (settleAll minPackets l counts).rxAcc
      ≤ l.rxAcc + (counts.map Prod.snd).sum := by
  induction counts with
  | nil => exact fun l => Nat.le_refl _
  | cons c counts ih =>
      intro l
      have hdecayed : (l.settle minPackets c).rxAcc ≤ l.rxAcc + c.2 :=
        decayed_le _ _ _
      have hrest : (settleAll minPackets l (c :: counts)).rxAcc
          ≤ (l.settle minPackets c).rxAcc + (counts.map Prod.snd).sum :=
        ih _
      rw [List.map_cons, List.sum_cons]
      omega

/-- and all of it as long as too little was sent to be judged. -/
theorem settleAll_rxAcc_eq {counts : List (Nat × Nat)} :
    ∀ {l : Ledger}, l.txAcc + (counts.map Prod.fst).sum ≤ minPackets →
      (settleAll minPackets l counts).rxAcc
        = l.rxAcc + (counts.map Prod.snd).sum := by
  induction counts with
  | nil => exact fun _ => rfl
  | cons c counts ih =>
      intro l hfew
      rw [List.map_cons, List.sum_cons] at hfew ⊢
      have hquiet : ¬l.txAcc + c.1 > minPackets := by omega
      have htx : (l.settle minPackets c).txAcc = l.txAcc + c.1 :=
        if_neg hquiet
      have hrx : (l.settle minPackets c).rxAcc = l.rxAcc + c.2 :=
        if_neg hquiet
      have hrest : (settleAll minPackets l (c :: counts)).rxAcc
          = (l.settle minPackets c).rxAcc + (counts.map Prod.snd).sum := by
        refine ih (l := l.settle minPackets c) ?_
        omega
      omega

/-- One more cycle is settled behind the others. -/
theorem settleAll_snoc (l : Ledger) (counts : List (Nat × Nat))
    (c : Nat × Nat) : settleAll minPackets l (counts ++ [c])
      = (settleAll minPackets l counts).settle minPackets c := by
  unfold settleAll
  rw [List.foldl_append]
  rfl

end Ledger

/-- The pairs of counts that processed probes bring to the sending
direction: the packets sent since the one before, `before` of them at
first, and the ones reported received. -/
def sendCounts : Nat → List Receipt → List (Nat × Nat)
  | _, [] => []
  | before, c :: l =>
      (ungated (c.sent - before), ungated c.report.rx) :: sendCounts c.sent l

theorem sendCounts_snoc (before : Nat) (l : List Receipt) (c : Receipt) :
    sendCounts before (l ++ [c]) = sendCounts before l
      ++ [(ungated (c.sent - reading Receipt.sent before l),
        ungated c.report.rx)] := by
  induction l generalizing before with
  | nil => rfl
  | cons c' l ih =>
      rw [List.cons_append, sendCounts, sendCounts, ih, reading_cons]
      rfl

namespace Node

/-- What the processed probes have added to the delivered side of the
sending direction, with TAPA off. -/
def credited (n : Node) : Nat :=
  ((sendCounts 0 n.processed).map Prod.snd).sum

/-- The numbers of the probes processed, in order. -/
def seen (n : Node) : List Nat := n.processed.map fun c => c.report.index

/-- How often the endpoint has processed the far side's probe `i`. -/
def copies (n : Node) (i : Nat) : Nat := n.seen.count i

/-- Without TAPA that is what they report. -/
theorem credited_eq_reported (n : Node) :
    n.credited = (n.processed.map fun c => c.report.rx).sum := by
  have hall : ∀ (before : Nat) (l : List Receipt),
      (sendCounts before l).map Prod.snd = l.map fun c => c.report.rx := by
    intro before l
    induction l generalizing before with
    | nil => rfl
    | cons c l ih =>
        have hlt : c.report.rx < 2 ^ 32 := UInt32.toNat_lt _
        have hexact : ungated c.report.rx = c.report.rx :=
          ungated_eq (by omega)
        show ungated c.report.rx :: _ = c.report.rx :: _
        rw [hexact, ih]
  unfold credited
  rw [hall]

/-- The account of the sending direction is that of the processed probes;
their sent counts add up to what was sent by the last of them. -/
structure Settled (minPackets : Nat) (n : Node) (s : RateState) : Prop where
  account : s.sendLedger
    = Ledger.settleAll minPackets ⟨0, 0, 0⟩ (sendCounts 0 n.processed)
  past : reading Receipt.sent 0 n.processed ≤ n.sent
  sent : n.sent ≤ 2 ^ 53 → ((sendCounts 0 n.processed).map Prod.fst).sum
    ≤ reading Receipt.sent 0 n.processed

end Node

namespace Net

variable {setup : Setup} {link : UInt8} {net net' : Net}

/-- A receipt names its probe by number. -/
theorem Counted.receipt_increment (h : net.Counted setup link) {p : Party}
    {receipt : Receipt} (hr : receipt ∈ (net.node p).processed) :
    receipt.report.index < (net.node p.peer).built.length
      ∧ receipt.report.rx = increment Report.rx (net.node p.peer).built
          receipt.report.index := by
  obtain ⟨s, hs⟩ := h.nodes p.peer
  obtain ⟨i, hi⟩ := List.mem_iff_getElem?.mp (h.filed p receipt hr)
  obtain ⟨hidx, -⟩ := hs.stamped i _ hi
  rw [hidx]
  refine ⟨(List.getElem?_eq_some_iff.mp hi).1, ?_⟩
  unfold increment
  rw [hi]
  rfl

/-- Without TAPA every event leaves the sending direction's account
settled. -/
theorem Counted.settled_step {e : Event} (hcounted : net.Counted setup link)
    {q : Party} (htapa : (setup.config q).tapaEnabled = false)
    {s : RateState} (hs : (net.node q).Counted (setup.config q) link s)
    (h : (net.node q).Settled (setup.config q).lossMinPackets.toNat s)
    (hfew : e.few net = true) (hstep : Net.step link e net = some net') :
    ∃ s', (net'.node q).Counted (setup.config q) link s'
      ∧ (net'.node q).Settled (setup.config q).lossMinPackets.toNat s' := by
  obtain ⟨s', hs', hlink⟩ := hcounted.step_link hfew hstep hs
  have hsent := (step_effect hstep).sent_le q
  refine ⟨s', hs', ?_⟩
  have hkept : s'.sendLedger = s.sendLedger →
      (net'.node q).processed = (net.node q).processed →
      (net'.node q).Settled (setup.config q).lossMinPackets.toNat s' := by
    intro hledger hrecords
    refine ⟨?_, ?_, fun hfits => ?_⟩
    · rw [hledger, hrecords]
      exact h.account
    · rw [hrecords]
      exact h.past.trans hsent
    · rw [hrecords]
      exact h.sent (hsent.trans hfits)
  cases hlink with
  | same hsame hrecords =>
      refine hkept ?_ hrecords
      unfold sendLedger
      rw [hsame.sendTxAcc, hsame.sendRxAcc, hsame.sendLoss]
  | timeout hcheck hrecords =>
      refine hkept ?_ hrecords
      rw [hcheck]
      unfold checkTimeout
      split
      · rfl
      · rfl
  | @probe i clk c suppress hwire hreceipt hprobe hrecords =>
      obtain ⟨hledger, -⟩ := ledgers_probe htapa hprobe
      have hsentAt : c.sent = (net.node q).sent := by
        obtain ⟨confidence, -, hc⟩ := Option.bind_eq_some_iff.mp hreceipt
        exact congrArg Receipt.sent (Option.some.inj hc).symm
      have hpending : s.pendingTx
          = c.sent - reading Receipt.sent 0 (net.node q).processed := by
        unfold pendingTx
        rw [hs.tx, hs.lossTx, hsentAt]
      rw [hpending] at hledger
      refine ⟨?_, ?_, fun hfits => ?_⟩
      · rw [hledger, h.account, hrecords, sendCounts_snoc,
          Ledger.settleAll_snoc]
        rfl
      · rw [hrecords, reading_snoc, hsentAt]
        exact hsent
      · have hpast := h.past
        have hold := h.sent (hsent.trans hfits)
        have hexact := ungated_eq
          (n := c.sent - reading Receipt.sent 0 (net.node q).processed)
          (by omega)
        rw [hrecords, sendCounts_snoc, reading_snoc, List.map_append,
          List.sum_append, List.map_singleton, List.sum_singleton, hexact]
        omega

/-- So it is settled after any run. -/
theorem settled_run (hlink : ∀ p, link.toNat < (setup.maxRates p).length)
    {q : Party} (htapa : (setup.config q).tapaEnabled = false)
    {events : List Event}
    (hfew : Trace.Along (Net.step link) (fun e net => e.few net = true)
      events setup.start)
    (hrun : Trace.run (Net.step link) events setup.start = some net) :
    ∃ s, (net.node q).Counted (setup.config q) link s
      ∧ (net.node q).Settled (setup.config q).lossMinPackets.toNat s := by
  have hall : net.Counted setup link
      ∧ ∃ s, (net.node q).Counted (setup.config q) link s
        ∧ (net.node q).Settled (setup.config q).lossMinPackets.toNat s := by
    refine Trace.run_along (P := fun net : Net => net.Counted setup link
      ∧ ∃ s, (net.node q).Counted (setup.config q) link s
        ∧ (net.node q).Settled (setup.config q).lossMinPackets.toNat s)
      ?_ hfew hrun ?_
    · rintro e net net' ⟨hcounted, s, hs, hsettled⟩ hfew hstep
      exact ⟨hcounted.step hfew hstep,
        hcounted.settled_step htapa hs hsettled hfew hstep⟩
    · obtain ⟨s, hs, hnew⟩ := Node.counted_new (setup.config q)
        (setup.now q) (hlink q)
      refine ⟨counted_start hlink, s, ?_, ?_⟩
      · rw [Setup.start_node]
        exact hs
      · rw [Setup.start_node, hnew]
        exact ⟨rfl, Nat.le_refl _, fun _ => Nat.le_refl _⟩
  exact hall.2

/-- The packets credited, gathered by probe. -/
theorem Counted.credited_eq (h : net.Counted setup link) (p : Party) :
    (net.node p).credited
      = ∑ i ∈ Finset.range (net.node p.peer).built.length,
          (net.node p).copies i
            * increment Report.rx (net.node p.peer).built i := by
  have hmap : (net.node p).processed.map (fun c => c.report.rx)
      = (net.node p).seen.map
          (increment Report.rx (net.node p.peer).built) := by
    unfold Node.seen
    rw [List.map_map]
    exact List.map_congr_left fun c hc => (h.receipt_increment hc).2
  rw [Node.credited_eq_reported, hmap]
  refine sum_eq_sum_count ?_ _
  intro i hi
  obtain ⟨c, hc, rfl⟩ := List.mem_map.mp hi
  exact (h.receipt_increment hc).1

/-- All probes built so far report what their builder had received at the
newest of them. -/
theorem Counted.sum_reported (h : net.Counted setup link) (p : Party) :
    ∑ i ∈ Finset.range (net.node p).built.length,
        increment Report.rx (net.node p).built i
      = reading Report.got 0 (net.node p).built := by
  obtain ⟨s, hs⟩ := h.nodes p
  rw [sum_increment, ← telescopes_sum hs.gotMeter, Nat.zero_add]

end Net

/-- Probe accounting without TAPA, over any network that loses,
duplicates and reorders. The account of `p`'s sending direction is settled
with the counts of the probes `p` has processed; its delivered side holds
what they credited, less what decays once enough was sent to be judged.
The packets credited are the ones the far side's probes report, each probe
as often as `p` has processed it. If none was processed twice, they are at
most what the far side had received when it built its newest probe, and
fall short of that by what the unprocessed probes report; if every one was
processed once, nothing is missing. -/
theorem probe_credit_accounting {setup : Setup} {link : UInt8}
    (hlink : ∀ p, link.toNat < (setup.maxRates p).length)
    {events : List Event} {net : Net}
    (hrun : Trace.run (Net.step link) events setup.start = some net)
    (hfew : Trace.Along (Net.step link) (fun e net => e.few net = true)
      events setup.start)
    {p : Party} (htapa : (setup.config p).tapaEnabled = false) :
    (∃ s, (net.node p).rc.states[link.toNat]? = some s
      ∧ s.sendLedger = Ledger.settleAll
        (setup.config p).lossMinPackets.toNat ⟨0, 0, 0⟩
        (sendCounts 0 (net.node p).processed)
      ∧ s.sendRxAcc ≤ (net.node p).credited
      ∧ ((net.node p).sent ≤ (setup.config p).lossMinPackets.toNat →
        (net.node p).sent ≤ 2 ^ 53 →
        s.sendRxAcc = (net.node p).credited))
    ∧ (net.node p).credited
        = ∑ i ∈ Finset.range (net.node p.peer).built.length,
            (net.node p).copies i
              * increment Report.rx (net.node p.peer).built i
    ∧ ((∀ i, (net.node p).copies i ≤ 1) →
        (net.node p).credited ≤ (net.node p.peer).received.length
          ∧ (net.node p).credited
              + ∑ i ∈ (Finset.range (net.node p.peer).built.length).filter
                  (fun i => (net.node p).copies i = 0),
                  increment Report.rx (net.node p.peer).built i
            = reading Report.got 0 (net.node p.peer).built
          ∧ ((∀ i < (net.node p.peer).built.length,
                (net.node p).copies i = 1) →
              (net.node p).credited
                = reading Report.got 0 (net.node p.peer).built)) := by
  have h := Net.counted_run hlink hfew hrun
  have hcredit := h.credited_eq p
  refine ⟨?_, hcredit, fun honce => ?_⟩
  · obtain ⟨s, hs, hsettled⟩ := Net.settled_run hlink htapa hfew hrun
    have hrx : s.sendRxAcc = (Ledger.settleAll
        (setup.config p).lossMinPackets.toNat ⟨0, 0, 0⟩
        (sendCounts 0 (net.node p).processed)).rxAcc :=
      congrArg Ledger.rxAcc hsettled.account
    refine ⟨s, hs.here, hsettled.account, ?_, fun hquiet hfits => ?_⟩
    · have hle := Ledger.settleAll_rxAcc_le
        (setup.config p).lossMinPackets.toNat
        (sendCounts 0 (net.node p).processed) ⟨0, 0, 0⟩
      rw [hrx]
      exact hle.trans_eq (Nat.zero_add _)
    · have hsum := hsettled.sent hfits
      have hpast := hsettled.past
      have hfew : 0 + ((sendCounts 0 (net.node p).processed).map
          Prod.fst).sum ≤ (setup.config p).lossMinPackets.toNat := by
        omega
      rw [hrx, Ledger.settleAll_rxAcc_eq hfew]
      exact Nat.zero_add _
  have hwhole : (net.node p).credited
      + ∑ i ∈ (Finset.range (net.node p.peer).built.length).filter
          (fun i => (net.node p).copies i = 0),
          increment Report.rx (net.node p.peer).built i
      = reading Report.got 0 (net.node p.peer).built := by
    rw [hcredit, ← h.sum_reported p.peer]
    exact sum_count_add_missed honce _
  obtain ⟨s, hs⟩ := h.nodes p.peer
  have hgot := hs.behind.2
  refine ⟨by omega, hwhole, fun hall => ?_⟩
  rw [hcredit, ← h.sum_reported p.peer]
  refine Finset.sum_congr rfl fun i hi => ?_
  rw [hall i (Finset.mem_range.mp hi), Nat.one_mul]

/-- One link without TAPA, set up alike on both sides. -/
private def plainSetup : Setup where
  config _ := { RateControlConfig.default with tapaEnabled := false }
  maxRates _ := [7500000]
  now _ _ := 0

/-- Two packets and two probes, the probes delivered in the wrong
order. -/
private def reorderedEvents : List Event :=
  [.send .a 100, .deliver .a 0 ⟨0, 0⟩, .build .b fun _ => 0,
    .send .a 100, .deliver .a 0 ⟨0, 0⟩, .build .b fun _ => 0,
    .deliver .b 1 ⟨0, 0⟩, .deliver .b 0 ⟨0, 0⟩]

/-- Both are credited once, and the account holds as many packets as the
far side received. -/
theorem probe_credit_accounting_reordered :
    ∃ net s, Trace.run (Net.step 0) reorderedEvents plainSetup.start
        = some net
      ∧ (net.node .a).rc.states[0]? = some s
      ∧ s.sendRxAcc = reading Report.got 0 (net.node .b).built
      ∧ s.sendRxAcc = 2 := by
  have hstates : (Trace.run (Net.step 0) reorderedEvents
        plainSetup.start).map (fun net =>
          (decide ((net.node .a).sent ≤ 1000 ∧ (net.node .a).sent ≤ 2 ^ 53
            ∧ (net.node .b).built.length = 2 ∧ (net.node .a).seen = [1, 0]),
          reading Report.got 0 (net.node .b).built))
      = some (true, 2) := by
    decide +kernel
  obtain ⟨net, hrun, htest⟩ := Option.map_eq_some_iff.mp hstates
  obtain ⟨htest, hgot⟩ := Prod.mk.inj htest
  obtain ⟨hquiet, hfits, hbuilt, hseen⟩ := of_decide_eq_true htest
  have htapa : (plainSetup.config .a).tapaEnabled = false := rfl
  obtain ⟨⟨s, hs, -, -, hcredited⟩, -, honce⟩ :=
    probe_credit_accounting (by intro p; exact Nat.zero_lt_one) hrun
      (by decide +kernel) htapa
  have hcopies : ∀ i, (net.node .a).copies i ≤ 1 := by
    intro i
    unfold Node.copies
    rw [hseen]
    exact List.nodup_iff_count_le_one.mp (by decide) i
  have hboth : ∀ i < (net.node .b).built.length,
      (net.node .a).copies i = 1 := by
    intro i hi
    unfold Node.copies
    rw [hseen]
    exact List.count_eq_one_of_mem (by decide) (by simp; omega)
  have hall := (honce hcopies).2.2 hboth
  have hsum : s.sendRxAcc = reading Report.got 0 (net.node .b).built :=
    (hcredited hquiet hfits).trans hall
  exact ⟨net, s, hrun, hs, hsum, hsum.trans hgot⟩

/-- What an endpoint's account and its far side hold at the end of a
run. -/
private def held (events : List Event) : Option (Option Nat × Nat × Nat) :=
  (Trace.run (Net.step 0) events plainSetup.start).map fun net =>
    ((net.node .a).rc.states[0]?.map RateState.sendRxAcc,
      (net.node .b).received.length, (net.node .a).seen.length)

/-- A packet and a probe that reports it, which is duplicated. -/
private def copiedEvents : List Event :=
  [.send .a 100, .deliver .a 0 ⟨0, 0⟩, .build .b fun _ => 0,
    .duplicate .b 0, .deliver .b 0 ⟨0, 0⟩]

/-- Two packets, of which the first one is reported by a lost probe. -/
private def lostEvents : List Event :=
  [.send .a 100, .deliver .a 0 ⟨0, 0⟩, .build .b fun _ => 0, .lose .b 0,
    .send .a 100, .deliver .a 0 ⟨0, 0⟩, .build .b fun _ => 0,
    .deliver .b 0 ⟨0, 0⟩]

/-- The account read behind a run of the plain setup. -/
private theorem held_inv {events : List Event} {acc got seen : Nat}
    (h : held events = some (some acc, got, seen)) :
    ∃ net s, Trace.run (Net.step 0) events plainSetup.start = some net
      ∧ (net.node .a).rc.states[0]? = some s ∧ s.sendRxAcc = acc
      ∧ (net.node .b).received.length = got
      ∧ (net.node .a).seen.length = seen := by
  obtain ⟨net, hrun, hread⟩ := Option.map_eq_some_iff.mp h
  simp only [Prod.mk.injEq, Option.map_eq_some_iff] at hread
  obtain ⟨⟨s, hs, hacc⟩, hgot, hseen⟩ := hread
  exact ⟨net, s, hrun, hs, hacc, hgot, hseen⟩

/-- A copy of a probe is added again: the account holds two packets where
one was received. And when the first of two probes is lost, the account
holds one packet behind the newest probe, where two were received at its
build. -/
theorem probe_credited_twice :
    (∃ net s, Trace.run (Net.step 0) copiedEvents plainSetup.start = some net
      ∧ (net.node .a).rc.states[0]? = some s ∧ s.sendRxAcc = 1
      ∧ (net.node .b).received.length = 1 ∧ (net.node .a).seen.length = 1)
    ∧ (∃ net s, Trace.run (Net.step 0) (copiedEvents ++ [.deliver .b 0 ⟨0, 0⟩])
        plainSetup.start = some net
      ∧ (net.node .a).rc.states[0]? = some s ∧ s.sendRxAcc = 2
      ∧ (net.node .b).received.length = 1 ∧ (net.node .a).seen.length = 2)
    ∧ ∃ net s, Trace.run (Net.step 0) lostEvents plainSetup.start = some net
      ∧ (net.node .a).rc.states[0]? = some s ∧ s.sendRxAcc = 1
      ∧ (net.node .b).received.length = 2 ∧ (net.node .a).seen.length = 1 :=
  ⟨held_inv (by decide +kernel), held_inv (by decide +kernel),
    held_inv (by decide +kernel)⟩

end ChainLightning
