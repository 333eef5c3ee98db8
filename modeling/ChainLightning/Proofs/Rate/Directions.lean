/-
The two directions of the loss accounting.

A `Ledger` is the account of one direction by itself: what was sent, what
arrived and the loss judged from them, settled once a cycle with a pair
of counts. It is antitone in the arrivals (`settleAll_better`). A link
keeps two of them, one a direction, and a probe settles both, scales them
under accelerated recovery and halves them on the fast track
(`processProbe_accounts`). Without TAPA they share nothing
(`ledgers_run`): the effective loss and the path state mix them, and
neither is read by them. A statement about two runs is then one about
two lists of pairs.
-/
import ChainLightning.Proofs.Rate.Cycles

namespace ChainLightning

open Binary64 Machine RateState

-- ================================================================ ledgers

/-- The account of one direction. -/
structure Ledger where
  txAcc : Nat
  rxAcc : Nat
  loss : Nat

namespace Ledger

variable {minPackets : Nat} {l l' : Ledger}

/-- A cycle is settled: its counts are added, and above the packet
minimum the loss is judged and the account decays. -/
def settle (minPackets : Nat) (counts : Nat × Nat) (l : Ledger) : Ledger :=
  let txAcc := l.txAcc + counts.1
  let rxAcc := l.rxAcc + counts.2
  { txAcc := decayed minPackets txAcc txAcc
    rxAcc := decayed minPackets txAcc rxAcc
    loss := lossOf minPackets txAcc rxAcc l.loss }

/-- Cycles are settled in their order. -/
def settleAll (minPackets : Nat) (l : Ledger) (counts : List (Nat × Nat)) :
    Ledger :=
  counts.foldl (fun l c => l.settle minPackets c) l

/-- The account that accelerated recovery leaves. -/
def accelerate (decay : ℚ) (light : Bool) (l : Ledger) : Ledger :=
  if light then
    { l with
      txAcc := scaled 64 decay l.txAcc
      rxAcc := scaled 64 decay l.rxAcc }
  else l

/-- The account that a recovery leaves, fast-tracked or not. -/
def track (fast : Bool) (l : Ledger) : Ledger :=
  if fast then { l with txAcc := l.txAcc / 2, rxAcc := l.rxAcc / 2 } else l

@[simp] theorem accelerate_loss (decay : ℚ) (light : Bool) (l : Ledger) :
    (l.accelerate decay light).loss = l.loss := by
  cases light with
  | false => rfl
  | true => rfl

@[simp] theorem track_loss (fast : Bool) (l : Ledger) :
    (l.track fast).loss = l.loss := by
  cases fast with
  | false => rfl
  | true => rfl

/-- As much sent, at least as much arrived, at most the loss. -/
structure Better (l l' : Ledger) : Prop where
  txAcc : l'.txAcc = l.txAcc
  rxAcc : l.rxAcc ≤ l'.rxAcc
  loss : l'.loss ≤ l.loss

theorem Better.refl (l : Ledger) : Better l l :=
  ⟨rfl, Nat.le_refl _, Nat.le_refl _⟩

/-- More arrivals of as many sent. -/
def Arrived (c c' : Nat × Nat) : Prop := c.1 = c'.1 ∧ c.2 ≤ c'.2

/-- The judged loss is antitone in the arrivals and monotone in the loss
it may keep. -/
theorem lossOf_anti {txAcc rxAcc rxAcc' stored stored' : Nat}
    (hrx : rxAcc ≤ rxAcc') (hstored : stored' ≤ stored) :
    lossOf minPackets txAcc rxAcc' stored'
      ≤ lossOf minPackets txAcc rxAcc stored := by
  unfold lossOf
  split
  case isTrue =>
      apply Nat.div_le_div_right
      exact Nat.mul_le_mul_right 255 (Nat.sub_le_sub_left hrx txAcc)
  case isFalse => exact hstored

/-- Settling a cycle with more arrivals keeps a ledger better. -/
theorem Better.settle (h : Better l l') {c c' : Nat × Nat}
    (hc : Arrived c c') :
    Better (l.settle minPackets c) (l'.settle minPackets c') := by
  have htx : l'.txAcc + c'.1 = l.txAcc + c.1 := by rw [h.txAcc, hc.1]
  have hrx : l.rxAcc + c.2 ≤ l'.rxAcc + c'.2 :=
    Nat.add_le_add h.rxAcc hc.2
  constructor
  · show decayed _ (l'.txAcc + c'.1) _ = decayed _ (l.txAcc + c.1) _
    rw [htx]
  · show decayed _ (l.txAcc + c.1) _ ≤ decayed _ (l'.txAcc + c'.1) _
    rw [htx]
    exact decayed_mono hrx
  · show lossOf _ (l'.txAcc + c'.1) _ _ ≤ lossOf _ (l.txAcc + c.1) _ _
    rw [htx]
    exact lossOf_anti hrx h.loss

/-- A ledger is antitone in the arrivals of all its cycles. -/
theorem settleAll_better (minPackets : Nat)
    {counts counts' : List (Nat × Nat)}
    (hcounts : List.Forall₂ Arrived counts counts') :
    ∀ {l l' : Ledger}, Better l l' →
      Better (settleAll minPackets l counts)
        (settleAll minPackets l' counts') := by
  induction hcounts with
  | nil => exact fun h => h
  | cons hc _ ih => exact fun h => ih (h.settle hc)

end Ledger

-- =============================================================== one probe

namespace RateState

variable {cfg : RateControlConfig} {clk : Clock} {confidence : ℚ}
  {suppress : Bool} {probe : ProbePacket} {s s' : RateState}

/-- The sending direction's account. -/
def sendLedger (s : RateState) : Ledger :=
  ⟨s.sendTxAcc, s.sendRxAcc, s.sendLoss.toNat⟩

/-- The receiving direction's account. -/
def recvLedger (s : RateState) : Ledger :=
  ⟨s.recvTxAcc, s.recvRxAcc, s.recvLoss.toNat⟩

theorem SameAccounts.ledgers (h : SameAccounts s s') :
    s'.sendLedger = s.sendLedger ∧ s'.recvLedger = s.recvLedger := by
  unfold sendLedger recvLedger
  rw [h.sendTxAcc, h.sendRxAcc, h.sendLoss, h.recvTxAcc, h.recvRxAcc,
    h.recvLoss]
  exact ⟨rfl, rfl⟩

/-- The transition takes the fast track out of `Down`. -/
def fastTracked (cfg : RateControlConfig) (s : RateState) : Bool :=
  s.state = .down ∧ s.PhantomDown cfg

/-- A transition halves both accounts on the fast track, and leaves them
alone otherwise. -/
theorem transition_tracked
    (h : s.transition cfg confidence suppress = some s') :
    s'.sendLedger = s.sendLedger.track (s.fastTracked cfg)
      ∧ s'.recvLedger = s.recvLedger.track (s.fastTracked cfg)
      ∧ s'.loss = s.loss := by
  have hslow : s.state ≠ .down → s.fastTracked cfg = false := fun hup =>
    decide_eq_false fun hfast => hup hfast.1
  cases hst : s.state with
  | running =>
      rw [hslow (by rw [hst]; decide)]
      rcases transition_active (Or.inl hst) h with
        ⟨state, -, rfl, -⟩ | ⟨-, -, rfl⟩
      · exact ⟨rfl, rfl, rfl⟩
      · exact ⟨rfl, rfl, rfl⟩
  | lossy =>
      rw [hslow (by rw [hst]; decide)]
      rcases transition_active (Or.inr hst) h with
        ⟨state, -, rfl, -⟩ | ⟨-, -, rfl⟩
      · exact ⟨rfl, rfl, rfl⟩
      · exact ⟨rfl, rfl, rfl⟩
  | down =>
      rcases transition_down_cases hst h with ⟨hfast, rfl⟩ | ⟨hfast, rfl⟩
      · have htracked : s.fastTracked cfg = true :=
          decide_eq_true ⟨hst, hfast⟩
        rw [htracked]
        exact ⟨rfl, rfl, rfl⟩
      · have htracked : s.fastTracked cfg = false :=
          decide_eq_false fun h => hfast h.2
        rw [htracked]
        exact ⟨rfl, rfl, rfl⟩
  | probing =>
      rw [hslow (by rw [hst]; decide)]
      obtain ⟨txRate, -, rfl⟩ := transition_probing hst h
      exact ⟨rfl, rfl, rfl⟩

/-- The load turns from heavy to light with a probe. -/
def turnsLight (confidence : ℚ) (s : RateState) : Bool :=
  s.probeConfidence < rnd (3 / 10) ∧ confidence > rnd (7 / 10)

/-- Section 4 scales the accounts of a link that turned light, if it is
configured to. -/
def recovers (cfg : RateControlConfig) (s : RateState) : Bool :=
  cfg.tapaEnabled ∧ cfg.tapaAcceleratedRecovery
    ∧ s.prevProbeConfidence < rnd (3 / 10) ∧ s.probeConfidence > rnd (7 / 10)

/-- What section 4 does, account by account. -/
theorem accelerateRecovery_accounts (cfg : RateControlConfig)
    (s : RateState) :
    let send := s.sendLedger.accelerate cfg.tapaRecoveryDecay (s.recovers cfg)
    let recv := s.recvLedger.accelerate cfg.tapaRecoveryDecay (s.recovers cfg)
    s.accelerateRecovery cfg = { s with
        sendTxAcc := send.txAcc
        sendRxAcc := send.rxAcc
        recvTxAcc := recv.txAcc
        recvRxAcc := recv.rxAcc }
      ∧ (s.accelerateRecovery cfg).sendLedger = send
      ∧ (s.accelerateRecovery cfg).recvLedger = recv := by
  unfold accelerateRecovery
  split
  case isTrue hon =>
      have htrue : s.recovers cfg = true := decide_eq_true hon
      rw [htrue]
      exact ⟨rfl, rfl, rfl⟩
  case isFalse hoff =>
      have hfalse : s.recovers cfg = false := decide_eq_false hoff
      rw [hfalse]
      exact ⟨rfl, rfl, rfl⟩

/-- The counts of a probe's cycle in the sending direction, gated. -/
def sendCycle (cfg : RateControlConfig) (confidence : ℚ)
    (probe : ProbePacket) (s : RateState) : Nat × Nat :=
  (gated cfg confidence s.pendingTx,
    gated cfg confidence probe.rxPackets.toNat)

/-- The same in the receiving direction. -/
def recvCycle (cfg : RateControlConfig) (confidence : ℚ)
    (probe : ProbePacket) (s : RateState) : Nat × Nat :=
  (gated cfg confidence probe.txPackets.toNat,
    gated cfg confidence s.pendingRx)

/-- Sections 2 and 3 settle a cycle in either account and leave alone
what sections 4 and 5 go by. -/
private theorem judged_accounts {paced counted judged : RateState}
    (hpace : s.detectCongestion cfg confidence probe = some paced)
    (hcount : paced.accumulate cfg confidence probe = some counted)
    (hjudge : counted.evaluate cfg = some judged) :
    judged.sendLedger = s.sendLedger.settle cfg.lossMinPackets.toNat
        (s.sendCycle cfg confidence probe)
      ∧ judged.recvLedger = s.recvLedger.settle cfg.lossMinPackets.toNat
        (s.recvCycle cfg confidence probe)
      ∧ judged.loss = max judged.sendLoss judged.recvLoss
      ∧ judged.recovers cfg = s.recovers cfg
      ∧ judged.fastTracked cfg = s.fastTracked cfg := by
  obtain ⟨rate, rfl, -⟩ := detectCongestion_inv hpace
  obtain ⟨-, -, rfl⟩ := accumulate_inv hcount
  obtain ⟨sendLoss, recvLoss, hsend, hrecv, rfl⟩ := evaluate_inv hjudge
  refine ⟨?_, ?_, rfl, rfl, rfl⟩
  · unfold sendLedger
    rw [hsend]
    rfl
  · unfold recvLedger
    rw [hrecv]
    rfl

/-- The reported counts fit their accumulators. -/
private theorem counted_fits {paced counted : RateState}
    (hpace : s.detectCongestion cfg confidence probe = some paced)
    (hcount : paced.accumulate cfg confidence probe = some counted) :
    s.sendLedger.rxAcc + (s.sendCycle cfg confidence probe).2 < 2 ^ 64
      ∧ s.recvLedger.rxAcc + (s.recvCycle cfg confidence probe).2
        < 2 ^ 64 := by
  have hfits := accumulate_fits hcount
  obtain ⟨rate, rfl, -⟩ := detectCongestion_inv hpace
  obtain ⟨-, -, rfl⟩ := accumulate_inv hcount
  exact hfits

/-- A probe settles a cycle in either account, scales it if the link
turns light under accelerated recovery, and halves it on the fast
track. -/
theorem processProbe_accounts
    (h : s.processProbe cfg clk confidence suppress probe = some s') :
    let light := (s.noteArrival clk.instant confidence probe).recovers cfg
    s'.sendLedger = (((s.sendLedger.settle cfg.lossMinPackets.toNat
          (s.sendCycle cfg confidence probe)).accelerate
            cfg.tapaRecoveryDecay light).track (s.fastTracked cfg))
      ∧ s'.recvLedger = (((s.recvLedger.settle cfg.lossMinPackets.toNat
          (s.recvCycle cfg confidence probe)).accelerate
            cfg.tapaRecoveryDecay light).track (s.fastTracked cfg))
      ∧ s'.loss.toNat = max s'.sendLedger.loss s'.recvLedger.loss
      ∧ s.sendLedger.rxAcc + (s.sendCycle cfg confidence probe).2 < 2 ^ 64
      ∧ s.recvLedger.rxAcc + (s.recvCycle cfg confidence probe).2
        < 2 ^ 64 := by
  unfold processProbe at h
  simp only [Option.bind_eq_bind, Option.bind_eq_some_iff] at h
  obtain ⟨paced, hpace, counted, hcount, judged, hjudge, ht⟩ := h
  obtain ⟨srttUs, rttVarUs, hrtt⟩ := measureRtt_inv cfg clk.micros probe
    (s.noteArrival clk.instant confidence probe)
  rw [hrtt] at hpace
  have hfits := counted_fits hpace hcount
  obtain ⟨hsend, hrecv, hworst, hlight, hfast⟩ :=
    judged_accounts hpace hcount hjudge
  obtain ⟨hrecovered, hsendScaled, hrecvScaled⟩ :=
    accelerateRecovery_accounts cfg judged
  obtain ⟨hsendTracked, hrecvTracked, hloss⟩ := transition_tracked ht
  have htrack : (judged.accelerateRecovery cfg).fastTracked cfg
      = s.fastTracked cfg := by
    rw [hrecovered]
    exact hfast
  rw [hsendScaled, htrack] at hsendTracked
  rw [hrecvScaled, htrack] at hrecvTracked
  have hjudged : s'.loss.toNat
      = max s'.sendLedger.loss s'.recvLedger.loss := by
    rw [hsendTracked, hrecvTracked, hloss, hrecovered, Ledger.track_loss,
      Ledger.track_loss, Ledger.accelerate_loss, Ledger.accelerate_loss]
    show judged.loss.toNat = _
    rw [hworst, toNat_max]
    rfl
  rw [hsend, hlight] at hsendTracked
  rw [hrecv, hlight] at hrecvTracked
  exact ⟨hsendTracked, hrecvTracked, hjudged, hfits⟩

-- ============================================================ without TAPA

/-- A count at full confidence: through a double and back, so it is exact
up to `2 ^ 53`. -/
def ungated (n : Nat) : Nat := scaled 64 1 n

theorem ungated_mono : Monotone ungated := scaled_mono 64 1

theorem ungated_eq {n : Nat} (h : n ≤ 2 ^ 53) : ungated n = n :=
  scaled_one h (by omega)

/-- Without TAPA nothing is gated. -/
theorem gated_off (htapa : cfg.tapaEnabled = false) (n : Nat) :
    gated cfg confidence n = ungated n := by
  unfold gated gateFactor
  rw [htapa, if_neg Bool.false_ne_true]
  rfl

/-- Without TAPA a probe settles a cycle in either ledger, each with its
own pair of counts. -/
theorem ledgers_probe (htapa : cfg.tapaEnabled = false)
    (h : s.processProbe cfg clk confidence suppress probe = some s') :
    s'.sendLedger = s.sendLedger.settle cfg.lossMinPackets.toNat
        (ungated s.pendingTx, ungated probe.rxPackets.toNat)
      ∧ s'.recvLedger = s.recvLedger.settle cfg.lossMinPackets.toNat
        (ungated probe.txPackets.toNat, ungated s.pendingRx) := by
  obtain ⟨hsend, hrecv, -, -, -⟩ := processProbe_accounts h
  have hlight : (s.noteArrival clk.instant confidence probe).recovers cfg
      = false :=
    decide_eq_false fun hon => Bool.false_ne_true (htapa ▸ hon.1)
  have hslow : s.fastTracked cfg = false :=
    decide_eq_false fun hfast => Bool.false_ne_true (htapa ▸ hfast.2.1)
  rw [hlight, hslow, sendCycle, gated_off htapa, gated_off htapa] at hsend
  rw [hlight, hslow, recvCycle, gated_off htapa, gated_off htapa] at hrecv
  exact ⟨hsend, hrecv⟩

end RateState

/-- What a cycle says about the sending direction. -/
def Cycle.sendCounts (c : Cycle) : Nat × Nat :=
  (ungated c.sent, ungated c.probe.rxPackets.toNat)

/-- What a cycle says about the receiving direction. -/
def Cycle.recvCounts (c : Cycle) : Nat × Nat :=
  (ungated c.probe.txPackets.toNat, ungated c.received)

/-- Without TAPA a call settles in the ledgers the cycle it closes, and
touches them in no other way. -/
theorem ledgers_step {rc : RateController} {i : Nat} {op : RateOp}
    {s s' : RateState} (htapa : rc.config.tapaEnabled = false)
    (h : op.linkStep rc i s = some s') :
    s'.sendLedger = Ledger.settleAll rc.config.lossMinPackets.toNat
        s.sendLedger ((op.closes i s).map Cycle.sendCounts)
      ∧ s'.recvLedger = Ledger.settleAll rc.config.lossMinPackets.toNat
        s.recvLedger ((op.closes i s).map Cycle.recvCounts) := by
  by_cases hop : op.isProbeOf i = true
  · obtain ⟨clk, probe, confidence, rfl, hi, -, hprobe⟩ :=
      linkStep_probe hop h
    rw [RateOp.closes, if_pos hi]
    exact ledgers_probe htapa hprobe
  · have hother : op.isProbeOf i = false := Bool.eq_false_iff.mpr hop
    have hnone : op.closes i s = [] := by
      cases op with
      | processProbe clk probe => exact if_neg (of_decide_eq_false hother)
      | _ => rfl
    rw [hnone]
    exact (linkStep_accounts hother h).ledgers

/-- Without TAPA the ledgers of a run are those of its cycles. -/
theorem ledgers_run {cfg : RateControlConfig}
    (htapa : cfg.tapaEnabled = false) {i : Nat} :
    ∀ {ops : List RateOp} {rc rc' : RateController} {s : RateState},
      rc.config = cfg → Trace.run RateOp.apply ops rc = some rc' →
      rc.states[i]? = some s → s.Sound →
      ∃ s', rc'.states[i]? = some s'
        ∧ s'.sendLedger = Ledger.settleAll cfg.lossMinPackets.toNat
          s.sendLedger ((cyclesFrom i s.pendingTx s.pendingRx ops).map
            Cycle.sendCounts)
        ∧ s'.recvLedger = Ledger.settleAll cfg.lossMinPackets.toNat
          s.recvLedger ((cyclesFrom i s.pendingTx s.pendingRx ops).map
            Cycle.recvCounts) := by
  intro ops
  induction ops with
  | nil =>
      intro rc rc' s _ hrun hs _
      cases hrun
      exact ⟨s, hs, rfl, rfl⟩
  | cons op ops ih =>
      intro rc rc' s hcfg hrun hs hsound
      obtain ⟨rc₁, hstep, hrun⟩ := Trace.run_cons_inv hrun
      obtain ⟨hcfg₁, -, hlinks⟩ := apply_link hstep
      obtain ⟨s₁, hlink, hs₁⟩ := hlinks i s hs
      obtain ⟨hsound₁, hcloses⟩ := cyclesFrom_step hsound hlink
      obtain ⟨hsend, hrecv⟩ := ledgers_step (hcfg ▸ htapa) hlink
      obtain ⟨s', hs', hsend', hrecv'⟩ :=
        ih (hcfg₁.trans hcfg) hrun hs₁ hsound₁
      refine ⟨s', hs', ?_, ?_⟩
      · rw [hsend', hsend, hcloses, hcfg, List.map_append]
        exact List.foldl_append.symm
      · rw [hrecv', hrecv, hcloses, hcfg, List.map_append]
        exact List.foldl_append.symm

-- =============================================================== two runs

/-- The ledgers of a link of a fresh controller, without TAPA. -/
private theorem ledgers_reached {cfg : RateControlConfig}
    (htapa : cfg.tapaEnabled = false) {maxRates : List Nat}
    {now : Nat → Nat} {i : Nat} {ops : List RateOp} {rc : RateController}
    {s : RateState}
    (hrun : Trace.run RateOp.apply ops (RateController.new cfg maxRates now)
      = some rc)
    (hs : rc.states[i]? = some s) :
    s.sendLedger = Ledger.settleAll cfg.lossMinPackets.toNat ⟨0, 0, 0⟩
        ((cycles i ops).map Cycle.sendCounts)
      ∧ s.recvLedger = Ledger.settleAll cfg.lossMinPackets.toNat ⟨0, 0, 0⟩
        ((cycles i ops).map Cycle.recvCounts) := by
  obtain ⟨rate, hnew⟩ := run_new_link hrun hs
  obtain ⟨s', hs', hsend, hrecv⟩ :=
    ledgers_run htapa rfl hrun hnew (sound_new _ _ _ _)
  obtain rfl : s = s' := Option.some.inj (hs.symm.trans hs')
  exact ⟨hsend, hrecv⟩

/-- Elements that agree pairwise under `f` have the same image. -/
private theorem map_eq_of_forall₂ {α β : Type} {r : α → α → Prop} {f : α → β}
    (hf : ∀ a b, r a b → f a = f b) {l l' : List α}
    (h : List.Forall₂ r l l') : l.map f = l'.map f := by
  induction h with
  | nil => rfl
  | cons hab _ ih => rw [List.map_cons, List.map_cons, hf _ _ hab, ih]

/-- As many packets sent, at least as many of them reported received. -/
def Cycle.MoreDelivered (c c' : Cycle) : Prop :=
  c.sent = c'.sent ∧ c.probe.rxPackets ≤ c'.probe.rxPackets

/-- As many packets reported sent, at least as many of them received. -/
def Cycle.MoreReceived (c c' : Cycle) : Prop :=
  c.probe.txPackets = c'.probe.txPackets ∧ c.received ≤ c'.received

/-- Two runs of a link without TAPA. With equal sent counts and at least
the reported deliveries in every cycle of the second, its sending
accumulator is the same and its send loss at most that of the first;
with equal deliveries the send loss is the same, whatever the receiving
direction does. Likewise the other way round. -/
theorem directional_loss {cfg : RateControlConfig}
    (htapa : cfg.tapaEnabled = false) {rates₁ rates₂ : List Nat}
    {now₁ now₂ : Nat → Nat} {i : Nat} {ops₁ ops₂ : List RateOp}
    {rc₁ rc₂ : RateController} {s₁ s₂ : RateState}
    (hrun₁ : Trace.run RateOp.apply ops₁
      (RateController.new cfg rates₁ now₁) = some rc₁)
    (hrun₂ : Trace.run RateOp.apply ops₂
      (RateController.new cfg rates₂ now₂) = some rc₂)
    (hs₁ : rc₁.states[i]? = some s₁) (hs₂ : rc₂.states[i]? = some s₂) :
    (List.Forall₂ Cycle.MoreDelivered (cycles i ops₁) (cycles i ops₂) →
      s₁.sendTxAcc = s₂.sendTxAcc ∧ s₂.sendLoss ≤ s₁.sendLoss)
    ∧ (List.Forall₂ (fun c c' => c.sent = c'.sent
          ∧ c.probe.rxPackets = c'.probe.rxPackets)
        (cycles i ops₁) (cycles i ops₂) →
      s₁.sendTxAcc = s₂.sendTxAcc ∧ s₁.sendLoss = s₂.sendLoss)
    ∧ (List.Forall₂ Cycle.MoreReceived (cycles i ops₁) (cycles i ops₂) →
      s₁.recvTxAcc = s₂.recvTxAcc ∧ s₂.recvLoss ≤ s₁.recvLoss)
    ∧ (List.Forall₂ (fun c c' => c.probe.txPackets = c'.probe.txPackets
          ∧ c.received = c'.received)
        (cycles i ops₁) (cycles i ops₂) →
      s₁.recvTxAcc = s₂.recvTxAcc ∧ s₁.recvLoss = s₂.recvLoss) := by
  obtain ⟨hsend₁, hrecv₁⟩ := ledgers_reached htapa hrun₁ hs₁
  obtain ⟨hsend₂, hrecv₂⟩ := ledgers_reached htapa hrun₂ hs₂
  have hdelivered : ∀ c c' : Cycle, c.MoreDelivered c' →
      Ledger.Arrived c.sendCounts c'.sendCounts :=
    fun c c' h => ⟨by rw [Cycle.sendCounts, h.1]; rfl,
      ungated_mono (UInt32.le_iff_toNat_le.mp h.2)⟩
  have hreceived : ∀ c c' : Cycle, c.MoreReceived c' →
      Ledger.Arrived c.recvCounts c'.recvCounts :=
    fun c c' h => ⟨by rw [Cycle.recvCounts, h.1]; rfl,
      ungated_mono h.2⟩
  refine ⟨fun h => ?_, fun h => ?_, fun h => ?_, fun h => ?_⟩
  · have hbetter := Ledger.settleAll_better cfg.lossMinPackets.toNat
      (List.forall₂_map_left_iff.mpr (List.forall₂_map_right_iff.mpr
        (h.imp hdelivered))) (Ledger.Better.refl ⟨0, 0, 0⟩)
    rw [← hsend₁, ← hsend₂] at hbetter
    exact ⟨hbetter.txAcc.symm, UInt8.le_iff_toNat_le.mpr hbetter.loss⟩
  · have hcounts := map_eq_of_forall₂ (f := Cycle.sendCounts)
      (fun c c' hc => by rw [Cycle.sendCounts, hc.1, hc.2]; rfl) h
    rw [hcounts, ← hsend₂] at hsend₁
    obtain ⟨htx, -, hloss⟩ := Ledger.mk.inj hsend₁
    exact ⟨htx, UInt8.toNat_inj.mp hloss⟩
  · have hbetter := Ledger.settleAll_better cfg.lossMinPackets.toNat
      (List.forall₂_map_left_iff.mpr (List.forall₂_map_right_iff.mpr
        (h.imp hreceived))) (Ledger.Better.refl ⟨0, 0, 0⟩)
    rw [← hrecv₁, ← hrecv₂] at hbetter
    exact ⟨hbetter.txAcc.symm, UInt8.le_iff_toNat_le.mpr hbetter.loss⟩
  · have hcounts := map_eq_of_forall₂ (f := Cycle.recvCounts)
      (fun c c' hc => by rw [Cycle.recvCounts, hc.1, hc.2]; rfl) h
    rw [hcounts, ← hrecv₂] at hrecv₁
    obtain ⟨htx, -, hloss⟩ := Ledger.mk.inj hrecv₁
    exact ⟨htx, UInt8.toNat_inj.mp hloss⟩

/-- The defaults without TAPA, judging from the first packet on. -/
private def plainConfig : RateControlConfig :=
  { RateControlConfig.default with tapaEnabled := false, lossMinPackets := 0 }

/-- Two packets are sent, and one is reported received. -/
private def halfOps : List RateOp :=
  [.recordTx 0 1400, .recordTx 0 1400,
    .processProbe ⟨2000, 7⟩ (ProbePacket.mk 0 1 5 0 0 0 0 1 0 .running)]

/-- Both are, while the receiving direction loses nine of ten. -/
private def fullOps : List RateOp :=
  [.recordTx 0 100, .recordRx 0 900, .recordTx 0 700,
    .processProbe ⟨2000, 7⟩ (ProbePacket.mk 0 1 5 0 0 10 0 2 0 .running)]

/-- The law on these two runs. -/
theorem directional_loss_half_full : ∃ rc₁ rc₂ s₁ s₂,
    Trace.run RateOp.apply halfOps
        (RateController.new plainConfig [7500000] fun _ => 0) = some rc₁
      ∧ Trace.run RateOp.apply fullOps
        (RateController.new plainConfig [7500000] fun _ => 0) = some rc₂
      ∧ rc₁.states[0]? = some s₁ ∧ rc₂.states[0]? = some s₂
      ∧ s₁.sendTxAcc = s₂.sendTxAcc ∧ s₂.sendLoss ≤ s₁.sendLoss := by
  have hsome₁ : ((Trace.run RateOp.apply halfOps
      (RateController.new plainConfig [7500000] fun _ => 0)).bind
        fun rc => rc.states[0]?).isSome := by
    decide +kernel
  have hsome₂ : ((Trace.run RateOp.apply fullOps
      (RateController.new plainConfig [7500000] fun _ => 0)).bind
        fun rc => rc.states[0]?).isSome := by
    decide +kernel
  obtain ⟨s₁, hbind₁⟩ := Option.isSome_iff_exists.mp hsome₁
  obtain ⟨s₂, hbind₂⟩ := Option.isSome_iff_exists.mp hsome₂
  obtain ⟨rc₁, hrun₁, hs₁⟩ := Option.bind_eq_some_iff.mp hbind₁
  obtain ⟨rc₂, hrun₂, hs₂⟩ := Option.bind_eq_some_iff.mp hbind₂
  have hmore : List.Forall₂ Cycle.MoreDelivered (cycles 0 halfOps)
      (cycles 0 fullOps) :=
    List.Forall₂.cons ⟨rfl, by decide⟩ List.Forall₂.nil
  obtain ⟨htx, hloss⟩ :=
    (directional_loss rfl hrun₁ hrun₂ hs₁ hs₂).1 hmore
  exact ⟨rc₁, rc₂, s₁, s₂, hrun₁, hrun₂, hs₁, hs₂, htx, hloss⟩

end ChainLightning
