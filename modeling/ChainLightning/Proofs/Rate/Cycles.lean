/-
Probe cycles, and what a run without loss comes to.

A cycle of a link is a processed probe with the packets recorded on the
link since the previous one. The cycles are read off the calls of a run
alone (`cycles`); `cyclesFrom_step` says that the link's counters and
snapshots keep the same account, so a statement about the probes of a
run and the traffic between them can be used at the state they are
processed in. Without reported loss the order of the accumulators is
kept by everything that scales them (`lossless_probe`).
-/
import ChainLightning.Proofs.Rate.Episode

namespace ChainLightning

open Binary64 Machine RateState

-- ================================================================= cycles

/-- A processed probe, and the packets recorded on its link since the
previous one. -/
structure Cycle where
  sent : Nat
  received : Nat
  probe : ProbePacket

/-- The cycles of link `i`, with packets of an open cycle to begin
with. -/
def cyclesFrom (i : Nat) : Nat → Nat → List RateOp → List Cycle
  | _, _, [] => []
  | sent, received, .recordTx linkId _ :: ops =>
      cyclesFrom i (if linkId = i then sent + 1 else sent) received ops
  | sent, received, .recordRx linkId _ :: ops =>
      cyclesFrom i sent (if linkId = i then received + 1 else received) ops
  | sent, received, .buildProbes _ :: ops => cyclesFrom i sent received ops
  | sent, received, .processProbe _ probe :: ops =>
      if probe.linkId.toNat = i then
        ⟨sent, received, probe⟩ :: cyclesFrom i 0 0 ops
      else cyclesFrom i sent received ops
  | sent, received, .checkTimeouts _ :: ops =>
      cyclesFrom i sent received ops

/-- The cycles of link `i` in a run of a fresh controller. -/
def cycles (i : Nat) (ops : List RateOp) : List Cycle := cyclesFrom i 0 0 ops

/-- A longer run has further cycles. -/
theorem cyclesFrom_mono {i : Nat} (ops more : List RateOp) :
    ∀ sent received : Nat,
      cyclesFrom i sent received ops
        <+: cyclesFrom i sent received (ops ++ more) := by
  induction ops with
  | nil => exact fun _ _ => List.nil_prefix
  | cons op ops ih =>
      intro sent received
      cases op with
      | recordTx linkId bytes => exact ih _ _
      | recordRx linkId bytes => exact ih _ _
      | buildProbes now => exact ih _ _
      | processProbe clk probe =>
          rw [List.cons_append, cyclesFrom, cyclesFrom]
          split
          case isTrue => exact List.prefix_cons_inj _ |>.mpr (ih 0 0)
          case isFalse => exact ih _ _
      | checkTimeouts now => exact ih _ _

namespace RateState

/-- The packets sent since the loss accounting was settled last. -/
def pendingTx (s : RateState) : Nat := s.totalTxPackets - s.lastLossTxPackets

/-- The packets received since then. -/
def pendingRx (s : RateState) : Nat := s.totalRxPackets - s.lastLossRxPackets

/-- The packet counters are `u64` values, and the snapshots of the loss
accounting are behind them. -/
structure Sound (s : RateState) : Prop where
  ahead : s.lastLossTxPackets ≤ s.totalTxPackets
    ∧ s.lastLossRxPackets ≤ s.totalRxPackets
  fits : s.totalTxPackets < 2 ^ 64 ∧ s.totalRxPackets < 2 ^ 64

/-- Two states with the same loss accounts. -/
structure SameAccounts (s s' : RateState) : Prop where
  loss : s'.loss = s.loss
  sendLoss : s'.sendLoss = s.sendLoss
  recvLoss : s'.recvLoss = s.recvLoss
  sendTxAcc : s'.sendTxAcc = s.sendTxAcc
  sendRxAcc : s'.sendRxAcc = s.sendRxAcc
  recvTxAcc : s'.recvTxAcc = s.recvTxAcc
  recvRxAcc : s'.recvRxAcc = s.recvRxAcc

theorem SameAccounts.refl (s : RateState) : SameAccounts s s :=
  ⟨rfl, rfl, rfl, rfl, rfl, rfl, rfl⟩

end RateState

/-- The cycle that a call closes. -/
def RateOp.closes (i : Nat) (s : RateState) : RateOp → List Cycle
  | .processProbe _ probe =>
      if probe.linkId.toNat = i then [⟨s.pendingTx, s.pendingRx, probe⟩]
      else []
  | _ => []

/-- The counters of the link keep the account of its cycles. -/
theorem cyclesFrom_step {rc : RateController} {i : Nat} {op : RateOp}
    {s s' : RateState} (hsound : s.Sound)
    (h : op.linkStep rc i s = some s') :
    s'.Sound
      ∧ ∀ ops, cyclesFrom i s.pendingTx s.pendingRx (op :: ops)
        = op.closes i s ++ cyclesFrom i s'.pendingTx s'.pendingRx ops := by
  obtain ⟨⟨htx, hrx⟩, hfits⟩ := hsound
  cases op with
  | recordTx linkId bytes =>
      by_cases hl : linkId = i
      · simp only [RateOp.linkStep, if_pos hl] at h
        have hfit := recordTx_fits h
        rw [recordTx_inv h] at hfit ⊢
        refine ⟨⟨⟨?_, hrx⟩, hfit, hfits.2⟩, ?_⟩
        · show s.lastLossTxPackets ≤ s.totalTxPackets + 1
          omega
        · intro ops
          rw [cyclesFrom, if_pos hl]
          show cyclesFrom i (s.pendingTx + 1) s.pendingRx ops
            = cyclesFrom i (s.totalTxPackets + 1 - s.lastLossTxPackets)
              s.pendingRx ops
          rw [Nat.sub_add_comm htx]
          rfl
      · simp only [RateOp.linkStep, if_neg hl] at h
        cases h
        refine ⟨⟨⟨htx, hrx⟩, hfits⟩, fun ops => ?_⟩
        rw [cyclesFrom, if_neg hl]
        rfl
  | recordRx linkId bytes =>
      by_cases hl : linkId = i
      · simp only [RateOp.linkStep, if_pos hl] at h
        have hfit := recordRx_fits h
        rw [recordRx_inv h] at hfit ⊢
        refine ⟨⟨⟨htx, ?_⟩, hfits.1, hfit⟩, ?_⟩
        · show s.lastLossRxPackets ≤ s.totalRxPackets + 1
          omega
        · intro ops
          rw [cyclesFrom, if_pos hl]
          show cyclesFrom i s.pendingTx (s.pendingRx + 1) ops
            = cyclesFrom i s.pendingTx
              (s.totalRxPackets + 1 - s.lastLossRxPackets) ops
          rw [Nat.sub_add_comm hrx]
          rfl
      · simp only [RateOp.linkStep, if_neg hl] at h
        cases h
        refine ⟨⟨⟨htx, hrx⟩, hfits⟩, fun ops => ?_⟩
        rw [cyclesFrom, if_neg hl]
        rfl
  | buildProbes now =>
      obtain ⟨⟨p, t⟩, hb, rfl⟩ := Option.map_eq_some_iff.mp h
      obtain ⟨-, -, -, -, -, rfl⟩ := buildProbe_inv hb
      exact ⟨⟨⟨htx, hrx⟩, hfits⟩, fun _ => rfl⟩
  | processProbe clk probe =>
      by_cases hl : probe.linkId.toNat = i
      · simp only [RateOp.linkStep, if_pos hl] at h
        obtain ⟨confidence, -, h⟩ := Option.bind_eq_some_iff.mp h
        obtain ⟨hframe, hset⟩ := processProbe_frame h
        refine ⟨⟨⟨hset.1.le, hset.2.le⟩, ?_⟩, fun ops => ?_⟩
        · rw [hframe.totalTxPackets, hframe.totalRxPackets]
          exact hfits
        · have hpending : s'.pendingTx = 0 ∧ s'.pendingRx = 0 := by
            unfold pendingTx pendingRx
            rw [hset.1, hset.2]
            exact ⟨Nat.sub_self _, Nat.sub_self _⟩
          rw [cyclesFrom, if_pos hl, RateOp.closes, if_pos hl,
            hpending.1, hpending.2]
          rfl
      · simp only [RateOp.linkStep, if_neg hl] at h
        cases h
        refine ⟨⟨⟨htx, hrx⟩, hfits⟩, fun ops => ?_⟩
        rw [cyclesFrom, if_neg hl, RateOp.closes, if_neg hl]
        rfl
  | checkTimeouts now =>
      have hs' : s' = s.checkTimeout rc.config (now i) :=
        (Option.some.inj h).symm
      unfold checkTimeout at hs'
      split at hs'
      case isTrue =>
          rw [hs']
          exact ⟨⟨⟨htx, hrx⟩, hfits⟩, fun _ => rfl⟩
      case isFalse =>
          rw [hs']
          exact ⟨⟨⟨htx, hrx⟩, hfits⟩, fun _ => rfl⟩

/-- Only a probe of the link touches its loss accounts. -/
theorem linkStep_accounts {rc : RateController} {i : Nat} {op : RateOp}
    {s s' : RateState} (hop : op.isProbeOf i = false)
    (h : op.linkStep rc i s = some s') : SameAccounts s s' := by
  cases op with
  | recordTx linkId bytes =>
      simp only [RateOp.linkStep] at h
      split at h
      case isTrue =>
          rw [recordTx_inv h]
          exact ⟨rfl, rfl, rfl, rfl, rfl, rfl, rfl⟩
      case isFalse =>
          cases h
          exact SameAccounts.refl _
  | recordRx linkId bytes =>
      simp only [RateOp.linkStep] at h
      split at h
      case isTrue =>
          rw [recordRx_inv h]
          exact ⟨rfl, rfl, rfl, rfl, rfl, rfl, rfl⟩
      case isFalse =>
          cases h
          exact SameAccounts.refl _
  | buildProbes now =>
      obtain ⟨⟨p, t⟩, hb, rfl⟩ := Option.map_eq_some_iff.mp h
      obtain ⟨-, -, -, -, -, rfl⟩ := buildProbe_inv hb
      exact ⟨rfl, rfl, rfl, rfl, rfl, rfl, rfl⟩
  | processProbe clk probe =>
      have hl : ¬probe.linkId.toNat = i := of_decide_eq_false hop
      simp only [RateOp.linkStep, if_neg hl] at h
      cases h
      exact SameAccounts.refl _
  | checkTimeouts now =>
      have hs' : s' = s.checkTimeout rc.config (now i) :=
        (Option.some.inj h).symm
      unfold checkTimeout at hs'
      split at hs'
      case isTrue =>
          rw [hs']
          exact ⟨rfl, rfl, rfl, rfl, rfl, rfl, rfl⟩
      case isFalse =>
          rw [hs']
          exact SameAccounts.refl _

-- ============================================================ without loss

namespace RateState

variable {cfg : RateControlConfig} {clk : Clock} {confidence : ℚ}
  {suppress : Bool} {probe : ProbePacket} {s s' : RateState}

/-- A link that has seen no loss: in both directions at least as much
arrived as was sent. -/
structure Lossless (s : RateState) : Prop where
  send : s.sendTxAcc ≤ s.sendRxAcc
  recv : s.recvTxAcc ≤ s.recvRxAcc
  sendLoss : s.sendLoss = 0
  recvLoss : s.recvLoss = 0
  loss : s.loss = 0
  state : s.state ≠ .lossy

/-- An evaluation keeps the order of its accumulators. -/
theorem decayed_mono {minPackets txAcc a b : Nat} (h : a ≤ b) :
    decayed minPackets txAcc a ≤ decayed minPackets txAcc b := by
  unfold decayed
  split
  case isTrue => omega
  case isFalse => exact h

/-- Without a deficit there is no loss, judged or stored. -/
theorem lossOf_eq_zero {minPackets txAcc rxAcc : Nat} (h : txAcc ≤ rxAcc) :
    lossOf minPackets txAcc rxAcc 0 = 0 := by
  unfold lossOf
  rw [Nat.sub_eq_zero_of_le h, Nat.zero_mul, Nat.zero_div, ite_self]

/-- Gating keeps the order of two counts, at any confidence. -/
theorem gated_mono {a b : Nat} (h : a ≤ b) :
    gated cfg confidence a ≤ gated cfg confidence b :=
  scaled_mono 64 _ h

/-- The transition of a link without loss leaves `Running` alone, and
halves accumulators in order if at all. -/
private theorem lossless_transition (h : s.Lossless)
    (ht : s.transition cfg confidence suppress = some s') :
    s'.Lossless ∧ (s.state = .running → s'.state = .running) := by
  have hloss : s.loss.toNat = 0 := by
    rw [h.loss]
    rfl
  cases hst : s.state with
  | running =>
      have hsame : s' = s := by
        unfold transition at ht
        rw [hst, hloss] at ht
        simpa using ht.symm
      rw [hsame]
      exact ⟨h, fun _ => hst⟩
  | lossy => exact absurd hst h.state
  | down =>
      refine ⟨?_, fun hrun => nomatch hrun⟩
      have hsend := h.send
      have hrecv := h.recv
      obtain ⟨f, -, -, hf, -, -, rfl⟩ := transition_down hst ht
      have hmono : ∀ {a b : Nat}, a ≤ b → f a ≤ f b := by
        intro a b hab
        rcases hf with rfl | rfl
        · exact hab
        · exact Nat.div_le_div_right hab
      exact ⟨hmono hsend, hmono hrecv, h.sendLoss, h.recvLoss, h.loss,
        by simp⟩
  | probing =>
      refine ⟨?_, fun hrun => nomatch hrun⟩
      obtain ⟨-, -, rfl⟩ := transition_probing hst ht
      refine ⟨h.send, h.recv, h.sendLoss, h.recvLoss, h.loss, ?_⟩
      dsimp only
      split
      case isTrue => simp
      case isFalse => simp

/-- A probe that reports no loss is processed without inferring any,
whatever the confidence. -/
theorem lossless_probe (h : s.Lossless)
    (hsend : s.pendingTx ≤ probe.rxPackets.toNat)
    (hrecv : probe.txPackets.toNat ≤ s.pendingRx)
    (hp : s.processProbe cfg clk confidence suppress probe = some s') :
    s'.Lossless ∧ (s.state = .running → s'.state = .running) := by
  obtain ⟨m, hm, ht⟩ := processProbe_inv hp
  have hsent : sentSum cfg confidence s
      ≤ deliveredSum cfg confidence probe s :=
    Nat.add_le_add h.send (gated_mono hsend)
  have hoffered : offeredSum cfg confidence probe s
      ≤ receivedSum cfg confidence s :=
    Nat.add_le_add h.recv (gated_mono hrecv)
  have hsendLoss : m.sendLoss = 0 := by
    apply UInt8.toNat_inj.mp
    rw [hm.sendLoss, h.sendLoss]
    exact lossOf_eq_zero hsent
  have hrecvLoss : m.recvLoss = 0 := by
    apply UInt8.toNat_inj.mp
    rw [hm.recvLoss, h.recvLoss]
    exact lossOf_eq_zero hoffered
  obtain ⟨f, hf, hsendTx, hsendRx, hrecvTx, hrecvRx⟩ := hm.accs
  have hmono : ∀ {a b : Nat}, a ≤ b → f a ≤ f b := by
    intro a b hab
    rcases hf with rfl | rfl
    · exact hab
    · exact scaled_mono 64 _ hab
  have hlossless : m.Lossless := {
    send := by
      rw [hsendTx, hsendRx]
      exact hmono (decayed_mono hsent)
    recv := by
      rw [hrecvTx, hrecvRx]
      exact hmono (decayed_mono hoffered)
    sendLoss := hsendLoss
    recvLoss := hrecvLoss
    loss := by
      rw [hm.loss, hsendLoss, hrecvLoss]
      rfl
    state := hm.state ▸ h.state }
  obtain ⟨hs', hrunning⟩ := lossless_transition hlossless ht
  exact ⟨hs', fun hrun => hrunning (hm.state.trans hrun)⟩

/-- A fresh link has seen no loss. -/
theorem lossless_new (i rate : Nat) (fraction : ℚ) (now : Nat) :
    (new i rate fraction now).Lossless :=
  ⟨Nat.le_refl _, Nat.le_refl _, rfl, rfl, rfl, by simp [new]⟩

theorem sound_new (i rate : Nat) (fraction : ℚ) (now : Nat) :
    (new i rate fraction now).Sound :=
  ⟨⟨Nat.le_refl _, Nat.le_refl _⟩, Nat.two_pow_pos 64, Nat.two_pow_pos 64⟩

end RateState

/-- A cycle without reported loss: the remote received what we sent, and
we received what it sent. -/
def Cycle.Lossless (c : Cycle) : Prop :=
  c.sent ≤ c.probe.rxPackets.toNat ∧ c.probe.txPackets.toNat ≤ c.received

instance : DecidablePred Cycle.Lossless := fun _ =>
  inferInstanceAs (Decidable (_ ∧ _))

/-- A call that closes no cycle with loss keeps a link without loss, and
in `Running` unless it is a timeout. -/
theorem lossless_step {rc : RateController} {i : Nat} {op : RateOp}
    {s s' : RateState} (h : s.Lossless)
    (hcloses : ∀ c ∈ op.closes i s, c.Lossless)
    (hstep : op.linkStep rc i s = some s') :
    s'.Lossless ∧ (s.state = .running → s'.state ≠ .running →
      ∃ now, op = .checkTimeouts now) := by
  rcases linkStep_path hstep with ⟨hop, hstate, -⟩
    | ⟨hop, clk, probe, confidence, rfl, hp⟩ | ⟨now, rfl, -, rfl⟩
  · have hsame := linkStep_accounts hop hstep
    refine ⟨?_, fun hrun hleft => absurd (hstate.trans hrun) hleft⟩
    exact {
      send := by
        rw [hsame.sendTxAcc, hsame.sendRxAcc]
        exact h.send
      recv := by
        rw [hsame.recvTxAcc, hsame.recvRxAcc]
        exact h.recv
      sendLoss := hsame.sendLoss.trans h.sendLoss
      recvLoss := hsame.recvLoss.trans h.recvLoss
      loss := hsame.loss.trans h.loss
      state := by
        rw [hstate]
        exact h.state }
  · have hl : probe.linkId.toNat = i := of_decide_eq_true hop
    rw [RateOp.closes, if_pos hl] at hcloses
    obtain ⟨hsend, hrecv⟩ := hcloses _ List.mem_cons_self
    obtain ⟨hs', hrunning⟩ := lossless_probe h hsend hrecv hp
    exact ⟨hs', fun hrun hleft => absurd (hrunning hrun) hleft⟩
  · exact ⟨⟨h.send, h.recv, h.sendLoss, h.recvLoss, h.loss, by simp [goDown]⟩,
      fun _ _ => ⟨now, rfl⟩⟩

/-- A run whose cycles report no loss keeps a link without loss. -/
theorem lossless_run {i : Nat} :
    ∀ {ops : List RateOp} {rc rc' : RateController} {s : RateState},
      Trace.run RateOp.apply ops rc = some rc' →
      rc.states[i]? = some s → s.Sound → s.Lossless →
      (∀ c ∈ cyclesFrom i s.pendingTx s.pendingRx ops, c.Lossless) →
      ∃ s', rc'.states[i]? = some s' ∧ s'.Sound ∧ s'.Lossless
        ∧ ∀ more, cyclesFrom i s.pendingTx s.pendingRx (ops ++ more)
          = cyclesFrom i s.pendingTx s.pendingRx ops
            ++ cyclesFrom i s'.pendingTx s'.pendingRx more := by
  intro ops
  induction ops with
  | nil =>
      intro rc rc' s hrun hs hsound hlossless _
      cases hrun
      exact ⟨s, hs, hsound, hlossless, fun _ => rfl⟩
  | cons op ops ih =>
      intro rc rc' s hrun hs hsound hlossless hcycles
      obtain ⟨rc₁, hstep, hrun⟩ := Trace.run_cons_inv hrun
      obtain ⟨s₁, hlink, hs₁⟩ := (apply_link hstep).2.2 i s hs
      obtain ⟨hsound₁, hcloses⟩ := cyclesFrom_step hsound hlink
      rw [hcloses] at hcycles
      have hlossless₁ := (lossless_step hlossless
        (fun c hc => hcycles c (List.mem_append_left _ hc)) hlink).1
      obtain ⟨s', hs', hsound', hlossless', hmore⟩ := ih hrun hs₁ hsound₁
        hlossless₁ (fun c hc => hcycles c (List.mem_append_right _ hc))
      refine ⟨s', hs', hsound', hlossless', fun more => ?_⟩
      rw [List.cons_append, hcloses, hcloses, hmore, List.append_assoc]

/-- A link of a fresh controller, after a run whose cycles report no
loss. -/
private theorem lossless_reached {cfg : RateControlConfig}
    {maxRates : List Nat} {now : Nat → Nat} {i : Nat} {ops : List RateOp}
    {rc : RateController} {s : RateState}
    (hrun : Trace.run RateOp.apply ops (RateController.new cfg maxRates now)
      = some rc)
    (hs : rc.states[i]? = some s)
    (hcycles : ∀ c ∈ cycles i ops, c.Lossless) :
    s.Sound ∧ s.Lossless ∧ ∀ more, cycles i (ops ++ more)
      = cycles i ops ++ cyclesFrom i s.pendingTx s.pendingRx more := by
  obtain ⟨rate, hnew⟩ := run_new_link hrun hs
  obtain ⟨s', hs', hsound, hlossless, hmore⟩ := lossless_run hrun hnew
    (sound_new _ _ _ _) (lossless_new _ _ _ _) hcycles
  obtain rfl : s = s' := Option.some.inj (hs.symm.trans hs')
  exact ⟨hsound, hlossless, hmore⟩

/-- No loss reported means no loss inferred, in every run and at every
confidence: if each processed probe of a link reports at least as many
packets received as were recorded sent on it since the previous one, and
at most as many sent as were recorded received, then its losses are 0,
it is not `Lossy`, and it never left `Running` but by a timeout. -/
theorem no_loss_inferred {cfg : RateControlConfig} {maxRates : List Nat}
    {now : Nat → Nat} {i : Nat} {ops : List RateOp} {rc : RateController}
    {s : RateState}
    (hrun : Trace.run RateOp.apply ops (RateController.new cfg maxRates now)
      = some rc)
    (hs : rc.states[i]? = some s)
    (hcycles : ∀ c ∈ cycles i ops,
      c.sent ≤ c.probe.rxPackets.toNat
        ∧ c.probe.txPackets.toNat ≤ c.received) :
    s.sendLoss = 0 ∧ s.recvLoss = 0 ∧ s.loss = 0 ∧ s.state ≠ .lossy
      ∧ ∀ (before after : List RateOp) (op : RateOp),
        ops = before ++ op :: after →
        ∀ (rc₀ rc₁ : RateController) (s₀ s₁ : RateState),
          Trace.run RateOp.apply before (RateController.new cfg maxRates now)
            = some rc₀ →
          op.apply rc₀ = some rc₁ →
          rc₀.states[i]? = some s₀ → rc₁.states[i]? = some s₁ →
          s₀.state = .running → s₁.state ≠ .running →
          ∃ now, op = .checkTimeouts now := by
  obtain ⟨-, hlossless, -⟩ := lossless_reached hrun hs hcycles
  refine ⟨hlossless.sendLoss, hlossless.recvLoss, hlossless.loss,
    hlossless.state, ?_⟩
  rintro before after op rfl rc₀ rc₁ s₀ s₁ hrun₀ hstep hs₀ hs₁ hrunning hleft
  have hbefore : ∀ c ∈ cycles i before, c.Lossless :=
    fun c hc => hcycles c ((cyclesFrom_mono _ _ 0 0).subset hc)
  obtain ⟨hsound, hlossless₀, hmore⟩ := lossless_reached hrun₀ hs₀ hbefore
  obtain ⟨t, hlink, ht⟩ := (apply_link hstep).2.2 i s₀ hs₀
  obtain rfl : s₁ = t := Option.some.inj (hs₁.symm.trans ht)
  have hcloses : ∀ c ∈ op.closes i s₀, c.Lossless := by
    intro c hc
    refine hcycles c ?_
    rw [hmore, (cyclesFrom_step hsound hlink).2]
    exact List.mem_append_right _ (List.mem_append_left _ hc)
  exact (lossless_step hlossless₀ hcloses hlink).2 hrunning hleft

/-- 1200 packets each way, all of them reported; then a timeout. -/
private def losslessOps : List RateOp :=
  List.replicate 1200 (.recordTx 0 100) ++ List.replicate 1200 (.recordRx 0 100)
    ++ [.processProbe ⟨2000, 7⟩
      (ProbePacket.mk 0 1 5 0 120000 1200 120000 1200 0 .running)]

/-- Both directions are judged, which leaves fifteen parts in sixteen of
the packets, and no loss is found; it is the timeout that takes the link
down. -/
theorem no_loss_inferred_judged : ∃ rc s,
    Trace.run RateOp.apply (losslessOps ++ [.checkTimeouts fun _ => 6000000000])
        (RateController.new .default [7500000] fun _ => 0) = some rc
      ∧ rc.states[0]? = some s
      ∧ s.sendTxAcc = 1125 ∧ s.recvTxAcc = 1125 ∧ s.state = .down
      ∧ s.sendLoss = 0 ∧ s.recvLoss = 0 ∧ s.loss = 0
      ∧ s.state ≠ .lossy := by
  have hread : ((Trace.run RateOp.apply
        (losslessOps ++ [.checkTimeouts fun _ => 6000000000])
        (RateController.new .default [7500000] fun _ => 0)).bind
      fun rc => rc.states[0]?).map
        (fun s => (s.sendTxAcc, s.recvTxAcc, s.state))
      = some (1125, 1125, .down) := by
    decide +kernel
  obtain ⟨s, hbind, haccs⟩ := Option.map_eq_some_iff.mp hread
  simp only [Prod.mk.injEq] at haccs
  obtain ⟨hsent, hoffered, hdown⟩ := haccs
  obtain ⟨rc, hrun, hs⟩ := Option.bind_eq_some_iff.mp hbind
  obtain ⟨hsend, hrecv, hloss, hstate, -⟩ := no_loss_inferred hrun hs
    (by decide +kernel)
  exact ⟨rc, s, hrun, hs, hsent, hoffered, hdown, hsend, hrecv, hloss, hstate⟩

end ChainLightning
