/-
The arithmetic of `process_probe` under the default configuration.

`Ranged` bounds what a run builds up: the accumulators of our own counts
are behind the counters, the one of the remote's sent count decays as
fast as a probe can feed it, and the recovery counter is small. In that
range every step of the computation fits, save two: the product of the
remote's byte count, which comes off the wire, and the accumulator of
the remote's received count, which decays only when we have sent enough
ourselves (`processProbe_isSome_iff`).
-/
import ChainLightning.Proofs.Rate.Bounds
import ChainLightning.Proofs.Rate.Load

namespace ChainLightning

open Binary64 Machine

namespace RateState

variable {clk : Clock} {confidence : ℚ} {suppress : Bool}
  {probe : ProbePacket} {s s' : RateState}

-- ============================================================== the range

/-- The range a run under the default configuration stays in. -/
structure Ranged (s : RateState) : Prop where
  bounds : s.InBounds
  builtBytes : s.lastProbeTxBytes ≤ s.totalTxBytes
    ∧ s.lastProbeRxBytes ≤ s.totalRxBytes
  settled : s.lastLossTxPackets ≤ s.totalTxPackets
    ∧ s.lastLossRxPackets ≤ s.totalRxPackets
  sendTx : s.totalTxPackets ≤ 2 ^ 53 → s.sendTxAcc ≤ s.lastLossTxPackets
  recvRx : s.totalRxPackets ≤ 2 ^ 53 → s.recvRxAcc ≤ s.lastLossRxPackets
  recvTx : s.recvTxAcc ≤ 2 ^ 36
  recovery : s.recoveryCount ≤ 3
  probing : s.state = .probing → s.recoveryCount ≤ 2

/-- Fewer than 2^40 bytes and packets were recorded on the link. -/
structure Light (s : RateState) : Prop where
  txBytes : s.totalTxBytes < 2 ^ 40
  rxBytes : s.totalRxBytes < 2 ^ 40
  txPackets : s.totalTxPackets < 2 ^ 40
  rxPackets : s.totalRxPackets < 2 ^ 40

/-- The default confidence is at most full. -/
theorem loadConfidence_le_one (load : ℚ) :
    loadConfidence .default load ≤ 1 :=
  (loadConfidence_mem (by decide +kernel) (by decide +kernel) load).2

/-- At a confidence of at most 1 a gated count does not grow. -/
theorem gated_le (cfg : RateControlConfig) (h : confidence ≤ 1) {n : Nat}
    (hn : n ≤ 2 ^ 53) : gated cfg confidence n ≤ n := by
  refine scaled_le 64 ?_ hn
  unfold gateFactor
  split
  case isTrue => exact h
  case isFalse => exact le_rfl

/-- The counts on the wire are of that size. -/
theorem wireCount_le (n : UInt32) : n.toNat ≤ 2 ^ 53 := by
  have h := n.toNat_lt
  omega

/-- A fresh link is in range. -/
theorem ranged_new {i rate now : Nat} (hlo : 25000 ≤ rate)
    (hhi : rate < 2 ^ 32 * 125000) {fraction : ℚ} (hf : fraction ≤ 1 / 2) :
    Ranged (new i rate fraction now) where
  bounds := inBounds_new hlo hhi hf
  builtBytes := ⟨Nat.le_refl _, Nat.le_refl _⟩
  settled := ⟨Nat.le_refl _, Nat.le_refl _⟩
  sendTx := fun _ => Nat.le_refl _
  recvRx := fun _ => Nat.le_refl _
  recvTx := Nat.zero_le _
  recovery := Nat.zero_le _
  probing := fun h => nomatch h

/-- A transition halves the accounts at most, and keeps the recovery
counter below the configured count of 3 while the link is `Probing`. -/
private theorem transition_range (hcount : s.recoveryCount ≤ 3)
    (hprobing : s.state = .probing → s.recoveryCount ≤ 2)
    (h : s.transition .default confidence suppress = some s') :
    s'.sendTxAcc ≤ s.sendTxAcc ∧ s'.recvRxAcc ≤ s.recvRxAcc
      ∧ s'.recvTxAcc ≤ s.recvTxAcc ∧ s'.recoveryCount ≤ 3
      ∧ (s'.state = .probing → s'.recoveryCount ≤ 2) := by
  have hgoal : RateControlConfig.default.probeRecoveryCount.toNat = 3 := rfl
  have hactive : s.Active → s'.sendTxAcc ≤ s.sendTxAcc
      ∧ s'.recvRxAcc ≤ s.recvRxAcc ∧ s'.recvTxAcc ≤ s.recvTxAcc
      ∧ s'.recoveryCount ≤ 3
      ∧ (s'.state = .probing → s'.recoveryCount ≤ 2) := by
    intro hact
    rcases transition_active hact h with ⟨state, hstate, rfl, -⟩
      | ⟨-, -, rfl⟩
    · refine ⟨le_rfl, le_rfl, le_rfl, hcount, fun hp => ?_⟩
      rcases hstate with rfl | rfl
      · cases hp
      · cases hp
    · exact ⟨le_rfl, le_rfl, le_rfl, Nat.zero_le _, fun hp => nomatch hp⟩
  cases hst : s.state with
  | running => exact hactive (Or.inl hst)
  | lossy => exact hactive (Or.inr hst)
  | down =>
      obtain ⟨f, count, rate, hf, hcount', -, rfl⟩ := transition_down hst h
      rw [hgoal] at hcount'
      have hle : ∀ n, f n ≤ n := by
        intro n
        rcases hf with rfl | rfl
        · exact le_rfl
        · exact Nat.div_le_self n 2
      refine ⟨hle _, hle _, hle _, ?_, fun _ => ?_⟩
      · show count ≤ 3
        omega
      · show count ≤ 2
        omega
  | probing =>
      obtain ⟨rate, -, rfl⟩ := transition_probing hst h
      have hle := hprobing hst
      rw [hgoal]
      refine ⟨le_rfl, le_rfl, le_rfl, ?_, fun hp => ?_⟩
      · show s.recoveryCount + 1 ≤ 3
        omega
      · show s.recoveryCount + 1 ≤ 2
        dsimp only at hp
        split at hp
        case isTrue => cases hp
        case isFalse hlt => omega

/-- A processed probe stays in range. Our own counts enter the accounts
once; the remote's enters with 32 bits, and one part in 16 leaves. -/
theorem Ranged.after_probe (h : s.Ranged) (hone : confidence ≤ 1)
    (hp : s.processProbe .default clk confidence suppress probe = some s') :
    s'.Ranged := by
  obtain ⟨m, hm, ht⟩ := processProbe_inv hp
  obtain ⟨hframe, hsettled⟩ := processProbe_frame hp
  obtain ⟨hsend, hrecv, hoffered, hrecovery, hprobing⟩ := transition_range
    (hm.recoveryCount ▸ h.recovery)
    (fun hst => hm.recoveryCount ▸ h.probing (hm.state ▸ hst)) ht
  obtain ⟨f, hf, hsendTx, -, hrecvTx, hrecvRx⟩ := hm.accs
  have hle : ∀ n ≤ 2 ^ 53, f n ≤ n := by
    intro n hn
    rcases hf with rfl | rfl
    · exact le_rfl
    · refine scaled_le 64 ?_ hn
      show (75 / 100 : ℚ) ≤ 1
      norm_num
  refine {
    bounds := (processProbe_rate h.bounds hp).1
    builtBytes := ?_
    settled := ⟨hsettled.1.le, hsettled.2.le⟩
    sendTx := ?_
    recvRx := ?_
    recvTx := ?_
    recovery := hrecovery
    probing := hprobing }
  · rw [hframe.lastProbeTxBytes, hframe.totalTxBytes,
      hframe.lastProbeRxBytes, hframe.totalRxBytes]
    exact h.builtBytes
  · rw [hsettled.1, hframe.totalTxPackets]
    intro hfew
    have hold := h.sendTx hfew
    have hahead := h.settled.1
    have hgated := gated_le .default hone
      (n := s.totalTxPackets - s.lastLossTxPackets) (by omega)
    have hdecayed := decayed_le 1000 (sentSum .default confidence s)
      (sentSum .default confidence s)
    unfold sentSum at hdecayed
    have hacc := hle _ (hdecayed.trans (by omega))
    have hfinal : m.sendTxAcc ≤ s.sendTxAcc + gated .default confidence
        (s.totalTxPackets - s.lastLossTxPackets) := by
      rw [hsendTx]
      exact hacc.trans hdecayed
    omega
  · rw [hsettled.2, hframe.totalRxPackets]
    intro hfew
    have hold := h.recvRx hfew
    have hahead := h.settled.2
    have hgated := gated_le .default hone
      (n := s.totalRxPackets - s.lastLossRxPackets) (by omega)
    have hdecayed := decayed_le 1000 (offeredSum .default confidence probe s)
      (receivedSum .default confidence s)
    unfold receivedSum at hdecayed
    have hacc := hle _ (hdecayed.trans (by omega))
    have hfinal : m.recvRxAcc ≤ s.recvRxAcc + gated .default confidence
        (s.totalRxPackets - s.lastLossRxPackets) := by
      rw [hrecvRx]
      exact hacc.trans hdecayed
    omega
  · have hwire : probe.txPackets.toNat < 2 ^ 32 := probe.txPackets.toNat_lt
    have hgated := gated_le .default hone (n := probe.txPackets.toNat)
      (by omega)
    have hold := h.recvTx
    have hsum : offeredSum .default confidence probe s
        < 2 ^ 36 + 2 ^ 32 := by
      unfold offeredSum
      omega
    have hdecayed := decayed_le 1000 (offeredSum .default confidence probe s)
      (offeredSum .default confidence probe s)
    have hacc : m.recvTxAcc ≤ decayed 1000 (offeredSum .default confidence
        probe s) (offeredSum .default confidence probe s) := by
      rw [hrecvTx]
      exact hle _ (hdecayed.trans (by omega))
    unfold decayed at hacc
    split at hacc
    case isTrue => omega
    case isFalse => omega

end RateState

/-- The confidence of a default controller is at most full. -/
theorem calculateProbeConfidence_le_one {rc : RateController} {i : Nat}
    {confidence : ℚ} (hcfg : rc.config = .default)
    (h : rc.calculateProbeConfidence i = some confidence) :
    confidence ≤ 1 := by
  cases hs : rc.states[i]? with
  | none =>
      unfold RateController.calculateProbeConfidence at h
      rw [hs] at h
      split at h
      case isTrue =>
          cases h
          exact le_rfl
      case isFalse =>
          cases h
          exact le_rfl
  | some s =>
      obtain ⟨load, -, rfl⟩ :=
        calculateProbeConfidence_eq (by rw [hcfg]; rfl) hs h
      rw [hcfg]
      exact RateState.loadConfidence_le_one load

/-- Every call keeps a link in range. -/
theorem ranged_step {rc : RateController} {i : Nat} {op : RateOp}
    {s s' : RateState} (hcfg : rc.config = .default) (h : s.Ranged)
    (hs : op.linkStep rc i s = some s') : s'.Ranged := by
  have hbounds := RateState.linkStep_inBounds h.bounds hs
  obtain ⟨htxBytes, hrxBytes⟩ := h.builtBytes
  obtain ⟨htx, hrx⟩ := h.settled
  cases op with
  | recordTx linkId bytes =>
      simp only [RateOp.linkStep] at hs
      split at hs
      case isTrue =>
          rw [RateState.recordTx_inv hs] at hbounds ⊢
          exact ⟨hbounds, ⟨Nat.le_add_right_of_le htxBytes, hrxBytes⟩,
            ⟨Nat.le_add_right_of_le htx, hrx⟩,
            fun hfew => h.sendTx (Nat.le_of_succ_le hfew), h.recvRx, h.recvTx,
            h.recovery, h.probing⟩
      case isFalse =>
          cases hs
          exact h
  | recordRx linkId bytes =>
      simp only [RateOp.linkStep] at hs
      split at hs
      case isTrue =>
          rw [RateState.recordRx_inv hs] at hbounds ⊢
          exact ⟨hbounds, ⟨htxBytes, Nat.le_add_right_of_le hrxBytes⟩,
            ⟨htx, Nat.le_add_right_of_le hrx⟩, h.sendTx,
            fun hfew => h.recvRx (Nat.le_of_succ_le hfew), h.recvTx,
            h.recovery, h.probing⟩
      case isFalse =>
          cases hs
          exact h
  | buildProbes now =>
      obtain ⟨⟨p, t⟩, hb, rfl⟩ := Option.map_eq_some_iff.mp hs
      obtain ⟨-, -, -, -, -, rfl⟩ := RateState.buildProbe_inv hb
      exact ⟨hbounds, ⟨le_rfl, le_rfl⟩, h.settled, h.sendTx, h.recvRx,
        h.recvTx, h.recovery, h.probing⟩
  | processProbe clk probe =>
      simp only [RateOp.linkStep] at hs
      split at hs
      case isTrue =>
          obtain ⟨confidence, hconfidence, hs⟩ :=
            Option.bind_eq_some_iff.mp hs
          rw [hcfg] at hs
          exact h.after_probe (calculateProbeConfidence_le_one hcfg hconfidence) hs
      case isFalse =>
          cases hs
          exact h
  | checkTimeouts now =>
      simp only [RateOp.linkStep, RateState.checkTimeout] at hs
      split at hs
      case isTrue =>
          cases hs
          exact ⟨hbounds, h.builtBytes, h.settled, h.sendTx, h.recvRx,
            h.recvTx, Nat.zero_le _, fun hp => PathState.noConfusion hp⟩
      case isFalse =>
          cases hs
          exact h

-- =============================================================== what fits

/-- The default probe interval, in microseconds. -/
private theorem default_interval :
    mul 64 RateControlConfig.default.probeIntervalMs.toNat 1000
      = some 200000 :=
  mul_eq_some.mpr ⟨show 200 * 1000 < 2 ^ 64 by norm_num, rfl⟩

namespace RateState

variable {clk : Clock} {confidence : ℚ} {suppress : Bool}
  {probe : ProbePacket} {s : RateState}

/-- Our own rate fits. -/
private theorem ourTxRate_fits (hrate : s.txRate < 2 ^ 49)
    (hbytes : s.totalTxBytes < 2 ^ 40) :
    ∃ rate, s.ourTxRate 200000 = some rate ∧ rate < 2 ^ 49 := by
  unfold ourTxRate
  rw [if_pos (by norm_num)]
  dsimp only
  split
  case isTrue =>
      have hfit : (s.totalTxBytes - s.lastProbeTxBytes) * 1000000 < 2 ^ 64 := by
        omega
      rw [mul_eq_some.mpr ⟨hfit, rfl⟩]
      refine ⟨_, rfl, ?_⟩
      show (s.totalTxBytes - s.lastProbeTxBytes) * 1000000 / 200000 < 2 ^ 49
      omega
  case isFalse => exact ⟨_, rfl, hrate⟩

/-- The probe-based branch evaluates exactly when the product of the
remote's byte count fits. -/
private theorem detectByProbe_isSome_iff
    (hclamp : s.txMinRate ≤ s.txMaxRate) (hrate : s.txRate < 2 ^ 49)
    (hbuilt : s.lastProbeTxBytes ≤ s.totalTxBytes)
    (hbytes : s.totalTxBytes < 2 ^ 40) :
    (s.detectByProbe .default 200000 probe).isSome = true
      ↔ probe.rxBytes.toNat * 1000000 < 2 ^ 64 := by
  obtain ⟨ourRate, hour, hsmall⟩ := ourTxRate_fits hrate hbytes
  have hdelta : sub s.totalTxBytes s.lastProbeTxBytes
      = some (s.totalTxBytes - s.lastProbeTxBytes) :=
    sub_eq_some.mpr ⟨hbuilt, rfl⟩
  unfold detectByProbe
  rw [hdelta, hour]
  by_cases hfit : probe.rxBytes.toNat * 1000000 < 2 ^ 64
  · have hremote : remoteRxRate 200000 probe
        = some (probe.rxBytes.toNat * 1000000 / 200000) := by
      unfold remoteRxRate
      rw [if_pos (by norm_num), mul_eq_some.mpr ⟨hfit, rfl⟩,
        Option.map_some]
    rw [hremote]
    refine ⟨fun _ => hfit, fun _ => ?_⟩
    generalize hgeneral : probe.rxBytes.toNat * 1000000 / 200000 = remoteRate
    have hthreshold : trunc 64 ((ourRate : ℚ)
        * RateControlConfig.default.congestionThreshold) ≤ ourRate := by
      refine trunc_mul_le 64 ourRate ?_
      show (125 / 1000 : ℚ) ≤ 1
      norm_num
    simp only [Option.bind_eq_bind, Option.bind_some]
    split
    case isTrue =>
        generalize trunc 64 ((ourRate : ℚ)
          * RateControlConfig.default.congestionThreshold) = threshold
          at hthreshold ⊢
        rw [add_eq_some.mpr ⟨by omega, rfl⟩, Option.bind_some]
        split
        case isTrue => exact applyRateChange_isSome hclamp _
        case isFalse => exact applyRateChange_isSome hclamp _
    case isFalse =>
        split
        case isTrue => exact applyRateChange_isSome hclamp _
        case isFalse => rfl
  · have hremote : remoteRxRate 200000 probe = none := by
      unfold remoteRxRate
      rw [if_pos (by norm_num)]
      unfold mul fit
      rw [if_neg hfit, Option.map_none]
    rw [hremote]
    simp only [Option.bind_eq_bind, Option.bind_some, Option.bind_none,
      Option.isSome_none, Bool.false_eq_true, false_iff]
    exact hfit

/-- Congestion detection evaluates at a low confidence, or when the
product of the remote's byte count fits. -/
private theorem detectCongestion_isSome_iff
    (hclamp : s.txMinRate ≤ s.txMaxRate) (hrate : s.txRate < 2 ^ 49)
    (hbuilt : s.lastProbeTxBytes ≤ s.totalTxBytes)
    (hsettled : s.lastLossTxPackets ≤ s.totalTxPackets
      ∧ s.lastLossRxPackets ≤ s.totalRxPackets)
    (hbytes : s.totalTxBytes < 2 ^ 40) :
    (s.detectCongestion .default confidence probe).isSome = true
      ↔ confidence ≤ 1 / 2 ∨ probe.rxBytes.toNat * 1000000 < 2 ^ 64 := by
  unfold detectCongestion
  rw [default_interval]
  simp only [Option.bind_eq_bind, Option.bind_some]
  by_cases hhigh : confidence > 1 / 2
  · rw [if_pos (Or.inl hhigh),
      detectByProbe_isSome_iff hclamp hrate hbuilt hbytes]
    constructor
    · exact fun h => Or.inr h
    · rintro (h | h)
      · exact absurd hhigh (not_lt.mpr h)
      · exact h
  · have hbranch : ¬(confidence > 1 / 2
        ∨ RateControlConfig.default.tapaEnabled = false) := by
      rintro (h | h)
      · exact hhigh h
      · cases h
    rw [if_neg hbranch, sub_eq_some.mpr ⟨hsettled.1, rfl⟩,
      sub_eq_some.mpr ⟨hsettled.2, rfl⟩]
    refine ⟨fun _ => Or.inl (not_lt.mp hhigh), fun _ => ?_⟩
    simp only [Option.bind_some]
    split
    case isTrue => exact applyRateChange_isSome hclamp _
    case isFalse => rfl

/-- The gated counts are added exactly when the account of the remote's
received count has room. -/
private theorem accumulate_isSome_iff {cfg : RateControlConfig}
    (hone : confidence ≤ 1)
    (hsettled : s.lastLossTxPackets ≤ s.totalTxPackets
      ∧ s.lastLossRxPackets ≤ s.totalRxPackets)
    (hsendTx : s.sendTxAcc ≤ s.lastLossTxPackets)
    (hrecvRx : s.recvRxAcc ≤ s.lastLossRxPackets)
    (hrecvTx : s.recvTxAcc ≤ 2 ^ 36)
    (hpackets : s.totalTxPackets < 2 ^ 40 ∧ s.totalRxPackets < 2 ^ 40) :
    (s.accumulate cfg confidence probe).isSome = true
      ↔ s.sendRxAcc + gated cfg confidence probe.rxPackets.toNat
        < 2 ^ 64 := by
  have hwire : probe.txPackets.toNat < 2 ^ 32 := probe.txPackets.toNat_lt
  have hsent := gated_le cfg hone
    (n := s.totalTxPackets - s.lastLossTxPackets) (by omega)
  have hreceived := gated_le cfg hone
    (n := s.totalRxPackets - s.lastLossRxPackets) (by omega)
  have hoffered := gated_le cfg hone (n := probe.txPackets.toNat) (by omega)
  unfold accumulate
  rw [sub_eq_some.mpr ⟨hsettled.1, rfl⟩, sub_eq_some.mpr ⟨hsettled.2, rfl⟩]
  simp only [Option.bind_eq_bind, Option.bind_some]
  rw [add_eq_some.mpr ⟨by omega, rfl⟩]
  simp only [Option.bind_some]
  by_cases hroom : s.sendRxAcc + gated cfg confidence probe.rxPackets.toNat
      < 2 ^ 64
  · rw [add_eq_some.mpr ⟨hroom, rfl⟩]
    simp only [Option.bind_some]
    rw [add_eq_some.mpr ⟨by omega, rfl⟩, add_eq_some.mpr ⟨by omega, rfl⟩]
    exact ⟨fun _ => hroom, fun _ => rfl⟩
  · have hnone : add 64 s.sendRxAcc
        (gated cfg confidence probe.rxPackets.toNat) = none := by
      unfold add fit
      rw [if_neg hroom]
    rw [hnone]
    exact ⟨(fun h => nomatch h), fun h => absurd h hroom⟩

/-- One direction evaluates when its sent count is small. -/
private theorem evaluateLoss_isSome {minPackets txAcc rxAcc : Nat}
    {loss : UInt8} (h : txAcc < 2 ^ 41) :
    ∃ r, evaluateLoss minPackets txAcc rxAcc loss = some r := by
  unfold evaluateLoss
  split
  case isTrue =>
      split
      case isTrue =>
          have hfit : (txAcc - rxAcc) * 255 < 2 ^ 64 := by omega
          rw [mul_eq_some.mpr ⟨hfit, rfl⟩]
          exact ⟨_, rfl⟩
      case isFalse => exact ⟨_, rfl⟩
  case isFalse => exact ⟨_, rfl⟩

/-- Both directions do. -/
private theorem evaluate_isSome {cfg : RateControlConfig}
    (hsend : s.sendTxAcc < 2 ^ 41) (hrecv : s.recvTxAcc < 2 ^ 41) :
    ∃ s', s.evaluate cfg = some s' := by
  obtain ⟨⟨sendLoss, sendTx, sendRx⟩, hs⟩ := evaluateLoss_isSome hsend
  obtain ⟨⟨recvLoss, recvTx, recvRx⟩, hr⟩ := evaluateLoss_isSome hrecv
  unfold evaluate
  rw [hs]
  simp only [Option.bind_eq_bind, Option.bind_some]
  rw [hr]
  exact ⟨_, rfl⟩

/-- The transition evaluates while the recovery counter is small. -/
private theorem transition_isSome {cfg : RateControlConfig}
    (h : s.recoveryCount ≤ 3) :
    (s.transition cfg confidence suppress).isSome = true := by
  unfold transition
  have hcount : add 32 s.recoveryCount 1 = some (s.recoveryCount + 1) :=
    add_eq_some.mpr ⟨by omega, rfl⟩
  rw [hcount]
  cases s.state with
  | running => dsimp only; split_ifs <;> rfl
  | lossy => dsimp only; split_ifs <;> rfl
  | down => dsimp only; split_ifs <;> rfl
  | probing =>
      simp only [Option.bind_eq_bind, Option.bind_some]
      split_ifs <;> rfl

/-- A computation is defined when its first step is and, whatever that
yields, the rest is. -/
private theorem isSome_bind {α β : Type} {x : Option α} {f : α → Option β}
    (hx : ∃ a, x = some a) (hf : ∀ a, x = some a → (f a).isSome = true) :
    (x.bind f).isSome = true := by
  obtain ⟨a, ha⟩ := hx
  rw [ha]
  exact hf a ha

/-- A probe on a link in range is processed to the end exactly when the
product of its byte count fits, or is not formed, and the account of its
packets has room. -/
theorem processProbe_isSome_iff (h : s.Ranged) (hlight : s.Light)
    (hone : confidence ≤ 1) :
    (s.processProbe .default clk confidence suppress probe).isSome = true
      ↔ (confidence ≤ 1 / 2 ∨ probe.rxBytes.toNat * 1000000 < 2 ^ 64)
        ∧ s.sendRxAcc
            + gated .default confidence probe.rxPackets.toNat < 2 ^ 64 := by
  have hclamp : s.txMinRate ≤ s.txMaxRate := le_trans h.bounds.above
    h.bounds.below
  have hrate : s.txRate < 2 ^ 49 := by
    have hbelow := h.bounds.below
    have hceiling := h.bounds.ceiling
    omega
  have hpackets := And.intro hlight.txPackets hlight.rxPackets
  unfold processProbe
  simp only [Option.bind_eq_bind]
  obtain ⟨srttUs, rttVarUs, hrtt⟩ := measureRtt_inv .default clk.micros probe
    (s.noteArrival clk.instant confidence probe)
  rw [hrtt]
  generalize ht : ({ s.noteArrival clk.instant confidence probe with
    srttUs, rttVarUs } : RateState) = t
  have hdetect : (t.detectCongestion .default confidence probe).isSome = true
      ↔ confidence ≤ 1 / 2 ∨ probe.rxBytes.toNat * 1000000 < 2 ^ 64 := by
    rw [← ht]
    exact detectCongestion_isSome_iff hclamp hrate h.builtBytes.1 h.settled
      hlight.txBytes
  have haccumulate : ∀ rate, (({ t with txRate := rate } :
      RateState).accumulate .default confidence probe).isSome = true
        ↔ s.sendRxAcc + gated .default confidence probe.rxPackets.toNat
          < 2 ^ 64 := by
    intro rate
    rw [← ht]
    exact accumulate_isSome_iff hone h.settled (h.sendTx (by omega))
      (h.recvRx (by omega)) h.recvTx hpackets
  constructor
  · intro hsome
    obtain ⟨s', hs'⟩ := Option.isSome_iff_exists.mp hsome
    obtain ⟨paced, hpace, hs'⟩ := Option.bind_eq_some_iff.mp hs'
    obtain ⟨counted, hcount, -⟩ := Option.bind_eq_some_iff.mp hs'
    obtain ⟨rate, rfl, -⟩ := detectCongestion_inv hpace
    refine ⟨hdetect.mp ?_, (haccumulate rate).mp ?_⟩
    · rw [hpace]
      rfl
    · rw [hcount]
      rfl
  · rintro ⟨hwire, hroom⟩
    obtain ⟨paced, hpace⟩ :=
      Option.isSome_iff_exists.mp (hdetect.mpr hwire)
    obtain ⟨rate, rfl, -⟩ := detectCongestion_inv hpace
    obtain ⟨counted, hcount⟩ :=
      Option.isSome_iff_exists.mp ((haccumulate rate).mpr hroom)
    rw [hpace, Option.bind_some, hcount, Option.bind_some]
    obtain ⟨-, -, rfl⟩ := accumulate_inv hcount
    have hwire : probe.txPackets.toNat < 2 ^ 32 := probe.txPackets.toNat_lt
    have hsent := gated_le .default hone
      (n := s.totalTxPackets - s.lastLossTxPackets) (by omega)
    have hoffered := gated_le .default hone (n := probe.txPackets.toNat)
      (by omega)
    have hsendTx := h.sendTx (by omega)
    have hsettled := h.settled
    have hrecvTx := h.recvTx
    subst ht
    refine isSome_bind (evaluate_isSome ?_ ?_) ?_
    · show s.sendTxAcc + gated .default confidence
        (s.totalTxPackets - s.lastLossTxPackets) < 2 ^ 41
      omega
    · show s.recvTxAcc + gated .default confidence probe.txPackets.toNat
        < 2 ^ 41
      omega
    · intro judged hjudge
      obtain ⟨sendLoss, recvLoss, -, -, rfl⟩ := evaluate_inv hjudge
      obtain ⟨f, -, hrecovered⟩ := accelerateRecovery_inv .default _
      rw [hrecovered]
      exact transition_isSome h.recovery

end RateState

/-- The traffic load of a light link is defined. -/
private theorem trafficLoad_isSome {s : RateState} (h : s.Ranged)
    (hlight : s.Light) (interval : Nat) :
    ∃ load, s.trafficLoad interval = some load := by
  have htx := hlight.txBytes
  have hrx := hlight.rxBytes
  have hfit : max (s.totalTxBytes - s.lastProbeTxBytes)
      (s.totalRxBytes - s.lastProbeRxBytes) * 1000000 < 2 ^ 64 := by omega
  unfold RateState.trafficLoad
  split
  case isTrue => exact ⟨_, rfl⟩
  case isFalse =>
      simp only [Option.bind_eq_bind, Option.bind_eq_some_iff, sub_eq_some,
        mul_eq_some]
      exact ⟨_, _, ⟨h.builtBytes.1, rfl⟩, _, ⟨h.builtBytes.2, rfl⟩, _,
        ⟨hfit, rfl⟩, rfl⟩

/-- The confidence of a light link is defined. -/
theorem calculateProbeConfidence_isSome {rc : RateController}
    {i : Nat} {s : RateState} (hcfg : rc.config = .default)
    (hs : rc.states[i]? = some s) (h : s.Ranged) (hlight : s.Light) :
    ∃ confidence, rc.calculateProbeConfidence i = some confidence := by
  obtain ⟨load, hload⟩ := trafficLoad_isSome h hlight 200000
  unfold RateController.calculateProbeConfidence
  rw [hcfg, if_neg (by decide), hs]
  simp only [Option.bind_eq_bind]
  rw [default_interval, Option.bind_some, hload, Option.bind_some]
  exact ⟨_, rfl⟩

/-- What a peer can make fail. Under the default configuration, in every
state reached with fewer than 2^40 bytes and packets recorded, a probe is
processed to the end if and only if, on its link, the product of its byte
count fits 64 bits or the confidence is too low to form it, and the
account of the packets reported received has room for its packet
count. -/
theorem process_probe_defined_iff {maxRates : List Nat}
    (hrates : ∀ rate ∈ maxRates, 25000 ≤ rate ∧ rate ≤ 2 ^ 40)
    {now : Nat → Nat} {ops : List RateOp} {rc : RateController}
    (hrun : Trace.run RateOp.apply ops
      (RateController.new .default maxRates now) = some rc)
    (hlight : ∀ s ∈ rc.states, s.totalTxBytes < 2 ^ 40
      ∧ s.totalRxBytes < 2 ^ 40 ∧ s.totalTxPackets < 2 ^ 40
      ∧ s.totalRxPackets < 2 ^ 40)
    (clk : Clock) (probe : ProbePacket) :
    (RateOp.apply (.processProbe clk probe) rc).isSome = true
      ↔ ∀ s confidence, rc.states[probe.linkId.toNat]? = some s →
        rc.calculateProbeConfidence probe.linkId.toNat = some confidence →
        (confidence ≤ 1 / 2 ∨ probe.rxBytes.toNat * 1000000 < 2 ^ 64)
          ∧ s.sendRxAcc + RateState.gated .default confidence
            probe.rxPackets.toNat < 2 ^ 64 := by
  have hcfg : rc.config = .default := (run_config hrun).1
  have hranged : ∀ (i : Nat) (s : RateState), rc.states[i]? = some s →
      s.Ranged := by
    refine reachable_link (P := fun _ s => RateState.Ranged s) ?_ ?_ hrun
    · intro i rate hi
      obtain ⟨hlo, hhi⟩ := hrates rate (List.mem_of_getElem? hi)
      refine RateState.ranged_new hlo (by omega) ?_
      show (10 / 100 : ℚ) ≤ 1 / 2
      norm_num
    · exact fun _ _ _ _ _ hcfg h hs => ranged_step hcfg h hs
  show (rc.processProbe clk probe).isSome = true ↔ _
  unfold RateController.processProbe
  simp only [Option.bind_eq_bind]
  cases hs : rc.states[probe.linkId.toNat]? with
  | none =>
      -- a probe for a link that does not exist changes nothing
      refine ⟨(fun _ s _ hs' => nomatch hs'), fun _ => ?_⟩
      have hfull : rc.calculateProbeConfidence probe.linkId.toNat = some 1 := by
        unfold RateController.calculateProbeConfidence
        rw [hs, ite_self]
      rw [hfull, Option.bind_some]
      unfold RateController.onLink
      rw [hs]
      rfl
  | some s =>
      have hrange := hranged _ s hs
      obtain ⟨htxBytes, hrxBytes, htx, hrx⟩ :=
        hlight s (List.mem_of_getElem? hs)
      have hlight' : s.Light := ⟨htxBytes, hrxBytes, htx, hrx⟩
      obtain ⟨confidence, hconfidence⟩ :=
        calculateProbeConfidence_isSome hcfg hs hrange hlight'
      have hone := calculateProbeConfidence_le_one hcfg hconfidence
      rw [hconfidence, Option.bind_some]
      unfold RateController.onLink
      rw [hs, hcfg]
      simp only [Option.isSome_map]
      rw [RateState.processProbe_isSome_iff hrange hlight' hone]
      constructor
      · rintro h s' confidence' hs' hconfidence'
        cases hs'
        cases hconfidence'
        exact h
      · exact fun h => h s confidence rfl rfl

/-- A probe that claims 18446744073710 bytes received. -/
private def boastfulProbe : ProbePacket :=
  ProbePacket.mk 0 1 5 0 0 0 18446744073710 0 0 .running

/-- A probe that claims one byte less. -/
private def largeProbe : ProbePacket :=
  ProbePacket.mk 0 1 5 0 0 0 18446744073709 4294967295 0 .running

/-- The second of them on a fresh link. -/
theorem process_probe_defined_large :
    (RateOp.apply (.processProbe ⟨2000, 7⟩ largeProbe)
      (RateController.new .default [7500000] fun _ => 0)).isSome = true := by
  have hrun : Trace.run RateOp.apply []
      (RateController.new .default [7500000] fun _ => 0)
      = some (RateController.new .default [7500000] fun _ => 0) := rfl
  refine (process_probe_defined_iff (by decide) hrun (by decide) _ _).mpr ?_
  rintro s confidence hs -
  cases hs
  refine ⟨Or.inr (by decide), ?_⟩
  show 0 + RateState.gated .default confidence 4294967295 < 2 ^ 64
  rw [Nat.zero_add]
  exact scaled_lt 64 _ _

/-- A datagram with the first of them decodes, and stops a controller on
which nothing was recorded. -/
theorem process_probe_overflow :
    ProbePacket.decode boastfulProbe.encode = some boastfulProbe
      ∧ Trace.run RateOp.apply []
          (RateController.new .default [7500000] fun _ => 0)
        = some (RateController.new .default [7500000] fun _ => 0)
      ∧ (∀ rate ∈ [7500000], 25000 ≤ rate ∧ rate ≤ 2 ^ 40)
      ∧ (∀ s ∈ (RateController.new .default [7500000] fun _ => 0).states,
        s.totalTxBytes < 2 ^ 40 ∧ s.totalRxBytes < 2 ^ 40
          ∧ s.totalTxPackets < 2 ^ 40 ∧ s.totalRxPackets < 2 ^ 40)
      ∧ RateOp.apply (.processProbe ⟨2000, 7⟩ boastfulProbe)
          (RateController.new .default [7500000] fun _ => 0) = none := by
  refine ⟨by decide, rfl, by decide, by decide, ?_⟩
  apply Option.isNone_iff_eq_none.mp
  decide +kernel

end ChainLightning
