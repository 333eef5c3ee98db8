/-
What each stage of `process_probe` does.

One inversion lemma per stage, each naming the fields the stage writes
as a record update of the state it started from; everything else about
a processed probe is read off these. `processProbe_inv` puts them
together: sections 1 to 4 make a state that `Judged` describes field by
field, and the transition goes on from there. The later proofs cite
these lemmas and never unfold the stages again.
-/
import ChainLightning.RateController

namespace ChainLightning

open Binary64 Machine

namespace RateState

variable {cfg : RateControlConfig} {clk : Clock} {confidence : ℚ}
  {suppress : Bool} {probe : ProbePacket} {s s' : RateState}

-- ================================================== counting and reporting

/-- A recorded transmission is counted, nothing else. -/
theorem recordTx_inv {bytes : Nat} (h : s.recordTx bytes = some s') :
    s' = { s with
      totalTxBytes := s.totalTxBytes + bytes
      totalTxPackets := s.totalTxPackets + 1 } := by
  unfold recordTx at h
  simp only [Option.bind_eq_bind, Option.bind_eq_some_iff, add_eq_some] at h
  obtain ⟨_, ⟨-, rfl⟩, _, ⟨-, rfl⟩, h⟩ := h
  cases h
  rfl

/-- The counters of transmissions stay `u64` values. -/
theorem recordTx_fits {bytes : Nat} (h : s.recordTx bytes = some s') :
    s'.totalTxPackets < 2 ^ 64 := by
  unfold recordTx at h
  simp only [Option.bind_eq_bind, Option.bind_eq_some_iff, add_eq_some] at h
  obtain ⟨_, -, _, ⟨hfit, rfl⟩, h⟩ := h
  cases h
  exact hfit

/-- A recorded reception is counted, nothing else. -/
theorem recordRx_inv {bytes : Nat} (h : s.recordRx bytes = some s') :
    s' = { s with
      totalRxBytes := s.totalRxBytes + bytes
      totalRxPackets := s.totalRxPackets + 1 } := by
  unfold recordRx at h
  simp only [Option.bind_eq_bind, Option.bind_eq_some_iff, add_eq_some] at h
  obtain ⟨_, ⟨-, rfl⟩, _, ⟨-, rfl⟩, h⟩ := h
  cases h
  rfl

/-- The counters of receptions stay `u64` values. -/
theorem recordRx_fits {bytes : Nat} (h : s.recordRx bytes = some s') :
    s'.totalRxPackets < 2 ^ 64 := by
  unfold recordRx at h
  simp only [Option.bind_eq_bind, Option.bind_eq_some_iff, add_eq_some] at h
  obtain ⟨_, -, _, ⟨hfit, rfl⟩, h⟩ := h
  cases h
  exact hfit

/-- A probe carries the time it was built at and the last timestamp heard
from the far side. -/
theorem buildProbe_stamps {now : UInt64} {p : ProbePacket}
    (h : s.buildProbe now = some (p, s')) :
    p.timestampUs = now ∧ p.echoTimestampUs = s.lastRemoteTimestampUs := by
  unfold buildProbe at h
  simp only [Option.bind_eq_bind, Option.bind_eq_some_iff] at h
  obtain ⟨_, -, _, -, _, -, _, -, h⟩ := h
  cases h
  exact ⟨rfl, rfl⟩

/-- A built probe reports the packets counted since the last one, cut to
32 bits, and moves the snapshots up to the counters. -/
theorem buildProbe_inv {now : UInt64} {p : ProbePacket}
    (h : s.buildProbe now = some (p, s')) :
    p.linkId = UInt8.ofNat s.linkId
      ∧ s.lastProbeTxPackets ≤ s.totalTxPackets
      ∧ s.lastProbeRxPackets ≤ s.totalRxPackets
      ∧ p.txPackets.toNat
        = (s.totalTxPackets - s.lastProbeTxPackets) % 2 ^ 32
      ∧ p.rxPackets.toNat
        = (s.totalRxPackets - s.lastProbeRxPackets) % 2 ^ 32
      ∧ s' = { s with
          probeSeq := s.probeSeq + 1
          lastProbeSentUs := now
          lastProbeTxBytes := s.totalTxBytes
          lastProbeTxPackets := s.totalTxPackets
          lastProbeRxBytes := s.totalRxBytes
          lastProbeRxPackets := s.totalRxPackets } := by
  unfold buildProbe at h
  simp only [Option.bind_eq_bind, Option.bind_eq_some_iff, sub_eq_some]
    at h
  obtain ⟨_, ⟨-, rfl⟩, _, ⟨htx, rfl⟩, _, ⟨-, rfl⟩, _, ⟨hrx, rfl⟩, h⟩ := h
  cases h
  exact ⟨rfl, htx, hrx, UInt32.toNat_ofNat', UInt32.toNat_ofNat', rfl⟩

-- ============================================================ rate changes

/-- The most one bounded step may move a rate. -/
def maxChange (cfg : RateControlConfig) (rate : Nat) : Nat :=
  max 12500 ⌊(rate : ℚ) * cfg.maxRateChangeFraction⌋₊

/-- A rate step within the bound, in either direction. -/
def Steady (cfg : RateControlConfig) (rate rate' : Nat) : Prop :=
  rate' ≤ rate + maxChange cfg rate ∧ rate ≤ rate' + maxChange cfg rate

theorem Steady.rfl {rate : Nat} : Steady cfg rate rate :=
  ⟨Nat.le_add_right _ _, Nat.le_add_right _ _⟩

/-- The rate a bounded change ends in: within floor and ceiling, and
within one step of a rate that was. -/
def Paced (cfg : RateControlConfig) (s : RateState) (rate : Nat) : Prop :=
  s.txMinRate ≤ rate ∧ rate ≤ s.txMaxRate
    ∧ (s.txMinRate ≤ s.txRate → s.txRate ≤ s.txMaxRate →
        Steady cfg s.txRate rate)

/-- `apply_rate_change` writes the rate only, and the final clamp does
not undo the step bound: it moves toward an interval that the old rate
lies in. -/
theorem applyRateChange_inv {desired : Nat}
    (h : s.applyRateChange cfg desired = some s') :
    ∃ rate, s' = { s with txRate := rate } ∧ Paced cfg s rate := by
  have hcap : trunc 64 ((s.txRate : ℚ) * cfg.maxRateChangeFraction)
      ≤ ⌊(s.txRate : ℚ) * cfg.maxRateChangeFraction⌋₊ := trunc_le_floor _ _
  unfold applyRateChange at h
  simp only at h
  split at h
  case isTrue hle =>
      cases h
      refine ⟨_, rfl, ?_, ?_, ?_⟩
      · omega
      · omega
      · intro hlo hhi
        unfold Steady maxChange
        split <;> constructor <;> omega
  case isFalse hnle => cases h

/-- What pacing may do to a state: nothing, or one bounded change. -/
def PacedFrom (cfg : RateControlConfig) (s s' : RateState) : Prop :=
  ∃ rate, s' = { s with txRate := rate }
    ∧ (rate = s.txRate ∨ Paced cfg s rate)

private theorem pacedFrom_self : PacedFrom cfg s s :=
  ⟨s.txRate, rfl, Or.inl rfl⟩

private theorem pacedFrom_change {desired : Nat}
    (h : s.applyRateChange cfg desired = some s') : PacedFrom cfg s s' := by
  obtain ⟨rate, hs, hp⟩ := applyRateChange_inv h
  exact ⟨rate, hs, Or.inr hp⟩

private theorem pacedFrom_detectByProbe {txDt : Nat}
    (h : s.detectByProbe cfg txDt probe = some s') :
    PacedFrom cfg s s' := by
  unfold detectByProbe at h
  simp only [Option.bind_eq_bind, Option.bind_eq_some_iff] at h
  obtain ⟨-, -, ourTxRate, -, remoteRxRate, -, h⟩ := h
  split at h
  case isTrue =>
      obtain ⟨slack, -, h⟩ := Option.bind_eq_some_iff.mp h
      split at h
      case isTrue => exact pacedFrom_change h
      case isFalse => exact pacedFrom_change h
  case isFalse =>
      split at h
      case isTrue => exact pacedFrom_change h
      case isFalse =>
          cases h
          exact pacedFrom_self

/-- Section 2 writes the rate only, through `apply_rate_change`. -/
theorem detectCongestion_inv
    (h : s.detectCongestion cfg confidence probe = some s') :
    PacedFrom cfg s s' := by
  unfold detectCongestion at h
  obtain ⟨txDt, -, h⟩ := Option.bind_eq_some_iff.mp h
  split at h
  case isTrue => exact pacedFrom_detectByProbe h
  case isFalse =>
      obtain ⟨ourTxDelta, -, h⟩ := Option.bind_eq_some_iff.mp h
      obtain ⟨ourRxDelta, -, h⟩ := Option.bind_eq_some_iff.mp h
      split at h
      case isTrue => exact pacedFrom_change h
      case isFalse =>
          cases h
          exact pacedFrom_self

/-- Section 1 writes the RTT estimate only. -/
theorem measureRtt_inv (cfg : RateControlConfig) (now : UInt64)
    (probe : ProbePacket) (s : RateState) :
    ∃ srttUs rttVarUs,
      s.measureRtt cfg now probe = { s with srttUs, rttVarUs } := by
  unfold measureRtt
  split
  case isTrue =>
      simp only
      split
      case isTrue => exact ⟨_, _, rfl⟩
      case isFalse => exact ⟨_, _, rfl⟩
  case isFalse => exact ⟨s.srttUs, s.rttVarUs, rfl⟩

/-- The RTT sample that a probe gives at a reading of the clock. -/
def rttSample (now : UInt64) (probe : ProbePacket) : Option Nat :=
  if probe.echoTimestampUs > 0 ∧ now > probe.echoTimestampUs then
    some (now.toNat - probe.echoTimestampUs.toNat)
  else none

/-- The smoothed RTT behind a sample: the first sample sets it. -/
def smoothRtt (cfg : RateControlConfig) (srttUs rtt : Nat) : Nat :=
  if srttUs = 0 then rtt
  else trunc 64 (mix cfg.rttEwmaAlpha rtt srttUs)

/-- Section 1 smooths the sample, if there is one. -/
theorem measureRtt_srtt (cfg : RateControlConfig) (now : UInt64)
    (probe : ProbePacket) (s : RateState) :
    (s.measureRtt cfg now probe).srttUs
      = (rttSample now probe).elim s.srttUs (smoothRtt cfg s.srttUs) := by
  unfold measureRtt rttSample
  by_cases hsample : probe.echoTimestampUs > 0 ∧ now > probe.echoTimestampUs
  · rw [if_pos hsample, if_pos hsample, Option.elim_some, smoothRtt]
    by_cases hfirst : s.srttUs = 0
    · simp only [if_pos hfirst]
    · simp only [if_neg hfirst]
  · rw [if_neg hsample, if_neg hsample, Option.elim_none]

-- ======================================================== loss accounting

/-- The first half of section 3: the counter snapshots advance and the
gated deltas are added. -/
theorem accumulate_inv (h : s.accumulate cfg confidence probe = some s') :
    s.lastLossTxPackets ≤ s.totalTxPackets
      ∧ s.lastLossRxPackets ≤ s.totalRxPackets
      ∧ s' = { s with
          lastLossTxPackets := s.totalTxPackets
          lastLossRxPackets := s.totalRxPackets
          sendTxAcc := s.sendTxAcc + gated cfg confidence
            (s.totalTxPackets - s.lastLossTxPackets)
          sendRxAcc := s.sendRxAcc
            + gated cfg confidence probe.rxPackets.toNat
          recvTxAcc := s.recvTxAcc
            + gated cfg confidence probe.txPackets.toNat
          recvRxAcc := s.recvRxAcc + gated cfg confidence
            (s.totalRxPackets - s.lastLossRxPackets) } := by
  unfold accumulate at h
  simp only [Option.bind_eq_bind, Option.bind_eq_some_iff, sub_eq_some,
    add_eq_some] at h
  obtain ⟨_, ⟨htx, rfl⟩, _, ⟨hrx, rfl⟩, _, ⟨-, rfl⟩, _, ⟨-, rfl⟩,
    _, ⟨-, rfl⟩, _, ⟨-, rfl⟩, h⟩ := h
  cases h
  exact ⟨htx, hrx, rfl⟩

/-- The accumulators with the reported counts are `u64` values. -/
theorem accumulate_fits (h : s.accumulate cfg confidence probe = some s') :
    s'.sendRxAcc < 2 ^ 64 ∧ s'.recvRxAcc < 2 ^ 64 := by
  unfold accumulate at h
  simp only [Option.bind_eq_bind, Option.bind_eq_some_iff, sub_eq_some,
    add_eq_some] at h
  obtain ⟨_, -, _, -, _, -, _, ⟨hsend, rfl⟩, _, -, _, ⟨hrecv, rfl⟩, h⟩ := h
  cases h
  exact ⟨hsend, hrecv⟩

/-- The loss that one direction is judged by: the stored one up to the
packet minimum, the lost share of the packets sent above it. -/
def lossOf (minPackets txAcc rxAcc stored : Nat) : Nat :=
  if txAcc > minPackets then (txAcc - rxAcc) * 255 / txAcc else stored

/-- The accumulator that one evaluation leaves, decayed or not according
to the sent side. -/
def decayed (minPackets txAcc acc : Nat) : Nat :=
  if txAcc > minPackets then acc - acc / 16 else acc

/-- An evaluated account is no larger. -/
theorem decayed_le (minPackets txAcc acc : Nat) :
    decayed minPackets txAcc acc ≤ acc := by
  unfold decayed
  split
  case isTrue => exact Nat.sub_le _ _
  case isFalse => exact Nat.le_refl _

/-- One direction of the second half of section 3. -/
theorem evaluateLoss_inv {minPackets txAcc rxAcc txAcc' rxAcc' : Nat}
    {loss loss' : UInt8}
    (h : evaluateLoss minPackets txAcc rxAcc loss
      = some (loss', txAcc', rxAcc')) :
    loss'.toNat = lossOf minPackets txAcc rxAcc loss.toNat
      ∧ txAcc' = decayed minPackets txAcc txAcc
      ∧ rxAcc' = decayed minPackets txAcc rxAcc := by
  unfold evaluateLoss at h
  unfold lossOf decayed
  split at h
  case isTrue hmin =>
      rw [if_pos hmin, if_pos hmin, if_pos hmin]
      split at h
      case isTrue hgt =>
          simp only [Option.bind_eq_bind, Option.bind_eq_some_iff,
            mul_eq_some] at h
          obtain ⟨_, ⟨-, rfl⟩, h⟩ := h
          cases h
          refine ⟨?_, rfl, rfl⟩
          -- the ratio is at most 255, so the cast to 8 bits keeps it
          have hle : (txAcc - rxAcc) * 255 / txAcc ≤ 255 := by
            apply Nat.div_le_of_le_mul
            exact Nat.mul_le_mul_right 255 (Nat.sub_le _ _)
          rw [UInt8.toNat_ofNat']
          exact Nat.mod_eq_of_lt (by omega)
      case isFalse hle =>
          cases h
          refine ⟨?_, rfl, rfl⟩
          rw [Nat.sub_eq_zero_of_le (by omega), Nat.zero_mul, Nat.zero_div]
          rfl
  case isFalse hmin =>
      cases h
      rw [if_neg hmin, if_neg hmin, if_neg hmin]
      exact ⟨rfl, rfl, rfl⟩

/-- The second half of section 3: both directions are judged, and the
effective loss is the worse of them. -/
theorem evaluate_inv (h : s.evaluate cfg = some s') :
    ∃ sendLoss recvLoss : UInt8,
      sendLoss.toNat = lossOf cfg.lossMinPackets.toNat s.sendTxAcc
          s.sendRxAcc s.sendLoss.toNat
      ∧ recvLoss.toNat = lossOf cfg.lossMinPackets.toNat s.recvTxAcc
          s.recvRxAcc s.recvLoss.toNat
      ∧ s' = { s with
          sendLoss, recvLoss
          sendTxAcc :=
            decayed cfg.lossMinPackets.toNat s.sendTxAcc s.sendTxAcc
          sendRxAcc :=
            decayed cfg.lossMinPackets.toNat s.sendTxAcc s.sendRxAcc
          recvTxAcc :=
            decayed cfg.lossMinPackets.toNat s.recvTxAcc s.recvTxAcc
          recvRxAcc :=
            decayed cfg.lossMinPackets.toNat s.recvTxAcc s.recvRxAcc
          loss := max sendLoss recvLoss } := by
  unfold evaluate at h
  simp only [Option.bind_eq_bind, Option.bind_eq_some_iff] at h
  obtain ⟨⟨sendLoss, sendTx, sendRx⟩, hsend, ⟨recvLoss, recvTx, recvRx⟩,
    hrecv, h⟩ := h
  cases h
  obtain ⟨hsl, rfl, rfl⟩ := evaluateLoss_inv hsend
  obtain ⟨hrl, rfl, rfl⟩ := evaluateLoss_inv hrecv
  exact ⟨sendLoss, recvLoss, hsl, hrl, rfl⟩

/-- Section 4 applies one map to all four accumulators: nothing, or the
recovery decay. -/
theorem accelerateRecovery_inv (cfg : RateControlConfig) (s : RateState) :
    ∃ f : Nat → Nat,
      (f = (fun n => n) ∨ f = scaled 64 cfg.tapaRecoveryDecay)
      ∧ s.accelerateRecovery cfg = { s with
          sendTxAcc := f s.sendTxAcc
          sendRxAcc := f s.sendRxAcc
          recvTxAcc := f s.recvTxAcc
          recvRxAcc := f s.recvRxAcc } := by
  unfold accelerateRecovery
  split
  case isTrue => exact ⟨_, Or.inr rfl, rfl⟩
  case isFalse => exact ⟨_, Or.inl rfl, rfl⟩

/-- Without TAPA, section 4 does nothing. -/
theorem accelerateRecovery_off (htapa : cfg.tapaEnabled = false)
    (s : RateState) : s.accelerateRecovery cfg = s := by
  unfold accelerateRecovery
  rw [if_neg]
  rintro ⟨hon, -⟩
  rw [htapa] at hon
  exact Bool.false_ne_true hon

-- ============================================================ transitions

/-- A link that carries data: `Running` or `Lossy`. -/
def Active (s : RateState) : Prop := s.state = .running ∨ s.state = .lossy

instance (s : RateState) : Decidable s.Active :=
  inferInstanceAs (Decidable (_ ∨ _))

/-- An active link stays active unless its loss exceeds the threshold in
force and nothing suppresses the transition; then it goes `Down`. -/
theorem transition_active (hact : s.Active)
    (h : s.transition cfg confidence suppress = some s') :
    (∃ state, (state = .running ∨ state = .lossy)
        ∧ s' = { s with state := state }
        ∧ (suppress = true ∨ s.loss.toNat ≤ downThresh cfg confidence))
      ∨ (suppress = false ∧ downThresh cfg confidence < s.loss.toNat
        ∧ s' = s.goDown confidence) := by
  unfold transition at h
  rcases hact with hst | hst
  · have hself : s = { s with state := .running } := by rw [← hst]
    rw [hst] at h
    simp only at h
    split at h
    case isTrue hsup =>
        cases h
        exact Or.inl ⟨_, Or.inl rfl, hself, Or.inl hsup⟩
    case isFalse hsup =>
        split at h
        case isTrue hloss =>
            cases h
            exact Or.inr ⟨by simpa using hsup, hloss, rfl⟩
        case isFalse hloss =>
            have hok := Or.inr (a := suppress = true) (Nat.le_of_not_lt hloss)
            split at h
            case isTrue =>
                cases h
                exact Or.inl ⟨_, Or.inr rfl, rfl, hok⟩
            case isFalse =>
                cases h
                exact Or.inl ⟨_, Or.inl rfl, hself, hok⟩
  · have hself : s = { s with state := .lossy } := by rw [← hst]
    rw [hst] at h
    simp only at h
    split at h
    case isTrue hsup =>
        split at h
        case isTrue =>
            cases h
            exact Or.inl ⟨_, Or.inl rfl, rfl, Or.inl hsup⟩
        case isFalse =>
            cases h
            exact Or.inl ⟨_, Or.inr rfl, hself, Or.inl hsup⟩
    case isFalse hsup =>
        split at h
        case isTrue hloss =>
            cases h
            exact Or.inr ⟨by simpa using hsup, hloss, rfl⟩
        case isFalse hloss =>
            have hok := Or.inr (a := suppress = true) (Nat.le_of_not_lt hloss)
            split at h
            case isTrue =>
                cases h
                exact Or.inl ⟨_, Or.inl rfl, rfl, hok⟩
            case isFalse =>
                cases h
                exact Or.inl ⟨_, Or.inr rfl, hself, hok⟩

/-- A link that is likely down for no reason but load: TAPA is on, and
the confidence was low when it went `Down`. -/
def PhantomDown (cfg : RateControlConfig) (s : RateState) : Prop :=
  cfg.tapaEnabled = true ∧ s.enteredDownConfidence < rnd (3 / 10)

instance (cfg : RateControlConfig) (s : RateState) :
    Decidable (s.PhantomDown cfg) :=
  inferInstanceAs (Decidable (_ ∧ _))

/-- A probe on a `Down` link starts recovery: fast-tracked at half of the
ceiling with halved accumulators when the failure looks like a phantom,
normal at the floor otherwise. -/
theorem transition_down_cases (hst : s.state = .down)
    (h : s.transition cfg confidence suppress = some s') :
    (s.PhantomDown cfg
        ∧ s' = { s with
          state := .probing
          recoveryCount := cfg.probeRecoveryCount.toNat - 1
          txRate := s.txMaxRate / 2
          sendTxAcc := s.sendTxAcc / 2
          sendRxAcc := s.sendRxAcc / 2
          recvTxAcc := s.recvTxAcc / 2
          recvRxAcc := s.recvRxAcc / 2 })
      ∨ (¬s.PhantomDown cfg
        ∧ s' = { s with
          state := .probing, recoveryCount := 1, txRate := s.txMinRate }) := by
  unfold transition at h
  rw [hst] at h
  simp only at h
  split at h
  case isTrue hfast =>
      cases h
      exact Or.inl ⟨⟨hfast.2, hfast.1⟩, rfl⟩
  case isFalse hslow =>
      cases h
      exact Or.inr ⟨fun hfast => hslow ⟨hfast.2, hfast.1⟩, rfl⟩

/-- A probe on a `Down` link, whichever way it recovers. -/
theorem transition_down (hst : s.state = .down)
    (h : s.transition cfg confidence suppress = some s') :
    ∃ (f : Nat → Nat) (recoveryCount txRate : Nat),
      (f = (fun n => n) ∨ f = fun n => n / 2)
      ∧ (recoveryCount = 1
        ∨ recoveryCount = cfg.probeRecoveryCount.toNat - 1)
      ∧ (txRate = s.txMinRate ∨ txRate = s.txMaxRate / 2)
      ∧ s' = { s with
          state := .probing, recoveryCount, txRate
          sendTxAcc := f s.sendTxAcc
          sendRxAcc := f s.sendRxAcc
          recvTxAcc := f s.recvTxAcc
          recvRxAcc := f s.recvRxAcc } := by
  rcases transition_down_cases hst h with ⟨-, rfl⟩ | ⟨-, rfl⟩
  · exact ⟨_, _, _, Or.inr rfl, Or.inr rfl, Or.inr rfl, rfl⟩
  · exact ⟨_, _, _, Or.inl rfl, Or.inl rfl, Or.inl rfl, rfl⟩

/-- A probe on a `Probing` link counts it and, from the configured count
on, makes it `Running`. -/
theorem transition_probing (hst : s.state = .probing)
    (h : s.transition cfg confidence suppress = some s') :
    ∃ txRate, (txRate = s.txRate ∨ txRate = s.txMinRate)
      ∧ s' = { s with
          recoveryCount := s.recoveryCount + 1
          txRate
          state := if s.recoveryCount + 1 ≥ cfg.probeRecoveryCount.toNat
            then .running else .probing } := by
  unfold transition at h
  rw [hst] at h
  simp only at h
  obtain ⟨recoveryCount, hadd, h⟩ := Option.bind_eq_some_iff.mp h
  obtain ⟨-, rfl⟩ := add_eq_some.mp hadd
  split at h
  case isTrue hge =>
      split at h
      case isTrue =>
          cases h
          exact ⟨_, Or.inr rfl, by rw [if_pos hge]⟩
      case isFalse =>
          cases h
          exact ⟨_, Or.inl rfl, by rw [if_pos hge]⟩
  case isFalse hlt =>
      cases h
      exact ⟨_, Or.inl rfl, by rw [if_neg hlt, ← hst]⟩

-- ========================================================== a whole probe

/-- What processing a probe does not touch: the link's identity and
limits, its traffic counters and the snapshots of `build_probe`. -/
structure Frame (s s' : RateState) : Prop where
  linkId : s'.linkId = s.linkId
  txMaxRate : s'.txMaxRate = s.txMaxRate
  txMinRate : s'.txMinRate = s.txMinRate
  totalTxBytes : s'.totalTxBytes = s.totalTxBytes
  totalTxPackets : s'.totalTxPackets = s.totalTxPackets
  totalRxBytes : s'.totalRxBytes = s.totalRxBytes
  totalRxPackets : s'.totalRxPackets = s.totalRxPackets
  lastProbeTxBytes : s'.lastProbeTxBytes = s.lastProbeTxBytes
  lastProbeTxPackets : s'.lastProbeTxPackets = s.lastProbeTxPackets
  lastProbeRxBytes : s'.lastProbeRxBytes = s.lastProbeRxBytes
  lastProbeRxPackets : s'.lastProbeRxPackets = s.lastProbeRxPackets
  probeSeq : s'.probeSeq = s.probeSeq
  lastProbeSentUs : s'.lastProbeSentUs = s.lastProbeSentUs

theorem Frame.trans {s₁ s₂ s₃ : RateState} (h : Frame s₁ s₂)
    (h' : Frame s₂ s₃) : Frame s₁ s₃ where
  linkId := h'.linkId.trans h.linkId
  txMaxRate := h'.txMaxRate.trans h.txMaxRate
  txMinRate := h'.txMinRate.trans h.txMinRate
  totalTxBytes := h'.totalTxBytes.trans h.totalTxBytes
  totalTxPackets := h'.totalTxPackets.trans h.totalTxPackets
  totalRxBytes := h'.totalRxBytes.trans h.totalRxBytes
  totalRxPackets := h'.totalRxPackets.trans h.totalRxPackets
  lastProbeTxBytes := h'.lastProbeTxBytes.trans h.lastProbeTxBytes
  lastProbeTxPackets := h'.lastProbeTxPackets.trans h.lastProbeTxPackets
  lastProbeRxBytes := h'.lastProbeRxBytes.trans h.lastProbeRxBytes
  lastProbeRxPackets := h'.lastProbeRxPackets.trans h.lastProbeRxPackets
  probeSeq := h'.probeSeq.trans h.probeSeq
  lastProbeSentUs := h'.lastProbeSentUs.trans h.lastProbeSentUs

/-- Every packet counted so far has entered the loss accounting. -/
def Settled (s : RateState) : Prop :=
  s.lastLossTxPackets = s.totalTxPackets
    ∧ s.lastLossRxPackets = s.totalRxPackets

/-- Sending direction, what we sent: the accumulator with the packets
recorded since the last probe. -/
def sentSum (cfg : RateControlConfig) (confidence : ℚ) (s : RateState) :
    Nat :=
  s.sendTxAcc
    + gated cfg confidence (s.totalTxPackets - s.lastLossTxPackets)

/-- Sending direction, what the remote reports to have received. -/
def deliveredSum (cfg : RateControlConfig) (confidence : ℚ)
    (probe : ProbePacket) (s : RateState) : Nat :=
  s.sendRxAcc + gated cfg confidence probe.rxPackets.toNat

/-- Receiving direction, what the remote reports to have sent. -/
def offeredSum (cfg : RateControlConfig) (confidence : ℚ)
    (probe : ProbePacket) (s : RateState) : Nat :=
  s.recvTxAcc + gated cfg confidence probe.txPackets.toNat

/-- Receiving direction, what we received. -/
def receivedSum (cfg : RateControlConfig) (confidence : ℚ)
    (s : RateState) : Nat :=
  s.recvRxAcc
    + gated cfg confidence (s.totalRxPackets - s.lastLossRxPackets)

/-- What sections 1 to 4 make of a state, field by field. -/
structure Judged (cfg : RateControlConfig) (confidence : ℚ)
    (probe : ProbePacket) (s m : RateState) : Prop where
  frame : Frame s m
  state : m.state = s.state
  recoveryCount : m.recoveryCount = s.recoveryCount
  rate : m.txRate = s.txRate ∨ Paced cfg s m.txRate
  ahead : s.lastLossTxPackets ≤ s.totalTxPackets
    ∧ s.lastLossRxPackets ≤ s.totalRxPackets
  settled : m.Settled
  sendLoss : m.sendLoss.toNat
    = lossOf cfg.lossMinPackets.toNat (sentSum cfg confidence s)
        (deliveredSum cfg confidence probe s) s.sendLoss.toNat
  recvLoss : m.recvLoss.toNat
    = lossOf cfg.lossMinPackets.toNat (offeredSum cfg confidence probe s)
        (receivedSum cfg confidence s) s.recvLoss.toNat
  loss : m.loss = max m.sendLoss m.recvLoss
  accs : ∃ f : Nat → Nat,
    (f = (fun n => n)
      ∨ f = scaled 64 cfg.tapaRecoveryDecay)
    ∧ m.sendTxAcc = f (decayed cfg.lossMinPackets.toNat
        (sentSum cfg confidence s) (sentSum cfg confidence s))
    ∧ m.sendRxAcc = f (decayed cfg.lossMinPackets.toNat
        (sentSum cfg confidence s) (deliveredSum cfg confidence probe s))
    ∧ m.recvTxAcc = f (decayed cfg.lossMinPackets.toNat
        (offeredSum cfg confidence probe s)
        (offeredSum cfg confidence probe s))
    ∧ m.recvRxAcc = f (decayed cfg.lossMinPackets.toNat
        (offeredSum cfg confidence probe s) (receivedSum cfg confidence s))

/-- What sections 1 to 4 note on the link beside the judgement, and that
without TAPA nothing decays the accumulators any further. -/
structure Noted (cfg : RateControlConfig) (now : UInt64) (confidence : ℚ)
    (probe : ProbePacket) (s m : RateState) : Prop where
  srtt : m.srttUs
    = (rttSample now probe).elim s.srttUs (smoothRtt cfg s.srttUs)
  probeConfidence : m.probeConfidence = confidence
  remoteTimestamp : m.lastRemoteTimestampUs = probe.timestampUs
  enteredDown : m.enteredDownConfidence = s.enteredDownConfidence
  undecayed : cfg.tapaEnabled = false →
    m.sendTxAcc = decayed cfg.lossMinPackets.toNat
        (sentSum cfg confidence s) (sentSum cfg confidence s)
    ∧ m.sendRxAcc = decayed cfg.lossMinPackets.toNat
        (sentSum cfg confidence s) (deliveredSum cfg confidence probe s)
    ∧ m.recvTxAcc = decayed cfg.lossMinPackets.toNat
        (offeredSum cfg confidence probe s)
        (offeredSum cfg confidence probe s)
    ∧ m.recvRxAcc = decayed cfg.lossMinPackets.toNat
        (offeredSum cfg confidence probe s) (receivedSum cfg confidence s)

/-- The arrival of a probe and its RTT, as the sections behind them leave
them. -/
structure SameNotes (s s' : RateState) : Prop where
  srttUs : s'.srttUs = s.srttUs
  probeConfidence : s'.probeConfidence = s.probeConfidence
  lastRemoteTimestampUs : s'.lastRemoteTimestampUs = s.lastRemoteTimestampUs
  enteredDownConfidence : s'.enteredDownConfidence = s.enteredDownConfidence

/-- Sections 2 to 4 leave the notes alone. -/
theorem sections_notes {paced counted judged : RateState}
    (hpace : s.detectCongestion cfg confidence probe = some paced)
    (hcount : paced.accumulate cfg confidence probe = some counted)
    (hjudge : counted.evaluate cfg = some judged) :
    SameNotes s (judged.accelerateRecovery cfg) := by
  obtain ⟨f, -, hrecovered⟩ := accelerateRecovery_inv cfg judged
  rw [hrecovered]
  obtain ⟨sendLoss, recvLoss, -, -, rfl⟩ := evaluate_inv hjudge
  obtain ⟨-, -, rfl⟩ := accumulate_inv hcount
  obtain ⟨rate, rfl, -⟩ := detectCongestion_inv hpace
  exact ⟨rfl, rfl, rfl, rfl⟩

/-- The arrival of a probe and section 1 note its confidence and its
timestamp. -/
theorem arrival_notes (cfg : RateControlConfig) (clk : Clock)
    (confidence : ℚ) (probe : ProbePacket) (s : RateState) :
    let m := (s.noteArrival clk.instant confidence probe).measureRtt cfg
      clk.micros probe
    m.probeConfidence = confidence
      ∧ m.lastRemoteTimestampUs = probe.timestampUs
      ∧ m.enteredDownConfidence = s.enteredDownConfidence := by
  obtain ⟨srttUs, rttVarUs, hrtt⟩ := measureRtt_inv cfg clk.micros probe
    (s.noteArrival clk.instant confidence probe)
  dsimp only
  rw [hrtt]
  exact ⟨rfl, rfl, rfl⟩

/-- A processed probe is sections 1 to 4 followed by the transition, with
what they note. -/
theorem processProbe_noted
    (h : s.processProbe cfg clk confidence suppress probe = some s') :
    ∃ m, Judged cfg confidence probe s m
      ∧ Noted cfg clk.micros confidence probe s m
      ∧ m.transition cfg confidence suppress = some s' := by
  unfold processProbe at h
  simp only [Option.bind_eq_bind, Option.bind_eq_some_iff] at h
  obtain ⟨paced, hpace, counted, hcount, judged, hjudge, h⟩ := h
  have hnotes := sections_notes hpace hcount hjudge
  obtain ⟨hconfidence, hremote, hentered⟩ :=
    arrival_notes cfg clk confidence probe s
  have hsrtt := measureRtt_srtt cfg clk.micros probe
    (s.noteArrival clk.instant confidence probe)
  refine ⟨judged.accelerateRecovery cfg, ?_, ?_, h⟩
  · obtain ⟨srttUs, rttVarUs, hrtt⟩ := measureRtt_inv cfg clk.micros probe
      (s.noteArrival clk.instant confidence probe)
    rw [hrtt] at hpace
    obtain ⟨rate, rfl, hrate⟩ := detectCongestion_inv hpace
    obtain ⟨htx, hrx, rfl⟩ := accumulate_inv hcount
    obtain ⟨sendLoss, recvLoss, hsend, hrecv, rfl⟩ := evaluate_inv hjudge
    obtain ⟨f, hf, hrecovered⟩ := accelerateRecovery_inv cfg _
    rw [hrecovered]
    exact {
      frame := ⟨rfl, rfl, rfl, rfl, rfl, rfl, rfl, rfl, rfl, rfl, rfl, rfl,
        rfl⟩
      state := rfl
      recoveryCount := rfl
      rate := hrate
      ahead := ⟨htx, hrx⟩
      settled := ⟨rfl, rfl⟩
      sendLoss := hsend
      recvLoss := hrecv
      loss := rfl
      accs := ⟨f, hf, rfl, rfl, rfl, rfl⟩ }
  · refine {
      srtt := hnotes.srttUs.trans hsrtt
      probeConfidence := hnotes.probeConfidence.trans hconfidence
      remoteTimestamp := hnotes.lastRemoteTimestampUs.trans hremote
      enteredDown := hnotes.enteredDownConfidence.trans hentered
      undecayed := ?_ }
    intro htapa
    rw [accelerateRecovery_off htapa]
    obtain ⟨srttUs, rttVarUs, hrtt⟩ := measureRtt_inv cfg clk.micros probe
      (s.noteArrival clk.instant confidence probe)
    rw [hrtt] at hpace
    obtain ⟨rate, rfl, -⟩ := detectCongestion_inv hpace
    obtain ⟨-, -, rfl⟩ := accumulate_inv hcount
    obtain ⟨sendLoss, recvLoss, -, -, rfl⟩ := evaluate_inv hjudge
    exact ⟨rfl, rfl, rfl, rfl⟩

/-- A processed probe is sections 1 to 4 followed by the transition. -/
theorem processProbe_inv
    (h : s.processProbe cfg clk confidence suppress probe = some s') :
    ∃ m, Judged cfg confidence probe s m
      ∧ m.transition cfg confidence suppress = some s' := by
  obtain ⟨m, hm, -, ht⟩ := processProbe_noted h
  exact ⟨m, hm, ht⟩

/-- The fields a transition writes are none of the frame's. -/
private theorem frame_transition (s : RateState) (state : PathState)
    (recoveryCount txRate : Nat) (confidence : ℚ)
    (sendTx sendRx recvTx recvRx : Nat) :
    Frame s { s with
        state, recoveryCount, txRate
        enteredDownConfidence := confidence
        sendTxAcc := sendTx
        sendRxAcc := sendRx
        recvTxAcc := recvTx
        recvRxAcc := recvRx } :=
  ⟨rfl, rfl, rfl, rfl, rfl, rfl, rfl, rfl, rfl, rfl, rfl, rfl, rfl⟩

/-- The transition touches neither counters nor snapshots. -/
theorem transition_frame
    (h : s.transition cfg confidence suppress = some s') :
    Frame s s' ∧ s'.lastLossTxPackets = s.lastLossTxPackets
      ∧ s'.lastLossRxPackets = s.lastLossRxPackets := by
  cases hst : s.state with
  | running =>
      rcases transition_active (Or.inl hst) h with
        ⟨state, -, rfl, -⟩ | ⟨-, -, rfl⟩
      · exact ⟨frame_transition s _ _ _ _ _ _ _ _, rfl, rfl⟩
      · exact ⟨frame_transition s _ _ _ _ _ _ _ _, rfl, rfl⟩
  | lossy =>
      rcases transition_active (Or.inr hst) h with
        ⟨state, -, rfl, -⟩ | ⟨-, -, rfl⟩
      · exact ⟨frame_transition s _ _ _ _ _ _ _ _, rfl, rfl⟩
      · exact ⟨frame_transition s _ _ _ _ _ _ _ _, rfl, rfl⟩
  | down =>
      obtain ⟨f, count, rate, -, -, -, rfl⟩ := transition_down hst h
      exact ⟨frame_transition s _ _ _ _ _ _ _ _, rfl, rfl⟩
  | probing =>
      obtain ⟨rate, -, rfl⟩ := transition_probing hst h
      exact ⟨frame_transition s _ _ _ _ _ _ _ _, rfl, rfl⟩

/-- A processed probe touches no traffic counter and no snapshot of
`build_probe`, and settles the loss accounting. -/
theorem processProbe_frame
    (h : s.processProbe cfg clk confidence suppress probe = some s') :
    Frame s s' ∧ s'.Settled := by
  obtain ⟨m, hm, ht⟩ := processProbe_inv h
  obtain ⟨hframe, htx, hrx⟩ := transition_frame ht
  refine ⟨hm.frame.trans hframe, ?_, ?_⟩
  · rw [htx, hm.settled.1, hframe.totalTxPackets]
  · rw [hrx, hm.settled.2, hframe.totalRxPackets]

end RateState

end ChainLightning
