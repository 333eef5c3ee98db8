/-
How one probe moves the rate of an active link.

Section 2 of `process_probe` compares two rates and decides (`pace`):
reduce toward a share of what the remote received, grow by a share of
the current rate, or hold. The decision is carried out by a bounded step
between floor and ceiling (`stepRate`, Lib/Toward.lean), and nothing
behind it moves the rate of an active link (`processProbe_pace`).

Three facts about a link at all times carry the comparisons behind it:
its floor is at least 100 Kbps, its rates have 64 bits, and its rate is
within its ceiling (`Bracketed`). Under the default configuration the
decision and the shares are those of whole numbers (`trusted_rate`).
-/
import ChainLightning.Lib.Toward
import ChainLightning.Proofs.Rate.Bounds

namespace ChainLightning

open Machine

namespace RateState

variable {cfg : RateControlConfig} {clk : Clock} {confidence : ℚ}
  {suppress : Bool} {probe : ProbePacket} {s s' : RateState}

-- ============================================================ the decision

/-- What section 2 decides to do with the rate. -/
inductive Pace where
  | reduce
  | grow
  | hold
  deriving DecidableEq

/-- The decision on our send rate and the remote's receive rate. -/
def pace (cfg : RateControlConfig) (ours remote : Nat) : Pace :=
  if 0 < ours ∧ 0 < remote then
    if remote + trunc 64 ((ours : ℚ) * cfg.congestionThreshold) < ours then
      .reduce
    else .grow
  else if ours = 0 ∧ remote = 0 then .grow
  else .hold

/-- The most that a step moves the current rate. -/
def stepCap (cfg : RateControlConfig) (s : RateState) : Nat :=
  max (trunc 64 ((s.txRate : ℚ) * cfg.maxRateChangeFraction)) 12500

/-- The rate behind a change toward a desired one. -/
def stepRate (cfg : RateControlConfig) (desired : Nat) (s : RateState) :
    Nat :=
  Toward.clamp s.txMinRate s.txMaxRate
    (Toward.step (stepCap cfg s) s.txRate desired)

/-- The rate that growth by a share of the current one desires. -/
def grown (fraction : ℚ) (s : RateState) : Nat :=
  satAdd 64 s.txRate (trunc 64 ((s.txRate : ℚ) * fraction))

/-- The rate behind a decision. -/
def pacedRate (cfg : RateControlConfig) (remote : Nat) (s : RateState) :
    Pace → Nat
  | .reduce =>
      stepRate cfg (trunc 64 ((remote : ℚ) * cfg.congestionReduction)) s
  | .grow => stepRate cfg (grown cfg.growthFactor s) s
  | .hold => s.txRate

/-- A rate change is the bounded step, and needs floor and ceiling in
order. -/
theorem applyRateChange_eq {desired : Nat}
    (h : s.applyRateChange cfg desired = some s') :
    s.txMinRate ≤ s.txMaxRate
      ∧ s' = { s with txRate := stepRate cfg desired s } := by
  unfold applyRateChange at h
  dsimp only at h
  split at h
  case isTrue hle =>
      cases h
      exact ⟨hle, rfl⟩
  case isFalse => cases h

/-- The probe-based branch carries out its decision. -/
theorem detectByProbe_pace {txDt : Nat} (hdt : 0 < txDt)
    (h : s.detectByProbe cfg txDt probe = some s') :
    ∃ ours, s.ourTxRate txDt = some ours
      ∧ (pace cfg ours (probe.rxBytes.toNat * 1000000 / txDt) ≠ .hold →
        s.txMinRate ≤ s.txMaxRate)
      ∧ s'.txRate = pacedRate cfg (probe.rxBytes.toNat * 1000000 / txDt) s
        (pace cfg ours (probe.rxBytes.toNat * 1000000 / txDt)) := by
  unfold detectByProbe at h
  simp only [Option.bind_eq_bind, Option.bind_eq_some_iff] at h
  obtain ⟨-, -, ours, hours, remote, hremote, h⟩ := h
  unfold remoteRxRate at hremote
  rw [if_pos hdt] at hremote
  obtain ⟨product, hproduct, rfl⟩ := Option.map_eq_some_iff.mp hremote
  obtain ⟨-, rfl⟩ := mul_eq_some.mp hproduct
  refine ⟨ours, hours, ?_⟩
  generalize probe.rxBytes.toNat * 1000000 / txDt = remote at h ⊢
  unfold pace
  by_cases htraffic : 0 < ours ∧ 0 < remote
  · rw [if_pos htraffic] at h ⊢
    obtain ⟨slack, hslack, h⟩ := Option.bind_eq_some_iff.mp h
    obtain ⟨-, rfl⟩ := add_eq_some.mp hslack
    split at h
    case isTrue hcongested =>
        rw [if_pos hcongested]
        obtain ⟨hle, rfl⟩ := applyRateChange_eq h
        exact ⟨fun _ => hle, rfl⟩
    case isFalse hfree =>
        rw [if_neg hfree]
        obtain ⟨hle, rfl⟩ := applyRateChange_eq h
        exact ⟨fun _ => hle, rfl⟩
  · rw [if_neg htraffic] at h ⊢
    split at h
    case isTrue hidle =>
        rw [if_pos hidle]
        obtain ⟨hle, rfl⟩ := applyRateChange_eq h
        exact ⟨fun _ => hle, rfl⟩
    case isFalse hone =>
        rw [if_neg hone]
        cases h
        exact ⟨fun hne => absurd rfl hne, rfl⟩

/-- Whether the probe-based branch is taken. -/
def Trusted (cfg : RateControlConfig) (confidence : ℚ) : Prop :=
  confidence > 1 / 2 ∨ cfg.tapaEnabled = false

/-- Sections 3 and 4 leave the rate, its bounds and the state alone. -/
private theorem sections_pace {paced counted judged : RateState}
    (hpace : s.detectCongestion cfg confidence probe = some paced)
    (hcount : paced.accumulate cfg confidence probe = some counted)
    (hjudge : counted.evaluate cfg = some judged) :
    (judged.accelerateRecovery cfg).txRate = paced.txRate
      ∧ (judged.accelerateRecovery cfg).txMinRate = s.txMinRate
      ∧ (judged.accelerateRecovery cfg).txMaxRate = s.txMaxRate
      ∧ (judged.accelerateRecovery cfg).state = s.state := by
  obtain ⟨f, -, hrecovered⟩ := accelerateRecovery_inv cfg judged
  rw [hrecovered]
  obtain ⟨sendLoss, recvLoss, -, -, rfl⟩ := evaluate_inv hjudge
  obtain ⟨-, -, rfl⟩ := accumulate_inv hcount
  obtain ⟨rate, rfl, -⟩ := detectCongestion_inv hpace
  exact ⟨rfl, rfl, rfl, rfl⟩

/-- Between section 2 and the transition, nothing moves the rate. -/
theorem processProbe_sections
    (h : s.processProbe cfg clk confidence suppress probe = some s') :
    ∃ (srttUs rttVarUs : Nat) (paced m : RateState),
      ({ s.noteArrival clk.instant confidence probe with
          srttUs, rttVarUs } : RateState).detectCongestion cfg confidence
        probe = some paced
      ∧ m.txRate = paced.txRate ∧ m.txMinRate = s.txMinRate
      ∧ m.txMaxRate = s.txMaxRate ∧ m.state = s.state
      ∧ m.transition cfg confidence suppress = some s' := by
  unfold processProbe at h
  simp only [Option.bind_eq_bind, Option.bind_eq_some_iff] at h
  obtain ⟨paced, hpace, counted, hcount, judged, hjudge, h⟩ := h
  obtain ⟨srttUs, rttVarUs, hrtt⟩ := measureRtt_inv cfg clk.micros probe
    (s.noteArrival clk.instant confidence probe)
  rw [hrtt] at hpace
  obtain ⟨hrate, hmin, hmax, hstate⟩ := sections_pace hpace hcount hjudge
  exact ⟨srttUs, rttVarUs, paced, _, hpace, hrate, hmin, hmax, hstate, h⟩

/-- Behind section 2, nothing moves the rate of an active link. -/
theorem processProbe_paced (hactive : s.Active)
    (h : s.processProbe cfg clk confidence suppress probe = some s') :
    ∃ srttUs rttVarUs paced,
      ({ s.noteArrival clk.instant confidence probe with
          srttUs, rttVarUs } : RateState).detectCongestion cfg confidence
        probe = some paced
      ∧ s'.txRate = paced.txRate := by
  obtain ⟨srttUs, rttVarUs, paced, m, hpace, hrate, -, -, hstate, ht⟩ :=
    processProbe_sections h
  refine ⟨srttUs, rttVarUs, paced, hpace, ?_⟩
  rw [transition_keeps_rate (by unfold Active; rw [hstate]; exact hactive) ht,
    hrate]

/-- The rate at low confidence: data that flows lets it grow at half
speed. -/
def quietRate (cfg : RateControlConfig) (s : RateState) : Nat :=
  if s.totalTxPackets - s.lastLossTxPackets > 0
      ∨ s.totalRxPackets - s.lastLossRxPackets > 0 then
    stepRate cfg (grown (cfg.growthFactor * (1 / 2)) s) s
  else s.txRate

/-- A probe that is trusted carries out its decision. -/
theorem processProbe_trusted (hactive : s.Active)
    (htrusted : Trusted cfg confidence)
    (hinterval : 0 < cfg.probeIntervalMs.toNat * 1000)
    (h : s.processProbe cfg clk confidence suppress probe = some s') :
    ∃ ours, s.ourTxRate (cfg.probeIntervalMs.toNat * 1000) = some ours
      ∧ (pace cfg ours (probe.rxBytes.toNat * 1000000
          / (cfg.probeIntervalMs.toNat * 1000)) ≠ .hold →
        s.txMinRate ≤ s.txMaxRate)
      ∧ s'.txRate = pacedRate cfg (probe.rxBytes.toNat * 1000000
          / (cfg.probeIntervalMs.toNat * 1000)) s
        (pace cfg ours (probe.rxBytes.toNat * 1000000
          / (cfg.probeIntervalMs.toNat * 1000))) := by
  obtain ⟨srttUs, rttVarUs, paced, hpace, hrate⟩ :=
    processProbe_paced hactive h
  unfold detectCongestion at hpace
  obtain ⟨txDt, hdt, hpace⟩ := Option.bind_eq_some_iff.mp hpace
  obtain ⟨-, rfl⟩ := mul_eq_some.mp hdt
  have hbranch : confidence > 1 / 2 ∨ cfg.tapaEnabled = false := htrusted
  rw [if_pos hbranch] at hpace
  have hdecided := detectByProbe_pace hinterval hpace
  rw [hrate]
  exact hdecided

/-- A probe that is not trusted says nothing about the rate. -/
theorem processProbe_untrusted (hactive : s.Active)
    (htrusted : ¬Trusted cfg confidence)
    (h : s.processProbe cfg clk confidence suppress probe = some s') :
    (s'.txRate ≠ s.txRate → s.txMinRate ≤ s.txMaxRate)
      ∧ s'.txRate = quietRate cfg s := by
  obtain ⟨srttUs, rttVarUs, paced, hpace, hrate⟩ :=
    processProbe_paced hactive h
  unfold detectCongestion at hpace
  obtain ⟨txDt, -, hpace⟩ := Option.bind_eq_some_iff.mp hpace
  have hbranch : ¬(confidence > 1 / 2 ∨ cfg.tapaEnabled = false) := htrusted
  rw [if_neg hbranch] at hpace
  obtain ⟨txDelta, htx, hpace⟩ := Option.bind_eq_some_iff.mp hpace
  obtain ⟨rxDelta, hrx, hpace⟩ := Option.bind_eq_some_iff.mp hpace
  obtain ⟨-, rfl⟩ := sub_eq_some.mp htx
  obtain ⟨-, rfl⟩ := sub_eq_some.mp hrx
  rw [hrate]
  unfold quietRate
  split at hpace
  case isTrue hflow =>
      have hflow : s.totalTxPackets - s.lastLossTxPackets > 0
          ∨ s.totalRxPackets - s.lastLossRxPackets > 0 := hflow
      obtain ⟨hle, rfl⟩ := applyRateChange_eq hpace
      rw [if_pos hflow]
      exact ⟨fun _ => hle, rfl⟩
  case isFalse hquiet =>
      have hquiet : ¬(s.totalTxPackets - s.lastLossTxPackets > 0
          ∨ s.totalRxPackets - s.lastLossRxPackets > 0) := hquiet
      cases hpace
      rw [if_neg hquiet]
      exact ⟨fun hne => absurd rfl hne, rfl⟩

-- ======================================================== reachable links

/-- What is true of every link, whatever its configured rate: a floor of
at least 100 Kbps, rates of 64 bits, and, unless the floor is above the
ceiling, a rate that is positive and at most the ceiling. -/
structure Bracketed (s : RateState) : Prop where
  floor : 12500 ≤ s.txMinRate
  narrow : s.txMinRate < 2 ^ 64
  fits : s.txRate < 2 ^ 64
  wide : s.txMaxRate < 2 ^ 64
  within : s.txMinRate ≤ s.txMaxRate → 0 < s.txRate ∧ s.txRate ≤ s.txMaxRate

theorem bracketed_fresh {i rate now : Nat} {fraction : ℚ}
    (hrate : rate < 2 ^ 64) : Bracketed (new i rate fraction now) where
  floor := Nat.le_max_right _ _
  narrow := Nat.max_lt.mpr ⟨trunc_lt _ _, by omega⟩
  fits := hrate
  wide := hrate
  within := by
    intro hle
    have hfloor : 12500 ≤ (new i rate fraction now).txMinRate :=
      Nat.le_max_right _ _
    have hmax : (new i rate fraction now).txMaxRate = rate := rfl
    show 0 < rate ∧ rate ≤ rate
    omega

theorem Moved.bracketed (h : Moved s s') (hs : s.Bracketed) :
    s'.Bracketed where
  floor := by
    rw [h.txMinRate]
    exact hs.floor
  narrow := by
    rw [h.txMinRate]
    exact hs.narrow
  fits := by
    have hnarrow := hs.narrow
    have hfits := hs.fits
    have hwide := hs.wide
    rcases h.txRate with hrate | hrate | hrate | hrate <;> omega
  wide := by
    rw [h.txMaxRate]
    exact hs.wide
  within := by
    rw [h.txMinRate, h.txMaxRate]
    intro hle
    have hold := hs.within hle
    have hfloor := hs.floor
    rcases h.txRate with hrate | hrate | hrate | hrate <;> omega

/-- A rate change ends at or below the current rate exactly when its
target does and the floor allows it, or the ceiling is reached. -/
theorem Bracketed.stepRate_le_iff (h : s.Bracketed)
    (hle : s.txMinRate ≤ s.txMaxRate) {desired : Nat} :
    stepRate cfg desired s ≤ s.txRate
      ↔ (desired ≤ s.txRate ∧ s.txMinRate ≤ s.txRate)
        ∨ s.txRate = s.txMaxRate := by
  have hcap : 0 < stepCap cfg s := by
    unfold stepCap
    omega
  have hwithin := h.within hle
  unfold stepRate
  rw [Toward.clamp_le_iff, Toward.step_le_iff hcap]
  omega

/-- A rate change ends below the current rate exactly when its target and
the floor are. -/
theorem Bracketed.stepRate_lt_iff (h : s.Bracketed)
    (hle : s.txMinRate ≤ s.txMaxRate) {desired : Nat} :
    stepRate cfg desired s < s.txRate
      ↔ desired < s.txRate ∧ s.txMinRate < s.txRate := by
  have hcap : 0 < stepCap cfg s := by
    unfold stepCap
    omega
  have hwithin := h.within hle
  have hstep : ¬s.txRate ≤ Toward.step (stepCap cfg s) s.txRate desired
      ↔ ¬s.txRate ≤ desired :=
    (Toward.le_step_iff hcap).not
  unfold stepRate
  rw [Toward.clamp_lt_iff, Nat.not_le.symm.trans hstep]
  omega

/-- Growth does not lower the rate. -/
theorem Bracketed.le_stepRate_grown (h : s.Bracketed)
    (hle : s.txMinRate ≤ s.txMaxRate) (fraction : ℚ) :
    s.txRate ≤ stepRate cfg (grown fraction s) s := by
  have hwithin := h.within hle
  have hwide := h.wide
  have hgrown : s.txRate ≤ grown fraction s := by
    unfold grown satAdd
    omega
  exact Nat.le_of_not_lt fun hlt =>
    absurd ((h.stepRate_lt_iff hle).mp hlt).1 (Nat.not_lt.mpr hgrown)

end RateState

-- ================================================ the default configuration

/-- The default configuration, with TAPA or without it. -/
def RateControlConfig.withTapa (tapaEnabled : Bool) : RateControlConfig :=
  { RateControlConfig.default with tapaEnabled }

private theorem RateControlConfig.withTapa_interval (tapaEnabled : Bool) :
    (RateControlConfig.withTapa tapaEnabled).probeIntervalMs.toNat * 1000
      = 200000 := by
  have hms : (RateControlConfig.withTapa
    tapaEnabled).probeIntervalMs.toNat = 200 := rfl
  rw [hms]

/-- What was sent since the last probe was built, per second at the
default probe interval. -/
def RateState.sendRate (s : RateState) : Nat :=
  (s.totalTxBytes - s.lastProbeTxBytes) * 1000000 / 200000

/-- What the remote reports to have received, per second likewise. -/
def receiveRate (rxBytes : UInt64) : Nat := rxBytes.toNat * 1000000 / 200000

theorem receiveRate_mono {a b : UInt64} (h : a ≤ b) :
    receiveRate a ≤ receiveRate b :=
  Nat.div_le_div_right
    (Nat.mul_le_mul_right _ (UInt64.le_iff_toNat_le.mp h))

theorem receiveRate_eq_zero {a : UInt64} : receiveRate a = 0 ↔ a = 0 := by
  rw [← UInt64.toNat_inj, receiveRate]
  show _ ↔ a.toNat = 0
  omega

theorem receiveRate_pos {a : UInt64} : 0 < receiveRate a ↔ a ≠ 0 := by
  rw [Nat.pos_iff_ne_zero, Ne, receiveRate_eq_zero]

/-- The remote received something, but more than an eighth less than was
sent. -/
def Congested (ours remote : Nat) : Prop :=
  0 < remote ∧ remote + ours / 8 < ours

instance (ours remote : Nat) : Decidable (Congested ours remote) :=
  inferInstanceAs (Decidable (_ ∧ _))

namespace RateState

variable {cfg : RateControlConfig} {tapaEnabled : Bool} {clk : Clock}
  {confidence : ℚ} {suppress : Bool} {probe : ProbePacket} {s s' : RateState}
  {ours remote : Nat}

/-- Shares of a rate, in whole numbers. -/
private theorem trunc_threshold (n : Nat) :
    trunc 64 ((n : ℚ) * (RateControlConfig.withTapa
      tapaEnabled).congestionThreshold) = min (n / 8) (2 ^ 64 - 1) := by
  have hshare := trunc_mul_div (K := ℚ) 64 n 125 1000
  have hdiv : n * 125 / 1000 = n / 8 := by omega
  rw [hdiv] at hshare
  exact_mod_cast hshare

private theorem trunc_reduction (n : Nat) :
    trunc 64 ((n : ℚ) * (RateControlConfig.withTapa
      tapaEnabled).congestionReduction)
      = min (n * 7 / 8) (2 ^ 64 - 1) := by
  have hshare := trunc_mul_div (K := ℚ) 64 n 875 1000
  have hdiv : n * 875 / 1000 = n * 7 / 8 := by omega
  rw [hdiv] at hshare
  exact_mod_cast hshare

private theorem trunc_tenth (n : Nat) :
    trunc 64 ((n : ℚ) * (10 / 100)) = min (n / 10) (2 ^ 64 - 1) := by
  have hshare := trunc_mul_div (K := ℚ) 64 n 10 100
  have hdiv : n * 10 / 100 = n / 10 := by omega
  rw [hdiv] at hshare
  exact_mod_cast hshare

/-- The default decision: reduce on congestion. -/
theorem pace_default (hours : ours < 2 ^ 64) :
    pace (.withTapa tapaEnabled) ours remote
      = if Congested ours remote then .reduce
        else if (0 < ours ↔ 0 < remote) then .grow else .hold := by
  unfold pace Congested
  rw [trunc_threshold, Nat.min_eq_left (by omega)]
  by_cases hours' : 0 < ours
  · by_cases hremote : 0 < remote
    · simp [hours', hremote]
    · simp [hours', hremote, Nat.pos_iff_ne_zero.mp hours']
  · have hzero : ours = 0 := by omega
    subst hzero
    by_cases hremote : remote = 0
    · simp [hremote]
    · simp [hremote, Nat.pos_of_ne_zero hremote]

/-- Our send rate under the default interval: measured, or the current
rate when nothing was sent. -/
def ourRate (s : RateState) : Nat :=
  if 0 < s.totalTxBytes - s.lastProbeTxBytes then s.sendRate else s.txRate

theorem Bracketed.ourRate_pos (h : s.Bracketed)
    (hle : s.txMinRate ≤ s.txMaxRate) : 0 < s.ourRate := by
  unfold ourRate sendRate
  split
  case isTrue hsent => omega
  case isFalse => exact (h.within hle).1

private theorem ourTxRate_default (h : s.ourTxRate 200000 = some ours) :
    ours = s.ourRate
      ∧ (0 < s.totalTxBytes - s.lastProbeTxBytes → ours < 2 ^ 64) := by
  unfold ourTxRate at h
  rw [if_pos (by omega)] at h
  unfold ourRate sendRate
  dsimp only at h
  split at h
  case isTrue hsent =>
      obtain ⟨product, hproduct, rfl⟩ := Option.map_eq_some_iff.mp h
      obtain ⟨hfit, rfl⟩ := mul_eq_some.mp hproduct
      rw [if_pos hsent]
      exact ⟨rfl, fun _ => by omega⟩
  case isFalse hnone =>
      cases h
      rw [if_neg hnone]
      exact ⟨rfl, fun hsent => absurd hsent hnone⟩

/-- What a trusted probe does to the rate of a bracketed, active link under
the default configuration. -/
theorem trusted_rate (hactive : s.Active)
    (htrusted : confidence > 1 / 2 ∨ tapaEnabled = false)
    (hp : s.processProbe (.withTapa tapaEnabled) clk confidence suppress
      probe = some s') (h : s.Bracketed) :
    (Congested s.ourRate (receiveRate probe.rxBytes) ∧ s.txMinRate ≤ s.txMaxRate
        ∧ s'.txRate = stepRate (.withTapa tapaEnabled)
          (receiveRate probe.rxBytes * 7 / 8) s)
      ∨ (¬Congested s.ourRate (receiveRate probe.rxBytes)
        ∧ (0 < s.ourRate ↔ 0 < receiveRate probe.rxBytes)
        ∧ s.txMinRate ≤ s.txMaxRate
        ∧ s'.txRate = stepRate (.withTapa tapaEnabled)
          (grown (10 / 100) s) s)
      ∨ (¬Congested s.ourRate (receiveRate probe.rxBytes)
        ∧ ¬(0 < s.ourRate ↔ 0 < receiveRate probe.rxBytes)
        ∧ s'.txRate = s.txRate) := by
  have hpositive : 0 < (RateControlConfig.withTapa
      tapaEnabled).probeIntervalMs.toNat * 1000 := by
    rw [RateControlConfig.withTapa_interval]
    exact Nat.succ_pos _
  have hbranch : Trusted (.withTapa tapaEnabled) confidence := htrusted
  obtain ⟨ours, hours, hordered, hpaced⟩ :=
    processProbe_trusted hactive hbranch hpositive hp
  rw [RateControlConfig.withTapa_interval] at hours hordered hpaced
  obtain ⟨rfl, hmeasured⟩ := ourTxRate_default hours
  have hfit : s.ourRate < 2 ^ 64 := by
    by_cases hsent : 0 < s.totalTxBytes - s.lastProbeTxBytes
    · exact hmeasured hsent
    · rw [ourRate, if_neg hsent]
      exact h.fits
  rw [← receiveRate, pace_default hfit] at hordered hpaced
  by_cases hcongested : Congested s.ourRate (receiveRate probe.rxBytes)
  · rw [if_pos hcongested] at hordered hpaced
    have hbelow := hcongested.2
    have hfits : receiveRate probe.rxBytes * 7 / 8 ≤ 2 ^ 64 - 1 := by omega
    refine Or.inl ⟨hcongested, hordered (by simp), ?_⟩
    rw [hpaced, pacedRate, trunc_reduction, Nat.min_eq_left hfits]
  · rw [if_neg hcongested] at hordered hpaced
    by_cases hboth : 0 < s.ourRate ↔ 0 < receiveRate probe.rxBytes
    · rw [if_pos hboth] at hordered hpaced
      exact Or.inr (Or.inl ⟨hcongested, hboth, hordered (by simp), hpaced⟩)
    · rw [if_neg hboth] at hpaced
      exact Or.inr (Or.inr ⟨hcongested, hboth, hpaced⟩)

/-- The default cap is a tenth of the rate, or 100 Kbps. -/
private theorem stepCap_default (hrate : s.txRate < 2 ^ 64) :
    stepCap (.withTapa tapaEnabled) s = max (s.txRate / 10) 12500 := by
  have hshare : trunc 64 ((s.txRate : ℚ) * (RateControlConfig.withTapa
      tapaEnabled).maxRateChangeFraction)
        = min (s.txRate / 10) (2 ^ 64 - 1) :=
    trunc_tenth s.txRate
  rw [stepCap, hshare, Nat.min_eq_left (by omega)]

/-- Growth by a tenth is within the cap. -/
private theorem Bracketed.stepRate_tenth (h : s.Bracketed)
    (hle : s.txMinRate ≤ s.txMaxRate) :
    stepRate (.withTapa tapaEnabled) (grown (10 / 100) s) s
      = Toward.clamp s.txMinRate s.txMaxRate (s.txRate + s.txRate / 10) := by
  have hwithin := h.within hle
  have hwide := h.wide
  have hgrown : grown (10 / 100) s
      = min (s.txRate + s.txRate / 10) (2 ^ 64 - 1) := by
    rw [grown, trunc_tenth, Nat.min_eq_left (by omega)]
    rfl
  rw [stepRate, stepCap_default (by omega), hgrown,
    Toward.step_of_near (by omega) (by omega)]
  unfold Toward.clamp
  omega

/-- A change toward a target ends above growth exactly when the target
and the cap lead above it and above the floor, and both end below the
ceiling. -/
private theorem Bracketed.grown_lt_iff (h : s.Bracketed)
    (hle : s.txMinRate ≤ s.txMaxRate) {desired : Nat} :
    stepRate (.withTapa tapaEnabled) (grown (10 / 100) s) s
        < stepRate (.withTapa tapaEnabled) desired s
      ↔ max (s.txRate + s.txRate / 10) s.txMinRate
        < min (min desired (s.txRate + 12500)) s.txMaxRate := by
  have hwithin := h.within hle
  have hwide := h.wide
  rw [h.stepRate_tenth hle, stepRate, stepCap_default (by omega),
    Toward.clamp_lt_clamp_iff]
  by_cases hup : s.txRate ≤ desired
  · rw [Toward.step_up hup]
    omega
  · have hcap : 0 < max (s.txRate / 10) 12500 := by omega
    have hdown := (Toward.step_le_iff hcap).mpr (Nat.le_of_not_le hup)
    omega

/-- More received, compared at one state: the rate ends lower exactly
when the smaller report is empty and the larger one shows congestion, or
when the smaller one shows congestion, the larger one does not, and the
smaller one's target is above what growth gives. -/
theorem trusted_rate_lt_iff {clk' : Clock} {a b : ProbePacket}
    {sa sb : RateState} (hactive : s.Active)
    (htrusted : confidence > 1 / 2 ∨ tapaEnabled = false)
    (ha : s.processProbe (.withTapa tapaEnabled) clk confidence suppress
      a = some sa)
    (hb : s.processProbe (.withTapa tapaEnabled) clk' confidence suppress
      b = some sb)
    (h : s.Bracketed) (hle : receiveRate a.rxBytes ≤ receiveRate b.rxBytes) :
    sb.txRate < sa.txRate
      ↔ (receiveRate a.rxBytes = 0 ∧ Congested s.ourRate (receiveRate b.rxBytes)
          ∧ receiveRate b.rxBytes * 7 / 8 < s.txRate ∧ s.txMinRate < s.txRate)
        ∨ (Congested s.ourRate (receiveRate a.rxBytes)
          ∧ ¬Congested s.ourRate (receiveRate b.rxBytes)
          ∧ max (s.txRate + s.txRate / 10) s.txMinRate
            < min (min (receiveRate a.rxBytes * 7 / 8) (s.txRate + 12500))
              s.txMaxRate) := by
  rcases trusted_rate hactive htrusted ha h with
    ⟨hcongested, horder, hrate⟩ | ⟨hfree, hboth, horder, hrate⟩
      | ⟨hfree, hone, hrate⟩
  · -- the smaller report shows congestion
    have hpos : receiveRate a.rxBytes ≠ 0 := Nat.pos_iff_ne_zero.mp hcongested.1
    rcases trusted_rate hactive htrusted hb h with
      ⟨hcongested', -, hrate'⟩ | ⟨hfree', -, -, hrate'⟩ | ⟨hfree', hone', -⟩
    · have htarget : receiveRate a.rxBytes * 7 / 8 ≤ receiveRate b.rxBytes * 7 / 8 := by
        omega
      rw [hrate, hrate']
      simp only [hpos, hcongested', false_and, not_true_eq_false, and_false,
        or_self, iff_false, not_lt]
      exact Toward.clamp_mono (Toward.step_mono htarget)
    · rw [hrate, hrate', h.grown_lt_iff horder]
      simp only [hpos, hcongested, hfree', false_and, not_false_eq_true,
        true_and, false_or]
    · have hsent : 0 < s.ourRate := Nat.zero_lt_of_lt hcongested.2
      have hreceived : 0 < receiveRate b.rxBytes := hcongested.1.trans_le hle
      exact absurd (iff_of_true hsent hreceived) hone'
  · -- it lets the rate grow, and so does a larger one
    simp only [hfree, false_and, or_false]
    have hwithin := h.within horder
    have hours : 0 < s.ourRate := h.ourRate_pos horder
    have hpos : receiveRate a.rxBytes ≠ 0 :=
      Nat.pos_iff_ne_zero.mp (hboth.mp hours)
    simp only [hpos, false_and, iff_false, not_lt]
    rcases trusted_rate hactive htrusted hb h with
      ⟨hcongested', -⟩ | ⟨-, -, -, hrate'⟩ | ⟨-, hone', -⟩
    · have hbelow := hcongested'.2
      exact absurd ⟨hboth.mp hours, by omega⟩ hfree
    · rw [hrate, hrate']
    · have hreceived : 0 < receiveRate b.rxBytes := (hboth.mp hours).trans_le hle
      exact absurd (iff_of_true hours hreceived) hone'
  · -- it holds the rate
    simp only [hfree, false_and, or_false]
    rcases trusted_rate hactive htrusted hb h with
      ⟨hcongested', horder, hrate'⟩ | ⟨hfree', -, horder, hrate'⟩
        | ⟨hfree', -, hrate'⟩
    · have hours : 0 < s.ourRate := Nat.zero_lt_of_lt hcongested'.2
      have hzero : receiveRate a.rxBytes = 0 := by
        by_contra hpos
        exact hone (iff_of_true hours (Nat.pos_of_ne_zero hpos))
      rw [hrate, hrate', h.stepRate_lt_iff horder]
      simp only [hzero, hcongested', true_and]
    · rw [hrate, hrate']
      simp only [hfree', false_and, and_false, iff_false, not_lt]
      exact h.le_stepRate_grown horder _
    · rw [hrate, hrate']
      simp only [hfree', false_and, and_false, iff_false, not_lt, le_refl]

/-- What a probe that is not trusted does under the default
configuration: the rate may grow. -/
theorem untrusted_rate (hactive : s.Active) (hdoubt : ¬confidence > 1 / 2)
    (hp : s.processProbe (.withTapa true) clk confidence suppress
      probe = some s') :
    (s'.txRate ≠ s.txRate → s.txMinRate ≤ s.txMaxRate)
      ∧ s'.txRate = quietRate (.withTapa true) s := by
  refine processProbe_untrusted hactive (fun htrusted => ?_) hp
  rcases htrusted with hconf | htapa
  · exact hdoubt hconf
  · cases htapa

theorem Bracketed.le_quietRate (h : s.Bracketed)
    (hle : quietRate cfg s ≠ s.txRate → s.txMinRate ≤ s.txMaxRate) :
    s.txRate ≤ quietRate cfg s := by
  by_cases hsame : quietRate cfg s = s.txRate
  · exact hsame.ge
  · have horder := hle hsame
    unfold quietRate
    split
    · exact h.le_stepRate_grown horder _
    · exact Nat.le_refl _

/-- A remote that received all that was sent received at its rate. -/
theorem sendRate_le
    (h : s.totalTxBytes - s.lastProbeTxBytes ≤ probe.rxBytes.toNat) :
    s.sendRate ≤ receiveRate probe.rxBytes :=
  Nat.div_le_div_right (Nat.mul_le_mul_right _ h)

/-- A probe without congestion reports nothing or enough, or something
was sent. -/
theorem free_of_report (hfree : ¬Congested s.ourRate (receiveRate probe.rxBytes)) :
    0 < s.totalTxBytes - s.lastProbeTxBytes ∨ probe.rxBytes = 0
      ∨ s.txRate ≤ receiveRate probe.rxBytes + s.txRate / 8
      ∨ s.txRate ≤ s.txMinRate := by
  by_cases hsent : 0 < s.totalTxBytes - s.lastProbeTxBytes
  · exact Or.inl hsent
  by_cases hreports : probe.rxBytes = 0
  · exact Or.inr (Or.inl hreports)
  have hreceived := receiveRate_pos.mpr hreports
  rw [ourRate, if_neg hsent] at hfree
  refine Or.inr (Or.inr (Or.inl (not_lt.mp fun hbelow => ?_)))
  exact hfree ⟨hreceived, hbelow⟩

end RateState

end ChainLightning
