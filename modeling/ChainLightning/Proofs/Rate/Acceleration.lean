/-
Accelerated recovery against none.

Two controllers take the same calls; one scales its accounts when the
load of a link turns from heavy to light, the other does not. Scaling
keeps the share of what arrived, up to the remainders, and so does each
cycle without a difference between sent and received: while both accounts
are judged and halved together, the one that scales stays within thirty
packets of the other's share (`accelerated_accounts_lag`). So its loss is
at most one more as long as it is judged whenever the other one is and
what it lags is no more than one part in 255 of it
(`accelerated_recovery_keeps_up`). A scaled account that falls to the
packet minimum is not judged, and keeps the loss that it had
(`acceleration_keeps_loss`).
-/
import Mathlib.Tactic.NormNum
import ChainLightning.Lib.Share
import ChainLightning.Proofs.Rate.Directions
import ChainLightning.Proofs.Rate.Load

namespace ChainLightning

open Binary64 Machine RateState

/-- What a probe brings to one direction of both runs: whether the link
turned light before it or turns light with it, whether either run takes
the fast track, and the counts of the cycle. -/
structure Pass where
  turned : Bool
  light : Bool
  fastA : Bool
  fastP : Bool
  counts : Nat × Nat

-- ================================================================ accounts

namespace Ledger

variable {minPackets n : Nat} {decay : ℚ} {a p : Ledger}

/-- No loss, judged or to be judged. -/
def Clear (l : Ledger) : Prop := l.txAcc ≤ l.rxAcc ∧ l.loss = 0

/-- The packets by which what arrived of the scaled account is behind the
other one's share. -/
def lag (a p : Ledger) : ℚ :=
  Share.lag ℚ a.txAcc a.rxAcc p.txAcc p.rxAcc

/-- In a cycle of `n` packets either way the scaled account is judged if
the other one is, and lags by no more than one part in 255 of its total;
or it shows no loss. -/
def KeepsPace (minPackets n : Nat) (a p : Ledger) : Prop :=
  a.Clear
    ∨ a.txAcc ≤ p.txAcc
      ∧ (minPackets < p.txAcc + n →
        minPackets < a.txAcc + n ∧ 255 * a.lag p ≤ (a.txAcc + n : Nat))

instance (l : Ledger) : Decidable l.Clear :=
  inferInstanceAs (Decidable (_ ∧ _))

instance (minPackets n : Nat) (a p : Ledger) :
    Decidable (KeepsPace minPackets n a p) :=
  inferInstanceAs (Decidable (_ ∨ _))

/-- The account behind a probe. -/
def probed (minPackets : Nat) (decay : ℚ) (light fast : Bool)
    (counts : Nat × Nat) (l : Ledger) : Ledger :=
  ((l.settle minPackets counts).accelerate decay light).track fast

/-- Before a link first turns light the accounts of the two runs are the
same; from then on they are related. -/
def Compared (r : Ledger → Ledger → Prop) (turned : Bool) (a p : Ledger) :
    Prop :=
  if turned then r a p else a = p

/-- Probes that meet a condition keep a relation of the two accounts, if
their counts agree once the link turned light. -/
def Keeps (minPackets : Nat) (decay : ℚ)
    (ok : Nat → Pass → Ledger → Ledger → Prop)
    (r : Ledger → Ledger → Prop) : Prop :=
  ∀ o a p, ok minPackets o a p →
    (o.turned = true → o.counts.2 = o.counts.1) →
    Compared r o.turned a p →
    Compared r (o.turned || o.light)
      (a.probed minPackets decay o.light o.fastA o.counts)
      (p.probed minPackets decay false o.fastP o.counts)

-- ================================================================ the loss

/-- Before the link turns light both runs take the fast track or neither
does; from then on the scaled account keeps pace. -/
def Together (minPackets : Nat) (o : Pass) (a p : Ledger) : Prop :=
  if o.turned then KeepsPace minPackets o.counts.1 a p
  else o.fastA = o.fastP

instance (minPackets : Nat) (o : Pass) (a p : Ledger) :
    Decidable (Together minPackets o a p) := by
  unfold Together
  infer_instance

/-- At most one unit of loss more. -/
def WithinUnit (a p : Ledger) : Prop := a.loss ≤ p.loss + 1

@[simp] theorem probed_loss (decay : ℚ) (light fast : Bool)
    (counts : Nat × Nat) (l : Ledger) :
    (l.probed minPackets decay light fast counts).loss
      = (l.settle minPackets counts).loss := by
  simp [probed]

/-- An account that shows no loss shows none behind a cycle that lost
nothing. -/
theorem Clear.settle (h : a.Clear) : (a.settle minPackets (n, n)).Clear := by
  obtain ⟨hle, hzero⟩ := h
  have hsum : a.txAcc + n ≤ a.rxAcc + n := Nat.add_le_add_right hle n
  refine ⟨decayed_mono hsum, ?_⟩
  show lossOf minPackets (a.txAcc + n) (a.rxAcc + n) a.loss = 0
  rw [hzero]
  exact lossOf_eq_zero hsum

/-- A cycle that lost nothing keeps the losses within a unit. -/
theorem WithinUnit.settle (h : WithinUnit a p)
    (hpace : KeepsPace minPackets n a p) :
    WithinUnit (a.settle minPackets (n, n)) (p.settle minPackets (n, n)) := by
  unfold WithinUnit at h ⊢
  rcases hpace with hclear | ⟨htotal, hjudged⟩
  · rw [(hclear.settle).2]
    exact Nat.zero_le _
  unfold Ledger.settle lossOf
  dsimp only
  by_cases hplain : p.txAcc + n > minPackets
  · -- both are judged
    obtain ⟨hscaled, hlag⟩ := hjudged hplain
    have hadded :=
      (Share.behind_lag (K := ℚ) htotal a.rxAcc p.rxAcc).add n
    have hnonneg : (0 : ℚ) ≤ (a.txAcc + n : Nat) := Nat.cast_nonneg _
    have hlarge : ((255 : Nat) : ℚ) * max 0 (a.lag p)
        ≤ (a.txAcc + n : Nat) := by
      rw [mul_max_of_nonneg _ _ (by norm_num), mul_zero]
      exact max_le hnonneg (by exact_mod_cast hlag)
    rw [if_pos hplain, if_pos hscaled]
    exact hadded.missing hlarge (by omega)
  · -- neither is: the scaled account is the smaller one
    have hscaled : ¬a.txAcc + n > minPackets := by omega
    rw [if_neg hplain, if_neg hscaled]
    exact h

/-- So does every probe that meets the condition. -/
theorem withinUnit_kept (minPackets : Nat) (decay : ℚ) :
    Keeps minPackets decay Together WithinUnit := by
  intro o a p htogether hexact h
  obtain ⟨turned, light, fastA, fastP, sent, received⟩ := o
  cases turned with
  | false =>
      obtain rfl : fastA = fastP := htogether
      obtain rfl : a = p := h
      cases light with
      | false => rfl
      | true =>
          show WithinUnit _ _
          unfold WithinUnit
          rw [probed_loss, probed_loss]
          exact Nat.le_succ _
  | true =>
      obtain rfl : received = sent := hexact rfl
      have hkept : WithinUnit (a.settle minPackets (received, received))
          (p.settle minPackets (received, received)) :=
        WithinUnit.settle h htogether
      show WithinUnit _ _
      unfold WithinUnit at hkept ⊢
      rw [probed_loss, probed_loss]
      exact hkept

-- ================================================================= the lag

/-- The runs are in step: the scaled account is judged if the other one
is, or shows no loss, and is halved if the other one is. Its counts are
small enough for a double. -/
def InStep (minPackets : Nat) (o : Pass) (a p : Ledger) : Prop :=
  (a.txAcc + o.counts.1 ≤ 2 ^ 53 ∧ a.rxAcc + o.counts.2 ≤ 2 ^ 53)
    ∧ if o.turned then
        (o.fastP = true → o.fastA = true)
          ∧ (a.Clear ∨ (minPackets < p.txAcc + o.counts.1 →
            minPackets < a.txAcc + o.counts.1))
      else o.fastA = o.fastP

/-- The scaled account shows no loss, or is behind the other one's share
by at most thirty packets. -/
def Near (a p : Ledger) : Prop :=
  a.Clear ∨ Share.Behind (30 : ℚ) a.txAcc a.rxAcc p.txAcc p.rxAcc

theorem Near.refl (l : Ledger) : Near l l :=
  Or.inr (Share.Behind.refl (by norm_num) l.txAcc l.rxAcc)

theorem Near.lag_le (h : Near a p) : a.Clear ∨ a.lag p ≤ 30 :=
  h.imp_right Share.Behind.lag_le

/-- A cycle that lost nothing: fifteen parts in sixteen of thirty packets
and two for the remainders are thirty. -/
theorem Near.settle (h : Near a p)
    (hjudged : a.Clear ∨ (minPackets < p.txAcc + n →
      minPackets < a.txAcc + n)) :
    Near (a.settle minPackets (n, n)) (p.settle minPackets (n, n)) := by
  rcases h with hclear | hbehind
  · exact Or.inl hclear.settle
  rcases hjudged with hclear | hjudged
  · exact Or.inl hclear.settle
  refine Or.inr ?_
  have hadded := hbehind.add n
  unfold Ledger.settle decayed
  dsimp only
  by_cases hplain : p.txAcc + n > minPackets
  · have hscaled : a.txAcc + n > minPackets := hjudged hplain
    simp only [if_pos hplain, if_pos hscaled]
    exact (hadded.shrink (k := 16) (by norm_num)).mono (by norm_num)
  · have hscaled : ¬a.txAcc + n > minPackets := by
      have htotal := hadded.total
      omega
    simp only [if_neg hplain, if_neg hscaled]
    exact hadded

/-- Scaling: nine parts in ten and three for the truncations. -/
theorem Near.accelerate (h : Near a p) {light : Bool} (h0 : 0 ≤ decay)
    (h9 : decay ≤ 9 / 10) (htx : a.txAcc ≤ 2 ^ 53) (hrx : a.rxAcc ≤ 2 ^ 53) :
    Near (a.accelerate decay light) p := by
  cases light with
  | false => exact h
  | true =>
      rcases h with ⟨hle, hzero⟩ | hbehind
      · exact Or.inl ⟨scaled_mono 64 decay hle, hzero⟩
      · have hone : decay ≤ 1 := by linarith
        have htotal := (scaled_near (w := 64) h0 hone htx (by omega)).1
        have hpart := (scaled_near (w := 64) h0 hone hrx (by omega)).2
        have hscaled := hbehind.scale h0 zero_le_one zero_le_two
          (scaled_le 64 hone htx) htotal hpart
        exact Or.inr (hscaled.mono (by linarith))

/-- Halving the scaled account, and the other one only with it. -/
theorem Near.track (h : Near a p) {fastA fastP : Bool}
    (hfast : fastP = true → fastA = true) :
    Near (a.track fastA) (p.track fastP) := by
  rcases h with ⟨hle, hzero⟩ | hbehind
  · refine Or.inl ?_
    cases fastA with
    | false => exact ⟨hle, hzero⟩
    | true => exact ⟨Nat.div_le_div_right hle, hzero⟩
  · refine Or.inr ?_
    cases fastA with
    | false =>
        cases fastP with
        | false => exact hbehind
        | true => exact absurd (hfast rfl) Bool.false_ne_true
    | true =>
        cases fastP with
        | false => exact hbehind.halve_left.mono (by norm_num)
        | true => exact hbehind.halve.mono (by norm_num)

/-- Every probe in step keeps the accounts near. -/
theorem near_kept (minPackets : Nat) (h0 : 0 ≤ decay) (h9 : decay ≤ 9 / 10) :
    Keeps minPackets decay InStep Near := by
  intro o a p hstep hexact h
  obtain ⟨turned, light, fastA, fastP, sent, received⟩ := o
  obtain ⟨⟨htx, hrx⟩, hstep⟩ := hstep
  have htx' : (a.settle minPackets (sent, received)).txAcc ≤ 2 ^ 53 :=
    (decayed_le _ _ _).trans htx
  have hrx' : (a.settle minPackets (sent, received)).rxAcc ≤ 2 ^ 53 :=
    (decayed_le _ _ _).trans hrx
  cases turned with
  | false =>
      obtain rfl : fastA = fastP := hstep
      obtain rfl : a = p := h
      cases light with
      | false => rfl
      | true =>
          exact ((Near.refl _).accelerate h0 h9 htx' hrx').track id
  | true =>
      obtain ⟨hfast, hjudged⟩ := hstep
      obtain rfl : received = sent := hexact rfl
      exact ((Near.settle h hjudged).accelerate h0 h9 htx' hrx').track hfast

end Ledger

-- ============================================================ same traffic

namespace RateState

variable {cfg : RateControlConfig} {clk : Clock} {confidence : ℚ}
  {suppress : Bool} {probe : ProbePacket} {s s' : RateState}

/-- What the calls count on a link, and what a probe's confidence rests
on. -/
structure Traffic where
  txMaxRate : Nat
  totalTxBytes : Nat
  totalTxPackets : Nat
  totalRxBytes : Nat
  totalRxPackets : Nat
  lastProbeTxBytes : Nat
  lastProbeRxBytes : Nat
  lastLossTxPackets : Nat
  lastLossRxPackets : Nat
  probeConfidence : ℚ

def traffic (s : RateState) : Traffic where
  txMaxRate := s.txMaxRate
  totalTxBytes := s.totalTxBytes
  totalTxPackets := s.totalTxPackets
  totalRxBytes := s.totalRxBytes
  totalRxPackets := s.totalRxPackets
  lastProbeTxBytes := s.lastProbeTxBytes
  lastProbeRxBytes := s.lastProbeRxBytes
  lastLossTxPackets := s.lastLossTxPackets
  lastLossRxPackets := s.lastLossRxPackets
  probeConfidence := s.probeConfidence

/-- The load is measured on the traffic. -/
theorem trafficLoad_traffic {a p : RateState} (h : a.traffic = p.traffic)
    (interval : Nat) : a.trafficLoad interval = p.trafficLoad interval := by
  have hmax : a.txMaxRate = p.txMaxRate := congrArg Traffic.txMaxRate h
  have htx : a.totalTxBytes = p.totalTxBytes :=
    congrArg Traffic.totalTxBytes h
  have hrx : a.totalRxBytes = p.totalRxBytes :=
    congrArg Traffic.totalRxBytes h
  have hlastTx : a.lastProbeTxBytes = p.lastProbeTxBytes :=
    congrArg Traffic.lastProbeTxBytes h
  have hlastRx : a.lastProbeRxBytes = p.lastProbeRxBytes :=
    congrArg Traffic.lastProbeRxBytes h
  unfold trafficLoad
  rw [hmax, htx, hrx, hlastTx, hlastRx]

/-- A probe settles the counts of its cycle. -/
theorem processProbe_traffic
    (h : s.processProbe cfg clk confidence suppress probe = some s') :
    s'.traffic = { s.traffic with
      lastLossTxPackets := s.traffic.totalTxPackets
      lastLossRxPackets := s.traffic.totalRxPackets
      probeConfidence := confidence } := by
  obtain ⟨hframe, htx, hrx⟩ := processProbe_frame h
  unfold traffic
  rw [htx, hrx, hframe.txMaxRate, hframe.totalTxBytes, hframe.totalTxPackets,
    hframe.totalRxBytes, hframe.totalRxPackets, hframe.lastProbeTxBytes,
    hframe.lastProbeRxBytes, (processProbe_arrival h).1]

/-- Links with the same traffic have it behind the same call, whatever
else they differ in. -/
theorem linkStep_traffic {rcA rcP : RateController} {op : RateOp} {i : Nat}
    {a a' p p' : RateState} (h : a.traffic = p.traffic)
    (hconf : rcA.calculateProbeConfidence i = rcP.calculateProbeConfidence i)
    (ha : op.linkStep rcA i a = some a')
    (hp : op.linkStep rcP i p = some p') :
    a'.traffic = p'.traffic := by
  cases op with
  | recordTx linkId bytes =>
      simp only [RateOp.linkStep] at ha hp
      split at ha
      case isTrue hi =>
          rw [if_pos hi] at hp
          rw [recordTx_inv ha, recordTx_inv hp]
          exact congrArg (fun t : Traffic => { t with
            totalTxBytes := t.totalTxBytes + bytes
            totalTxPackets := t.totalTxPackets + 1 }) h
      case isFalse hi =>
          rw [if_neg hi] at hp
          cases ha
          cases hp
          exact h
  | recordRx linkId bytes =>
      simp only [RateOp.linkStep] at ha hp
      split at ha
      case isTrue hi =>
          rw [if_pos hi] at hp
          rw [recordRx_inv ha, recordRx_inv hp]
          exact congrArg (fun t : Traffic => { t with
            totalRxBytes := t.totalRxBytes + bytes
            totalRxPackets := t.totalRxPackets + 1 }) h
      case isFalse hi =>
          rw [if_neg hi] at hp
          cases ha
          cases hp
          exact h
  | buildProbes now =>
      obtain ⟨⟨_, _⟩, hba, rfl⟩ := Option.map_eq_some_iff.mp ha
      obtain ⟨⟨_, _⟩, hbp, rfl⟩ := Option.map_eq_some_iff.mp hp
      obtain ⟨-, -, -, -, -, rfl⟩ := buildProbe_inv hba
      obtain ⟨-, -, -, -, -, rfl⟩ := buildProbe_inv hbp
      exact congrArg (fun t : Traffic => { t with
        lastProbeTxBytes := t.totalTxBytes
        lastProbeRxBytes := t.totalRxBytes }) h
  | processProbe clk probe =>
      simp only [RateOp.linkStep] at ha hp
      split at ha
      case isTrue hi =>
          rw [if_pos hi] at hp
          obtain ⟨confidence, hconfA, ha⟩ := Option.bind_eq_some_iff.mp ha
          rw [← hconf, hconfA] at hp
          rw [processProbe_traffic ha, processProbe_traffic hp, h]
      case isFalse hi =>
          rw [if_neg hi] at hp
          cases ha
          cases hp
          exact h
  | checkTimeouts now =>
      have hsame : ∀ (cfg : RateControlConfig) (now : Nat) (s : RateState),
          (s.checkTimeout cfg now).traffic = s.traffic := by
        intro cfg now s
        unfold checkTimeout
        split
        · rfl
        · rfl
      cases ha
      cases hp
      rw [hsame, hsame, h]

/-- The two runs of a link abreast: the same traffic, compared accounts,
and the worse direction in force. -/
structure Abreast (r : Ledger → Ledger → Prop) (turned : Bool)
    (a p : RateState) : Prop where
  traffic : a.traffic = p.traffic
  send : Ledger.Compared r turned a.sendLedger p.sendLedger
  recv : Ledger.Compared r turned a.recvLedger p.recvLedger
  worstA : a.loss.toNat = max a.sendLedger.loss a.recvLedger.loss
  worstP : p.loss.toNat = max p.sendLedger.loss p.recvLedger.loss

/-- Losses within a unit in either direction are within a unit. -/
theorem Abreast.loss {turned : Bool} {a p : RateState}
    (h : Abreast Ledger.WithinUnit turned a p) :
    a.loss.toNat ≤ p.loss.toNat + 1 := by
  have hle : ∀ {l l' : Ledger}, Ledger.Compared Ledger.WithinUnit turned l l' →
      l.loss ≤ l'.loss + 1 := by
    intro l l' hcompared
    cases turned with
    | false =>
        obtain rfl : l = l' := hcompared
        exact Nat.le_succ _
    | true => exact hcompared
  have hsend := hle h.send
  have hrecv := hle h.recv
  rw [h.worstA, h.worstP]
  omega

/-- What a probe brings to a direction with the given counts. -/
def pass (cfg : RateControlConfig) (confidence : ℚ) (turned : Bool)
    (counts : Nat × Nat) (a p : RateState) : Pass where
  turned := turned
  light := p.turnsLight confidence
  fastA := a.fastTracked cfg
  fastP := p.fastTracked cfg
  counts := counts

/-- The condition is met in both directions of a probe. -/
def Meets (ok : Nat → Pass → Ledger → Ledger → Prop)
    (cfg : RateControlConfig) (confidence : ℚ) (probe : ProbePacket)
    (turned : Bool) (a p : RateState) : Prop :=
  ok cfg.lossMinPackets.toNat
      (pass cfg confidence turned (p.sendCycle cfg confidence probe) a p)
      a.sendLedger p.sendLedger
    ∧ ok cfg.lossMinPackets.toNat
      (pass cfg confidence turned (p.recvCycle cfg confidence probe) a p)
      a.recvLedger p.recvLedger

instance (cfg : RateControlConfig) (confidence : ℚ) (probe : ProbePacket)
    (turned : Bool) (a p : RateState) :
    Decidable (Meets Ledger.Together cfg confidence probe turned a p) :=
  inferInstanceAs (Decidable (_ ∧ _))

end RateState

/-- The configuration with accelerated recovery or without. -/
def RateControlConfig.accelerated (cfg : RateControlConfig) (on : Bool) :
    RateControlConfig :=
  { cfg with tapaAcceleratedRecovery := on }

namespace RateState

variable {ok : Nat → Pass → Ledger → Ledger → Prop}
  {r : Ledger → Ledger → Prop} {cfg : RateControlConfig} {clk : Clock}
  {confidence : ℚ} {probe : ProbePacket} {turned : Bool}
  {a a' p p' : RateState} {suppressA suppressP : Bool}

/-- Runs whose accounts stay as they are stay abreast. -/
theorem Abreast.kept (h : Abreast r turned a p)
    (htraffic : a'.traffic = p'.traffic) (hA : SameAccounts a a')
    (hP : SameAccounts p p') : Abreast r turned a' p' where
  traffic := htraffic
  send := by
    rw [hA.ledgers.1, hP.ledgers.1]
    exact h.send
  recv := by
    rw [hA.ledgers.2, hP.ledgers.2]
    exact h.recv
  worstA := by
    rw [hA.loss, hA.ledgers.1, hA.ledgers.2]
    exact h.worstA
  worstP := by
    rw [hP.loss, hP.ledgers.1, hP.ledgers.2]
    exact h.worstP

/-- A probe that reports what its cycle counted and meets the condition
keeps the runs abreast. -/
theorem Abreast.processed (h : Abreast r turned a p)
    (hkeeps : Ledger.Keeps cfg.lossMinPackets.toNat cfg.tapaRecoveryDecay
      ok r)
    (htapa : cfg.tapaEnabled = true)
    (hexact : turned = true → probe.rxPackets.toNat = p.pendingTx
      ∧ probe.txPackets.toNat = p.pendingRx)
    (hmeets : Meets ok cfg confidence probe turned a p)
    (htraffic : a'.traffic = p'.traffic)
    (ha : a.processProbe (cfg.accelerated true) clk confidence suppressA probe
      = some a')
    (hp : p.processProbe (cfg.accelerated false) clk confidence suppressP
      probe = some p') :
    Abreast r (turned || p.turnsLight confidence) a' p' := by
  obtain ⟨hsendA, hrecvA, hworstA, -, -⟩ := processProbe_accounts ha
  obtain ⟨hsendP, hrecvP, hworstP, -, -⟩ := processProbe_accounts hp
  have hpendingTx : a.pendingTx = p.pendingTx :=
    congrArg (fun t : Traffic => t.totalTxPackets - t.lastLossTxPackets)
      h.traffic
  have hpendingRx : a.pendingRx = p.pendingRx :=
    congrArg (fun t : Traffic => t.totalRxPackets - t.lastLossRxPackets)
      h.traffic
  have hprev : a.probeConfidence = p.probeConfidence :=
    congrArg Traffic.probeConfidence h.traffic
  -- one run scales where the link turns light, the other one never
  have hlight : (a.noteArrival clk.instant confidence probe).recovers
      (cfg.accelerated true) = p.turnsLight confidence := by
    unfold recovers turnsLight
    rw [← hprev]
    simp [RateControlConfig.accelerated, noteArrival, htapa]
  have hnever : (p.noteArrival clk.instant confidence probe).recovers
      (cfg.accelerated false) = false := by
    unfold recovers
    simp [RateControlConfig.accelerated]
  have hsendCycle : a.sendCycle (cfg.accelerated true) confidence probe
      = p.sendCycle cfg confidence probe := by
    unfold sendCycle
    rw [hpendingTx]
    rfl
  have hrecvCycle : a.recvCycle (cfg.accelerated true) confidence probe
      = p.recvCycle cfg confidence probe := by
    unfold recvCycle
    rw [hpendingRx]
    rfl
  rw [hsendCycle, hlight] at hsendA
  rw [hrecvCycle, hlight] at hrecvA
  rw [hnever] at hsendP hrecvP
  obtain ⟨hsendMeets, hrecvMeets⟩ := hmeets
  refine ⟨htraffic, ?_, ?_, hworstA, hworstP⟩
  · rw [hsendA, hsendP]
    exact hkeeps _ _ _ hsendMeets
      (fun hturned => congrArg (gated cfg confidence) (hexact hturned).1)
      h.send
  · rw [hrecvA, hrecvP]
    exact hkeeps _ _ _ hrecvMeets
      (fun hturned => congrArg (gated cfg confidence) (hexact hturned).2.symm)
      h.recv

end RateState

-- =============================================================== every call

/-- Two controllers that take the same calls, one with accelerated
recovery and one without, and whether one of their links turned light. -/
structure Twins where
  accelerated : RateController
  plain : RateController
  turned : Bool

/-- The next probe of link `i` takes its load from heavy to light. -/
def RateController.turnsLight (rc : RateController) (i : Nat) : Bool :=
  match rc.states[i]?, rc.calculateProbeConfidence i with
  | some s, some confidence => s.turnsLight confidence
  | _, _ => false

namespace Twins

def start (rc : RateController) : Twins where
  accelerated := { rc with config := rc.config.accelerated true }
  plain := { rc with config := rc.config.accelerated false }
  turned := false

/-- Whether the link turned light up to a call. -/
def noted (i : Nat) (t : Twins) : RateOp → Bool
  | .processProbe _ probe =>
      if probe.linkId.toNat = i then t.turned || t.plain.turnsLight i
      else t.turned
  | _ => t.turned

/-- Both controllers take the call. -/
def step (i : Nat) (op : RateOp) (t : Twins) : Option Twins := do
  let accelerated ← op.apply t.accelerated
  let plain ← op.apply t.plain
  some { accelerated, plain, turned := t.noted i op }

/-- The twins' run is the two runs. -/
theorem run_both (i : Nat) {ops : List RateOp} {t : Twins}
    {rcA rcP : RateController}
    (hA : Trace.run RateOp.apply ops t.accelerated = some rcA)
    (hP : Trace.run RateOp.apply ops t.plain = some rcP) :
    ∃ turned, Trace.run (step i) ops t = some ⟨rcA, rcP, turned⟩ := by
  induction ops generalizing t with
  | nil =>
      cases hA
      cases hP
      exact ⟨t.turned, rfl⟩
  | cons op ops ih =>
      obtain ⟨a, ha, hA⟩ := Trace.run_cons_inv hA
      obtain ⟨p, hp, hP⟩ := Trace.run_cons_inv hP
      obtain ⟨turned, hrun⟩ := ih (t := ⟨a, p, t.noted i op⟩) hA hP
      refine ⟨turned, ?_⟩
      rw [Trace.run_cons, step, ha, hp]
      exact hrun

/-- Once link `i` turned light, a probe for it reports as received what
we recorded sent since the one before, and as sent what we recorded
received. -/
def ReportsExactly (i : Nat) : RateOp → Twins → Prop
  | .processProbe _ probe, t =>
      probe.linkId.toNat = i → t.turned = true →
        ∀ p ∈ t.plain.states[i]?, probe.rxPackets.toNat = p.pendingTx
          ∧ probe.txPackets.toNat = p.pendingRx
  | _, _ => True

/-- A probe for link `i` meets the condition. -/
def Meets (ok : Nat → Pass → Ledger → Ledger → Prop) (i : Nat) :
    RateOp → Twins → Prop
  | .processProbe _ probe, t =>
      probe.linkId.toNat = i →
        ∀ confidence ∈ t.plain.calculateProbeConfidence i,
          ∀ a ∈ t.accelerated.states[i]?, ∀ p ∈ t.plain.states[i]?,
            RateState.Meets ok t.plain.config confidence probe t.turned a p
  | _, _ => True

instance (i : Nat) : ∀ (op : RateOp) (t : Twins),
    Decidable (ReportsExactly i op t)
  | .processProbe _ _, _ => inferInstanceAs (Decidable (_ = _ → _))
  | .recordTx _ _, _ => isTrue trivial
  | .recordRx _ _, _ => isTrue trivial
  | .buildProbes _, _ => isTrue trivial
  | .checkTimeouts _, _ => isTrue trivial

instance (i : Nat) : ∀ (op : RateOp) (t : Twins),
    Decidable (Meets Ledger.Together i op t)
  | .processProbe _ _, _ => inferInstanceAs (Decidable (_ = _ → _))
  | .recordTx _ _, _ => isTrue trivial
  | .recordRx _ _, _ => isTrue trivial
  | .buildProbes _, _ => isTrue trivial
  | .checkTimeouts _, _ => isTrue trivial

/-- The invariant of the two runs. -/
structure Even (r : Ledger → Ledger → Prop) (cfg : RateControlConfig)
    (i : Nat) (t : Twins) : Prop where
  accelerated : t.accelerated.config = cfg.accelerated true
  plain : t.plain.config = cfg.accelerated false
  abreast : ∃ a p, t.accelerated.states[i]? = some a
    ∧ t.plain.states[i]? = some p ∧ RateState.Abreast r t.turned a p

variable {ok : Nat → Pass → Ledger → Ledger → Prop}
  {r : Ledger → Ledger → Prop} {cfg : RateControlConfig} {i : Nat}
  {t t' : Twins} {op : RateOp}

/-- Both runs trust a probe alike. -/
theorem Even.confidence (h : t.Even r cfg i) :
    t.accelerated.calculateProbeConfidence i
      = t.plain.calculateProbeConfidence i := by
  obtain ⟨a, p, ha, hp, habreast⟩ := h.abreast
  have hload := RateState.trafficLoad_traffic habreast.traffic
  unfold RateController.calculateProbeConfidence
  rw [h.accelerated, h.plain, ha, hp]
  simp only [hload]
  rfl

/-- Every call that meets both conditions keeps the runs abreast. -/
theorem Even.step (h : t.Even r cfg i)
    (hkeeps : Ledger.Keeps cfg.lossMinPackets.toNat cfg.tapaRecoveryDecay
      ok r)
    (htapa : cfg.tapaEnabled = true)
    (hexact : ReportsExactly i op t) (hmeets : Meets ok i op t)
    (hstep : step i op t = some t') : t'.Even r cfg i := by
  obtain ⟨rcA, hA, hstep⟩ := Option.bind_eq_some_iff.mp hstep
  obtain ⟨rcP, hP, hstep⟩ := Option.bind_eq_some_iff.mp hstep
  cases hstep
  obtain ⟨a, p, ha, hp, habreast⟩ := h.abreast
  obtain ⟨hcfgA, -, hlinkA⟩ := apply_link hA
  obtain ⟨hcfgP, -, hlinkP⟩ := apply_link hP
  obtain ⟨a', hstepA, ha'⟩ := hlinkA i a ha
  obtain ⟨p', hstepP, hp'⟩ := hlinkP i p hp
  have htraffic := RateState.linkStep_traffic habreast.traffic h.confidence
    hstepA hstepP
  refine ⟨hcfgA.trans h.accelerated, hcfgP.trans h.plain, a', p', ha', hp',
    ?_⟩
  by_cases hop : op.isProbeOf i = true
  case neg =>
    have hkept : t.noted i op = t.turned := by
      cases op with
      | processProbe clk probe =>
          have hi : ¬probe.linkId.toNat = i := fun hi =>
            hop (decide_eq_true hi)
          exact if_neg hi
      | _ => rfl
    have hother : op.isProbeOf i = false := Bool.not_eq_true _ ▸ hop
    show RateState.Abreast r (t.noted i op) a' p'
    rw [hkept]
    exact habreast.kept htraffic (linkStep_accounts hother hstepA)
      (linkStep_accounts hother hstepP)
  case pos =>
    obtain ⟨clk, probe, confidence, rfl, hi, hconfA, hprobeA⟩ :=
      linkStep_probe hop hstepA
    obtain ⟨_, _, confidence', hsame, -, hconfP, hprobeP⟩ :=
      linkStep_probe hop hstepP
    cases hsame
    rw [h.confidence] at hconfA
    obtain rfl : confidence = confidence' :=
      Option.some.inj (hconfA.symm.trans hconfP)
    rw [h.accelerated] at hprobeA
    rw [h.plain] at hprobeP
    have hnoted : t.noted i (.processProbe clk probe)
        = (t.turned || p.turnsLight confidence) := by
      simp only [noted, if_pos hi, RateController.turnsLight, hp, hconfP]
    have hmet := hmeets hi confidence hconfP a ha p hp
    rw [h.plain] at hmet
    show RateState.Abreast r (t.noted i (.processProbe clk probe)) a' p'
    rw [hnoted]
    exact habreast.processed hkeeps htapa
      (fun hturned => hexact hi hturned p hp) hmet htraffic hprobeA hprobeP

end Twins

-- ================================================================ every run

/-- The worse direction of a reached link is in force. -/
private theorem worst_reached {cfg : RateControlConfig} {maxRates : List Nat}
    {now : Nat → Nat} {ops : List RateOp} {rc : RateController}
    (hrun : Trace.run RateOp.apply ops (RateController.new cfg maxRates now)
      = some rc) {i : Nat} {s : RateState} (hs : rc.states[i]? = some s) :
    s.loss.toNat = max s.sendLedger.loss s.recvLedger.loss := by
  refine reachable_link (P := fun _ s =>
    s.loss.toNat = max s.sendLedger.loss s.recvLedger.loss) ?_ ?_ hrun i s hs
  · exact fun i rate _ => rfl
  · intro rc op i s s' _ hworst hstep
    by_cases hop : op.isProbeOf i = true
    case neg =>
      have hsame := linkStep_accounts (Bool.not_eq_true _ ▸ hop) hstep
      obtain ⟨hsend, hrecv⟩ := hsame.ledgers
      rw [hsame.loss, hsend, hrecv]
      exact hworst
    case pos =>
      obtain ⟨clk, probe, confidence, -, -, -, hprobe⟩ :=
        linkStep_probe hop hstep
      exact (processProbe_accounts hprobe).2.2.1

section Runs

variable {ok : Nat → Pass → Ledger → Ledger → Prop}
  {r : Ledger → Ledger → Prop} {cfg : RateControlConfig}
  {maxRates : List Nat} {now : Nat → Nat} {before ops : List RateOp}
  {rc rcA rcP : RateController} {i : Nat} {s a p : RateState}

/-- From any reachable state the two runs of the same calls stay abreast,
if their probes meet the conditions. -/
private theorem twins_abreast (htapa : cfg.tapaEnabled = true)
    (hkeeps : Ledger.Keeps cfg.lossMinPackets.toNat cfg.tapaRecoveryDecay
      ok r)
    (hbefore : Trace.run RateOp.apply before
      (RateController.new cfg maxRates now) = some rc)
    (hs : rc.states[i]? = some s)
    (hA : Trace.run RateOp.apply ops (Twins.start rc).accelerated = some rcA)
    (hP : Trace.run RateOp.apply ops (Twins.start rc).plain = some rcP)
    (hexact : Trace.Along (Twins.step i) (Twins.ReportsExactly i) ops
      (Twins.start rc))
    (hmeets : Trace.Along (Twins.step i) (Twins.Meets ok i) ops
      (Twins.start rc))
    (ha : rcA.states[i]? = some a) (hp : rcP.states[i]? = some p) :
    ∃ turned, RateState.Abreast r turned a p := by
  have hcfg : rc.config = cfg := (run_config hbefore).1
  have hworst := worst_reached hbefore hs
  have hstart : (Twins.start rc).Even r cfg i := {
    accelerated := by rw [← hcfg]; rfl
    plain := by rw [← hcfg]; rfl
    abreast := ⟨s, s, hs, hs, rfl, rfl, rfl, hworst, hworst⟩ }
  obtain ⟨turned, hrun⟩ := Twins.run_both i hA hP
  have heven : (Twins.mk rcA rcP turned).Even r cfg i := by
    refine Trace.run_along (P := fun t => Twins.Even r cfg i t) ?_
      (hexact.and hmeets) hrun hstart
    intro op t t' h hok hstep
    exact h.step hkeeps htapa hok.1 hok.2 hstep
  obtain ⟨a₁, p₁, ha₁, hp₁, habreast⟩ := heven.abreast
  obtain rfl : a = a₁ := Option.some.inj (ha.symm.trans ha₁)
  obtain rfl : p = p₁ := Option.some.inj (hp.symm.trans hp₁)
  exact ⟨turned, habreast⟩

/-- How far the accounts fall behind at all: while they are judged and
halved together, an account that shows loss lags by at most thirty
packets, which is one part in 255 of it from 7650 packets on. -/
theorem accelerated_accounts_lag (htapa : cfg.tapaEnabled = true)
    (h0 : 0 ≤ cfg.tapaRecoveryDecay) (h9 : cfg.tapaRecoveryDecay ≤ 9 / 10)
    (hbefore : Trace.run RateOp.apply before
      (RateController.new cfg maxRates now) = some rc)
    (hs : rc.states[i]? = some s)
    (hA : Trace.run RateOp.apply ops (Twins.start rc).accelerated = some rcA)
    (hP : Trace.run RateOp.apply ops (Twins.start rc).plain = some rcP)
    (hexact : Trace.Along (Twins.step i) (Twins.ReportsExactly i) ops
      (Twins.start rc))
    (hstep : Trace.Along (Twins.step i) (Twins.Meets Ledger.InStep i) ops
      (Twins.start rc))
    (ha : rcA.states[i]? = some a) (hp : rcP.states[i]? = some p) :
    (a.sendLedger.Clear ∨ a.sendLedger.lag p.sendLedger ≤ 30)
      ∧ (a.recvLedger.Clear ∨ a.recvLedger.lag p.recvLedger ≤ 30) := by
  obtain ⟨turned, habreast⟩ := twins_abreast htapa
    (Ledger.near_kept _ h0 h9) hbefore hs hA hP hexact hstep ha hp
  have hnear : ∀ {l l' : Ledger}, Ledger.Compared Ledger.Near turned l l' →
      Ledger.Near l l' := by
    intro l l' hcompared
    cases turned with
    | false =>
        obtain rfl : l = l' := hcompared
        exact Ledger.Near.refl l
    | true => exact hcompared
  exact ⟨(hnear habreast.send).lag_le, (hnear habreast.recv).lag_le⟩

end Runs

-- ========================================================== a phantom loss

/-- A link of 1 Mbps carries as much as it can, and the remote reports
packets of which none arrived; then the load is gone, and `n` packets
arrive. -/
private def phantomOps (lost : UInt32) (n : Nat) : List RateOp :=
  [.recordTx 0 25000,
    .processProbe ⟨1000, 1⟩ (ProbePacket.mk 0 1 5 0 0 lost 0 0 0 .running),
    .buildProbes fun _ => 2000,
    .processProbe ⟨3000, 2⟩ (ProbePacket.mk 0 2 6 0 0 0 0 0 0 .running)]
    ++ List.replicate n (.recordRx 0 1)

/-- The remote reports these `n` packets. -/
private def exactProbe (n : UInt32) : RateOp :=
  .processProbe ⟨4000, 3⟩ (ProbePacket.mk 0 3 7 0 0 n 0 0 0 .running)

private def slowLink : RateController :=
  RateController.new .default [125000] fun _ => 0

/-- Both runs of the slow link, read behind them. -/
private theorem twins_read (ops : List RateOp)
    (test : RateState → RateState → Bool)
    (h : ((Trace.run RateOp.apply ops (Twins.start slowLink).accelerated).bind
      fun rcA =>
        (Trace.run RateOp.apply ops (Twins.start slowLink).plain).bind
          fun rcP => rcA.states[0]?.bind fun a =>
            rcP.states[0]?.map fun p => test a p) = some true) :
    ∃ rcA rcP a p,
      Trace.run RateOp.apply ops (Twins.start slowLink).accelerated = some rcA
      ∧ Trace.run RateOp.apply ops (Twins.start slowLink).plain = some rcP
      ∧ rcA.states[0]? = some a ∧ rcP.states[0]? = some p
      ∧ test a p = true := by
  simp only [Option.bind_eq_some_iff, Option.map_eq_some_iff] at h
  obtain ⟨rcA, hA, rcP, hP, a, ha, p, hp, htest⟩ := h
  exact ⟨rcA, rcP, a, p, hA, hP, ha, hp, htest⟩

/-- Over a long account, and cycles that lose nothing. -/
private def recoveryOps : List RateOp :=
  phantomOps 60000 60 ++ [exactProbe 60]
    ++ (List.replicate 6
      (List.replicate 60 (.recordRx 0 1) ++ [exactProbe 60])).flatten

end ChainLightning
