/-
What TAPA takes for load.

`traffic_load` divides the bytes counted since the link's own last probe
was built by the whole probe interval, at the moment when the peer's
probe arrives. `Loaded` is that measure over the heavy threshold, and
nothing else gives a probe the minimum confidence
(`tapa_confidence_iff`). A sustained load is measured in full at the end
of an interval only: right behind a build it is not seen at all
(`sustained_load_unseen`).
-/
import ChainLightning.Proofs.Rate.Link
import ChainLightning.Proofs.Rate.Stages

namespace ChainLightning

open Binary64 Machine

namespace RateState

variable {cfg : RateControlConfig} {clk : Clock} {confidence : ℚ}
  {suppress : Bool} {probe : ProbePacket} {s s' : RateState}

/-- The bytes counted since the last probe was built, in the busier
direction. -/
def sinceBuild (s : RateState) : Nat :=
  max (s.totalTxBytes - s.lastProbeTxBytes)
    (s.totalRxBytes - s.lastProbeRxBytes)

/-- The bytes since the last build as a load of the whole interval, in
doubles. The quotient by the interval is floored; an interval or a ceiling
of zero measures no load. -/
def measuredLoad (cfg : RateControlConfig) (s : RateState) : ℚ :=
  rnd (rnd (s.sinceBuild * 1000000 / (cfg.probeIntervalMs.toNat * 1000) : Nat)
    / rnd s.txMaxRate)

/-- It is a heavy load. -/
def Loaded (cfg : RateControlConfig) (s : RateState) : Prop :=
  cfg.tapaHeavyThreshold ≤ s.measuredLoad cfg

instance (cfg : RateControlConfig) (s : RateState) :
    Decidable (s.Loaded cfg) :=
  inferInstanceAs (Decidable (_ ≤ _))

/-- The measured load. -/
theorem trafficLoad_eq
    {load : ℚ} (h : s.trafficLoad (cfg.probeIntervalMs.toNat * 1000)
      = some load) : load = s.measuredLoad cfg := by
  unfold trafficLoad at h
  split at h
  case isTrue hzero =>
      cases h
      unfold measuredLoad
      rcases hzero with hinterval | hrate
      · simp [hinterval]
      · simp [hrate]
  case isFalse hpos =>
      simp only [Option.bind_eq_bind, Option.bind_eq_some_iff, sub_eq_some,
        mul_eq_some] at h
      obtain ⟨_, ⟨-, rfl⟩, _, ⟨-, rfl⟩, _, ⟨-, rfl⟩, h⟩ := h
      cases h
      have hinterval : max (cfg.probeIntervalMs.toNat * 1000) 1
          = cfg.probeIntervalMs.toNat * 1000 := by omega
      rw [hinterval]
      rfl

/-- How far a load is from the idle to the heavy threshold. -/
def loadShare (cfg : RateControlConfig) (load : ℚ) : ℚ :=
  rnd (rnd (load - cfg.tapaIdleThreshold)
    / rnd (cfg.tapaHeavyThreshold - cfg.tapaIdleThreshold))

/-- Between the thresholds it is a share. -/
theorem loadShare_mem {load : ℚ} (hidle : cfg.tapaIdleThreshold ≤ load)
    (hheavy : load ≤ cfg.tapaHeavyThreshold) :
    0 ≤ loadShare cfg load ∧ loadShare cfg load ≤ 1 := by
  have hpart : 0 ≤ rnd (load - cfg.tapaIdleThreshold) :=
    rnd_nonneg (sub_nonneg.mpr hidle)
  have hrange : rnd (load - cfg.tapaIdleThreshold)
      ≤ rnd (cfg.tapaHeavyThreshold - cfg.tapaIdleThreshold) :=
    rnd_mono (by linarith)
  have hwhole := hpart.trans hrange
  exact ⟨rnd_nonneg (div_nonneg hpart hwhole),
    rnd_le rnd_one (div_le_one_of_le₀ hrange hwhole)⟩

/-- A confidence is between 0 and 1 if the minimum is. -/
theorem loadConfidence_mem (h0 : 0 ≤ cfg.tapaMinConfidence)
    (h1 : cfg.tapaMinConfidence ≤ 1) (load : ℚ) :
    0 ≤ loadConfidence cfg load ∧ loadConfidence cfg load ≤ 1 := by
  unfold loadConfidence
  split
  case isTrue => exact ⟨zero_le_one, le_refl 1⟩
  case isFalse hidle =>
      split
      case isTrue => exact ⟨h0, h1⟩
      case isFalse hheavy =>
          obtain ⟨hshare0, hshare1⟩ :=
            loadShare_mem (not_le.mp hidle).le (not_le.mp hheavy).le
          have hrest0 : 0 ≤ rnd (1 - cfg.tapaMinConfidence) :=
            rnd_nonneg (sub_nonneg.mpr h1)
          have hrest1 : rnd (1 - cfg.tapaMinConfidence) ≤ 1 :=
            rnd_le rnd_one (by linarith)
          have htaken0 := rnd_nonneg (mul_nonneg hshare0 hrest0)
          have htaken1 := rnd_le rnd_one (mul_le_one₀ hshare1 hrest0 hrest1)
          exact ⟨rnd_nonneg (sub_nonneg.mpr htaken1),
            rnd_le rnd_one (sub_le_self 1 htaken0)⟩

/-- A confidence is a double if the minimum is. -/
theorem rnd_loadConfidence
    (h : rnd cfg.tapaMinConfidence = cfg.tapaMinConfidence) (load : ℚ) :
    rnd (loadConfidence cfg load) = loadConfidence cfg load := by
  unfold loadConfidence
  split
  case isTrue => exact rnd_one
  case isFalse =>
      split
      case isTrue => exact h
      case isFalse => exact rnd_rnd _

/-- Between the thresholds, the confidence rounds to the minimum. -/
def RoundsToMin (cfg : RateControlConfig) (load : ℚ) : Prop :=
  cfg.tapaIdleThreshold < load ∧ load < cfg.tapaHeavyThreshold
    ∧ rnd (1 - rnd (loadShare cfg load * rnd (1 - cfg.tapaMinConfidence)))
      = cfg.tapaMinConfidence

/-- From the heavy threshold on the confidence is the minimum, and below
it where the interpolation rounds to it, or the minimum is 1. -/
theorem loadConfidence_eq_min
    (horder : cfg.tapaIdleThreshold < cfg.tapaHeavyThreshold) (load : ℚ) :
    loadConfidence cfg load = cfg.tapaMinConfidence
      ↔ cfg.tapaMinConfidence = 1 ∨ cfg.tapaHeavyThreshold ≤ load
        ∨ RoundsToMin cfg load := by
  unfold loadConfidence
  by_cases hidle : load ≤ cfg.tapaIdleThreshold
  · rw [if_pos hidle]
    constructor
    · exact fun h => Or.inl h.symm
    · rintro (h | h | ⟨h, -⟩)
      · exact h.symm
      · exact absurd (lt_of_lt_of_le horder h) (not_lt.mpr hidle)
      · exact absurd hidle (not_le.mpr h)
  rw [if_neg hidle]
  by_cases hheavy : load ≥ cfg.tapaHeavyThreshold
  · rw [if_pos hheavy]
    exact ⟨fun _ => Or.inr (Or.inl hheavy), fun _ => rfl⟩
  rw [if_neg hheavy]
  constructor
  · intro h
    exact Or.inr (Or.inr ⟨not_le.mp hidle, not_le.mp hheavy, h⟩)
  · rintro (h | h | ⟨-, -, h⟩)
    · simp [h]
    · exact absurd h hheavy
    · exact h

/-- With the defaults it never rounds to the minimum: 1 less a double is
a multiple of `2 ^ -53` or at least a half, and 0.1 as a double is
neither. -/
theorem not_roundsToMin_default (load : ℚ) : ¬RoundsToMin .default load := by
  rintro ⟨hidle, hheavy, h⟩
  have hmin : RateControlConfig.default.tapaMinConfidence
      = 3602879701896397 / 2 ^ 55 := by
    decide +kernel
  obtain ⟨-, hshare⟩ := loadShare_mem hidle.le hheavy.le
  have hrest0 : 0 ≤ rnd (1 - RateControlConfig.default.tapaMinConfidence) := by
    decide +kernel
  have hrest1 : rnd (1 - RateControlConfig.default.tapaMinConfidence) ≤ 1 := by
    decide +kernel
  have htaken := rnd_le rnd_one (mul_le_one₀ hshare hrest0 hrest1)
  have htwice := rnd_rnd (loadShare .default load
    * rnd (1 - RateControlConfig.default.tapaMinConfidence))
  generalize rnd (loadShare .default load
    * rnd (1 - RateControlConfig.default.tapaMinConfidence)) = x
    at h htaken htwice
  rw [hmin] at h
  rcases le_or_gt x (1 / 2) with hhalf | hhalf
  · have hle := le_rnd (r := 1 / 2) (by decide +kernel)
      (show 1 / 2 ≤ 1 - x by linarith)
    rw [h] at hle
    norm_num at hle
  · obtain ⟨n, hn⟩ := multiple_of_half_lt htwice hhalf
    rw [rnd_one_sub htwice hhalf htaken, hn] at h
    norm_num at h
    have hint : (4 * (2 ^ 53 - n) : ℚ) = 3602879701896397 := by linarith
    have hodd : 4 * (2 ^ 53 - n) = 3602879701896397 := by exact_mod_cast hint
    omega

/-- A transition leaves alone what the arrival of the probe noted. -/
theorem transition_noted
    (h : s.transition cfg confidence suppress = some s') :
    s'.probeConfidence = s.probeConfidence
      ∧ s'.lastRemoteTimestampUs = s.lastRemoteTimestampUs
      ∧ s'.srttUs = s.srttUs := by
  cases hst : s.state with
  | running =>
      rcases transition_active (Or.inl hst) h with
        ⟨state, -, rfl, -⟩ | ⟨-, -, rfl⟩
      · exact ⟨rfl, rfl, rfl⟩
      · exact ⟨rfl, rfl, rfl⟩
  | lossy =>
      rcases transition_active (Or.inr hst) h with
        ⟨state, -, rfl, -⟩ | ⟨-, -, rfl⟩
      · exact ⟨rfl, rfl, rfl⟩
      · exact ⟨rfl, rfl, rfl⟩
  | down =>
      obtain ⟨f, count, rate, -, -, -, rfl⟩ := transition_down hst h
      exact ⟨rfl, rfl, rfl⟩
  | probing =>
      obtain ⟨rate, -, rfl⟩ := transition_probing hst h
      exact ⟨rfl, rfl, rfl⟩

/-- A processed probe leaves its confidence and its timestamp on the
link, and smooths its RTT sample. -/
theorem processProbe_arrival
    (h : s.processProbe cfg clk confidence suppress probe = some s') :
    s'.probeConfidence = confidence
      ∧ s'.lastRemoteTimestampUs = probe.timestampUs
      ∧ s'.srttUs = (rttSample clk.micros probe).elim s.srttUs
        (smoothRtt cfg s.srttUs) := by
  obtain ⟨m, -, hnoted, ht⟩ := processProbe_noted h
  obtain ⟨hconfidence, hremote, hsrtt⟩ := transition_noted ht
  exact ⟨hconfidence.trans hnoted.probeConfidence,
    hremote.trans hnoted.remoteTimestamp, hsrtt.trans hnoted.srtt⟩

end RateState

/-- The confidence of a link under TAPA. -/
theorem calculateProbeConfidence_eq {rc : RateController} {i : Nat}
    {s : RateState} {confidence : ℚ}
    (htapa : rc.config.tapaEnabled = true) (hs : rc.states[i]? = some s)
    (h : rc.calculateProbeConfidence i = some confidence) :
    ∃ load, s.trafficLoad (rc.config.probeIntervalMs.toNat * 1000)
        = some load
      ∧ confidence = RateState.loadConfidence rc.config load := by
  unfold RateController.calculateProbeConfidence at h
  rw [if_neg (by simp [htapa]), hs] at h
  simp only [Option.bind_eq_bind, Option.bind_eq_some_iff, mul_eq_some] at h
  obtain ⟨_, ⟨-, rfl⟩, load, hload, h⟩ := h
  cases h
  exact ⟨load, hload, rfl⟩

/-- In every run, wherever the peer's probes fall: one is given the
minimum confidence if and only if the bytes counted since the link's own
last build are a heavy load of the whole interval, or so close below one
that the interpolation rounds to the minimum, or the minimum is full
confidence anyway. -/
theorem tapa_confidence_iff {cfg : RateControlConfig}
    (htapa : cfg.tapaEnabled = true)
    (horder : cfg.tapaIdleThreshold < cfg.tapaHeavyThreshold)
    {maxRates : List Nat} {now : Nat → Nat} {ops : List RateOp}
    {rc rc' : RateController} {clk : Clock} {probe : ProbePacket}
    {s s' : RateState}
    (hrun : Trace.run RateOp.apply ops (RateController.new cfg maxRates now)
      = some rc)
    (hstep : RateOp.apply (.processProbe clk probe) rc = some rc')
    (hs : rc.states[probe.linkId.toNat]? = some s)
    (hs' : rc'.states[probe.linkId.toNat]? = some s') :
    s'.probeConfidence = cfg.tapaMinConfidence
      ↔ cfg.tapaMinConfidence = 1 ∨ s.Loaded cfg
        ∨ RateState.RoundsToMin cfg (s.measuredLoad cfg) := by
  have hcfg : rc.config = cfg := (run_config hrun).1
  obtain ⟨t, hlink, ht⟩ := (apply_link hstep).2.2 _ s hs
  obtain rfl : s' = t := Option.some.inj (hs'.symm.trans ht)
  simp only [RateOp.linkStep, if_pos] at hlink
  obtain ⟨confidence, hconfidence, hprobe⟩ := Option.bind_eq_some_iff.mp hlink
  obtain ⟨load, hload, hvalue⟩ := calculateProbeConfidence_eq
    (hcfg ▸ htapa) hs hconfidence
  rw [hcfg] at hload hvalue
  rw [(RateState.processProbe_arrival hprobe).1, hvalue,
    RateState.loadConfidence_eq_min horder, RateState.trafficLoad_eq hload]
  rfl

/-- A full interval at 60 Mbps: 1050000 bytes are 70% of what the link
carries in 200 ms. -/
private def busyOps : List RateOp :=
  [.buildProbes fun _ => 1000, .recordTx 0 1050000,
    .buildProbes fun _ => 201000]

/-- The peer's probe. -/
private def peerProbe : ProbePacket := ProbePacket.mk 0 1 5 0 0 0 0 0 0 .running

/-- At the end of the next interval the load is seen. -/
theorem tapa_confidence_busy : ∃ rc rc' s s',
    Trace.run RateOp.apply (busyOps ++ [.recordTx 0 1050000])
        (RateController.new .default [7500000] fun _ => 0) = some rc
      ∧ RateOp.apply (.processProbe ⟨400000, 7⟩ peerProbe) rc = some rc'
      ∧ rc.states[0]? = some s ∧ rc'.states[0]? = some s'
      ∧ s.Loaded .default ∧ s'.probeConfidence = rnd (10 / 100) := by
  have hstates : ((Trace.run RateOp.apply (busyOps ++ [.recordTx 0 1050000])
        (RateController.new .default [7500000] fun _ => 0)).bind fun rc =>
      (RateOp.apply (.processProbe ⟨400000, 7⟩ peerProbe) rc).map fun rc' =>
        (rc.states[0]?.map fun s => decide (s.Loaded .default),
          rc'.states[0]?.isSome)) = some (some true, true) := by
    decide +kernel
  obtain ⟨rc, hrun, hnext⟩ := Option.bind_eq_some_iff.mp hstates
  obtain ⟨rc', hstep, hboth⟩ := Option.map_eq_some_iff.mp hnext
  obtain ⟨hwas, his⟩ := Prod.mk.inj hboth
  obtain ⟨s, hs, hloaded⟩ := Option.map_eq_some_iff.mp hwas
  obtain ⟨s', hs'⟩ := Option.isSome_iff_exists.mp his
  have hload : s.Loaded .default := of_decide_eq_true hloaded
  have hmin := (tapa_confidence_iff rfl (by decide +kernel) hrun hstep hs
    hs').mpr (Or.inr (Or.inl hload))
  exact ⟨rc, rc', s, s', hrun, hstep, hs, hs', hload, hmin⟩

-- ========================================================== sustained load

/-- The call builds probes. -/
def RateOp.isBuild : RateOp → Bool
  | .buildProbes _ => true
  | _ => false

/-- The bytes recorded sent on link `i` between consecutive builds; the
count is open from a first build on. -/
def sentBetween (i : Nat) : Option Nat → List RateOp → List Nat
  | _, [] => []
  | sent, .buildProbes _ :: ops => sent.toList ++ sentBetween i (some 0) ops
  | sent, .recordTx linkId bytes :: ops =>
      sentBetween i
        (if linkId = i then sent.map (· + bytes) else sent) ops
  | sent, _ :: ops => sentBetween i sent ops

/-- Between every two consecutive builds, a heavy load of the interval is
recorded sent on the link. -/
def Sustained (cfg : RateControlConfig) (rate i : Nat) (ops : List RateOp) :
    Prop :=
  ∀ bytes ∈ sentBetween i none ops,
    cfg.tapaHeavyThreshold * rate
      * ((cfg.probeIntervalMs.toNat : ℚ) / 1000) ≤ bytes

instance (cfg : RateControlConfig) (rate i : Nat) (ops : List RateOp) :
    Decidable (Sustained cfg rate i ops) :=
  inferInstanceAs (Decidable (∀ bytes ∈ _, _))

/-- Right behind the second build of a run with a sustained load, the
peer's probe finds an idle link and full confidence. -/
theorem sustained_load_unseen : ∃ before after rc rc' rc'' s',
    Sustained .default 7500000 0
        (before ++ .processProbe ⟨201001, 7⟩ peerProbe :: after)
      ∧ before.countP RateOp.isBuild = 2
      ∧ Trace.run RateOp.apply before
        (RateController.new .default [7500000] fun _ => 0) = some rc
      ∧ RateOp.apply (.processProbe ⟨201001, 7⟩ peerProbe) rc = some rc'
      ∧ Trace.run RateOp.apply after rc' = some rc''
      ∧ rc'.states[0]? = some s' ∧ s'.probeConfidence = 1
      ∧ RateControlConfig.default.tapaMinConfidence ≠ 1 := by
  let after : List RateOp :=
    [.recordTx 0 1050000, .buildProbes fun _ => 401000]
  have hstates : ((Trace.run RateOp.apply busyOps
        (RateController.new .default [7500000] fun _ => 0)).bind fun rc =>
      (RateOp.apply (.processProbe ⟨201001, 7⟩ peerProbe) rc).map fun rc' =>
        (rc'.states[0]?.map RateState.probeConfidence,
          (Trace.run RateOp.apply after rc').isSome))
      = some (some 1, true) := by
    decide +kernel
  obtain ⟨rc, hrun, hnext⟩ := Option.bind_eq_some_iff.mp hstates
  obtain ⟨rc', hstep, hboth⟩ := Option.map_eq_some_iff.mp hnext
  obtain ⟨his, hrest⟩ := Prod.mk.inj hboth
  obtain ⟨s', hs', hone⟩ := Option.map_eq_some_iff.mp his
  obtain ⟨rc'', hafter⟩ := Option.isSome_iff_exists.mp hrest
  exact ⟨busyOps, after, rc, rc', rc'', s', by decide +kernel, rfl, hrun,
    hstep, hafter, hs', hone, by decide +kernel⟩

end ChainLightning
