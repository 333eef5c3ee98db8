/-
An idle link keeps its rate.

The growth of a link without traffic asks for a send rate of zero, and
`our_tx_rate` falls back to the current rate, which is never zero: with
an empty report section 2 takes neither branch (`detectCongestion_idle`).
What is left are the jumps of section 5, to the floor or to half of the
ceiling, so while a link stays idle its rate does not come back to the
ceiling (`idle_link_never_grows`).
-/
import ChainLightning.Proofs.Rate.Congestion
import ChainLightning.Proofs.Rate.Load

namespace ChainLightning

namespace RateState

variable {clk : Clock} {confidence : ℚ} {suppress : Bool}
  {probe : ProbePacket} {s s' : RateState}

/-- Nothing was counted since the last probe was built. -/
def Idle (s : RateState) : Prop :=
  s.totalTxBytes = s.lastProbeTxBytes ∧ s.totalRxBytes = s.lastProbeRxBytes

instance (s : RateState) : Decidable s.Idle :=
  inferInstanceAs (Decidable (_ ∧ _))

theorem Idle.sinceBuild (h : s.Idle) : s.sinceBuild = 0 := by
  unfold RateState.sinceBuild
  rw [h.1, h.2, Nat.sub_self, Nat.sub_self, Nat.max_self]

/-- An idle link is below its ceiling, with room for the jumps of a
recovery. -/
structure Idling (s : RateState) : Prop where
  idle : s.Idle
  rate_pos : 0 < s.txRate
  below : s.txRate < s.txMaxRate
  floor_pos : 0 < s.txMinRate
  floor_half : s.txMinRate ≤ s.txMaxRate / 2

-- ================================================================ one probe

/-- An empty report holds the rate of an idle link. -/
theorem detectCongestion_idle (hidle : s.Idle) (hpos : 0 < s.txRate)
    (hempty : probe.rxBytes = 0) (htrusted : confidence > 1 / 2)
    (h : s.detectCongestion .default confidence probe = some s') :
    s'.txRate = s.txRate := by
  unfold detectCongestion at h
  obtain ⟨txDt, hdt, h⟩ := Option.bind_eq_some_iff.mp h
  obtain ⟨-, rfl⟩ := Machine.mul_eq_some.mp hdt
  rw [if_pos (Or.inl htrusted)] at h
  have hinterval :
      RateControlConfig.default.probeIntervalMs.toNat = 200 := rfl
  rw [hinterval] at h
  obtain ⟨ours, hours, -, hrate⟩ := detectByProbe_pace (by omega) h
  -- nothing was sent, so the current rate stands in for the send rate
  have hfallback : ours = s.txRate := by
    unfold ourTxRate at hours
    rw [hidle.1, Nat.sub_self] at hours
    simpa using hours.symm
  have hremote : probe.rxBytes.toNat = 0 := by
    rw [hempty]
    rfl
  have hhold : pace .default ours 0 = .hold := by
    unfold pace
    rw [if_neg (fun hboth => absurd hboth.2 (Nat.lt_irrefl 0)),
      if_neg (fun hnone => absurd hnone.1 (by omega))]
  rw [hrate, hremote, Nat.zero_mul, Nat.zero_div, hhold]
  rfl

/-- A processed probe with an empty report leaves the rate of an idle
link, or takes it to the floor or to half of the ceiling. -/
theorem processProbe_idle (hidle : s.Idle) (hpos : 0 < s.txRate)
    (hempty : probe.rxBytes = 0) (htrusted : confidence > 1 / 2)
    (h : s.processProbe .default clk confidence suppress probe = some s') :
    (s'.txRate = s.txRate ∨ s'.txRate = s.txMinRate
        ∨ s'.txRate = s.txMaxRate / 2)
      ∧ (s.Active → s'.txRate = s.txRate) := by
  obtain ⟨srttUs, rttVarUs, paced, m, hpace, hrate, hmin, hmax, hstate, ht⟩ :=
    processProbe_sections h
  have hheld : m.txRate = s.txRate := by
    -- the arrival and the RTT leave rate and counters alone
    have hpaced := detectCongestion_idle ?_ ?_ hempty htrusted hpace
    · exact hrate.trans hpaced
    · exact hidle
    · exact hpos
  refine ⟨?_, fun hactive => ?_⟩
  · rw [← hheld, ← hmin, ← hmax]
    exact transition_jumps ht
  · rw [← hheld]
    exact transition_keeps_rate (by unfold Active; rw [hstate]; exact hactive)
      ht

/-- Such a probe keeps an idle link below its ceiling. -/
theorem Idling.processProbe (hs : s.Idling) (hempty : probe.rxBytes = 0)
    (htrusted : confidence > 1 / 2)
    (h : s.processProbe .default clk confidence suppress probe = some s') :
    s'.Idling := by
  have hframe := (processProbe_frame h).1
  have hjump := (processProbe_idle hs.idle hs.rate_pos hempty htrusted h).1
  have hpos := hs.rate_pos
  have hbelow := hs.below
  have hfloor := hs.floor_pos
  have hhalf := hs.floor_half
  exact {
    idle := by
      unfold Idle
      rw [hframe.totalTxBytes, hframe.totalRxBytes, hframe.lastProbeTxBytes,
        hframe.lastProbeRxBytes]
      exact hs.idle
    rate_pos := by
      rcases hjump with hrate | hrate | hrate <;> omega
    below := by
      rw [hframe.txMaxRate]
      rcases hjump with hrate | hrate | hrate <;> omega
    floor_pos := by
      rw [hframe.txMinRate]
      exact hfloor
    floor_half := by
      rw [hframe.txMinRate, hframe.txMaxRate]
      exact hhalf }

end RateState

/-- An idle link has full confidence. -/
theorem idle_confidence {rc : RateController} {i : Nat} {s : RateState}
    {confidence : ℚ} (hcfg : rc.config = .default)
    (hs : rc.states[i]? = some s) (hidle : s.Idle)
    (h : rc.calculateProbeConfidence i = some confidence) :
    confidence = 1 := by
  obtain ⟨load, hload, rfl⟩ :=
    calculateProbeConfidence_eq (by rw [hcfg]; rfl) hs h
  have hnone : load = 0 := by
    rw [RateState.trafficLoad_eq hload]
    simp [RateState.measuredLoad, hidle.sinceBuild]
  unfold RateState.loadConfidence
  rw [hnone, hcfg, if_pos (by decide +kernel)]

-- =============================================================== every call

/-- The call leaves link `i` idle: what is counted is counted for other
links, and a probe for this one reports that nothing was received. -/
def RateOp.IdleOn (i : Nat) : RateOp → Prop
  | .recordTx linkId _ => linkId ≠ i
  | .recordRx linkId _ => linkId ≠ i
  | .processProbe _ probe => probe.linkId.toNat = i → probe.rxBytes = 0
  | _ => True

/-- Every call that leaves an idle link idle keeps it below its
ceiling. -/
theorem linkStep_idling {rc : RateController} {op : RateOp} {i : Nat}
    {s s' : RateState} (hcfg : rc.config = .default)
    (hstate : rc.states[i]? = some s) (hop : op.IdleOn i) (hs : s.Idling)
    (h : op.linkStep rc i s = some s') : s'.Idling := by
  cases op with
  | recordTx linkId bytes =>
      simp only [RateOp.linkStep, if_neg hop] at h
      cases h
      exact hs
  | recordRx linkId bytes =>
      simp only [RateOp.linkStep, if_neg hop] at h
      cases h
      exact hs
  | buildProbes now =>
      obtain ⟨⟨p, t⟩, hb, rfl⟩ := Option.map_eq_some_iff.mp h
      obtain ⟨-, -, -, -, -, rfl⟩ := RateState.buildProbe_inv hb
      exact ⟨⟨rfl, rfl⟩, hs.rate_pos, hs.below, hs.floor_pos, hs.floor_half⟩
  | processProbe clk probe =>
      simp only [RateOp.linkStep] at h
      split at h
      case isTrue hi =>
          obtain ⟨confidence, hconf, h⟩ := Option.bind_eq_some_iff.mp h
          have htrusted : confidence > 1 / 2 := by
            rw [idle_confidence hcfg hstate hs.idle hconf]
            norm_num
          rw [hcfg] at h
          exact hs.processProbe (hop hi) htrusted h
      case isFalse =>
          cases h
          exact hs
  | checkTimeouts now =>
      cases h
      unfold RateState.checkTimeout
      split
      · exact ⟨hs.idle, hs.rate_pos, hs.below, hs.floor_pos, hs.floor_half⟩
      · exact hs

-- ================================================================ every run

/-- The floor of a link of 1 Mbps or more is at most half of its
ceiling. -/
private theorem reached_floor {maxRates : List Nat} {now : Nat → Nat}
    {ops : List RateOp} {rc : RateController}
    (hmax : ∀ rate ∈ maxRates, 125000 ≤ rate ∧ rate < 2 ^ 64)
    (hrun : Trace.run RateOp.apply ops
      (RateController.new .default maxRates now) = some rc)
    {i : Nat} {s : RateState} (hs : rc.states[i]? = some s) :
    s.txMinRate ≤ s.txMaxRate / 2 := by
  refine reachable_link
    (P := fun _ s => s.txMinRate ≤ s.txMaxRate / 2) ?_ ?_ hrun i s hs
  · intro i rate hi
    have hrate := (hmax rate (List.mem_of_getElem? hi)).1
    have hshare := RateState.trunc_le_half rate
      (q := RateControlConfig.default.minRateFraction) (by decide +kernel)
    have hhalf : 12500 ≤ rate / 2 := by omega
    exact Nat.max_le.mpr ⟨hshare, hhalf⟩
  · intro rc op i s s' _ hfloor hstep
    have hmoved := RateState.linkStep_moved hstep
    rw [hmoved.txMinRate, hmoved.txMaxRate]
    exact hfloor

/-- While it is left idle, a link stays below its ceiling. -/
private theorem idling_kept {rc rc' : RateController} {i : Nat}
    {s s' : RateState} {more : List RateOp} (hcfg : rc.config = .default)
    (hs : rc.states[i]? = some s) (hidling : s.Idling)
    (hmore : ∀ op ∈ more, op.IdleOn i)
    (hrun : Trace.run RateOp.apply more rc = some rc')
    (hs' : rc'.states[i]? = some s') : s'.Idling := by
  have hkept : rc'.config = .default
      ∧ ∃ t, rc'.states[i]? = some t ∧ t.Idling := by
    have hidle : Trace.Along RateOp.apply (fun op _ => RateOp.IdleOn i op)
        more rc :=
      Trace.Along.of_forall (fun op hop _ => hmore op hop) rc
    refine Trace.run_along
      (P := fun r : RateController => r.config = .default
        ∧ ∃ t, r.states[i]? = some t ∧ t.Idling) ?_ hidle hrun
      ⟨hcfg, s, hs, hidling⟩
    rintro op r r' ⟨hcfg, t, ht, hidling⟩ hop hstep
    obtain ⟨hsame, -, hlink⟩ := apply_link hstep
    obtain ⟨t', hstep', ht'⟩ := hlink i t ht
    exact ⟨hsame.trans hcfg, t', ht',
      linkStep_idling hcfg ht hop hidling hstep'⟩
  obtain ⟨-, t, ht, hidling'⟩ := hkept
  rw [hs'] at ht
  cases ht
  exact hidling'

/-- No idle link grows back. In every run under the default configuration
a probe with an empty report leaves the rate of a `Running` link on which
nothing was counted since the last build as it is; and whatever follows,
while the link stays idle its rate stays below the ceiling. -/
theorem idle_link_never_grows {maxRates : List Nat} {now : Nat → Nat}
    {ops : List RateOp} {rc : RateController} {i : Nat} {s : RateState}
    (hmax : ∀ rate ∈ maxRates, 125000 ≤ rate ∧ rate < 2 ^ 64)
    (hrun : Trace.run RateOp.apply ops
      (RateController.new .default maxRates now) = some rc)
    (hs : rc.states[i]? = some s) (hstate : s.state = .running)
    (hbelow : s.txRate < s.txMaxRate) (hidle : s.Idle) :
    (∀ (clk : Clock) (probe : ProbePacket) (rc' : RateController)
        (s' : RateState), probe.linkId.toNat = i → probe.rxBytes = 0 →
        rc.processProbe clk probe = some rc' → rc'.states[i]? = some s' →
        s'.txRate = s.txRate)
    ∧ ∀ (more : List RateOp) (rc' : RateController) (s' : RateState),
        (∀ op ∈ more, op.IdleOn i) →
        Trace.run RateOp.apply more rc = some rc' →
        rc'.states[i]? = some s' → s'.txRate < s'.txMaxRate := by
  have hcfg : rc.config = .default := (run_config hrun).1
  have hbracket := reached_bracketed true
    (fun rate hrate => (hmax rate hrate).2) hrun hs
  have hhalf := reached_floor hmax hrun hs
  have hpos := (hbracket.within (by omega)).1
  have hfloor := hbracket.floor
  refine ⟨?_, ?_⟩
  · rintro clk probe rc' s' rfl hempty hprobe hs'
    obtain ⟨confidence, hconf, hstep⟩ := processProbe_link hprobe hs hs'
    have htrusted : confidence > 1 / 2 := by
      rw [idle_confidence hcfg hs hidle hconf]
      norm_num
    rw [hcfg] at hstep
    exact (RateState.processProbe_idle hidle hpos hempty htrusted hstep).2
      (Or.inl hstate)
  · intro more rc' s' hmore hrun' hs'
    have hidling : s.Idling := ⟨hidle, hpos, hbelow, by omega, hhalf⟩
    exact (idling_kept hcfg hs hidling hmore hrun' hs').below

-- ============================================================== a slow link

/-- A link of 60 Mbps loses a tenth of its rate to a probe that reports
one byte of 600000, and falls idle. -/
private def slowedOps : List RateOp :=
  [.recordTx 0 600000,
    .processProbe ⟨2000, 7⟩ (ProbePacket.mk 0 1 5 0 0 0 1 0 0 .running),
    .buildProbes fun _ => 3000]

/-- A probe that reports nothing. -/
private def voidProbe : ProbePacket :=
  ProbePacket.mk 0 2 6 0 0 0 0 0 0 .running

/-- Two empty reports leave the slowed link below its ceiling. -/
theorem idle_link_never_grows_slowed : ∃ rc rc' s s',
    Trace.run RateOp.apply slowedOps
        (RateController.new .default [7500000] fun _ => 0) = some rc
      ∧ Trace.run RateOp.apply [.processProbe ⟨4000, 8⟩ voidProbe,
        .processProbe ⟨5000, 9⟩ voidProbe] rc = some rc'
      ∧ rc.states[0]? = some s ∧ rc'.states[0]? = some s'
      ∧ s'.txRate < s'.txMaxRate := by
  obtain ⟨rc, rc', s, s', hrun, hmore, hs, hs', htest⟩ :=
    run_twice (RateController.new .default [7500000] fun _ => 0) slowedOps
      [.processProbe ⟨4000, 8⟩ voidProbe, .processProbe ⟨5000, 9⟩ voidProbe]
      0 (fun s _ => s.state = .running ∧ s.txRate < s.txMaxRate ∧ s.Idle)
      (by decide +kernel)
  obtain ⟨hstate, hbelow, hidle⟩ := of_decide_eq_true htest
  refine ⟨rc, rc', s, s', hrun, hmore, hs, hs', ?_⟩
  refine (idle_link_never_grows (by simp) hrun hs hstate hbelow hidle).2
    _ rc' s' ?_ hmore hs'
  simp [RateOp.IdleOn, voidProbe]

/-- The slowed link, which is idle, keeps the rate it fell to. -/
theorem idle_link_stays_slow : ∃ rc rc' s s',
    Trace.run RateOp.apply slowedOps
        (RateController.new .default [7500000] fun _ => 0) = some rc
      ∧ rc.processProbe ⟨4000, 8⟩ voidProbe = some rc'
      ∧ rc.states[0]? = some s ∧ rc'.states[0]? = some s'
      ∧ s.state = .running ∧ s.txRate < s.txMaxRate ∧ s.Idle
      ∧ ¬s.txRate < s'.txRate := by
  obtain ⟨rc, rc', s, s', hrun, hprobe, hs, hs', htest⟩ :=
    run_twice (RateController.new .default [7500000] fun _ => 0) slowedOps
      [.processProbe ⟨4000, 8⟩ voidProbe] 0
      (fun s s' => s.state = .running ∧ s.txRate < s.txMaxRate ∧ s.Idle
        ∧ ¬s.txRate < s'.txRate)
      (by decide +kernel)
  obtain ⟨rc₁, hstep, hnil⟩ := Trace.run_cons_inv hprobe
  cases hnil
  exact ⟨rc, rc', s, s', hrun, hstep, hs, hs', of_decide_eq_true htest⟩

end ChainLightning
