/-
Timing-based congestion detection, over every run of a controller.

The target of a reduction is derived from the remote's rate and the
step from the current one, which nothing ties together: a reduction
raises the rate where its target is above it
(`detected_congestion_lowers_iff`). Where nothing was sent since the
last built probe, the current rate stands in for the send rate, and a
probe that confirms all that was sent still reduces
(`no_false_congestion_iff`). And a probe that reports nothing holds,
where one that reports little reduces (`rate_monotone_iff`).
-/
import ChainLightning.Proofs.Rate.Pacing

namespace ChainLightning

-- ================================================================ one link

/-- A link of 60 Mbps. -/
private def oneLink : RateController :=
  RateController.new .default [7500000] fun _ => 0

/-- A probe of its remote. -/
private def report (rxBytes : UInt64) : ProbePacket :=
  ProbePacket.mk 0 1 5 0 0 0 rxBytes 0 0 .running

/-- `process_probe` of such a probe. -/
private def hear (rc : RateController) (rxBytes : UInt64) :
    Option RateController :=
  rc.processProbe ⟨2000, 7000000000⟩ (report rxBytes)

/-- The link of the controller that a run reaches, with the confidence
that a probe gets. -/
private theorem link_heard (ops : List RateOp) (rxBytes : UInt64)
    (test : ℚ → RateState → RateState → Bool)
    (h : ((Trace.run RateOp.apply ops oneLink).bind fun rc =>
      (hear rc rxBytes).bind fun rc' =>
        (rc.calculateProbeConfidence 0).bind fun confidence =>
          rc.states[0]?.bind fun s =>
            rc'.states[0]?.map fun s' => test confidence s s')
      = some true) :
    ∃ rc rc' confidence s s', Trace.run RateOp.apply ops oneLink = some rc
      ∧ hear rc rxBytes = some rc'
      ∧ rc.calculateProbeConfidence 0 = some confidence
      ∧ rc.states[0]? = some s ∧ rc'.states[0]? = some s'
      ∧ test confidence s s' = true := by
  simp only [Option.bind_eq_some_iff, Option.map_eq_some_iff] at h
  obtain ⟨rc, hrun, rc', hprobe, confidence, hconf, s, hs, s', hs', htest⟩ :=
    h
  exact ⟨rc, rc', confidence, s, s', hrun, hprobe, hconf, hs, hs', htest⟩

-- ======================================================= reachable probes

section Reachable

variable {tapaEnabled : Bool} {maxRates : List Nat} {now : Nat → Nat}
  {ops : List RateOp} {rc rc' : RateController} {clk : Clock}
  {probe : ProbePacket} {s s' : RateState}

/-- Every link of a running controller is bracketed. -/
theorem reached_bracketed (tapaEnabled : Bool)
    (hmax : ∀ rate ∈ maxRates, rate < 2 ^ 64)
    (hrun : Trace.run RateOp.apply ops
      (RateController.new (.withTapa tapaEnabled) maxRates now) = some rc)
    {i : Nat} (hs : rc.states[i]? = some s) : s.Bracketed := by
  refine reachable_link (P := fun _ s => RateState.Bracketed s) ?_ ?_ hrun i s hs
  · intro i rate hi
    exact RateState.bracketed_fresh (hmax rate (List.mem_of_getElem? hi))
  · intro rc op i s s' _ hbracket hstep
    exact (RateState.linkStep_moved hstep).bracketed hbracket

/-- What a probe processed by a running controller does on its link. -/
theorem reached_probe (tapaEnabled : Bool) {confidence : ℚ}
    (hrun : Trace.run RateOp.apply ops
      (RateController.new (.withTapa tapaEnabled) maxRates now) = some rc)
    (hprobe : rc.processProbe clk probe = some rc')
    (hs : rc.states[probe.linkId.toNat]? = some s)
    (hs' : rc'.states[probe.linkId.toNat]? = some s')
    (hconf : rc.calculateProbeConfidence probe.linkId.toNat
      = some confidence) :
    s.processProbe (.withTapa tapaEnabled) clk confidence
      rc.allLinksPhantomLoss probe = some s' := by
  obtain ⟨known, hknown, hstep⟩ := processProbe_link hprobe hs hs'
  rw [hconf] at hknown
  cases hknown
  rw [(run_config hrun).1] at hstep
  exact hstep

/-- Detected congestion, exactly. A probe that is trusted and reports
more than an eighth less than was sent leaves the rate at or below its
old value exactly when seven eighths of the reported rate are at or
below it, and so is the floor; or when the rate is the ceiling. -/
theorem detected_congestion_lowers_iff {confidence : ℚ}
    (hmax : ∀ rate ∈ maxRates, rate < 2 ^ 64)
    (hrun : Trace.run RateOp.apply ops
      (RateController.new (.withTapa tapaEnabled) maxRates now) = some rc)
    (hprobe : rc.processProbe clk probe = some rc')
    (hs : rc.states[probe.linkId.toNat]? = some s)
    (hs' : rc'.states[probe.linkId.toNat]? = some s')
    (hactive : s.state = .running ∨ s.state = .lossy)
    (hconf : rc.calculateProbeConfidence probe.linkId.toNat
      = some confidence)
    (htrusted : confidence > 1 / 2 ∨ tapaEnabled = false)
    (hsent : 0 < s.sendRate) (hreceived : 0 < receiveRate probe.rxBytes)
    (hcongested : receiveRate probe.rxBytes + s.sendRate / 8 < s.sendRate) :
    s'.txRate ≤ s.txRate
      ↔ (receiveRate probe.rxBytes * 7 / 8 ≤ s.txRate ∧ s.txMinRate ≤ s.txRate)
        ∨ s.txRate = s.txMaxRate := by
  have hbracket := reached_bracketed tapaEnabled hmax hrun hs
  have hstep := reached_probe tapaEnabled hrun hprobe hs hs' hconf
  have hours : s.ourRate = s.sendRate := by
    have hdelta : 0 < s.totalTxBytes - s.lastProbeTxBytes := by
      refine Nat.pos_of_ne_zero fun hzero => ?_
      simp [RateState.sendRate, hzero] at hsent
    rw [RateState.ourRate, if_pos hdelta]
  have hdetected : Congested s.ourRate (receiveRate probe.rxBytes) := by
    rw [hours]
    exact ⟨hreceived, hcongested⟩
  rcases RateState.trusted_rate hactive htrusted hstep hbracket with
    ⟨-, hle, hrate⟩ | ⟨hfree, -⟩ | ⟨hfree, -⟩
  · rw [hrate]
    exact hbracket.stepRate_le_iff hle
  · exact absurd hdetected hfree
  · exact absurd hdetected hfree

/-- Behind a probe that shows congestion at three tenths of the link's
capacity, the rate of a fresh link is not above its old value. -/
theorem detected_congestion_lowers_fresh :
    ∃ rc rc' s s', Trace.run RateOp.apply [.recordTx 0 600000] oneLink
        = some rc
      ∧ hear rc 400000 = some rc'
      ∧ rc.states[0]? = some s ∧ rc'.states[0]? = some s'
      ∧ s'.txRate ≤ s.txRate := by
  obtain ⟨rc, rc', confidence, s, s', hrun, hprobe, hconf, hs, hs', htest⟩ :=
    link_heard [.recordTx 0 600000] 400000
      (fun confidence s _ =>
        s.state = .running ∧ confidence > 1 / 2 ∧ s.sendRate = 3000000
          ∧ s.txRate = 7500000 ∧ s.txMinRate = 750000)
      (by decide +kernel)
  obtain ⟨hstate, htrusted, hsend, hrate, hmin⟩ := of_decide_eq_true htest
  have hreport : receiveRate 400000 = 2000000 := by decide
  refine ⟨rc, rc', s, s', hrun, hprobe, hs, hs', ?_⟩
  have hrun' : Trace.run RateOp.apply [.recordTx 0 600000]
    (RateController.new (.withTapa true) [7500000] fun _ => 0) = some rc :=
    hrun
  refine (detected_congestion_lowers_iff (by simp) hrun' hprobe hs hs'
    (Or.inl hstate) hconf (Or.inl htrusted) ?_ ?_ ?_).mpr (Or.inl ?_)
  · rw [hsend]
    omega
  · exact hreport ▸ by omega
  · rw [hsend]
    exact hreport ▸ by omega
  · rw [hrate, hmin]
    exact hreport ▸ by omega

/-- A link goes down and comes back at its floor; it sends more than
that. -/
private def revived : List RateOp :=
  .checkTimeouts (fun _ => 6000000000)
    :: List.replicate 3 (.processProbe ⟨1000, 6000000000⟩ (report 0))
    ++ List.replicate 10 (.recordTx 0 60000)

/-- A probe that shows congestion raises the rate of a link that sends
faster than it is allowed to. -/
theorem detected_congestion_raises : ∃ rc rc' confidence s s',
    Trace.run RateOp.apply revived oneLink = some rc
      ∧ hear rc 400000 = some rc'
      ∧ rc.calculateProbeConfidence 0 = some confidence
      ∧ rc.states[0]? = some s ∧ rc'.states[0]? = some s'
      ∧ s.state = .running ∧ confidence > 1 / 2
      ∧ 0 < s.sendRate ∧ 0 < receiveRate 400000
      ∧ receiveRate 400000 + s.sendRate / 8 < s.sendRate
      ∧ s.txRate < s'.txRate := by
  obtain ⟨rc, rc', confidence, s, s', hrun, hprobe, hconf, hs, hs', htest⟩ :=
    link_heard revived 400000
      (fun confidence s s' =>
        s.state = .running ∧ confidence > 1 / 2
          ∧ 0 < s.sendRate ∧ 0 < receiveRate 400000
          ∧ receiveRate 400000 + s.sendRate / 8 < s.sendRate
          ∧ s.txRate < s'.txRate)
      (by decide +kernel)
  exact ⟨rc, rc', confidence, s, s', hrun, hprobe, hconf, hs, hs',
    of_decide_eq_true htest⟩

/-- False congestion, exactly. A probe that confirms all that was sent
since the last built probe lowers the rate exactly when it is trusted
and nothing was sent, while it reports something, but more than an
eighth less than the current rate, which is above the floor. -/
theorem no_false_congestion_iff {confidence : ℚ}
    (hmax : ∀ rate ∈ maxRates, rate < 2 ^ 64)
    (hrun : Trace.run RateOp.apply ops
      (RateController.new .default maxRates now) = some rc)
    (hprobe : rc.processProbe clk probe = some rc')
    (hs : rc.states[probe.linkId.toNat]? = some s)
    (hs' : rc'.states[probe.linkId.toNat]? = some s')
    (hactive : s.state = .running ∨ s.state = .lossy)
    (hconf : rc.calculateProbeConfidence probe.linkId.toNat
      = some confidence)
    (hall : s.totalTxBytes - s.lastProbeTxBytes ≤ probe.rxBytes.toNat) :
    s.txRate ≤ s'.txRate
      ↔ confidence ≤ 1 / 2 ∨ 0 < s.totalTxBytes - s.lastProbeTxBytes
        ∨ probe.rxBytes = 0 ∨ s.txRate ≤ receiveRate probe.rxBytes + s.txRate / 8
        ∨ s.txRate ≤ s.txMinRate := by
  have hbracket := reached_bracketed true hmax hrun hs
  have hstep := reached_probe true hrun hprobe hs hs' hconf
  by_cases htrusted : confidence > 1 / 2
  · have hdoubt : ¬confidence ≤ 1 / 2 := not_le.mpr htrusted
    rw [or_iff_right hdoubt]
    rcases RateState.trusted_rate hactive (Or.inl htrusted) hstep hbracket with
      ⟨⟨hreceived, hbelow⟩, hle, hrate⟩ | ⟨hfree, -, hle, hrate⟩
      | ⟨hfree, -, hrate⟩
    · have hzero : ¬0 < s.totalTxBytes - s.lastProbeTxBytes := by
        intro hdelta
        rw [RateState.ourRate, if_pos hdelta] at hbelow
        exact absurd (RateState.sendRate_le hall) (by omega)
      have hreports : probe.rxBytes ≠ 0 :=
        receiveRate_pos.mp hreceived
      rw [RateState.ourRate, if_neg hzero] at hbelow
      rw [hrate, ← not_lt, hbracket.stepRate_lt_iff hle]
      simp only [hzero, hreports, false_or]
      omega
    · rw [hrate]
      refine iff_of_true (hbracket.le_stepRate_grown hle _) ?_
      exact RateState.free_of_report hfree
    · rw [hrate]
      exact iff_of_true (Nat.le_refl _) (RateState.free_of_report hfree)
  · have hdoubt : confidence ≤ 1 / 2 := not_lt.mp htrusted
    obtain ⟨horder, hrate⟩ := RateState.untrusted_rate hactive htrusted hstep
    rw [hrate] at horder ⊢
    exact iff_of_true (hbracket.le_quietRate horder) (Or.inl hdoubt)

/-- A probe that confirms what was sent since the last build does not
lower the rate. -/
theorem no_false_congestion_sent :
    ∃ rc rc' s s', Trace.run RateOp.apply [.recordTx 0 1000] oneLink
        = some rc
      ∧ hear rc 1000 = some rc'
      ∧ rc.states[0]? = some s ∧ rc'.states[0]? = some s'
      ∧ s.txRate ≤ s'.txRate := by
  obtain ⟨rc, rc', confidence, s, s', hrun, hprobe, hconf, hs, hs', htest⟩ :=
    link_heard [.recordTx 0 1000] 1000
      (fun _ s _ => s.state = .running
        ∧ s.totalTxBytes - s.lastProbeTxBytes = 1000)
      (by decide +kernel)
  obtain ⟨hstate, hsent⟩ := of_decide_eq_true htest
  refine ⟨rc, rc', s, s', hrun, hprobe, hs, hs', ?_⟩
  refine (no_false_congestion_iff (by simp) hrun hprobe hs hs'
    (Or.inl hstate) hconf ?_).mpr (Or.inr (Or.inl ?_))
  · exact hsent.le
  · omega

/-- A probe that confirms all 1000 bytes sent, right behind a build,
lowers the rate. -/
theorem false_congestion_behind_build : ∃ rc rc' s s',
    Trace.run RateOp.apply [.recordTx 0 1000, .buildProbes fun _ => 1000]
        oneLink = some rc
      ∧ hear rc 1000 = some rc'
      ∧ rc.states[0]? = some s ∧ rc'.states[0]? = some s'
      ∧ s.state = .running
      ∧ s.totalTxBytes - s.lastProbeTxBytes ≤ (1000 : UInt64).toNat
      ∧ s'.txRate < s.txRate := by
  obtain ⟨rc, rc', -, s, s', hrun, hprobe, -, hs, hs', htest⟩ :=
    link_heard
      [.recordTx 0 1000, .buildProbes fun _ => 1000]
      1000
      (fun _ s s' => s.state = .running
        ∧ s.totalTxBytes - s.lastProbeTxBytes ≤ (1000 : UInt64).toNat
        ∧ s'.txRate < s.txRate)
      (by decide +kernel)
  exact ⟨rc, rc', s, s', hrun, hprobe, hs, hs', of_decide_eq_true htest⟩

/-- Monotony in what the remote received, exactly. Of two probes that
differ in nothing else, the one that reports less leaves the rate at or
below what the other one leaves, unless both are trusted and: it reports
nothing, and the other one reduces the rate; or it shows congestion, the
other one does not, and its target is above what growth gives. -/
theorem rate_monotone_iff {confidence : ℚ} {a b : UInt64}
    {ra rb : RateController} {clk' : Clock} {sa sb : RateState}
    (hmax : ∀ rate ∈ maxRates, rate < 2 ^ 64)
    (hrun : Trace.run RateOp.apply ops
      (RateController.new .default maxRates now) = some rc)
    (hle : a ≤ b)
    (ha : rc.processProbe clk { probe with rxBytes := a } = some ra)
    (hb : rc.processProbe clk' { probe with rxBytes := b } = some rb)
    (hs : rc.states[probe.linkId.toNat]? = some s)
    (hsa : ra.states[probe.linkId.toNat]? = some sa)
    (hsb : rb.states[probe.linkId.toNat]? = some sb)
    (hactive : s.state = .running ∨ s.state = .lossy)
    (hconf : rc.calculateProbeConfidence probe.linkId.toNat
      = some confidence) :
    sa.txRate ≤ sb.txRate
      ↔ confidence ≤ 1 / 2
        ∨ (¬(a = 0 ∧ Congested s.ourRate (receiveRate b)
            ∧ receiveRate b * 7 / 8 < s.txRate ∧ s.txMinRate < s.txRate)
          ∧ ¬(Congested s.ourRate (receiveRate a)
            ∧ ¬Congested s.ourRate (receiveRate b)
            ∧ max (s.txRate + s.txRate / 10) s.txMinRate
              < min (min (receiveRate a * 7 / 8) (s.txRate + 12500))
                s.txMaxRate)) := by
  have hbracket := reached_bracketed true hmax hrun hs
  have hstepa := reached_probe true hrun ha hs hsa hconf
  have hstepb := reached_probe true hrun hb hs hsb hconf
  by_cases htrusted : confidence > 1 / 2
  · have hdoubt : ¬confidence ≤ 1 / 2 := not_le.mpr htrusted
    rw [or_iff_right hdoubt, ← not_or, ← not_lt, not_iff_not,
      RateState.trusted_rate_lt_iff hactive (Or.inl htrusted) hstepa hstepb
        hbracket (receiveRate_mono hle)]
    simp only [← receiveRate_eq_zero]
  · have hdoubt : confidence ≤ 1 / 2 := not_lt.mp htrusted
    have hratea := RateState.untrusted_rate hactive htrusted hstepa
    have hrateb := RateState.untrusted_rate hactive htrusted hstepb
    exact iff_of_true (hratea.2.trans hrateb.2.symm).le (Or.inl hdoubt)

end Reachable

/-- Two probes that both show congestion, or one that does and one that
does not, on a link at its ceiling: the greater report ends higher. -/
theorem rate_monotone_fresh : ∃ rc ra rb s sa sb,
    Trace.run RateOp.apply [.recordTx 0 600000] oneLink = some rc
      ∧ hear rc 500000 = some ra ∧ hear rc 600000 = some rb
      ∧ rc.states[0]? = some s
      ∧ ra.states[0]? = some sa ∧ rb.states[0]? = some sb
      ∧ sa.txRate ≤ sb.txRate := by
  obtain ⟨rc, ra, confidence, s, sa, hrun, ha, hconf, hs, hsa, htest⟩ :=
    link_heard [.recordTx 0 600000] 500000
      (fun _ s _ => s.state = .running ∧ s.txRate = s.txMaxRate)
      (by decide +kernel)
  obtain ⟨rc₁, rb, -, -, sb, hrun₁, hb, -, -, hsb, -⟩ :=
    link_heard [.recordTx 0 600000] 600000
      (fun _ _ _ => true) (by decide +kernel)
  rw [hrun] at hrun₁
  cases hrun₁
  obtain ⟨hstate, hceiling⟩ := of_decide_eq_true htest
  refine ⟨rc, ra, rb, s, sa, sb, hrun, ha, hb, hs, hsa, hsb, ?_⟩
  have ha' : rc.processProbe ⟨2000, 7000000000⟩
    { report 0 with rxBytes := 500000 } = some ra := ha
  have hb' : rc.processProbe ⟨2000, 7000000000⟩
    { report 0 with rxBytes := 600000 } = some rb := hb
  refine (rate_monotone_iff (by simp) hrun (by decide) ha' hb' hs hsa hsb
    (Or.inl hstate) hconf).mpr (Or.inr ⟨?_, ?_⟩)
  · simp
  · rintro ⟨-, -, hbelow⟩
    omega

/-- A report of one byte reduces the rate that an empty report holds. -/
theorem rate_not_monotone : ∃ rc ra rb s sa sb,
    Trace.run RateOp.apply [.recordTx 0 600000] oneLink = some rc
      ∧ hear rc 0 = some ra ∧ hear rc 1 = some rb
      ∧ rc.states[0]? = some s ∧ s.state = .running
      ∧ ra.states[0]? = some sa ∧ rb.states[0]? = some sb
      ∧ sb.txRate < sa.txRate := by
  obtain ⟨rc, ra, -, s, sa, hrun, ha, -, hs, hsa, htest⟩ :=
    link_heard [.recordTx 0 600000] 0
      (fun _ s sa => s.state = .running ∧ sa.txRate = 7500000)
      (by decide +kernel)
  obtain ⟨rc₁, rb, -, -, sb, hrun₁, hb, -, -, hsb, hlower⟩ :=
    link_heard [.recordTx 0 600000] 1
      (fun _ _ sb => sb.txRate < 7500000) (by decide +kernel)
  rw [hrun] at hrun₁
  cases hrun₁
  obtain ⟨hstate, hrate⟩ := of_decide_eq_true htest
  refine ⟨rc, ra, rb, s, sa, sb, hrun, ha, hb, hs, hstate, hsa, hsb, ?_⟩
  rw [hrate]
  exact of_decide_eq_true hlower

end ChainLightning
