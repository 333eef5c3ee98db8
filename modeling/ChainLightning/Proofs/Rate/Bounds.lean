/-
Rates stay within their bounds.

`tx_rate` is written by the bounded change of section 2 and, past it, by
the recovery branches of section 5, which jump to the floor or to half
of the ceiling; `Moved` says so of every call. The invariant `InBounds`
therefore asks for a floor of at most half of the ceiling: that is what
the limits on the configured rates and fractions give, and it is what
keeps both kinds of write inside.
-/
import ChainLightning.Proofs.Rate.Link
import ChainLightning.Proofs.Rate.Stages
import Mathlib.Algebra.Order.Floor.Semifield

namespace ChainLightning

open Machine

namespace RateState

variable {cfg : RateControlConfig} {clk : Clock} {confidence : ℚ}
  {suppress : Bool} {probe : ProbePacket} {s s' : RateState}

/-- The rate is within its floor and ceiling, the floor is at least 100
Kbps and at most half of the ceiling, and the ceiling's weight fits 32
bits. -/
structure InBounds (s : RateState) : Prop where
  floor_pos : 12500 ≤ s.txMinRate
  floor_half : s.txMinRate ≤ s.txMaxRate / 2
  ceiling : s.txMaxRate < 2 ^ 32 * 125000
  above : s.txMinRate ≤ s.txRate
  below : s.txRate ≤ s.txMaxRate

-- ============================================================ one state

/-- A truncated share of at most one half. -/
theorem trunc_le_half (n : Nat) {q : ℚ} (hq : q ≤ 1 / 2) :
    trunc 64 ((n : ℚ) * q) ≤ n / 2 := by
  have hmul : (n : ℚ) * q ≤ (n : ℚ) / 2 := by
    have hn : (0 : ℚ) ≤ n := Nat.cast_nonneg n
    have hle := mul_le_mul_of_nonneg_left hq hn
    linarith
  calc trunc 64 ((n : ℚ) * q) ≤ ⌊(n : ℚ) * q⌋₊ := trunc_le_floor 64 _
    _ ≤ ⌊(n : ℚ) / (2 : Nat)⌋₊ := Nat.floor_mono (by simpa using hmul)
    _ = n / 2 := Nat.floor_div_eq_div n 2

/-- A fresh link starts within its bounds. -/
theorem inBounds_new {i rate : Nat} {fraction : ℚ} {now : Nat}
    (hlo : 25000 ≤ rate) (hhi : rate < 2 ^ 32 * 125000)
    (hf : fraction ≤ 1 / 2) : InBounds (new i rate fraction now) := by
  have hmin := trunc_le_half rate hf
  have hfloor : max (trunc 64 ((rate : ℚ) * fraction)) 12500 ≤ rate / 2 := by
    omega
  exact {
    floor_pos := Nat.le_max_right _ _
    floor_half := hfloor
    ceiling := hhi
    above := by
      show max (trunc 64 ((rate : ℚ) * fraction)) 12500 ≤ rate
      omega
    below := Nat.le_refl rate }

/-- Within the bounds, only a state that stops traffic has weight 0. -/
theorem InBounds.weight_eq_zero (h : s.InBounds) :
    s.weight = 0 ↔ s.state = .down ∨ s.state = .probing := by
  have hrate : max (s.txRate / 125000) 1 < 2 ^ 32 := by
    have hb := h.below
    have hc := h.ceiling
    omega
  have hpos : max (s.txRate / 125000) 1 % 2 ^ 32 ≠ 0 := by
    rw [Nat.mod_eq_of_lt hrate]
    omega
  unfold weight
  cases hst : s.state with
  | running => exact ⟨fun h0 => absurd h0 hpos, by simp⟩
  | lossy => exact ⟨fun h0 => absurd h0 hpos, by simp⟩
  | down => simp
  | probing => simp

/-- Moving the rate within floor and ceiling keeps the bounds. -/
theorem InBounds.of_rate (h : s.InBounds)
    (hmin : s'.txMinRate = s.txMinRate) (hmax : s'.txMaxRate = s.txMaxRate)
    (hlo : s.txMinRate ≤ s'.txRate) (hhi : s'.txRate ≤ s.txMaxRate) :
    s'.InBounds where
  floor_pos := by rw [hmin]; exact h.floor_pos
  floor_half := by rw [hmin, hmax]; exact h.floor_half
  ceiling := by rw [hmax]; exact h.ceiling
  above := by rw [hmin]; exact hlo
  below := by rw [hmax]; exact hhi

/-- The clamp's assertion is all that a rate change may fail. -/
theorem applyRateChange_isSome (h : s.txMinRate ≤ s.txMaxRate)
    (desired : Nat) :
    (s.applyRateChange cfg desired).isSome = true := by
  unfold applyRateChange
  simp only [if_pos h, Option.isSome_some]

/-- It holds within the bounds: a rate change never fails there. -/
theorem InBounds.applyRateChange (h : s.InBounds) (desired : Nat) :
    (s.applyRateChange cfg desired).isSome :=
  applyRateChange_isSome (le_trans h.above h.below) desired

-- ============================================================== one call

/-- Where a call takes the rate of a link. -/
structure Moved (s s' : RateState) : Prop where
  txMinRate : s'.txMinRate = s.txMinRate
  txMaxRate : s'.txMaxRate = s.txMaxRate
  txRate : s'.txRate = s.txRate
    ∨ (s.txMinRate ≤ s'.txRate ∧ s'.txRate ≤ s.txMaxRate)
    ∨ s'.txRate = s.txMinRate ∨ s'.txRate = s.txMaxRate / 2

/-- A transition leaves the rate, or sets it to the floor or to half of
the ceiling. -/
theorem transition_jumps
    (h : s.transition cfg confidence suppress = some s') :
    s'.txRate = s.txRate ∨ s'.txRate = s.txMinRate
      ∨ s'.txRate = s.txMaxRate / 2 := by
  cases hst : s.state with
  | running =>
      rcases transition_active (Or.inl hst) h with
        ⟨state, -, rfl, -⟩ | ⟨-, -, rfl⟩
      · exact Or.inl rfl
      · exact Or.inl rfl
  | lossy =>
      rcases transition_active (Or.inr hst) h with
        ⟨state, -, rfl, -⟩ | ⟨-, -, rfl⟩
      · exact Or.inl rfl
      · exact Or.inl rfl
  | down =>
      obtain ⟨f, count, rate, -, -, hrate, rfl⟩ := transition_down hst h
      exact Or.inr hrate
  | probing =>
      obtain ⟨rate, hrate, rfl⟩ := transition_probing hst h
      rcases hrate with rfl | rfl
      · exact Or.inl rfl
      · exact Or.inr (Or.inl rfl)

private theorem transition_moved
    (h : s.transition cfg confidence suppress = some s') : Moved s s' where
  txMinRate := (transition_frame h).1.txMinRate
  txMaxRate := (transition_frame h).1.txMaxRate
  txRate := by
    rcases transition_jumps h with hrate | hrate
    · exact Or.inl hrate
    · exact Or.inr (Or.inr hrate)

/-- A processed probe moves the rate within the bounds. -/
theorem processProbe_moved
    (h : s.processProbe cfg clk confidence suppress probe = some s') :
    Moved s s' := by
  obtain ⟨m, hm, ht⟩ := processProbe_inv h
  obtain ⟨hmin, hmax, hrate⟩ := transition_moved ht
  rw [hm.frame.txMinRate] at hmin hrate
  rw [hm.frame.txMaxRate] at hmax hrate
  refine ⟨hmin, hmax, ?_⟩
  rcases hrate with hrate | hrate
  · rw [hrate]
    rcases hm.rate with hsame | ⟨hlo, hhi, -⟩
    · exact Or.inl hsame
    · exact Or.inr (Or.inl ⟨hlo, hhi⟩)
  · exact Or.inr hrate

/-- Every controller call moves the rate of a link within the bounds. -/
theorem linkStep_moved {rc : RateController} {op : RateOp} {i : Nat}
    (h : op.linkStep rc i s = some s') : Moved s s' := by
  have hself : Moved s s := ⟨rfl, rfl, Or.inl rfl⟩
  cases op with
  | recordTx linkId bytes =>
      simp only [RateOp.linkStep] at h
      split at h
      case isTrue =>
          rw [recordTx_inv h]
          exact ⟨rfl, rfl, Or.inl rfl⟩
      case isFalse =>
          cases h
          exact hself
  | recordRx linkId bytes =>
      simp only [RateOp.linkStep] at h
      split at h
      case isTrue =>
          rw [recordRx_inv h]
          exact ⟨rfl, rfl, Or.inl rfl⟩
      case isFalse =>
          cases h
          exact hself
  | buildProbes now =>
      obtain ⟨⟨p, t⟩, hb, rfl⟩ := Option.map_eq_some_iff.mp h
      obtain ⟨-, -, -, -, -, rfl⟩ := buildProbe_inv hb
      exact ⟨rfl, rfl, Or.inl rfl⟩
  | processProbe clk probe =>
      simp only [RateOp.linkStep] at h
      split at h
      case isTrue =>
          obtain ⟨confidence, -, h⟩ := Option.bind_eq_some_iff.mp h
          exact processProbe_moved h
      case isFalse =>
          cases h
          exact hself
  | checkTimeouts now =>
      simp only [RateOp.linkStep, checkTimeout] at h
      split at h
      case isTrue =>
          cases h
          exact ⟨rfl, rfl, Or.inl rfl⟩
      case isFalse =>
          cases h
          exact hself

/-- The floor is at most half of the ceiling, so a jump to either of
them stays inside. -/
theorem Moved.inBounds (h : Moved s s') (hs : s.InBounds) :
    s'.InBounds := by
  have hhalf := hs.floor_half
  have habove := hs.above
  have hbelow := hs.below
  refine hs.of_rate h.txMinRate h.txMaxRate ?_ ?_
  · rcases h.txRate with hrate | hrate | hrate | hrate <;> omega
  · rcases h.txRate with hrate | hrate | hrate | hrate <;> omega

-- ============================================================= one probe

/-- What a processed probe writes into the rate before the transition:
the same rate, or a bounded change of it. -/
private theorem paced_steady {rate : Nat} (h : s.InBounds)
    (hrate : rate = s.txRate ∨ Paced cfg s rate) :
    Steady cfg s.txRate rate := by
  rcases hrate with rfl | ⟨-, -, hsteady⟩
  · exact Steady.rfl
  · exact hsteady h.above h.below

/-- The transition leaves the rate of an active link alone. -/
theorem transition_keeps_rate (hactive : s.Active)
    (ht : s.transition cfg confidence suppress = some s') :
    s'.txRate = s.txRate := by
  rcases transition_active hactive ht with
    ⟨state, -, rfl, -⟩ | ⟨-, -, rfl⟩
  · rfl
  · rfl

/-- A processed probe keeps the bounds, and moves the rate of an active
link by one bounded step at most. -/
theorem processProbe_rate (h : s.InBounds)
    (hp : s.processProbe cfg clk confidence suppress probe = some s') :
    s'.InBounds ∧ (s.Active → Steady cfg s.txRate s'.txRate) := by
  refine ⟨(processProbe_moved hp).inBounds h, fun hactive => ?_⟩
  obtain ⟨m, hm, ht⟩ := processProbe_inv hp
  -- accounting and recovery decay left the state alone
  rw [transition_keeps_rate (by unfold Active; rw [hm.state]; exact hactive) ht]
  exact paced_steady h hm.rate

/-- Every controller call keeps every link within its bounds. -/
theorem linkStep_inBounds {rc : RateController} {op : RateOp} {i : Nat}
    (h : s.InBounds) (hs : op.linkStep rc i s = some s') :
    s'.InBounds :=
  (linkStep_moved hs).inBounds h

end RateState

-- ============================================================== every run

/-- The death-spiral safeguard. After any run of controller calls every
link's rate is between its floor and its ceiling, the floor is at least
12500 bytes/sec, and only `Down` and `Probing` links have weight 0; and
a probe processed next moves the rate of a link that is `Running` or
`Lossy` by one bounded step at most. -/
theorem rate_within_safeguards {cfg : RateControlConfig}
    {maxRates : List Nat} {now : Nat → Nat}
    (hrates : ∀ rate ∈ maxRates, 25000 ≤ rate ∧ rate < 2 ^ 32 * 125000)
    (hfraction : 0 ≤ cfg.minRateFraction ∧ cfg.minRateFraction ≤ 1 / 2)
    {ops : List RateOp} {rc : RateController}
    (hrun : Trace.run RateOp.apply ops (RateController.new cfg maxRates now)
      = some rc) :
    (∀ (i : Nat) (s : RateState), rc.states[i]? = some s →
      12500 ≤ s.txMinRate ∧ s.txMinRate ≤ s.txRate
        ∧ s.txRate ≤ s.txMaxRate
        ∧ (rc.weights[i]? = some 0 ↔ s.state = .down ∨ s.state = .probing))
    ∧ ∀ (clk : Clock) (probe : ProbePacket) (rc' : RateController)
        (s s' : RateState),
        rc.processProbe clk probe = some rc' →
        rc.states[probe.linkId.toNat]? = some s →
        rc'.states[probe.linkId.toNat]? = some s' →
        s.state = .running ∨ s.state = .lossy →
        s'.txRate
            ≤ s.txRate
              + max 12500 ⌊(s.txRate : ℚ) * cfg.maxRateChangeFraction⌋₊
          ∧ s.txRate
            ≤ s'.txRate
              + max 12500 ⌊(s.txRate : ℚ) * cfg.maxRateChangeFraction⌋₊ := by
  have hall : ∀ (i : Nat) (s : RateState), rc.states[i]? = some s →
      s.InBounds := by
    refine reachable_link (P := fun _ s => RateState.InBounds s) ?_ ?_ hrun
    · intro i rate hi
      obtain ⟨hlo, hhi⟩ := hrates rate (List.mem_of_getElem? hi)
      exact RateState.inBounds_new hlo hhi hfraction.2
    · intro rc op i s s' _ h hs
      exact RateState.linkStep_inBounds h hs
  have hcfg : rc.config = cfg := (run_config hrun).1
  refine ⟨?_, ?_⟩
  · intro i s hs
    have h := hall i s hs
    have hw : rc.weights[i]? = some s.weight := by
      rw [RateController.weights, List.getElem?_map, hs]
      rfl
    refine ⟨h.floor_pos, h.above, h.below, ?_⟩
    rw [hw, Option.some_inj]
    exact h.weight_eq_zero
  · intro clk probe rc' s s' hp hs hs' hactive
    obtain ⟨confidence, -, hstep⟩ := processProbe_link hp hs hs'
    rw [hcfg] at hstep
    exact (RateState.processProbe_rate (hall _ s hs) hstep).2 hactive

/-- The second of two links has timed out; on the first, 150000 bytes
were sent. -/
private def oneLeft : List RateOp :=
  [.checkTimeouts fun i => i * 6000000000, .recordTx 0 150000]

/-- The remote received two thirds of them. -/
private def slowProbe : ProbePacket := .mk 0 1 5 0 0 0 100000 0 0 .running

/-- The safeguards there, with the default configuration: only the second
link has weight 0, and the probe lowers the rate of the first by a tenth,
though the remote rate is far below. -/
theorem rate_within_safeguards_slow_probe : ∃ rc rc' s s',
    Trace.run RateOp.apply oneLeft
        (RateController.new .default [7500000, 7500000] fun _ => 0) = some rc
      ∧ rc.processProbe ⟨2000, 7⟩ slowProbe = some rc'
      ∧ rc.states[0]? = some s ∧ rc'.states[0]? = some s'
      ∧ rc.weights[1]? = some 0 ∧ rc.weights[0]? ≠ some 0
      ∧ 12500 ≤ s.txMinRate ∧ s.txMinRate ≤ s.txRate ∧ s.txRate ≤ s.txMaxRate
      ∧ s'.txRate = 6750000
      ∧ s.txRate ≤ s'.txRate + max 12500
        ⌊(s.txRate : ℚ) * RateControlConfig.default.maxRateChangeFraction⌋₊ := by
  let start := RateController.new .default [7500000, 7500000] fun _ => 0
  have hread : ((Trace.run RateOp.apply oneLeft start).bind fun rc =>
      (rc.processProbe ⟨2000, 7⟩ slowProbe).bind fun rc' =>
        rc.states[0]?.bind fun s => rc.states[1]?.bind fun t =>
          rc'.states[0]?.map fun s' => (s.state, t.state, s'.txRate))
      = some (.running, .down, 6750000) := by
    decide +kernel
  simp only [Option.bind_eq_some_iff, Option.map_eq_some_iff,
    Prod.mk.injEq] at hread
  obtain ⟨rc, hrun, rc', hprobe, s, hs, t, ht, s', hs', hstate, hdown,
    hrate⟩ := hread
  obtain ⟨hall, hstep⟩ :=
    rate_within_safeguards (by decide) (by decide +kernel) hrun
  obtain ⟨hfloor, habove, hbelow, hweight⟩ := hall 0 s hs
  refine ⟨rc, rc', s, s', hrun, hprobe, hs, hs', ?_, ?_, hfloor, habove,
    hbelow, hrate, ?_⟩
  · exact (hall 1 t ht).2.2.2.mpr (Or.inl hdown)
  · intro hzero
    rcases hweight.mp hzero with h | h
    · exact absurd (hstate.symm.trans h) (by decide)
    · exact absurd (hstate.symm.trans h) (by decide)
  · exact (hstep ⟨2000, 7⟩ slowProbe rc' s s' hprobe hs hs'
      (Or.inl hstate)).2

end ChainLightning
