/-
A controller that is not overloaded does not fail.

`processProbe_isSome_iff` (Arithmetic.lean) says when a probe is processed
to the end. One of its two conditions is about the probe alone; the other
is about the account of the packets reported received, which grows by at
most 2^32 with a call (`Tame`), so it is met for the first 2^31 calls.
The other calls add to the counters or subtract the snapshots from them
and are defined as long as the counters are light. So under the default
configuration every call whose own numbers fit is defined
(`apply_isSome`).
-/
import ChainLightning.Proofs.Rate.Arithmetic

namespace ChainLightning

open Binary64 Machine

namespace RateState

variable {s s' : RateState} {calls : Nat}

/-- What a link keeps to in its first calls. -/
structure Tame (calls : Nat) (s : RateState) : Prop where
  ranged : s.Ranged
  builtPackets : s.lastProbeTxPackets ≤ s.totalTxPackets
    ∧ s.lastProbeRxPackets ≤ s.totalRxPackets
  reported : s.sendRxAcc ≤ calls * 2 ^ 32

theorem Tame.fresh {i rate now : Nat} (hlo : 25000 ≤ rate)
    (hhi : rate < 2 ^ 32 * 125000) :
    (new i rate RateControlConfig.default.minRateFraction now).Tame 0 where
  ranged := by
    refine ranged_new hlo hhi ?_
    show (10 / 100 : ℚ) ≤ 1 / 2
    norm_num
  builtPackets := ⟨Nat.le_refl _, Nat.le_refl _⟩
  reported := Nat.zero_le _

/-- A transition lets nothing into the account of the packets reported
received. -/
private theorem transition_sendRxAcc {cfg : RateControlConfig}
    {confidence : ℚ} {suppress : Bool}
    (h : s.transition cfg confidence suppress = some s') :
    s'.sendRxAcc ≤ s.sendRxAcc := by
  have hactive : s.Active → s'.sendRxAcc ≤ s.sendRxAcc := by
    intro hact
    rcases transition_active hact h with ⟨state, -, rfl, -⟩ | ⟨-, -, rfl⟩
    · exact Nat.le_refl _
    · exact Nat.le_refl _
  cases hst : s.state with
  | running => exact hactive (Or.inl hst)
  | lossy => exact hactive (Or.inr hst)
  | down =>
      obtain ⟨f, count, rate, hf, -, -, rfl⟩ := transition_down hst h
      rcases hf with rfl | rfl
      · exact Nat.le_refl _
      · exact Nat.div_le_self _ 2
  | probing =>
      obtain ⟨rate, -, rfl⟩ := transition_probing hst h
      exact Nat.le_refl _

/-- A probe lets no more into it than it reports. -/
private theorem processProbe_sendRxAcc {clk : Clock} {confidence : ℚ}
    {suppress : Bool} {probe : ProbePacket} (hone : confidence ≤ 1)
    (h : s.processProbe .default clk confidence suppress probe = some s') :
    s'.sendRxAcc ≤ s.sendRxAcc + probe.rxPackets.toNat := by
  obtain ⟨m, hm, ht⟩ := processProbe_inv h
  obtain ⟨f, hf, -, hsendRx, -, -⟩ := hm.accs
  have hle : ∀ n, f n ≤ n := by
    intro n
    rcases hf with rfl | rfl
    · exact Nat.le_refl n
    · refine scaled_le_of_le 64 ?_ n
      show (75 / 100 : ℚ) ≤ 3 / 4
      norm_num
  calc s'.sendRxAcc ≤ m.sendRxAcc := transition_sendRxAcc ht
    _ ≤ deliveredSum .default confidence probe s := by
        rw [hsendRx]
        exact (hle _).trans (decayed_le _ _ _)
    _ ≤ s.sendRxAcc + probe.rxPackets.toNat :=
        Nat.add_le_add_left
          (gated_le .default hone (wireCount_le probe.rxPackets)) _

/-- A call keeps a link tame for one more call. -/
theorem Tame.step {rc : RateController} {i : Nat} {op : RateOp}
    (hcfg : rc.config = .default) (h : s.Tame calls)
    (hs : op.linkStep rc i s = some s') : s'.Tame (calls + 1) := by
  have hranged := ranged_step hcfg h.ranged hs
  obtain ⟨htx, hrx⟩ := h.builtPackets
  have hkeep : s.sendRxAcc ≤ (calls + 1) * 2 ^ 32 :=
    h.reported.trans (Nat.mul_le_mul_right _ (Nat.le_succ calls))
  cases op with
  | recordTx linkId bytes =>
      unfold RateOp.linkStep at hs
      dsimp only at hs
      split at hs
      case isTrue =>
        cases recordTx_inv hs
        exact ⟨hranged, ⟨Nat.le_add_right_of_le htx, hrx⟩, hkeep⟩
      case isFalse =>
        cases hs
        exact ⟨hranged, ⟨htx, hrx⟩, hkeep⟩
  | recordRx linkId bytes =>
      unfold RateOp.linkStep at hs
      dsimp only at hs
      split at hs
      case isTrue =>
        cases recordRx_inv hs
        exact ⟨hranged, ⟨htx, Nat.le_add_right_of_le hrx⟩, hkeep⟩
      case isFalse =>
        cases hs
        exact ⟨hranged, ⟨htx, hrx⟩, hkeep⟩
  | buildProbes now =>
      obtain ⟨⟨probe, t⟩, hbuild, rfl⟩ := Option.map_eq_some_iff.mp hs
      obtain ⟨-, -, -, -, -, rfl⟩ := buildProbe_inv hbuild
      exact ⟨hranged, ⟨Nat.le_refl _, Nat.le_refl _⟩, hkeep⟩
  | processProbe clk probe =>
      unfold RateOp.linkStep at hs
      dsimp only at hs
      split at hs
      case isTrue =>
        obtain ⟨confidence, hconfidence, hs⟩ := Option.bind_eq_some_iff.mp hs
        rw [hcfg] at hs
        obtain ⟨hframe, -⟩ := processProbe_frame hs
        have hone := calculateProbeConfidence_le_one hcfg hconfidence
        have hacc := processProbe_sendRxAcc hone hs
        refine ⟨hranged, ?_, ?_⟩
        rotate_left
        · calc s'.sendRxAcc ≤ s.sendRxAcc + probe.rxPackets.toNat := hacc
            _ ≤ calls * 2 ^ 32 + 2 ^ 32 :=
                Nat.add_le_add h.reported probe.rxPackets.toNat_lt.le
            _ = (calls + 1) * 2 ^ 32 := (Nat.succ_mul _ _).symm
        rw [hframe.lastProbeTxPackets, hframe.totalTxPackets,
          hframe.lastProbeRxPackets, hframe.totalRxPackets]
        exact ⟨htx, hrx⟩
      case isFalse =>
        cases hs
        exact ⟨hranged, ⟨htx, hrx⟩, hkeep⟩
  | checkTimeouts now =>
      cases hs
      unfold checkTimeout at hranged ⊢
      split at hranged
      case isTrue htimeout =>
        rw [if_pos htimeout]
        exact ⟨hranged, ⟨htx, hrx⟩, hkeep⟩
      case isFalse htimeout =>
        rw [if_neg htimeout]
        exact ⟨hranged, ⟨htx, hrx⟩, hkeep⟩

/-- A probe can be built on a tame link. -/
private theorem Tame.buildProbe (h : s.Tame calls) (now : UInt64) :
    ∃ built, s.buildProbe now = some built := by
  obtain ⟨htxBytes, hrxBytes⟩ := h.ranged.builtBytes
  obtain ⟨htx, hrx⟩ := h.builtPackets
  unfold RateState.buildProbe
  rw [sub_eq_some.mpr ⟨htxBytes, rfl⟩, sub_eq_some.mpr ⟨htx, rfl⟩,
    sub_eq_some.mpr ⟨hrxBytes, rfl⟩, sub_eq_some.mpr ⟨hrx, rfl⟩]
  exact ⟨_, rfl⟩

end RateState

/-- The controller keeps to what its links do. -/
structure RateController.Tame (calls : Nat) (rc : RateController) : Prop where
  config : rc.config = .default
  links : ∀ s ∈ rc.states, s.Tame calls

/-- Fewer than 2^40 bytes and packets were recorded on each link. -/
def RateController.Light (rc : RateController) : Prop :=
  ∀ s ∈ rc.states, s.Light

/-- A fresh controller is tame. -/
theorem tame_new (maxRates : List Nat)
    (hrates : ∀ rate ∈ maxRates, 25000 ≤ rate ∧ rate ≤ 2 ^ 40)
    (now : Nat → Nat) :
    (RateController.new .default maxRates now).Tame 0 := by
  refine ⟨rfl, fun s hs => ?_⟩
  obtain ⟨i, hi, rfl⟩ := List.mem_mapIdx.mp hs
  obtain ⟨hlo, hhi⟩ := hrates maxRates[i] (List.getElem_mem hi)
  exact RateState.Tame.fresh hlo (by omega)

/-- A call keeps a controller tame for one more. -/
theorem RateController.Tame.step {calls : Nat} {op : RateOp}
    {rc rc' : RateController} (h : rc.Tame calls)
    (hop : op.apply rc = some rc') : rc'.Tame (calls + 1) := by
  obtain ⟨hconfig, hlength, hlink⟩ := apply_link hop
  refine ⟨hconfig.trans h.config, fun s' hs' => ?_⟩
  obtain ⟨i, hi, hget⟩ := List.getElem_of_mem hs'
  have hi' : i < rc.states.length := hlength ▸ hi
  obtain ⟨s₁, hstep, hs₁⟩ := hlink i _ (List.getElem?_eq_getElem hi')
  rw [List.getElem?_eq_getElem hi, hget] at hs₁
  cases hs₁
  exact (h.links _ (List.getElem_mem hi')).step h.config hstep

/-- So do any number of calls. -/
theorem run_tame {ops : List RateOp} :
    ∀ {calls : Nat} {rc rc' : RateController},
      Trace.run RateOp.apply ops rc = some rc' → rc.Tame calls →
      rc'.Tame (calls + ops.length) := by
  induction ops with
  | nil =>
      intro calls rc rc' hrun h
      cases hrun
      exact h
  | cons op ops ih =>
      intro calls rc rc' hrun h
      obtain ⟨rc₁, hop, hrest⟩ := Trace.run_cons_inv hrun
      have hend := ih hrest (h.step hop)
      rwa [Nat.add_right_comm, Nat.add_assoc] at hend

/-- A call on one link is defined when it is there. -/
private theorem onLink_isSome {rc : RateController} {linkId : Nat}
    {f : RateState → Option RateState}
    (h : ∀ s, rc.states[linkId]? = some s → (f s).isSome = true) :
    (rc.onLink linkId f).isSome = true := by
  unfold RateController.onLink
  cases hs : rc.states[linkId]? with
  | none => rfl
  | some s =>
      dsimp only
      rw [Option.isSome_map]
      exact h s hs

/-- Probes can be built on tame links. -/
private theorem buildAll_isSome {calls : Nat} (now : Nat → UInt64) :
    ∀ {l : List RateState} (k : Nat), (∀ s ∈ l, s.Tame calls) →
      ∃ built, RateController.buildAll now k l = some built := by
  intro l
  induction l with
  | nil => exact fun k _ => ⟨[], rfl⟩
  | cons s l ih =>
      intro k htame
      obtain ⟨built, hbuild⟩ :=
        (htame s List.mem_cons_self).buildProbe (now k)
      obtain ⟨more, hmore⟩ :=
        ih (k + 1) fun s hs => htame s (List.mem_cons_of_mem _ hs)
      unfold RateController.buildAll
      rw [hbuild, hmore]
      exact ⟨_, rfl⟩

/-- The numbers of a call fit. -/
def RateOp.Fits : RateOp → Prop
  | .recordTx _ bytes | .recordRx _ bytes => bytes < 2 ^ 63
  | .processProbe _ probe => probe.rxBytes.toNat < 2 ^ 40
  | _ => True

/-- A call whose numbers fit is defined. -/
theorem apply_isSome {calls : Nat} {op : RateOp} {rc : RateController}
    (h : rc.Tame calls) (hlight : rc.Light) (hfew : calls < 2 ^ 31)
    (hfits : op.Fits) : (op.apply rc).isSome = true := by
  cases op with
  | recordTx linkId bytes =>
      refine onLink_isSome fun s hs => ?_
      have hl := hlight s (List.mem_of_getElem? hs)
      have hbytes := hl.txBytes
      have hpackets := hl.txPackets
      have hfits' : bytes < 2 ^ 63 := hfits
      unfold RateState.recordTx
      rw [add_eq_some.mpr ⟨by omega, rfl⟩, add_eq_some.mpr ⟨by omega, rfl⟩]
      rfl
  | recordRx linkId bytes =>
      refine onLink_isSome fun s hs => ?_
      have hl := hlight s (List.mem_of_getElem? hs)
      have hbytes := hl.rxBytes
      have hpackets := hl.rxPackets
      have hfits' : bytes < 2 ^ 63 := hfits
      unfold RateState.recordRx
      rw [add_eq_some.mpr ⟨by omega, rfl⟩, add_eq_some.mpr ⟨by omega, rfl⟩]
      rfl
  | buildProbes now =>
      obtain ⟨built, hbuild⟩ := buildAll_isSome now 0 h.links
      show ((rc.buildProbes now).map Prod.snd).isSome = true
      unfold RateController.buildProbes
      rw [hbuild]
      rfl
  | processProbe clk probe =>
      show (rc.processProbe clk probe).isSome = true
      unfold RateController.processProbe
      simp only [Option.bind_eq_bind]
      cases hs : rc.states[probe.linkId.toNat]? with
      | none =>
          have hfull : rc.calculateProbeConfidence probe.linkId.toNat
              = some 1 := by
            unfold RateController.calculateProbeConfidence
            rw [hs, ite_self]
          rw [hfull, Option.bind_some]
          refine onLink_isSome fun s hs' => ?_
          rw [hs] at hs'
          cases hs'
      | some s =>
          have hmem := List.mem_of_getElem? hs
          have htame := h.links s hmem
          obtain ⟨confidence, hconfidence⟩ :=
            calculateProbeConfidence_isSome h.config hs htame.ranged
              (hlight s hmem)
          have hone := calculateProbeConfidence_le_one h.config hconfidence
          rw [hconfidence, Option.bind_some]
          refine onLink_isSome fun s' hs' => ?_
          rw [hs] at hs'
          cases hs'
          rw [h.config]
          refine (RateState.processProbe_isSome_iff htame.ranged
            (hlight s hmem) hone).mpr ⟨Or.inr ?_, ?_⟩
          · have hfits' : probe.rxBytes.toNat < 2 ^ 40 := hfits
            omega
          · have hgated := RateState.gated_le .default hone
              (RateState.wireCount_le probe.rxPackets)
            have hwire : probe.rxPackets.toNat < 2 ^ 32 :=
              probe.rxPackets.toNat_lt
            have hreported : s.sendRxAcc ≤ 2 ^ 31 * 2 ^ 32 :=
              htame.reported.trans (Nat.mul_le_mul_right _ hfew.le)
            omega
  | checkTimeouts now => rfl

end ChainLightning
