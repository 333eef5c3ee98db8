/-
One link's view of the rate controller.

A controller call touches each link through a per-link function
(`RateOp.linkStep`): a record or a probe for another link leaves this
one as it is, `build_probes` and `check_timeouts` visit every link.
`apply_link` is the projection every per-link invariant goes through;
`reachable_link` packages the induction over runs.
-/
import ChainLightning.RateController
import ChainLightning.Lib.Trace

namespace ChainLightning

-- ==================================================== single-link updates

/-- What `onLink` does: the function's result on that link, nothing
elsewhere. -/
theorem onLink_inv {rc rc' : RateController} {linkId : Nat}
    {f : RateState → Option RateState}
    (h : rc.onLink linkId f = some rc') :
    rc'.config = rc.config ∧ rc'.states.length = rc.states.length
      ∧ (∀ i : Nat, i ≠ linkId → rc'.states[i]? = rc.states[i]?)
      ∧ ∀ s, rc.states[linkId]? = some s →
          ∃ s', f s = some s' ∧ rc'.states[linkId]? = some s' := by
  unfold RateController.onLink at h
  split at h
  case h_1 s hs =>
      obtain ⟨s', hf, rfl⟩ := Option.map_eq_some_iff.mp h
      have hlt : linkId < rc.states.length :=
        (List.getElem?_eq_some_iff.mp hs).1
      refine ⟨rfl, by simp, ?_, ?_⟩
      · intro i hi
        exact List.getElem?_set_ne (Ne.symm hi)
      · intro s₀ hs₀
        rw [hs] at hs₀
        cases hs₀
        exact ⟨s', hf, List.getElem?_set_self hlt⟩
  case h_2 hs =>
      cases h
      refine ⟨rfl, rfl, fun _ _ => rfl, ?_⟩
      intro s₀ hs₀
      rw [hs] at hs₀
      cases hs₀

/-- `build_probes` reads each link's clock once and keeps every link in
its place. -/
theorem buildAll_inv {now : Nat → UInt64} :
    ∀ {l : List RateState} {k : Nat}
      {built : List (ProbePacket × RateState)},
      RateController.buildAll now k l = some built →
      built.length = l.length
        ∧ ∀ (i : Nat) (s : RateState), l[i]? = some s → ∃ p s',
            s.buildProbe (now (k + i)) = some (p, s')
              ∧ built[i]? = some (p, s') := by
  intro l
  induction l with
  | nil =>
      intro k built h
      cases h
      exact ⟨rfl, fun i s hs => absurd hs (by simp)⟩
  | cons s l ih =>
      intro k built h
      simp only [RateController.buildAll, Option.bind_eq_bind,
        Option.bind_eq_some_iff] at h
      obtain ⟨⟨p, s'⟩, hb, more, hm, hsome⟩ := h
      cases hsome
      obtain ⟨hlen, hall⟩ := ih hm
      refine ⟨by rw [List.length_cons, List.length_cons, hlen], ?_⟩
      intro i s₀ hs₀
      cases i with
      | zero =>
          rw [List.getElem?_cons_zero] at hs₀
          cases hs₀
          exact ⟨p, s', hb, rfl⟩
      | succ i =>
          rw [List.getElem?_cons_succ] at hs₀
          obtain ⟨p₁, s₁, hb₁, hg₁⟩ := hall i s₀ hs₀
          refine ⟨p₁, s₁, ?_, hg₁⟩
          rw [← hb₁]
          congr 2
          omega

/-- One link of `build_probes`: its probe and its new state. -/
theorem buildProbes_inv {rc rc' : RateController} {now : Nat → UInt64}
    {probes : List ProbePacket}
    (h : rc.buildProbes now = some (probes, rc')) :
    rc'.config = rc.config ∧ rc'.states.length = rc.states.length
      ∧ ∀ (i : Nat) (s : RateState), rc.states[i]? = some s → ∃ p s',
          s.buildProbe (now i) = some (p, s')
            ∧ probes[i]? = some p ∧ rc'.states[i]? = some s' := by
  unfold RateController.buildProbes at h
  simp only [Option.bind_eq_bind, Option.bind_eq_some_iff] at h
  obtain ⟨built, hb, hsome⟩ := h
  cases hsome
  obtain ⟨hlen, hall⟩ := buildAll_inv hb
  refine ⟨rfl, by rw [List.length_map, hlen], ?_⟩
  intro i s hs
  obtain ⟨p, s', hp, hg⟩ := hall i s hs
  rw [Nat.zero_add] at hp
  refine ⟨p, s', hp, ?_, ?_⟩
  · rw [List.getElem?_map, hg]
    rfl
  · show (built.map Prod.snd)[i]? = some s'
    rw [List.getElem?_map, hg]
    rfl

-- ======================================================= the projection

/-- The effect of a controller call on link `i`. -/
def RateOp.linkStep (rc : RateController) (i : Nat) :
    RateOp → RateState → Option RateState
  | .recordTx linkId bytes, s =>
      if linkId = i then s.recordTx bytes else some s
  | .recordRx linkId bytes, s =>
      if linkId = i then s.recordRx bytes else some s
  | .buildProbes now, s => (s.buildProbe (now i)).map Prod.snd
  | .processProbe clk probe, s =>
      if probe.linkId.toNat = i then
        (rc.calculateProbeConfidence i).bind fun confidence =>
          s.processProbe rc.config clk confidence rc.allLinksPhantomLoss probe
      else some s
  | .checkTimeouts now, s => some (s.checkTimeout rc.config (now i))

/-- Whether a step processes a probe of link `l`. -/
def RateOp.isProbeOf (l : Nat) : RateOp → Bool
  | .processProbe _ probe => probe.linkId.toNat = l
  | _ => false

/-- A controller call, seen from one link. -/
theorem apply_link {op : RateOp} {rc rc' : RateController}
    (h : op.apply rc = some rc') :
    rc'.config = rc.config ∧ rc'.states.length = rc.states.length
      ∧ ∀ (i : Nat) (s : RateState), rc.states[i]? = some s →
          ∃ s', op.linkStep rc i s = some s' ∧ rc'.states[i]? = some s' := by
  -- a single-link update is `f` on its link and the identity elsewhere
  have hone : ∀ {linkId : Nat} {f : RateState → Option RateState},
      rc.onLink linkId f = some rc' →
      (∀ i s, op.linkStep rc i s = if linkId = i then f s else some s) →
      rc'.config = rc.config ∧ rc'.states.length = rc.states.length
        ∧ ∀ (i : Nat) (s : RateState), rc.states[i]? = some s →
            ∃ s', op.linkStep rc i s = some s'
              ∧ rc'.states[i]? = some s' := by
    intro linkId f hon hstep
    obtain ⟨hcfg, hlen, hother, hself⟩ := onLink_inv hon
    refine ⟨hcfg, hlen, ?_⟩
    intro i s hs
    rw [hstep]
    by_cases hi : linkId = i
    · subst hi
      rw [if_pos rfl]
      exact hself s hs
    · rw [if_neg hi]
      exact ⟨s, rfl, by rw [hother i (Ne.symm hi)]; exact hs⟩
  cases op with
  | recordTx linkId bytes => exact hone h fun _ _ => rfl
  | recordRx linkId bytes => exact hone h fun _ _ => rfl
  | buildProbes now =>
      obtain ⟨⟨probes, rc₁⟩, hb, rfl⟩ := Option.map_eq_some_iff.mp h
      obtain ⟨hcfg, hlen, hall⟩ := buildProbes_inv hb
      refine ⟨hcfg, hlen, ?_⟩
      intro i s hs
      obtain ⟨p, s', hp, -, hs'⟩ := hall i s hs
      refine ⟨s', ?_, hs'⟩
      show (s.buildProbe (now i)).map Prod.snd = some s'
      rw [hp]
      rfl
  | processProbe clk probe =>
      obtain ⟨confidence, hc, hon⟩ := Option.bind_eq_some_iff.mp h
      refine hone hon ?_
      intro i s
      show (if probe.linkId.toNat = i then
          (rc.calculateProbeConfidence i).bind fun confidence =>
            s.processProbe rc.config clk confidence
              rc.allLinksPhantomLoss probe
        else some s) = _
      by_cases hi : probe.linkId.toNat = i
      · rw [if_pos hi, if_pos hi, ← hi, hc]
        rfl
      · rw [if_neg hi, if_neg hi]
  | checkTimeouts now =>
      cases h
      refine ⟨rfl, by simp [RateController.checkTimeouts], ?_⟩
      intro i s hs
      refine ⟨_, rfl, ?_⟩
      show (rc.states.mapIdx fun i s =>
        s.checkTimeout rc.config (now i))[i]? = _
      rw [List.getElem?_mapIdx, hs]
      rfl

/-- Runs never change the configuration or the number of links. -/
theorem run_config {ops : List RateOp} {rc rc' : RateController}
    (h : Trace.run RateOp.apply ops rc = some rc') :
    rc'.config = rc.config ∧ rc'.states.length = rc.states.length := by
  refine Trace.run_invariant
    (P := fun r => r.config = rc.config
      ∧ r.states.length = rc.states.length) ?_ h ⟨rfl, rfl⟩
  intro op r r' hr hstep
  obtain ⟨hcfg, hlen, -⟩ := apply_link hstep
  exact ⟨hcfg.trans hr.1, hlen.trans hr.2⟩

/-- What a processed probe does on its link. -/
theorem processProbe_link {rc rc' : RateController} {clk : Clock}
    {probe : ProbePacket} {s s' : RateState}
    (h : rc.processProbe clk probe = some rc')
    (hs : rc.states[probe.linkId.toNat]? = some s)
    (hs' : rc'.states[probe.linkId.toNat]? = some s') :
    ∃ confidence,
      rc.calculateProbeConfidence probe.linkId.toNat = some confidence
      ∧ s.processProbe rc.config clk confidence rc.allLinksPhantomLoss probe
        = some s' := by
  obtain ⟨confidence, hconf, hon⟩ := Option.bind_eq_some_iff.mp h
  obtain ⟨-, -, -, hself⟩ := onLink_inv hon
  obtain ⟨s₁, hstep, hs₁⟩ := hself s hs
  rw [hs'] at hs₁
  cases hs₁
  exact ⟨confidence, hconf, hstep⟩

/-- The links of a fresh controller. -/
theorem new_states {cfg : RateControlConfig} {maxRates : List Nat}
    {now : Nat → Nat} {i : Nat} {s : RateState}
    (h : (RateController.new cfg maxRates now).states[i]? = some s) :
    ∃ rate, maxRates[i]? = some rate
      ∧ s = RateState.new i rate cfg.minRateFraction (now i) := by
  have hmap : (maxRates.mapIdx fun id rate =>
      RateState.new id rate cfg.minRateFraction (now id))[i]? = some s := h
  rw [List.getElem?_mapIdx] at hmap
  obtain ⟨rate, hr, rfl⟩ := Option.map_eq_some_iff.mp hmap
  exact ⟨rate, hr, rfl⟩

/-- A link after a run of a fresh controller was new before it. -/
theorem run_new_link {cfg : RateControlConfig} {maxRates : List Nat}
    {now : Nat → Nat} {i : Nat} {ops : List RateOp} {rc : RateController}
    {s : RateState}
    (hrun : Trace.run RateOp.apply ops (RateController.new cfg maxRates now)
      = some rc)
    (hs : rc.states[i]? = some s) :
    ∃ rate, (RateController.new cfg maxRates now).states[i]?
      = some (RateState.new i rate cfg.minRateFraction (now i)) := by
  have hi : i < (RateController.new cfg maxRates now).states.length := by
    rw [← (run_config hrun).2]
    exact (List.getElem?_eq_some_iff.mp hs).1
  have hnew := List.getElem?_eq_getElem hi
  obtain ⟨rate, -, hfresh⟩ := new_states hnew
  exact ⟨rate, hfresh ▸ hnew⟩

/-- A property of single links that holds initially and is preserved by
every link step holds of every link after any run. -/
theorem reachable_link {cfg : RateControlConfig} {maxRates : List Nat}
    {now : Nat → Nat} {P : Nat → RateState → Prop}
    (hinit : ∀ i rate, maxRates[i]? = some rate →
      P i (RateState.new i rate cfg.minRateFraction (now i)))
    (hstep : ∀ (rc : RateController) (op : RateOp) i s s',
      rc.config = cfg → P i s → op.linkStep rc i s = some s' → P i s')
    {ops : List RateOp} {rc : RateController}
    (hrun : Trace.run RateOp.apply ops (RateController.new cfg maxRates now)
      = some rc) :
    ∀ i s, rc.states[i]? = some s → P i s := by
  have hall : rc.config = cfg ∧ ∀ i s, rc.states[i]? = some s → P i s := by
    refine Trace.run_invariant
      (P := fun r : RateController =>
        r.config = cfg ∧ ∀ i s, r.states[i]? = some s → P i s) ?_ hrun ?_
    · intro op r r' hr hs
      obtain ⟨hcfg, hlen, hlink⟩ := apply_link hs
      refine ⟨hcfg.trans hr.1, ?_⟩
      intro i s' hs'
      have hi : i < r.states.length := by
        rw [← hlen]
        exact (List.getElem?_eq_some_iff.mp hs').1
      obtain ⟨s₁, hst, hs₁⟩ := hlink i _ (List.getElem?_eq_getElem hi)
      rw [hs'] at hs₁
      cases hs₁
      exact hstep r op i _ _ hr.1 (hr.2 i _ (List.getElem?_eq_getElem hi)) hst
    · refine ⟨rfl, ?_⟩
      intro i s hs
      obtain ⟨rate, hr, rfl⟩ := new_states hs
      exact hinit i rate hr
  exact hall.2

/-- A run and one behind it, read at a link: a test of the link's state
behind either that comes out true says that both runs go through. -/
theorem run_twice (rc₀ : RateController) (before after : List RateOp)
    (i : Nat) (test : RateState → RateState → Bool)
    (h : ((Trace.run RateOp.apply before rc₀).bind fun rc =>
      (Trace.run RateOp.apply after rc).bind fun rc' =>
        rc.states[i]?.bind fun s =>
          rc'.states[i]?.map fun s' => test s s') = some true) :
    ∃ rc rc' s s', Trace.run RateOp.apply before rc₀ = some rc
      ∧ Trace.run RateOp.apply after rc = some rc'
      ∧ rc.states[i]? = some s ∧ rc'.states[i]? = some s'
      ∧ test s s' = true := by
  simp only [Option.bind_eq_some_iff, Option.map_eq_some_iff] at h
  obtain ⟨rc, hbefore, rc', hafter, s, hs, s', hs', htest⟩ := h
  exact ⟨rc, rc', s, s', hbefore, hafter, hs, hs', htest⟩

end ChainLightning
