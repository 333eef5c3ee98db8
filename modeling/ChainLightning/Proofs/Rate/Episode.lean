/-
The recovery protocol of a link.

An episode begins when a link enters `Down` and counts the probes that
are processed for the link from there on, over whatever else the
controller is called for. `Tracked` ties that count to the recovery
counter: on the fast track the counter was set one short of its goal and
one probe is behind it, on the normal way the counter is the count. A
timeout during recovery begins the episode anew.
-/
import ChainLightning.Proofs.Rate.Link
import ChainLightning.Proofs.Rate.Stages

namespace ChainLightning

open Binary64 Machine RateState

-- ======================================================= one link's path

/-- The calls from the side of the link's state machine: only a probe
for the link and a timeout move it. -/
theorem linkStep_path {rc : RateController} {i : Nat} {op : RateOp}
    {s s' : RateState} (h : op.linkStep rc i s = some s') :
    (op.isProbeOf i = false ∧ s'.state = s.state
        ∧ s'.recoveryCount = s.recoveryCount
        ∧ s'.enteredDownConfidence = s.enteredDownConfidence)
      ∨ (op.isProbeOf i = true ∧ ∃ clk probe confidence,
          op = .processProbe clk probe
          ∧ s.processProbe rc.config clk confidence rc.allLinksPhantomLoss
            probe = some s')
      ∨ ∃ now, op = .checkTimeouts now ∧ s.state ≠ .down
          ∧ s' = s.goDown s.probeConfidence := by
  cases op with
  | recordTx linkId bytes =>
      refine Or.inl ⟨rfl, ?_⟩
      simp only [RateOp.linkStep] at h
      split at h
      case isTrue =>
          rw [recordTx_inv h]
          exact ⟨rfl, rfl, rfl⟩
      case isFalse =>
          cases h
          exact ⟨rfl, rfl, rfl⟩
  | recordRx linkId bytes =>
      refine Or.inl ⟨rfl, ?_⟩
      simp only [RateOp.linkStep] at h
      split at h
      case isTrue =>
          rw [recordRx_inv h]
          exact ⟨rfl, rfl, rfl⟩
      case isFalse =>
          cases h
          exact ⟨rfl, rfl, rfl⟩
  | buildProbes now =>
      refine Or.inl ⟨rfl, ?_⟩
      obtain ⟨⟨p, t⟩, hb, rfl⟩ := Option.map_eq_some_iff.mp h
      obtain ⟨-, -, -, -, -, rfl⟩ := buildProbe_inv hb
      exact ⟨rfl, rfl, rfl⟩
  | processProbe clk probe =>
      simp only [RateOp.linkStep] at h
      split at h
      case isTrue hfor =>
          obtain ⟨confidence, -, h⟩ := Option.bind_eq_some_iff.mp h
          exact Or.inr (Or.inl
            ⟨decide_eq_true hfor, clk, probe, confidence, rfl, h⟩)
      case isFalse hfor =>
          cases h
          exact Or.inl ⟨decide_eq_false hfor, rfl, rfl, rfl⟩
  | checkTimeouts now =>
      have hs' : s' = s.checkTimeout rc.config (now i) :=
        (Option.some.inj h).symm
      unfold checkTimeout at hs'
      split at hs'
      case isTrue hout =>
          refine Or.inr (Or.inr ⟨now, rfl, ?_, hs'⟩)
          exact (of_decide_eq_true hout).1
      case isFalse =>
          rw [hs']
          exact Or.inl ⟨rfl, rfl, rfl, rfl⟩

/-- A probe for the link is processed with the link's confidence. -/
theorem linkStep_probe {rc : RateController} {i : Nat} {op : RateOp}
    {s s' : RateState} (hop : op.isProbeOf i = true)
    (h : op.linkStep rc i s = some s') :
    ∃ clk probe confidence, op = .processProbe clk probe
      ∧ probe.linkId.toNat = i
      ∧ rc.calculateProbeConfidence i = some confidence
      ∧ s.processProbe rc.config clk confidence rc.allLinksPhantomLoss probe
        = some s' := by
  cases op with
  | processProbe clk probe =>
      have hi : probe.linkId.toNat = i := of_decide_eq_true hop
      simp only [RateOp.linkStep, if_pos hi] at h
      obtain ⟨confidence, hconfidence, hprobe⟩ :=
        Option.bind_eq_some_iff.mp h
      exact ⟨clk, probe, confidence, rfl, hi, hconfidence, hprobe⟩
  | _ => exact absurd hop Bool.false_ne_true

/-- The state changes of the protocol, by what causes them. -/
inductive PathMove : PathState → PathState → Prop
  | stay (state : PathState) : PathMove state state
  | degrade : PathMove .running .lossy
  | heal : PathMove .lossy .running
  | fail {state : PathState} (h : state = .running ∨ state = .lossy) :
      PathMove state .down
  | probe : PathMove .down .probing
  | recover : PathMove .probing .running
  | relapse : PathMove .probing .down

/-- An active link that does not fail stays active. -/
theorem PathMove.active {was is : PathState} (h : PathMove was is)
    (hwas : was = .running ∨ was = .lossy) (his : is ≠ .down) :
    is = .running ∨ is = .lossy := by
  cases h with
  | stay => exact hwas
  | degrade => exact Or.inr rfl
  | heal => exact Or.inl rfl
  | fail => exact absurd rfl his
  | probe => simp at hwas
  | recover => exact Or.inl rfl
  | relapse => exact absurd rfl his

namespace RateState

variable {cfg : RateControlConfig} {clk : Clock} {confidence : ℚ}
  {suppress : Bool} {probe : ProbePacket} {s s' : RateState}

/-- A processed probe on an active link: active or `Down` behind it. -/
theorem processProbe_active (hact : s.Active)
    (h : s.processProbe cfg clk confidence suppress probe = some s') :
    s'.Active ∨ s'.state = .down := by
  obtain ⟨m, hm, ht⟩ := processProbe_inv h
  have hact' : m.Active := by
    unfold Active
    rw [hm.state]
    exact hact
  rcases transition_active hact' ht with ⟨state, hstate, rfl, -⟩ | ⟨-, -, rfl⟩
  · exact Or.inl hstate
  · exact Or.inr rfl

/-- A processed probe on a `Down` link: recovery starts, with the counter
one short of its goal on the fast track. -/
theorem processProbe_down (hst : s.state = .down)
    (h : s.processProbe cfg clk confidence suppress probe = some s') :
    s'.state = .probing
      ∧ s'.enteredDownConfidence = s.enteredDownConfidence
      ∧ s'.recoveryCount = if s.PhantomDown cfg
          then cfg.probeRecoveryCount.toNat - 1 else 1 := by
  obtain ⟨m, hm, hnoted, ht⟩ := processProbe_noted h
  have hphantom : m.PhantomDown cfg ↔ s.PhantomDown cfg := by
    unfold PhantomDown
    rw [hnoted.enteredDown]
  rcases transition_down_cases (hm.state.trans hst) ht with
    ⟨hfast, rfl⟩ | ⟨hslow, rfl⟩
  · rw [if_pos (hphantom.mp hfast)]
    exact ⟨rfl, hnoted.enteredDown, rfl⟩
  · rw [if_neg (hphantom.not.mp hslow)]
    exact ⟨rfl, hnoted.enteredDown, rfl⟩

/-- A processed probe on a `Probing` link: counted, and `Running` from
the configured count on. -/
theorem processProbe_probing (hst : s.state = .probing)
    (h : s.processProbe cfg clk confidence suppress probe = some s') :
    s'.enteredDownConfidence = s.enteredDownConfidence
      ∧ s'.recoveryCount = s.recoveryCount + 1
      ∧ s'.state = if s.recoveryCount + 1 ≥ cfg.probeRecoveryCount.toNat
          then .running else .probing := by
  obtain ⟨m, hm, hnoted, ht⟩ := processProbe_noted h
  obtain ⟨txRate, -, rfl⟩ := transition_probing (hm.state.trans hst) ht
  rw [← hm.recoveryCount]
  exact ⟨hnoted.enteredDown, rfl, rfl⟩

end RateState

/-- Every call moves a link as the protocol says; it takes a probe to
leave `Down`, and a timeout to fall back from `Probing`. -/
theorem linkStep_move {rc : RateController} {i : Nat} {op : RateOp}
    {s s' : RateState} (h : op.linkStep rc i s = some s') :
    PathMove s.state s'.state
      ∧ (s.state = .down → s'.state ≠ .down → op.isProbeOf i = true)
      ∧ (s.state = .probing → s'.state = .down →
          ∃ now, op = .checkTimeouts now) := by
  rcases linkStep_path h with ⟨-, hstate, -⟩
    | ⟨hfor, clk, probe, confidence, -, hp⟩ | ⟨now, rfl, hup, rfl⟩
  · rw [hstate]
    refine ⟨PathMove.stay _, fun hd hu => absurd hd hu, ?_⟩
    intro hd hu
    rw [hd] at hu
    cases hu
  · refine ⟨?_, fun _ _ => hfor, ?_⟩
    · cases hst : s.state with
      | running =>
          rcases processProbe_active (Or.inl hst) hp with (h | h) | h
          · exact h ▸ PathMove.stay _
          · exact h ▸ PathMove.degrade
          · exact h ▸ PathMove.fail (Or.inl rfl)
      | lossy =>
          rcases processProbe_active (Or.inr hst) hp with (h | h) | h
          · exact h ▸ PathMove.heal
          · exact h ▸ PathMove.stay _
          · exact h ▸ PathMove.fail (Or.inr rfl)
      | down =>
          rw [(processProbe_down hst hp).1]
          exact PathMove.probe
      | probing =>
          rw [(processProbe_probing hst hp).2.2]
          split
          case isTrue => exact PathMove.recover
          case isFalse => exact PathMove.stay _
    · intro hst hdown
      have hmove := (processProbe_probing hst hp).2.2
      rw [hdown] at hmove
      split at hmove
      case isTrue => cases hmove
      case isFalse => cases hmove
  · refine ⟨?_, fun hd => absurd hd hup, fun _ _ => ⟨now, rfl⟩⟩
    show PathMove s.state .down
    cases hst : s.state with
    | running => exact PathMove.fail (Or.inl rfl)
    | lossy => exact PathMove.fail (Or.inr rfl)
    | down => exact absurd hst hup
    | probing => exact PathMove.relapse

-- =============================================================== episodes

/-- The probes processed for a link since it last entered `Down`, and the
weights it showed from then on. -/
structure Episode where
  probes : Nat
  weights : List Nat

/-- The state and the weight that a controller shows for link `i`. -/
def RateController.shows (rc : RateController) (i : Nat) :
    PathState × Nat :=
  (rc.linkState i, rc.weights.getD i 0)

/-- An episode goes on with a call, or begins anew when the call takes
the link `Down`. -/
def Episode.next (i : Nat) (op : RateOp) (was is : PathState × Nat)
    (e : Episode) : Episode :=
  if was.1 ≠ .down ∧ is.1 = .down then ⟨0, [is.2]⟩
  else ⟨e.probes + if op.isProbeOf i then 1 else 0, e.weights ++ [is.2]⟩

/-- A controller in a run, with the episode of one link. -/
structure Watched where
  rc : RateController
  episode : Episode

namespace Watched

def start (rc : RateController) : Watched where
  rc := rc
  episode := ⟨0, []⟩

/-- A controller call, with the episode of link `i` kept. -/
def step (i : Nat) (op : RateOp) (w : Watched) : Option Watched :=
  (op.apply w.rc).map fun rc =>
    { rc, episode := w.episode.next i op (w.rc.shows i) (rc.shows i) }

/-- Watching a link does not disturb the run. -/
theorem run_rc (i : Nat) (ops : List RateOp) (w : Watched) :
    (Trace.run (step i) ops w).map Watched.rc
      = Trace.run RateOp.apply ops w.rc := by
  induction ops generalizing w with
  | nil => rfl
  | cons op ops ih =>
      rw [Trace.run_cons, Trace.run_cons]
      unfold step
      cases op.apply w.rc with
      | none => rfl
      | some rc => exact ih _

end Watched

/-- What a controller shows of a link it has. -/
theorem shows_eq {rc : RateController} {i : Nat} {s : RateState}
    (hs : rc.states[i]? = some s) : rc.shows i = (s.state, s.weight) := by
  unfold RateController.shows RateController.linkState
    RateController.weights
  rw [List.getD_eq_getElem?_getD, List.getElem?_map, hs]
  rfl

/-- How far recovery has come in an episode. -/
def OnTrack (cfg : RateControlConfig) (s : RateState) (probes : Nat) :
    Prop :=
  match s.state with
  | .running | .lossy => True
  | .down => probes = 0
  | .probing =>
      if s.PhantomDown cfg then
        probes = 1 ∧ cfg.probeRecoveryCount.toNat ≤ s.recoveryCount + 1
      else
        probes = s.recoveryCount ∧ 1 ≤ s.recoveryCount
          ∧ (s.recoveryCount = 1
            ∨ s.recoveryCount < cfg.probeRecoveryCount.toNat)

/-- The invariant of an episode: the count is in step with the recovery,
and while that lasts no weight was shown. -/
structure Tracked (cfg : RateControlConfig) (s : RateState) (e : Episode) :
    Prop where
  count : OnTrack cfg s e.probes
  silent : ¬s.Active → ∀ weight ∈ e.weights, weight = 0

/-- A link without weight is one that is not active. -/
theorem weight_inactive {s : RateState} (h : ¬s.Active) : s.weight = 0 := by
  unfold weight
  cases hst : s.state with
  | running => exact absurd (Or.inl hst) h
  | lossy => exact absurd (Or.inr hst) h
  | down => rfl
  | probing => rfl

/-- The phantom judgement rests on the configuration and on the
confidence noted at the failure. -/
private theorem phantomDown_congr {cfg : RateControlConfig}
    {s s' : RateState}
    (h : s'.enteredDownConfidence = s.enteredDownConfidence) :
    s'.PhantomDown cfg ↔ s.PhantomDown cfg := by
  unfold PhantomDown
  rw [h]

/-- A probe moves the recovery on by one. -/
theorem OnTrack.probe {cfg : RateControlConfig} {s s' : RateState}
    {clk : Clock} {confidence : ℚ} {suppress : Bool} {probe : ProbePacket}
    {probes : Nat} (h : OnTrack cfg s probes)
    (hup : s.state ≠ .down → s'.state ≠ .down)
    (hp : s.processProbe cfg clk confidence suppress probe = some s') :
    OnTrack cfg s' (probes + 1) := by
  cases hst : s.state with
  | running | lossy =>
      have hact : s.Active := by
        unfold Active
        rw [hst]
        simp
      rcases processProbe_active hact hp with (h' | h') | h'
      · unfold OnTrack
        rw [h']
        trivial
      · unfold OnTrack
        rw [h']
        trivial
      · exact absurd h' (hup (by rw [hst]; simp))
  | down =>
      obtain ⟨hst', hentered, hcount⟩ := processProbe_down hst hp
      unfold OnTrack at h ⊢
      rw [hst] at h
      rw [hst']
      dsimp only at h ⊢
      rw [hcount]
      by_cases hfast : s.PhantomDown cfg
      · rw [if_pos ((phantomDown_congr hentered).mpr hfast), if_pos hfast]
        omega
      · rw [if_neg ((phantomDown_congr hentered).not.mpr hfast),
          if_neg hfast]
        omega
  | probing =>
      obtain ⟨hentered, hcount, hst'⟩ := processProbe_probing hst hp
      unfold OnTrack at h ⊢
      rw [hst] at h
      rw [hst']
      by_cases hgoal : s.recoveryCount + 1 ≥ cfg.probeRecoveryCount.toNat
      · rw [if_pos hgoal]
        trivial
      rw [if_neg hgoal]
      dsimp only at h ⊢
      rw [hcount]
      by_cases hfast : s.PhantomDown cfg
      · rw [if_pos hfast] at h
        omega
      · rw [if_neg hfast] at h
        rw [if_neg ((phantomDown_congr hentered).not.mpr hfast)]
        omega

/-- A call keeps the episode tracked. -/
theorem Tracked.step {rc : RateController} {i : Nat} {op : RateOp}
    {s s' : RateState} {e : Episode} (h : Tracked rc.config s e)
    (hstep : op.linkStep rc i s = some s') :
    Tracked rc.config s'
      (e.next i op (s.state, s.weight) (s'.state, s'.weight)) := by
  unfold Episode.next
  dsimp only
  by_cases henter : s.state ≠ .down ∧ s'.state = .down
  · -- the episode begins
    rw [if_pos henter]
    constructor
    · unfold OnTrack
      rw [henter.2]
    · intro hact weight hmem
      rw [List.mem_singleton.mp hmem]
      exact weight_inactive hact
  rw [if_neg henter]
  have hup : s.state ≠ .down → s'.state ≠ .down :=
    fun hne hdown => henter ⟨hne, hdown⟩
  constructor
  · rcases linkStep_path hstep with ⟨hfor, hstate, hcount, hentered⟩
      | ⟨hfor, clk, probe, confidence, -, hp⟩ | ⟨now, -, hne, hs'⟩
    · have hsame : OnTrack rc.config s' e.probes := by
        have hcount' := h.count
        unfold OnTrack at hcount' ⊢
        rw [hstate, hcount]
        simp only [phantomDown_congr hentered]
        exact hcount'
      rw [hfor]
      exact hsame
    · rw [hfor]
      exact h.count.probe hup hp
    · exact absurd (hs' ▸ rfl) (hup hne)
  · intro hact weight hmem
    have hwas : ¬s.Active := by
      intro hwas
      have hne : s.state ≠ .down := by
        rcases hwas with hst | hst
        · rw [hst]
          simp
        · rw [hst]
          simp
      exact hact ((linkStep_move hstep).1.active hwas (hup hne))
    rcases List.mem_append.mp hmem with hmem | hmem
    · exact h.silent hwas weight hmem
    · rw [List.mem_singleton.mp hmem]
      exact weight_inactive hact

/-- The link of a watched run is tracked by the episode. -/
theorem tracked_run {cfg : RateControlConfig} {maxRates : List Nat}
    {now : Nat → Nat} {i : Nat} {ops : List RateOp} {w : Watched}
    (hrun : Trace.run (Watched.step i) ops
      (Watched.start (RateController.new cfg maxRates now)) = some w) :
    w.rc.config = cfg
      ∧ ∀ s, w.rc.states[i]? = some s → Tracked cfg s w.episode := by
  refine Trace.run_invariant
    (P := fun w : Watched => w.rc.config = cfg
      ∧ ∀ s, w.rc.states[i]? = some s → Tracked cfg s w.episode) ?_ hrun ?_
  · rintro op w w' ⟨hcfg, htracked⟩ hstep
    obtain ⟨rc', happly, rfl⟩ := Option.map_eq_some_iff.mp hstep
    obtain ⟨hcfg', hlen, hlink⟩ := apply_link happly
    refine ⟨hcfg'.trans hcfg, ?_⟩
    intro s' hs'
    have hi : i < w.rc.states.length := by
      rw [← hlen]
      exact (List.getElem?_eq_some_iff.mp hs').1
    have hs := List.getElem?_eq_getElem hi
    obtain ⟨t, hst, ht⟩ := hlink i _ hs
    obtain rfl : s' = t := Option.some.inj (hs'.symm.trans ht)
    show Tracked cfg s' (w.episode.next i op (w.rc.shows i) (rc'.shows i))
    rw [shows_eq hs, shows_eq hs', ← hcfg]
    exact Tracked.step (hcfg ▸ htracked _ hs) hst
  · refine ⟨rfl, ?_⟩
    intro s hs
    obtain ⟨rate, -, rfl⟩ := new_states hs
    exact ⟨trivial, fun _ _ hmem => nomatch hmem⟩

/-- The recovery protocol, at every call of every run: a link changes its
state as `PathMove` lists, leaves `Down` by a probe of its own and falls
back from `Probing` by a timeout; and when recovery ends, the probes
since the link entered `Down` are exactly two on the fast track and
exactly the configured count, two at least, on the normal way, with no
weight shown in between. -/
theorem link_recovery {cfg : RateControlConfig} {maxRates : List Nat}
    {now : Nat → Nat} {i : Nat} {ops : List RateOp} {op : RateOp}
    {w w' : Watched} {s s' : RateState}
    (hrun : Trace.run (Watched.step i) ops
      (Watched.start (RateController.new cfg maxRates now)) = some w)
    (hstep : Watched.step i op w = some w')
    (hs : w.rc.states[i]? = some s) (hs' : w'.rc.states[i]? = some s') :
    PathMove s.state s'.state
      ∧ (s.state = .down → s'.state ≠ .down → op.isProbeOf i = true)
      ∧ (s.state = .probing → s'.state = .down →
          ∃ now, op = .checkTimeouts now)
      ∧ (s.state = .probing → s'.state = .running →
          w'.episode.probes
              = (if cfg.tapaEnabled = true
                  ∧ s'.enteredDownConfidence < rnd (3 / 10) then 2
                else max 2 cfg.probeRecoveryCount.toNat)
            ∧ ∀ weight ∈ w.episode.weights, weight = 0) := by
  obtain ⟨hcfg, htracked⟩ := tracked_run hrun
  obtain ⟨rc', happly, rfl⟩ := Option.map_eq_some_iff.mp hstep
  obtain ⟨t, hlink, ht⟩ := (apply_link happly).2.2 i s hs
  obtain rfl : s' = t := Option.some.inj (hs'.symm.trans ht)
  obtain ⟨hmove, hleave, hfall⟩ := linkStep_move hlink
  refine ⟨hmove, hleave, hfall, ?_⟩
  intro hprobing hrunning
  have htrack := htracked s hs
  refine ⟨?_, htrack.silent ?_⟩
  · rcases linkStep_path hlink with ⟨-, hstate, -⟩
      | ⟨hfor, clk, probe, confidence, -, hp⟩ | ⟨-, -, -, rfl⟩
    · rw [hprobing, hrunning] at hstate
      cases hstate
    · obtain ⟨hentered, -, hgoal⟩ := processProbe_probing hprobing hp
      rw [hrunning, hcfg] at hgoal
      have hdone : s.recoveryCount + 1 ≥ cfg.probeRecoveryCount.toNat := by
        by_contra hlt
        rw [if_neg hlt] at hgoal
        cases hgoal
      have hcount := htrack.count
      unfold OnTrack at hcount
      rw [hprobing] at hcount
      dsimp only at hcount
      show (w.episode.next i op (w.rc.shows i) (rc'.shows i)).probes = _
      rw [shows_eq hs, shows_eq hs', Episode.next, if_neg (by simp [hrunning]),
        hfor, hentered]
      show w.episode.probes + 1 = _
      by_cases hfast : cfg.tapaEnabled = true
          ∧ s.enteredDownConfidence < rnd (3 / 10)
      · rw [if_pos (show s.PhantomDown cfg from hfast)] at hcount
        rw [if_pos hfast]
        omega
      · rw [if_neg (show ¬s.PhantomDown cfg from hfast)] at hcount
        rw [if_neg hfast]
        omega
    · cases hrunning
  · unfold Active
    rw [hprobing]
    simp

/-- A probe for link 0 in an empty interval. -/
private def emptyProbe : RateOp :=
  .processProbe ⟨0, 0⟩ (ProbePacket.mk 0 1 0 0 0 0 0 0 0 .running)

/-- A link that timed out at full confidence is back with the third
probe, and showed no weight up to then. -/
theorem link_recovery_third_probe : ∃ w w' s s',
    Trace.run (Watched.step 0)
        [.checkTimeouts fun _ => 6000000000, emptyProbe, emptyProbe]
        (Watched.start (RateController.new .default [7500000] fun _ => 0))
      = some w
    ∧ Watched.step 0 emptyProbe w = some w'
    ∧ w.rc.states[0]? = some s ∧ w'.rc.states[0]? = some s'
    ∧ s.state = .probing ∧ s'.state = .running
    ∧ w'.episode.probes = 3 ∧ ∀ weight ∈ w.episode.weights, weight = 0 := by
  let start := Watched.start
    (RateController.new .default [7500000] fun _ => 0)
  let ops := [RateOp.checkTimeouts fun _ => 6000000000, emptyProbe,
    emptyProbe]
  have hstates : ((Trace.run (Watched.step 0) ops start).bind fun w =>
      (Watched.step 0 emptyProbe w).map fun w' =>
        (w.rc.states[0]?.map RateState.state,
          w'.rc.states[0]?.map fun s => (s.state, s.enteredDownConfidence)))
      = some (some .probing, some (.running, 1)) := by
    decide +kernel
  obtain ⟨w, hrun, hnext⟩ := Option.bind_eq_some_iff.mp hstates
  obtain ⟨w', hstep, hboth⟩ := Option.map_eq_some_iff.mp hnext
  obtain ⟨hwas, his⟩ := Prod.mk.inj hboth
  obtain ⟨s, hs, hprobing⟩ := Option.map_eq_some_iff.mp hwas
  obtain ⟨s', hs', hend⟩ := Option.map_eq_some_iff.mp his
  obtain ⟨hrunning, hentered⟩ := Prod.mk.inj hend
  obtain ⟨hprobes, hweights⟩ :=
    (link_recovery hrun hstep hs hs').2.2.2 hprobing hrunning
  rw [hentered, if_neg (by decide +kernel)] at hprobes
  exact ⟨w, w', s, s', hrun, hstep, hs, hs', hprobing, hrunning, hprobes,
    hweights⟩

end ChainLightning
