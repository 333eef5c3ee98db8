/-
A link whose last pushed weight is zero is not scheduled, as long as the
configured weights have not been restored since.

Two writers own the weights: the rate controller's push, and the refresh
inside `update_link` that restores the configured ones. `Pushed` says
what holds at every lock release: while no refresh has come in between,
the scheduler's weights are the pushed ones. Selection skips links of
weight zero (`selectFrom_weight`), so a schedule call that runs then
honours the push. Between a refresh and the next push a withheld link
has its configured weight back, and is scheduled.
-/
import ChainLightning.Scheduler

namespace ChainLightning

open LinkScheduler

-- ============================================================= selection

/-- The selection loop returns links with weight only. -/
theorem selectFrom_weight {pos cumulative : UInt32}
    {links : List LinkState} {linkId : Nat}
    (h : selectFrom pos cumulative links = some linkId) :
    ∃ l ∈ links, l.id = linkId ∧ 0 < l.weight := by
  induction links generalizing cumulative with
  | nil => cases h
  | cons l links ih =>
      unfold selectFrom at h
      by_cases hzero : l.weight = 0
      · rw [if_pos hzero] at h
        obtain ⟨l', hmem, hl'⟩ := ih h
        exact ⟨l', List.mem_cons_of_mem l hmem, hl'⟩
      · rw [if_neg hzero] at h
        by_cases hpos : pos < cumulative + l.weight
        · rw [if_pos hpos] at h
          injection h with hid
          exact ⟨l, List.mem_cons_self, hid, UInt32.pos_iff_ne_zero.mpr hzero⟩
        · rw [if_neg hpos] at h
          obtain ⟨l', hmem, hl'⟩ := ih h
          exact ⟨l', List.mem_cons_of_mem l hmem, hl'⟩

/-- With some weight positive, the selected link has weight: the loop
returns one, or the fallback finds one. -/
theorem weightedSelect_weight {s : LinkScheduler}
    (hsome : ∃ l ∈ s.links, 0 < l.weight) :
    ∃ l ∈ s.links, l.id = s.weightedSelect.1 ∧ 0 < l.weight := by
  unfold weightedSelect
  dsimp only
  cases hsel : selectFrom ((s.cursor + 1)
      % s.totalWeight.toUInt64).toUInt32 0 s.links with
  | some linkId => exact selectFrom_weight hsel
  | none =>
      obtain ⟨l, hmem, hpos⟩ := hsome
      cases hfind : s.links.find? (·.weight > 0) with
      | none =>
          have hnone := List.find?_eq_none.mp hfind l hmem
          exact absurd (decide_eq_true hpos) hnone
      | some l' =>
          have hpos' := List.find?_some hfind
          rw [decide_eq_true_iff] at hpos'
          exact ⟨l', List.mem_of_find?_eq_some hfind, rfl, hpos'⟩

-- ================================================================ frames

/-- What a change of one element keeps, it keeps along the list. -/
theorem map_modify_of_frame {α β : Type*} {f : α → β} {g : α → α}
    (hframe : ∀ x, f (g x) = f x) (l : List α) (i : Nat) :
    (l.modify i g).map f = l.map f := by
  induction l generalizing i with
  | nil => rw [List.modify_nil]
  | cons x l ih =>
      cases i with
      | zero => rw [List.modify_zero_cons, List.map_cons, hframe]; rfl
      | succ i => rw [List.modify_succ_cons, List.map_cons, ih]; rfl

theorem length_eq_of_ids {links links' : List LinkState}
    (h : links'.map LinkState.id = links.map LinkState.id) :
    links'.length = links.length := by
  have hlen := congrArg List.length h
  rwa [List.length_map, List.length_map] at hlen

/-- A measurement changes neither the id of a link nor its weight. -/
theorem updateLink_frame (l : LinkState)
    (measuredBandwidthBps rttUs : UInt64) :
    ((l.updateRtt rttUs).updateBandwidth measuredBandwidthBps).id = l.id
      ∧ ((l.updateRtt rttUs).updateBandwidth measuredBandwidthBps).weight
        = l.weight := by
  have hrtt : (l.updateRtt rttUs).id = l.id
      ∧ (l.updateRtt rttUs).weight = l.weight := by
    unfold LinkState.updateRtt
    split
    case isTrue => exact ⟨rfl, rfl⟩
    case isFalse => split <;> exact ⟨rfl, rfl⟩
  unfold LinkState.updateBandwidth
  split <;> exact hrtt

theorem updateLink_ids (s : LinkScheduler) (linkId : Nat)
    (measuredBandwidthBps rttUs : UInt64) (now : Nat) :
    (s.updateLink linkId measuredBandwidthBps rttUs now).links.map
        LinkState.id
      = s.links.map LinkState.id := by
  have hmodify := map_modify_of_frame
    (fun l => (updateLink_frame l measuredBandwidthBps rttUs).1)
    s.links linkId
  unfold LinkScheduler.updateLink maybeAdjustWeights
  dsimp only
  split
  case isTrue =>
    rw [← hmodify]
    show List.map LinkState.id (List.map _ _) = _
    rw [List.map_map]
    rfl
  case isFalse => exact hmodify

/-- Outside the refresh, a measurement leaves the weights alone. -/
theorem updateLink_weights {s : LinkScheduler} {now : Nat}
    (hdue : s.adjustmentDue now = false) (linkId : Nat)
    (measuredBandwidthBps rttUs : UInt64) :
    (s.updateLink linkId measuredBandwidthBps rttUs now).links.map
        LinkState.weight
      = s.links.map LinkState.weight := by
  have hmodify := map_modify_of_frame
    (fun l => (updateLink_frame l measuredBandwidthBps rttUs).2)
    s.links linkId
  unfold LinkScheduler.updateLink maybeAdjustWeights
  dsimp only
  split
  case isTrue hdue' => exact absurd hdue' (Bool.eq_false_iff.mp hdue)
  case isFalse => exact hmodify

theorem applyWeights_ids (weights : List UInt32)
    (links : List LinkState) :
    (applyWeights weights links).map LinkState.id
      = links.map LinkState.id := by
  induction weights generalizing links with
  | nil => rfl
  | cons w weights ih =>
      cases links with
      | nil => rfl
      | cons l links =>
          rw [applyWeights, List.map_cons, List.map_cons, ih]

/-- A weight for every link: the push replaces them all. -/
theorem applyWeights_weights {weights : List UInt32}
    {links : List LinkState} (hlen : weights.length = links.length) :
    (applyWeights weights links).map LinkState.weight = weights := by
  induction weights generalizing links with
  | nil =>
      rw [List.length_eq_zero_iff.mp hlen.symm]
      rfl
  | cons w weights ih =>
      cases links with
      | nil => cases hlen
      | cons l links =>
          rw [applyWeights, List.map_cons, ih (Nat.succ.inj hlen)]

/-- A schedule call returns the selected link, and changes neither ids
nor weights. -/
theorem schedule_effects (s : LinkScheduler) (chunkSize : UInt64)
    (multiLink : Bool) :
    (s.schedule chunkSize multiLink).1.linkId = s.weightedSelect.1
      ∧ (s.schedule chunkSize multiLink).2.links.map LinkState.id
        = s.links.map LinkState.id
      ∧ (s.schedule chunkSize multiLink).2.links.map LinkState.weight
        = s.links.map LinkState.weight := by
  have hid := map_modify_of_frame (f := LinkState.id)
    (g := LinkState.recordSent chunkSize) (fun _ => rfl) s.links
    s.weightedSelect.1
  have hweight := map_modify_of_frame (f := LinkState.weight)
    (g := LinkState.recordSent chunkSize) (fun _ => rfl) s.links
    s.weightedSelect.1
  cases multiLink with
  | true => exact ⟨rfl, hid, hweight⟩
  | false => exact ⟨rfl, hid, hweight⟩

-- ============================================================= invariant

/-- At a lock release: links are numbered by position, weights to push
cover the links, and without a refresh since the push the scheduler has
the pushed weights. -/
structure Pushed (s : Tasks) : Prop where
  ids : s.scheduler.links.map LinkState.id
    = List.range s.scheduler.links.length
  pending : ∀ weights, s.pc = .push weights →
    weights.length = s.scheduler.links.length
  weights : s.refreshed = false → ∀ weights, s.lastPush = some weights →
    s.scheduler.links.map LinkState.weight = weights

theorem pushed_start (config : LinkSchedulerConfig)
    (configuredBandwidths : List UInt64) (now : Nat) :
    Pushed (Tasks.start config configuredBandwidths now) where
  ids := by
    show (configuredBandwidths.mapIdx LinkState.new).map LinkState.id
      = List.range (configuredBandwidths.mapIdx LinkState.new).length
    apply List.ext_getElem
    · simp
    · intro i hi hi'
      simp [LinkState.new]
  pending := by
    intro weights hpc
    unfold Tasks.start StatsPc.atLink at hpc
    dsimp only at hpc
    split at hpc <;> cases hpc
  weights := fun _ _ h => nomatch h

/-- The loop over the links is not at a push. -/
theorem atLink_ne_push (numLinks linkId : Nat) (weights : List UInt32) :
    StatsPc.atLink numLinks linkId ≠ .push weights := by
  unfold StatsPc.atLink
  split <;> exact fun h => nomatch h

namespace Pushed

variable {s s' : Tasks}

/-- A scheduler with the same links keeps their numbering. -/
theorem ids_of_frame (h : Pushed s) {links : List LinkState}
    (hids : links.map LinkState.id = s.scheduler.links.map LinkState.id) :
    links.map LinkState.id = List.range links.length := by
  rw [length_eq_of_ids hids, hids, h.ids]

/-- Every lock section keeps the invariant, wherever it falls. -/
theorem step (h : Pushed s) {act : TaskStep}
    (hstep : Tasks.step act s = some s') : Pushed s' := by
  cases act with
  | updateLink measuredBandwidthBps rttUs now =>
      unfold Tasks.step at hstep
      dsimp only at hstep
      split at hstep
      case h_2 => cases hstep
      case h_1 linkId hpc =>
        cases hstep
        have hids := updateLink_ids s.scheduler linkId measuredBandwidthBps
          rttUs now
        refine ⟨h.ids_of_frame hids, ?_, ?_⟩
        · intro weights hpush
          exact absurd hpush (atLink_ne_push _ _ _)
        · intro hfresh weights hlast
          obtain ⟨hbefore, hdue⟩ := Bool.or_eq_false_iff.mp hfresh
          rw [updateLink_weights hdue]
          exact h.weights hbefore weights hlast
  | rateControl rc now =>
      unfold Tasks.step at hstep
      dsimp only at hstep
      split at hstep
      case h_2 => cases hstep
      case h_1 hpc =>
        split at hstep
        case isFalse => cases hstep
        case isTrue hlinks =>
          cases hstep
          refine ⟨h.ids, ?_, h.weights⟩
          intro weights hpush
          injection hpush with hweights
          rw [← hweights, ← hlinks]
          simp [RateController.weights, RateController.checkTimeouts]
  | setWeights =>
      unfold Tasks.step at hstep
      dsimp only at hstep
      split at hstep
      case h_2 => cases hstep
      case h_1 pushed hpc =>
        cases hstep
        refine ⟨h.ids_of_frame (applyWeights_ids _ _), ?_, ?_⟩
        · intro weights hpush
          exact absurd hpush (atLink_ne_push _ _ _)
        · intro _ weights hlast
          injection hlast with hlast
          rw [← hlast]
          exact applyWeights_weights (h.pending pushed hpc)
  | schedule chunkSize multiLink =>
      cases hstep
      obtain ⟨-, hids, hweights⟩ :=
        schedule_effects s.scheduler chunkSize multiLink
      refine ⟨h.ids_of_frame hids, ?_, ?_⟩
      · intro weights hpush
        rw [h.pending weights hpush]
        exact (length_eq_of_ids hids).symm
      · intro hfresh weights hlast
        exact hweights.trans (h.weights hfresh weights hlast)

end Pushed

-- ============================================================== the pushes

/-- A pick honours the last push: with some pushed weight positive, the
link's own was not zero. -/
def Honours (pick : Option (List UInt32) × Nat) : Prop :=
  ∀ weights, pick.1 = some weights → (∃ w ∈ weights, 0 < w) →
    weights[pick.2]? ≠ some 0

/-- A schedule call does not run while a link is withheld and the
configured weights have been restored since the push. -/
def OutsideRefresh (act : TaskStep) (s : Tasks) : Prop :=
  match act with
  | .schedule _ _ => s.refreshed = false ∨ 0 ∉ s.lastPush.getD []
  | _ => True

instance : ∀ act s, Decidable (OutsideRefresh act s)
  | .schedule _ _, s => inferInstanceAs (Decidable (s.refreshed = false ∨ _))
  | .updateLink _ _ _, _ => isTrue trivial
  | .rateControl _ _, _ => isTrue trivial
  | .setWeights, _ => isTrue trivial

/-- Without a refresh since the push, the selected link was pushed with
weight. -/
theorem Pushed.select_honours {s : Tasks} (h : Pushed s)
    (hfresh : s.refreshed = false) :
    Honours (s.lastPush, s.scheduler.weightedSelect.1) := by
  rintro weights hlast ⟨w, hw, hpos⟩ hzero
  have hweights := h.weights hfresh weights hlast
  have hsome : ∃ l ∈ s.scheduler.links, 0 < l.weight := by
    rw [← hweights] at hw
    obtain ⟨l, hmem, rfl⟩ := List.mem_map.mp hw
    exact ⟨l, hmem, hpos⟩
  obtain ⟨l, hmem, hid, hlpos⟩ := weightedSelect_weight hsome
  obtain ⟨i, hi, hget⟩ := List.mem_iff_getElem.mp hmem
  have hpick : s.scheduler.weightedSelect.1 = i := by
    have hrange : (s.scheduler.links.map LinkState.id)[i]? = some i := by
      rw [h.ids, List.getElem?_range hi]
    rw [List.getElem?_map, List.getElem?_eq_getElem hi, hget] at hrange
    injection hrange with hrange
    rw [← hid, ← hrange]
  have hweight : weights[i]? = some l.weight := by
    rw [← hweights, List.getElem?_map, List.getElem?_eq_getElem hi, hget]
    rfl
  rw [hpick, hweight] at hzero
  injection hzero with hzero
  exact UInt32.pos_iff_ne_zero.mp hlpos hzero

/-- Only a schedule call picks, and it picks the selected link. -/
theorem step_picks {act : TaskStep} {s s' : Tasks}
    (hstep : Tasks.step act s = some s') :
    s'.picks = s.picks
      ∨ (∃ chunkSize multiLink, act = .schedule chunkSize multiLink)
        ∧ s'.picks
          = s.picks ++ [(s.lastPush, s.scheduler.weightedSelect.1)] := by
  cases act with
  | schedule chunkSize multiLink =>
      cases hstep
      refine Or.inr ⟨⟨chunkSize, multiLink, rfl⟩, ?_⟩
      show s.picks ++ [(s.lastPush,
        (s.scheduler.schedule chunkSize multiLink).1.linkId)] = _
      rw [(schedule_effects s.scheduler chunkSize multiLink).1]
  | updateLink measuredBandwidthBps rttUs now =>
      unfold Tasks.step at hstep
      dsimp only at hstep
      split at hstep <;> cases hstep
      exact Or.inl rfl
  | rateControl rc now =>
      unfold Tasks.step at hstep
      dsimp only at hstep
      split at hstep
      case h_2 => cases hstep
      case h_1 =>
        split at hstep <;> cases hstep
        exact Or.inl rfl
  | setWeights =>
      unfold Tasks.step at hstep
      dsimp only at hstep
      split at hstep <;> cases hstep
      exact Or.inl rfl

/-- In every interleaving of the two tasks whose schedule calls run
outside a refresh of withheld links, every scheduled link honours the
last push before it. -/
theorem withheld_link_not_scheduled (config : LinkSchedulerConfig)
    (configuredBandwidths : List UInt64) (now : Nat)
    {acts : List TaskStep} {s : Tasks}
    (houtside : Trace.Along Tasks.step OutsideRefresh acts
      (Tasks.start config configuredBandwidths now))
    (hrun : Trace.run Tasks.step acts
      (Tasks.start config configuredBandwidths now) = some s) :
    ∀ pick ∈ s.picks, Honours pick := by
  have hstart : Pushed (Tasks.start config configuredBandwidths now)
      ∧ ∀ pick ∈ (Tasks.start config configuredBandwidths now).picks,
        Honours pick :=
    ⟨pushed_start config configuredBandwidths now, fun _ h => nomatch h⟩
  refine (Trace.run_along
    (P := fun s => Pushed s ∧ ∀ pick ∈ s.picks, Honours pick)
    ?_ houtside hrun hstart).2
  rintro act s s' ⟨hpushed, hpicks⟩ hok hstep
  refine ⟨hpushed.step hstep, ?_⟩
  rcases step_picks hstep with hsame | ⟨⟨chunkSize, multiLink, rfl⟩, hnew⟩
  · rw [hsame]
    exact hpicks
  · intro pick hmem
    rw [hnew] at hmem
    rcases List.mem_append.mp hmem with hmem | hmem
    · exact hpicks pick hmem
    rw [List.mem_singleton.mp hmem]
    rcases hok with hfresh | hnone
    · exact hpushed.select_honours hfresh
    · intro weights hlast _ hzero
      rw [show s.lastPush = some weights from hlast] at hnone
      exact hnone (List.mem_of_getElem? hzero)

/-- A rate controller of two links whose first is down. -/
def firstLinkDown : RateController where
  config := RateControlConfig.default
  states := [
    { RateState.new 0 7500000 (1 / 10) 0 with state := .down },
    RateState.new 1 27500000 (1 / 10) 0]

/-- One round of the stats update task, which withholds the first
link. -/
def withholdRound : List TaskStep :=
  [.updateLink 7500000 100000 0, .updateLink 27500000 40000 0,
   .rateControl firstLinkDown (fun _ => 0), .setWeights]

/-- The law at a round, a chunk, and a round that is under way. -/
theorem withheld_link_not_scheduled_round :
    ∃ s, Trace.run Tasks.step
        (withholdRound ++ [.schedule 1400 false, .updateLink 0 0 1])
        (Tasks.start Config.default.linkScheduler [7500000, 27500000] 0)
        = some s
      ∧ ∀ pick ∈ s.picks, Honours pick := by
  obtain ⟨s, hrun⟩ := Option.isSome_iff_exists.mp (show (Trace.run Tasks.step
      (withholdRound ++ [.schedule 1400 false, .updateLink 0 0 1])
      (Tasks.start Config.default.linkScheduler [7500000, 27500000]
        0)).isSome = true by decide +kernel)
  exact ⟨s, hrun, withheld_link_not_scheduled Config.default.linkScheduler
    [7500000, 27500000] 0 (by decide +kernel) hrun⟩

-- ===================================================== inside the window

/-- A second after the round, the first `update_link` of the next one
restores the configured weights, and a chunk scheduled before the next
push goes out on the withheld link. -/
theorem withheld_link_scheduled :
    ∃ s, Trace.run Tasks.step (withholdRound
          ++ [.updateLink 7500000 100000 1000000000, .schedule 1400 false])
        (Tasks.start Config.default.linkScheduler [7500000, 27500000] 0)
        = some s
      ∧ ∃ pick ∈ s.picks, ¬Honours pick := by
  have hpicks : (Trace.run Tasks.step (withholdRound
        ++ [.updateLink 7500000 100000 1000000000, .schedule 1400 false])
      (Tasks.start Config.default.linkScheduler [7500000, 27500000] 0)).map
        Tasks.picks = some [(some [0, 220], 0)] := by
    decide +kernel
  obtain ⟨s, hrun, hs⟩ := Option.map_eq_some_iff.mp hpicks
  refine ⟨s, hrun, (some [0, 220], 0), ?_, ?_⟩
  · rw [hs]
    exact List.mem_cons_self
  · intro h
    exact h [0, 220] rfl ⟨220, by decide, by decide⟩ rfl

end ChainLightning
