/-
The mode of a flow over its calls.

One optional instant serves a flow in both of its modes, and the
decision logic of `classify` is a hysteresis rule over it
(`decide_watch`). A change of the mode has been asked for during at
least the monitoring duration (`flows_do_not_flap`), whatever was
classified, updated or expired in between.

What asks for multi-link is the lower of the two thresholds. The upper
one is read at the change alone, so that a change to multi-link was
sustained above it only where no call of the last monitoring duration
was between the two (`multi_link_sustained_iff`).
-/
import Mathlib.Data.List.Flatten
import ChainLightning.Classifier
import ChainLightning.Lib.Hysteresis

namespace ChainLightning

open Binary64 Hysteresis

-- ============================================================== the rule

/-- The monitoring duration in nanoseconds. -/
def FlowClassifierConfig.monitorDuration (config : FlowClassifierConfig) :
    Nat :=
  config.monitorDurationMs.toNat * 1000000

/-- The ratios that ask for a mode: above the single-link threshold for
multi-link, below it for single-link. -/
def FlowClassifierConfig.asksFor (config : FlowClassifierConfig) :
    FlowMode → ℚ → Bool
  | .multiLink, ratio => config.singleLinkThreshold.lt (.fin ratio)
  | .singleLink _, ratio => Double.lt (.fin ratio) config.singleLinkThreshold

/-- A ratio above the multi-link threshold. -/
def FlowClassifierConfig.isHigh (config : FlowClassifierConfig) (ratio : ℚ) :
    Bool :=
  config.multiLinkThreshold.lt (.fin ratio)

/-- What a decision is about: the ratio of the flow to the fastest link,
and that link. -/
structure Demand where
  ratio : ℚ
  fastestLink : Nat
  deriving DecidableEq

/-- Where a mode changes to. -/
def Demand.target : FlowMode → Demand → FlowMode
  | .singleLink _, _ => .multiLink
  | .multiLink, demand => .singleLink demand.fastestLink

/-- The rule that modes follow: the upper threshold triggers a change to
multi-link, and nothing more is needed for one back. -/
def modeRule (config : FlowClassifierConfig) : Rule FlowMode Demand where
  asks mode demand := config.asksFor (demand.target mode) demand.ratio
  triggers mode demand :=
    demand.target mode ≠ .multiLink || config.isHigh demand.ratio
  target mode demand := demand.target mode
  hold := config.monitorDuration

/-- The mode of a flow and its timer. -/
def FlowState.watch (f : FlowState) : Watch FlowMode where
  mode := f.mode
  since := f.exceededThresholdAt

/-- The decision logic follows the rule. -/
theorem decide_watch (config : FlowClassifierConfig) (demand : Demand)
    (taken started decided : Nat) (f : FlowState) :
    (f.decide config demand.fastestLink demand.ratio started decided).watch
      = (modeRule config).next ⟨demand, taken, started, decided⟩ f.watch := by
  unfold FlowState.decide Rule.next FlowState.watch
  cases f.mode with
  | singleLink link =>
      simp only [modeRule, Demand.target, FlowClassifierConfig.asksFor,
        FlowClassifierConfig.isHigh, FlowClassifierConfig.monitorDuration,
        ne_eq, not_true_eq_false, decide_false, Bool.false_or]
      split_ifs <;> rfl
  | multiLink =>
      simp only [modeRule, Demand.target, FlowClassifierConfig.asksFor,
        FlowClassifierConfig.monitorDuration, ne_eq, reduceCtorEq,
        not_false_eq_true, decide_true, Bool.true_or, true_and]
      split_ifs <;> rfl

-- ============================================================= the calls

/-- A `classify` call as its decision sees it. -/
abbrev Call := Note FlowMode Demand

namespace FlowClassifier

/-- What a call sees of its flow, with the packet recorded. -/
def look (flow : FlowState) (t : Readings) (c : FlowClassifier) :
    Look Demand where
  obs := { ratio := c.ratio flow t, fastestLink := c.fastestLink }
  taken := t.estimated
  started := t.started
  decided := t.decided

/-- A call, with the mode and the timer that it finds and the mode that
it decides on. -/
def call (flow : FlowState) (t : Readings) (c : FlowClassifier) : Call where
  toLook := c.look flow t
  mode := flow.mode
  since := flow.exceededThresholdAt
  after := (flow.decide c.config c.fastestLink (c.ratio flow t) t.started
    t.decided).mode

/-- The call that a step makes, and its flow. -/
def calls : ClassifierOp → FlowClassifier → List (FlowId × Call)
  | .classify packet t, c =>
      (do let flowId ← FlowId.fromPacket packet
          let flow ← c.record flowId packet t
          some (flowId, c.call flow t)).toList
  | .updateBandwidths _, _ | .expireFlows _, _ => []

theorem calls_of_unknown {packet : List UInt8} {t : Readings}
    {c : FlowClassifier} (hid : FlowId.fromPacket packet = none) :
    calls (.classify packet t) c = [] := by
  simp [calls, hid]

theorem calls_of_failed {packet : List UInt8} {t : Readings}
    {c : FlowClassifier} {id : FlowId}
    (hid : FlowId.fromPacket packet = some id)
    (hrecord : c.record id packet t = none) :
    calls (.classify packet t) c = [] := by
  simp [calls, hid, hrecord]

theorem calls_of_flow {packet : List UInt8} {t : Readings}
    {c : FlowClassifier} {id : FlowId} {flow : FlowState}
    (hid : FlowId.fromPacket packet = some id)
    (hrecord : c.record id packet t = some flow) :
    calls (.classify packet t) c = [(id, c.call flow t)] := by
  simp [calls, hid, hrecord]

end FlowClassifier

/-- The calls for a flow. -/
def callsOf (flowId : FlowId) (seen : List (FlowId × Call)) : List Call :=
  (seen.filter fun n => n.1 = flowId).map Prod.snd

/-- The calls for a flow along a run, oldest first. -/
def FlowClassifier.history (flowId : FlowId) (ops : List ClassifierOp)
    (c : FlowClassifier) : List Call :=
  callsOf flowId
    (Trace.record FlowClassifier.step FlowClassifier.calls ops c)

-- ============================================================== histories

variable {config : FlowClassifierConfig} {flowId : FlowId}

theorem callsOf_append (seen seen' : List (FlowId × Call)) :
    callsOf flowId (seen ++ seen')
      = callsOf flowId seen ++ callsOf flowId seen' := by
  unfold callsOf
  rw [List.filter_append, List.map_append]

@[simp] theorem callsOf_self (x : Call) :
    callsOf flowId [(flowId, x)] = [x] := by
  simp [callsOf]

theorem callsOf_other {other : FlowId} (h : other ≠ flowId) (x : Call) :
    callsOf flowId [(other, x)] = [] := by
  simp [callsOf, h]

/-- A recorded packet leaves mode and timer. -/
theorem recordBytes_watch {f f' : FlowState} {bytes : UInt64}
    {seen sampled pruned : Nat}
    (h : f.recordBytes bytes seen sampled pruned = some f') :
    f'.watch = f.watch := by
  unfold FlowState.recordBytes at h
  obtain ⟨cutoff, -, hf'⟩ := Option.bind_eq_some_iff.mp h
  cases hf'
  rfl

/-- What a classifier and the calls seen so far have to do with each
other: every flow's calls lead to the mode and the timer of its entry. -/
structure Explains (config : FlowClassifierConfig)
    (seen : List (FlowId × Call)) (c : FlowClassifier) : Prop where
  configured : c.config = config
  reaches : ∀ flowId, ∃ w,
    Reaches (modeRule config) (callsOf flowId seen) w
      ∧ ∀ flow, c.flows flowId = some flow → flow.watch = w

namespace Explains

variable {seen : List (FlowId × Call)} {c c' : FlowClassifier}

theorem new (config : FlowClassifierConfig) (bandwidths : List UInt64) :
    Explains config [] (FlowClassifier.new config bandwidths) where
  configured := rfl
  reaches := fun _ =>
    ⟨⟨.multiLink, none⟩, .start _, fun flow h => by cases h⟩

/-- A classifier with fewer entries, and the same ones. -/
theorem mono (h : Explains config seen c) (hconfig : c'.config = c.config)
    (hflows : ∀ flowId flow, c'.flows flowId = some flow →
      c.flows flowId = some flow) : Explains config seen c' where
  configured := hconfig.trans h.configured
  reaches := fun flowId => by
    obtain ⟨w, hreach, hw⟩ := h.reaches flowId
    exact ⟨w, hreach, fun flow hflow => hw flow (hflows flowId flow hflow)⟩

/-- The entry that a call works on: one that the calls led to, or a new
one. -/
theorem record (h : Explains config seen c) {packet : List UInt8}
    {t : Readings} {flow : FlowState}
    (hrecord : c.record flowId packet t = some flow) :
    Reaches (modeRule config) (callsOf flowId seen) flow.watch := by
  obtain ⟨w, hreach, hw⟩ := h.reaches flowId
  rw [recordBytes_watch hrecord]
  cases hflow : c.flows flowId with
  | none => exact hreach.reset _
  | some entry =>
      rw [Option.getD_some, hw entry hflow]
      exact hreach

/-- The note of a call is the one that the rule makes. -/
theorem call_eq_note (h : c.config = config) (flow : FlowState)
    (t : Readings) :
    c.call flow t = (modeRule config).note (c.look flow t) flow.watch := by
  have hnext := decide_watch config (c.look flow t).obs t.estimated t.started
    t.decided flow
  unfold FlowClassifier.call Rule.note
  rw [h]
  exact congrArg _ (congrArg Watch.mode hnext)

/-- A call for a flow, for that flow and for the others. -/
theorem classified (h : Explains config seen c) {id : FlowId}
    {packet : List UInt8} {t : Readings} {flow : FlowState}
    (hrecord : c.record id packet t = some flow) :
    Explains config (seen ++ [(id, c.call flow t)])
      { c with flows := Function.update c.flows id (some (flow.decide
          c.config c.fastestLink (c.ratio flow t) t.started t.decided)) } where
  configured := h.configured
  reaches := fun flowId => by
    rw [callsOf_append]
    by_cases hid : flowId = id
    · subst hid
      have hnext := decide_watch config (c.look flow t).obs t.estimated
        t.started t.decided flow
      rw [callsOf_self, call_eq_note h.configured]
      refine ⟨_, (h.record hrecord).look _, fun flow' hflow' => ?_⟩
      dsimp only at hflow'
      rw [Function.update_self, h.configured] at hflow'
      cases hflow'
      exact hnext
    · rw [callsOf_other (Ne.symm hid), List.append_nil]
      obtain ⟨w, hreach, hw⟩ := h.reaches flowId
      refine ⟨w, hreach, fun flow' hflow' => hw flow' ?_⟩
      dsimp only at hflow'
      rwa [Function.update_of_ne hid] at hflow'

theorem step (h : Explains config seen c) {op : ClassifierOp}
    (hstep : FlowClassifier.step op c = some c') :
    Explains config (seen ++ FlowClassifier.calls op c) c' := by
  cases op with
  | updateBandwidths bandwidths =>
      cases hstep
      rw [FlowClassifier.calls, List.append_nil]
      exact h.mono rfl fun _ _ hflow => hflow
  | expireFlows now =>
      cases hstep
      rw [FlowClassifier.calls, List.append_nil]
      exact h.mono rfl fun _ _ hflow =>
        (Option.filter_eq_some_iff.mp hflow).1
  | classify packet t =>
      obtain ⟨⟨mode, next⟩, hclassify, rfl⟩ := Option.map_eq_some_iff.mp hstep
      unfold FlowClassifier.classify at hclassify
      cases hid : FlowId.fromPacket packet with
      | none =>
          rw [hid] at hclassify
          cases hclassify
          rw [FlowClassifier.calls_of_unknown hid, List.append_nil]
          exact h
      | some id =>
          rw [hid] at hclassify
          obtain ⟨flow, hrecord, hnext⟩ :=
            Option.bind_eq_some_iff.mp hclassify
          cases hnext
          rw [FlowClassifier.calls_of_flow hid hrecord]
          exact h.classified hrecord

end Explains

-- =================================================================== runs

/-- Every call of a history is the rule's, after the calls before it. -/
theorem history_reaches {bandwidths : List UInt64} {ops : List ClassifierOp}
    {c : FlowClassifier}
    (hrun : Trace.run FlowClassifier.step ops
      (FlowClassifier.new config bandwidths) = some c) :
    Trace.Throughout (fun earlier x => ∃ w,
        Reaches (modeRule config) earlier w
          ∧ x = (modeRule config).note x.toLook w)
      ((FlowClassifier.new config bandwidths).history flowId ops) := by
  have hany : Trace.Along FlowClassifier.step (fun _ _ => True) ops
      (FlowClassifier.new config bandwidths) :=
    Trace.Along.of_forall (fun _ _ _ => trivial) _
  have hexplains := Trace.run_record (P := Explains config)
    FlowClassifier.calls (fun _ _ _ _ h _ hstep => h.step hstep) hany hrun
    (Explains.new config bandwidths)
  obtain ⟨w, hreach, -⟩ := hexplains.reaches flowId
  exact hreach.throughout

/-- The readings of a call are some of those of its step. -/
theorem times_calls (op : ClassifierOp) (c : FlowClassifier) :
    ((FlowClassifier.calls op c).flatMap fun n => n.2.times).Sublist
      op.clock := by
  cases op with
  | updateBandwidths bandwidths => exact List.Sublist.refl _
  | expireFlows now => exact List.nil_sublist _
  | classify packet t =>
      cases hid : FlowId.fromPacket packet with
      | none =>
          rw [FlowClassifier.calls_of_unknown hid]
          exact List.nil_sublist _
      | some id =>
          cases hrecord : c.record id packet t with
          | none =>
              rw [FlowClassifier.calls_of_failed hid hrecord]
              exact List.nil_sublist _
          | some flow =>
              rw [FlowClassifier.calls_of_flow hid hrecord]
              exact List.sublist_append_right
                [t.first, t.last, t.seen, t.sampled, t.pruned]
                [t.estimated, t.started, t.decided]

theorem times_record (ops : List ClassifierOp) (c : FlowClassifier) :
    ((Trace.record FlowClassifier.step FlowClassifier.calls ops c).flatMap
      fun n => n.2.times).Sublist (ops.flatMap ClassifierOp.clock) := by
  induction ops generalizing c with
  | nil => exact List.nil_sublist _
  | cons op ops ih =>
      rw [Trace.record, List.flatMap_append, List.flatMap_cons]
      refine (times_calls op c).append ?_
      cases FlowClassifier.step op c with
      | none => exact List.nil_sublist _
      | some c' => exact ih c'

/-- On a clock that never decreases the readings of a history do not. -/
theorem history_chronological {ops : List ClassifierOp}
    (hclock : (ops.flatMap ClassifierOp.clock).Pairwise (· ≤ ·))
    (c : FlowClassifier) (flowId : FlowId) :
    Chronological (c.history flowId ops) := by
  unfold Chronological FlowClassifier.history callsOf
  rw [List.flatMap_map]
  have hsub := List.Sublist.flatMap (List.filter_sublist
    (p := fun n : FlowId × Call => n.1 = flowId)
    (l := Trace.record FlowClassifier.step FlowClassifier.calls ops c))
    fun n => n.2.times
  exact (hclock.sublist (times_record ops c)).sublist hsub

-- ============================================================ no flapping

/-- A change of the mode that was held for: changes before it are at
least a monitoring duration old, and it ends a stretch of calls that
lasted at least as long and all saw a ratio that asks for it. Calls
before the stretch were over when it began. -/
structure HeldFor (config : FlowClassifierConfig) (earlier : List Call)
    (call : Call) : Prop where
  apart : ∀ x ∈ earlier, x.Changes →
    x.decided + config.monitorDuration ≤ call.decided
  sustained : ∃ before first rest,
    earlier ++ [call] = before ++ first :: rest
    ∧ first.started + config.monitorDuration ≤ call.decided
    ∧ (∀ x ∈ before, x.decided ≤ first.started)
    ∧ ∀ x ∈ first :: rest, config.asksFor call.after x.obs.ratio

/-- What asks for the next mode does not depend on the link. -/
theorem asksFor_target (mode : FlowMode) (demand demand' : Demand)
    (ratio : ℚ) : config.asksFor (demand.target mode) ratio
      = config.asksFor (demand'.target mode) ratio := by
  cases mode with
  | singleLink link => rfl
  | multiLink => rfl

/-- A call in a history is a look of the rule, on a clock that never
decreases. -/
theorem history_call {bandwidths : List UInt64} {ops : List ClassifierOp}
    {c : FlowClassifier}
    (hclock : (ops.flatMap ClassifierOp.clock).Pairwise (· ≤ ·))
    (hrun : Trace.run FlowClassifier.step ops
      (FlowClassifier.new config bandwidths) = some c)
    {earlier later : List Call} {call : Call}
    (hsplit : (FlowClassifier.new config bandwidths).history flowId ops
      = earlier ++ call :: later) :
    ∃ w, Reaches (modeRule config) earlier w
      ∧ call = (modeRule config).note call.toLook w
      ∧ Chronological (earlier ++ [call]) := by
  obtain ⟨w, hreach, hcall⟩ := history_reaches hrun earlier call later hsplit
  have hchron := history_chronological hclock
    (FlowClassifier.new config bandwidths) flowId
  rw [hsplit, List.append_cons] at hchron
  exact ⟨w, hreach, hcall, hchron.of_append⟩

/-- Flows do not flap, whatever else happens in between. -/
theorem flows_do_not_flap {bandwidths : List UInt64}
    {ops : List ClassifierOp} {c : FlowClassifier}
    (hclock : (ops.flatMap ClassifierOp.clock).Pairwise (· ≤ ·))
    (hrun : Trace.run FlowClassifier.step ops
      (FlowClassifier.new config bandwidths) = some c)
    (flowId : FlowId) :
    Trace.Throughout
      (fun earlier call => call.Changes → HeldFor config earlier call)
      ((FlowClassifier.new config bandwidths).history flowId ops) := by
  intro earlier call later hsplit hchange
  obtain ⟨w, hreach, hcall, hchron⟩ := history_call hclock hrun hsplit
  rw [hcall] at hchange hchron
  have hheld := hreach.held hchron hchange
  have hafter := after_of_due (due_of_changes hchange)
  rw [← hcall] at hheld hafter
  refine ⟨fun x hx hx' => hheld.over hx (.inl hx'), ?_⟩
  obtain ⟨before, first, rest, hstretch, hstart, hbefore, hall, -⟩ := hheld
  refine ⟨before, first, rest, hstretch, hstart, hbefore, fun x hx => ?_⟩
  obtain ⟨-, hasks⟩ := hall x hx
  rw [hafter]
  rw [hcall] at hasks
  exact (asksFor_target w.mode call.obs x.obs x.obs.ratio).trans hasks

/-- A classifier for one link of 30 bytes a second. -/
def thinLink : FlowClassifier :=
  FlowClassifier.new Config.default.flowClassifier [30]

/-- Packets of 21 bytes for one flow, at 10, 11.5 and 12 seconds. -/
def ramp : List ClassifierOp :=
  [10000000000, 11500000000, 12000000000].map fun t =>
    .classify (0x45 :: List.replicate 20 0) ⟨t, t, t, t, t, t, t, t⟩

/-- The first two are seen alone in their window, the third is not. -/
theorem ramp_history : thinLink.history 0 ramp =
    [{ obs := ⟨rnd (7 / 10), 0⟩
       taken := 10000000000
       started := 10000000000
       decided := 10000000000
       mode := .singleLink 0
       since := none
       after := .singleLink 0 },
     { obs := ⟨rnd (7 / 10), 0⟩
       taken := 11500000000
       started := 11500000000
       decided := 11500000000
       mode := .singleLink 0
       since := some 10000000000
       after := .singleLink 0 },
     { obs := ⟨rnd (7 / 5), 0⟩
       taken := 12000000000
       started := 12000000000
       decided := 12000000000
       mode := .singleLink 0
       since := some 10000000000
       after := .multiLink }] := by
  decide +kernel

theorem ramp_runs : ∃ c,
    Trace.run FlowClassifier.step ramp thinLink = some c := by
  have hruns : (Trace.run FlowClassifier.step ramp thinLink).isSome := by
    decide +kernel
  exact Option.isSome_iff_exists.mp hruns

/-- The third call of the ramp changes to multi-link, two seconds after
the first. -/
theorem flows_do_not_flap_ramp :
    ∃ earlier call, thinLink.history 0 ramp = earlier ++ [call]
      ∧ call.mode = .singleLink 0 ∧ call.after = .multiLink
      ∧ HeldFor Config.default.flowClassifier earlier call := by
  obtain ⟨c, hrun⟩ := ramp_runs
  refine ⟨[_, _], _, ramp_history, rfl, rfl, ?_⟩
  refine flows_do_not_flap (by decide) hrun 0 _ _ [] ramp_history ?_
  exact FlowMode.noConfusion

-- ======================================================== sustained demand

/-- A change to multi-link after a monitoring duration in which every
call, the change with it, saw a ratio above the multi-link threshold. -/
def SustainedHigh (config : FlowClassifierConfig) (earlier : List Call)
    (call : Call) : Prop :=
  call.mode ≠ .multiLink → call.after = .multiLink →
    ∀ x ∈ earlier ++ [call],
      call.decided ≤ x.taken + config.monitorDuration →
        config.isHigh x.obs.ratio

/-- A single-link flow with a ratio above both thresholds, whose timer
has run for the monitoring duration. -/
structure Ripe (config : FlowClassifierConfig) (call : Call) : Prop where
  single : call.mode ≠ .multiLink
  above : config.asksFor .multiLink call.obs.ratio
  high : config.isHigh call.obs.ratio
  monitored :
    config.monitorDuration ≤ call.decided - call.since.getD call.started

/-- In the last monitoring duration before a call no ratio was between
the two thresholds, and none that is exactly as old was below both. -/
structure Unmixed (config : FlowClassifierConfig) (earlier : List Call)
    (call : Call) : Prop where
  between : ∀ x ∈ earlier,
    call.decided ≤ x.taken + config.monitorDuration →
      config.asksFor .multiLink x.obs.ratio → config.isHigh x.obs.ratio
  start : ∀ x ∈ earlier,
    call.decided = x.taken + config.monitorDuration →
      config.asksFor .multiLink x.obs.ratio ∨ config.isHigh x.obs.ratio

theorem changes_of_single {call : Call} (hsingle : call.mode ≠ .multiLink)
    (hafter : call.after = .multiLink) : call.Changes := by
  rw [Note.Changes, hafter]
  exact hsingle

/-- What a change to multi-link needs of a single-link flow. -/
theorem due_single {call : Call} (hsingle : call.mode ≠ .multiLink) :
    (modeRule config).Due call
      ↔ config.asksFor .multiLink call.obs.ratio
        ∧ config.isHigh call.obs.ratio
        ∧ config.monitorDuration
          ≤ call.decided - call.since.getD call.started := by
  unfold Rule.Due
  cases hmode : call.mode with
  | multiLink => exact absurd hmode hsingle
  | singleLink link => simp [modeRule, Demand.target]

/-- A flow changes to multi-link exactly where it is ripe. -/
theorem ripe_iff {call : Call} {w : Watch FlowMode}
    (hcall : call = (modeRule config).note call.toLook w) :
    Ripe config call
      ↔ call.mode ≠ .multiLink ∧ call.after = .multiLink := by
  constructor
  · rintro ⟨hsingle, habove, hhigh, hmonitored⟩
    refine ⟨hsingle, ?_⟩
    have hdue := (due_single hsingle).mpr ⟨habove, hhigh, hmonitored⟩
    rw [hcall] at hdue hsingle ⊢
    rw [after_of_due hdue]
    change w.mode ≠ .multiLink at hsingle
    cases hmode : w.mode with
    | multiLink => exact absurd hmode hsingle
    | singleLink link => rfl
  · rintro ⟨hsingle, hafter⟩
    have hchange := changes_of_single hsingle hafter
    rw [hcall] at hchange
    have hdue := due_of_changes hchange
    rw [← hcall, due_single hsingle] at hdue
    exact ⟨hsingle, hdue.1, hdue.2.1, hdue.2.2⟩

/-- A change was sustained if nothing of its monitoring duration was
mixed: what did not ask for it was over before. -/
theorem sustained_of_unmixed {earlier : List Call} {call : Call}
    {w : Watch FlowMode} (hreach : Reaches (modeRule config) earlier w)
    (hcall : call = (modeRule config).note call.toLook w)
    (hchron : Chronological (earlier ++ [call])) (hripe : Ripe config call)
    (hunmixed : Unmixed config earlier call) :
    ∀ x ∈ earlier ++ [call],
      call.decided ≤ x.taken + config.monitorDuration →
        config.isHigh x.obs.ratio := by
  intro x hx hrecent
  have htaken : x.taken ≤ x.decided := (hchron.le hx).1
  rcases List.mem_append.mp hx with hx | hx
  · by_cases hasks : config.asksFor .multiLink x.obs.ratio = true
    · exact hunmixed.between x hx hrecent hasks
    -- the call is outside the stretch, so it is as old as the duration
    · have hheld : (modeRule config).Held earlier call := by
        obtain ⟨hsingle, hafter⟩ := (ripe_iff hcall).mp hripe
        have hchange := changes_of_single hsingle hafter
        rw [hcall] at hchange hchron ⊢
        exact hreach.held hchron hchange
      have hdisagree : ¬(modeRule config).Agrees call.mode x := by
        rintro ⟨-, hmode⟩
        cases hcallmode : call.mode with
        | multiLink => exact hripe.single hcallmode
        | singleLink link =>
            rw [hcallmode] at hmode
            exact hasks hmode
      have hover : x.decided + config.monitorDuration ≤ call.decided :=
        hheld.over hx (.inr hdisagree)
      have hstart : call.decided = x.taken + config.monitorDuration := by
        omega
      exact (hunmixed.start x hx hstart).resolve_left hasks
  · rw [List.mem_singleton.mp hx]
    exact hripe.high

/-- Changes to multi-link are sustained above the multi-link threshold
exactly in the runs in which nothing is mixed where a flow is ripe. -/
theorem multi_link_sustained_iff {bandwidths : List UInt64}
    {ops : List ClassifierOp} {c : FlowClassifier}
    (hclock : (ops.flatMap ClassifierOp.clock).Pairwise (· ≤ ·))
    (hrun : Trace.run FlowClassifier.step ops
      (FlowClassifier.new config bandwidths) = some c)
    (flowId : FlowId) :
    Trace.Throughout (SustainedHigh config)
        ((FlowClassifier.new config bandwidths).history flowId ops)
      ↔ Trace.Throughout
        (fun earlier call => Ripe config call → Unmixed config earlier call)
        ((FlowClassifier.new config bandwidths).history flowId ops) := by
  constructor
  · intro hsustained earlier call later hsplit hripe
    obtain ⟨w, -, hcall, -⟩ := history_call hclock hrun hsplit
    obtain ⟨hsingle, hafter⟩ := (ripe_iff hcall).mp hripe
    have hhigh := hsustained earlier call later hsplit hsingle hafter
    refine ⟨fun x hx hrecent _ => ?_, fun x hx hstart => .inr ?_⟩
    · exact hhigh x (List.mem_append_left _ hx) hrecent
    · exact hhigh x (List.mem_append_left _ hx) hstart.le
  · intro hunmixed earlier call later hsplit hsingle hafter
    obtain ⟨w, hreach, hcall, hchron⟩ := history_call hclock hrun hsplit
    have hripe := (ripe_iff hcall).mpr ⟨hsingle, hafter⟩
    exact sustained_of_unmixed hreach hcall hchron hripe
      (hunmixed earlier call later hsplit hripe)

/-- Packets of 32 bytes for one flow, at the same times. -/
def surge : List ClassifierOp :=
  [10000000000, 11500000000, 12500000000].map fun t =>
    .classify (0x45 :: List.replicate 31 0) ⟨t, t, t, t, t, t, t, t⟩

/-- Nothing in the surge is mixed, and its change to multi-link is
sustained. -/
theorem multi_link_sustained_iff_surge : ∃ c earlier call,
    Trace.run FlowClassifier.step surge thinLink = some c
      ∧ thinLink.history 0 surge = earlier ++ [call]
      ∧ call.mode = .singleLink 0 ∧ call.after = .multiLink
      ∧ Trace.Throughout (SustainedHigh Config.default.flowClassifier)
        (thinLink.history 0 surge) := by
  have hruns : (Trace.run FlowClassifier.step surge thinLink).isSome := by
    decide +kernel
  obtain ⟨c, hrun⟩ := Option.isSome_iff_exists.mp hruns
  have hhigh : ∀ x ∈ thinLink.history 0 surge,
      Config.default.flowClassifier.isHigh x.obs.ratio := by
    decide +kernel
  have hlast : ((thinLink.history 0 surge).getLast?.map fun call =>
      (call.mode, call.after)) = some (.singleLink 0, .multiLink) := by
    decide +kernel
  obtain ⟨call, hcall, hmodes⟩ := Option.map_eq_some_iff.mp hlast
  obtain ⟨hmode, hafter⟩ := Prod.mk.inj hmodes
  obtain ⟨earlier, hsplit⟩ := List.getLast?_eq_some_iff.mp hcall
  refine ⟨c, earlier, call, hrun, hsplit, hmode, hafter, ?_⟩
  refine (multi_link_sustained_iff (by decide) hrun 0).mpr ?_
  intro earlier call later hsplit _
  have hbefore : ∀ x ∈ earlier,
      Config.default.flowClassifier.isHigh x.obs.ratio := by
    intro x hx
    refine hhigh x ?_
    show x ∈ (FlowClassifier.new _ _).history 0 surge
    rw [hsplit]
    exact List.mem_append_left _ hx
  exact ⟨fun x hx _ _ => hbefore x hx, fun x hx _ => .inr (hbefore x hx)⟩

/-- The ramp changes to multi-link although the calls before the last
saw a ratio of 0.7. -/
theorem multi_link_on_mixed_demand :
    ¬∀ (config : FlowClassifierConfig) (bandwidths : List UInt64)
      (ops : List ClassifierOp) (c : FlowClassifier) (flowId : FlowId),
      config.singleLinkThreshold.lt config.multiLinkThreshold →
      0 < config.monitorDuration →
      (ops.flatMap ClassifierOp.clock).Pairwise (· ≤ ·) →
      Trace.run FlowClassifier.step ops
        (FlowClassifier.new config bandwidths) = some c →
      Trace.Throughout (SustainedHigh config)
        ((FlowClassifier.new config bandwidths).history flowId ops) := by
  intro h
  obtain ⟨c, hrun⟩ := ramp_runs
  have hramp := h Config.default.flowClassifier [30] ramp c 0
    (by decide +kernel) (by decide) (by decide) hrun
  have hhigh := hramp [_, _] _ [] ramp_history FlowMode.noConfusion rfl _
    List.mem_cons_self (by decide)
  exact absurd hhigh (by decide +kernel)

end ChainLightning
