/-
The order of the phases of an A/B test.

What follows a cooldown is decided by the number of results filed so
far. A measured phase files a result only if it has samples, so the
number tells the phase in front of the cooldown exactly as long as every
measured phase had some. Then the phases run in order (`Course`); a
cooldown that ends with a result missing ends the test early, or goes
back to variant A (`phases_in_order_iff`).
-/
import Mathlib.Data.List.Induction
import ChainLightning.Testing

namespace ChainLightning

open ABTest

variable {K : Type*} [Field K] [LinearOrder K] {config : TestConfig K}
  {t : ABTest K} {now : Nat} {op : ABTestOp K} {ops : List (ABTestOp K)}

-- ============================================================== the order

/-- The phases of a test, in order. -/
def TestConfig.order (config : TestConfig K) : List TestPhase :=
  if config.variantBValue.isSome then
    [.baseline, .cooldown, .variantA, .cooldown, .variantB, .complete]
  else [.baseline, .cooldown, .variantA, .complete]

/-- The phases gone through are the first ones of the order; a variant
comes once at most, and as many phases as there are complete the
test. -/
structure PhasesInOrder (config : TestConfig K) (now : Nat)
    (ops : List (ABTestOp K)) : Prop where
  inOrder : (ABTest.new config now).phases ops <+: config.order
  variantA : ((ABTest.new config now).phases ops).count .variantA ≤ 1
  variantB : ((ABTest.new config now).phases ops).count .variantB ≤ 1
  complete : config.order.length
      ≤ ((ABTest.new config now).phases ops).length →
    ((ABTest.new config now).after ops).currentPhase = .complete

/-- The phases of the results filed. -/
def filed (t : ABTest K) : List TestPhase := t.results.map PhaseResult.phase

/-- Every cooldown that is over finds a result of each measured phase in
front of it. -/
def Sampled (config : TestConfig K) (now : Nat) (ops : List (ABTestOp K)) :
    Prop :=
  ∀ before read filedAt started rest,
    ops = before ++ .tick read filedAt started :: rest →
    ((ABTest.new config now).after before).currentPhase = .cooldown →
    ((ABTest.new config now).after before).due read →
    filed ((ABTest.new config now).after before)
      = ((ABTest.new config now).phases before).filter (· ≠ .cooldown)

-- ================================================================= calls

@[simp] theorem after_snoc (t : ABTest K) (ops : List (ABTestOp K))
    (op : ABTestOp K) : t.after (ops ++ [op]) = op.apply (t.after ops) := by
  simp [ABTest.after]

/-- One more call adds the phase it changes to. -/
theorem phases_snoc (t : ABTest K) (ops : List (ABTestOp K))
    (op : ABTestOp K) :
    t.phases (ops ++ [op])
      = if (op.apply (t.after ops)).currentPhase
          = (t.after ops).currentPhase then t.phases ops
        else t.phases ops ++ [(op.apply (t.after ops)).currentPhase] := by
  induction ops generalizing t with
  | nil =>
      show (if (op.apply t).currentPhase = t.currentPhase
          then [(op.apply t).currentPhase]
          else t.currentPhase :: [(op.apply t).currentPhase])
        = if (op.apply t).currentPhase = t.currentPhase
          then [t.currentPhase]
          else [t.currentPhase] ++ [(op.apply t).currentPhase]
      by_cases h : (op.apply t).currentPhase = t.currentPhase
      · rw [if_pos h, if_pos h, h]
      · rw [if_neg h, if_neg h]
        rfl
  | cons first ops ih =>
      rw [List.cons_append, ABTest.phases, ABTest.phases, ih]
      show _ = if (op.apply ((first.apply t).after ops)).currentPhase
        = ((first.apply t).after ops).currentPhase then _ else _
      split <;> split <;> rfl

/-- The last phase gone through is the current one. -/
theorem phases_getLast? (t : ABTest K) (ops : List (ABTestOp K)) :
    (t.phases ops).getLast? = some (t.after ops).currentPhase := by
  induction ops using List.reverseRecOn with
  | nil => rfl
  | append_singleton ops op ih =>
      rw [phases_snoc, after_snoc]
      split
      case isTrue h => rw [ih, h]
      case isFalse => rw [List.getLast?_concat]

/-- A tick behind the end of a phase advances. -/
theorem apply_due {read : Nat} (h : t.due read) (filedAt started : Nat) :
    (ABTestOp.tick read filedAt started).apply t
      = t.advancePhase filedAt started := by
  show (if t.due read then _ else _) = _
  rw [if_pos h]

/-- A cooldown that ends files nothing. -/
theorem apply_cooldown {read : Nat} (hcool : t.currentPhase = .cooldown)
    (h : t.due read) (filedAt started : Nat) :
    ((ABTestOp.tick read filedAt started).apply t).currentPhase
      = t.nextPhase (filed t).length := by
  rw [apply_due h, filed, List.length_map]
  unfold ABTest.advancePhase
  rw [if_neg (by simp [hcool])]

/-- What a call does to the phase and to the results. -/
theorem apply_cases (op : ABTestOp K) (t : ABTest K) :
    ((op.apply t).config = t.config
        ∧ (op.apply t).currentPhase = t.currentPhase
        ∧ (op.apply t).results = t.results)
      ∨ ∃ read filedAt started, op = .tick read filedAt started
        ∧ t.due read = true
        ∧ (op.apply t).config = t.config
        ∧ (op.apply t).currentPhase
          = t.nextPhase (filed (op.apply t)).length
        ∧ (filed (op.apply t) = filed t
          ∨ t.currentPhase ≠ .cooldown
            ∧ filed (op.apply t) = filed t ++ [t.currentPhase]) := by
  cases op with
  | recordMetrics metrics =>
      have happly : (ABTestOp.recordMetrics metrics).apply t
          = t.recordMetrics metrics := rfl
      rw [happly]
      unfold ABTest.recordMetrics
      split <;> exact Or.inl ⟨rfl, rfl, rfl⟩
  | tick read filedAt started =>
      by_cases hdue : t.due read
      · refine Or.inr ⟨read, filedAt, started, rfl, hdue, ?_⟩
        rw [apply_due hdue]
        unfold ABTest.advancePhase filed
        dsimp only
        split
        case isTrue h =>
            refine ⟨rfl, by rw [List.length_map], Or.inr ⟨h.1, ?_⟩⟩
            rw [List.map_append]
            rfl
        case isFalse =>
            exact ⟨rfl, by rw [List.length_map], Or.inl rfl⟩
      · refine Or.inl ?_
        have happly : (ABTestOp.tick read filedAt started).apply t = t := by
          show (if t.due read then _ else _) = _
          rw [if_neg hdue]
        rw [happly]
        exact ⟨rfl, rfl, rfl⟩

-- ============================================================ the course

/-- The phases gone through and those with results, as long as every
cooldown that ended found all results: stage by stage. -/
inductive Course (config : TestConfig K) :
    List TestPhase → List TestPhase → Prop
  | baseline : Course config [.baseline] []
  | cooldown {results : List TestPhase}
      (h : results = [] ∨ results = [.baseline]) :
      Course config [.baseline, .cooldown] results
  | variantA :
      Course config [.baseline, .cooldown, .variantA] [.baseline]
  | secondCooldown {results : List TestPhase}
      (hb : config.variantBValue.isSome = true)
      (h : results = [.baseline] ∨ results = [.baseline, .variantA]) :
      Course config [.baseline, .cooldown, .variantA, .cooldown] results
  | variantB (hb : config.variantBValue.isSome = true) :
      Course config
        [.baseline, .cooldown, .variantA, .cooldown, .variantB]
        [.baseline, .variantA]
  | complete {results : List TestPhase} :
      Course config (config.order) results

omit [Field K] [LinearOrder K] in
/-- On its course a test is in order. -/
theorem Course.isPrefix {path results : List TestPhase}
    (h : Course config path results) : path <+: config.order := by
  unfold TestConfig.order
  cases h with
  | baseline => split <;> simp
  | cooldown _ => split <;> simp
  | variantA => split <;> simp
  | secondCooldown hb _ => simp [hb]
  | variantB hb => simp [hb]
  | complete => exact List.prefix_rfl

/-- One call keeps a test on its course, if a cooldown that ends with it
finds all results. -/
theorem Course.step {path : List TestPhase}
    (h : Course config path (filed t)) (hconfig : t.config = config)
    (hlast : path.getLast? = some t.currentPhase)
    (hready : ∀ read filedAt started, op = .tick read filedAt started →
      t.currentPhase = .cooldown → t.due read →
      filed t = path.filter (· ≠ .cooldown)) :
    Course config
      (if (op.apply t).currentPhase = t.currentPhase then path
        else path ++ [(op.apply t).currentPhase])
      (filed (op.apply t)) := by
  rcases apply_cases op t with
    ⟨-, hphase, hresults⟩
      | ⟨read, filedAt, started, hop, hdue, -, hphase, hfiled⟩
  · rw [if_pos hphase, filed, hresults]
    exact h
  · have hfound := fun hcool => hready read filedAt started hop hcool hdue
    generalize filed t = results at h hfiled hfound
    generalize filed (op.apply t) = results' at hphase hfiled ⊢
    rw [hphase]
    unfold ABTest.nextPhase
    rw [hconfig]
    cases h with
    | baseline =>
        obtain hcur : TestPhase.baseline = t.currentPhase :=
          Option.some.inj hlast
        rw [← hcur] at hfiled ⊢
        refine Course.cooldown ?_
        rcases hfiled with hsame | ⟨-, hmore⟩
        · exact Or.inl hsame
        · exact Or.inr hmore
    | cooldown _ =>
        obtain hcur : TestPhase.cooldown = t.currentPhase :=
          Option.some.inj hlast
        have hall := hfound hcur.symm
        rw [← hcur] at hfiled ⊢
        rcases hfiled with hsame | ⟨hne, -⟩
        · rw [hsame, hall]
          exact Course.variantA
        · exact absurd rfl hne
    | variantA =>
        obtain hcur : TestPhase.variantA = t.currentPhase :=
          Option.some.inj hlast
        rw [← hcur] at hfiled ⊢
        by_cases hb : config.variantBValue.isSome
        · simp only [hb]
          refine Course.secondCooldown hb ?_
          rcases hfiled with hsame | ⟨-, hmore⟩
          · exact Or.inl hsame
          · exact Or.inr hmore
        · have horder : config.order
              = [.baseline, .cooldown, .variantA, .complete] :=
            if_neg hb
          have hdone : Course config config.order results' := Course.complete
          rw [horder] at hdone
          simp only [hb]
          exact hdone
    | secondCooldown hb _ =>
        obtain hcur : TestPhase.cooldown = t.currentPhase :=
          Option.some.inj hlast
        have hall := hfound hcur.symm
        rw [← hcur] at hfiled ⊢
        rcases hfiled with hsame | ⟨hne, -⟩
        · rw [hsame, hall]
          exact Course.variantB hb
        · exact absurd rfl hne
    | variantB hb =>
        obtain hcur : TestPhase.variantB = t.currentPhase :=
          Option.some.inj hlast
        rw [← hcur]
        have hdone : Course config config.order results' := Course.complete
        rw [TestConfig.order, if_pos hb] at hdone
        exact hdone
    | complete =>
        have hcur : TestPhase.complete = t.currentPhase := by
          unfold TestConfig.order at hlast
          split at hlast <;> exact Option.some.inj hlast
        rw [← hcur]
        exact Course.complete

omit [Field K] [LinearOrder K] in
/-- A cooldown that ends with a result missing leaves the order. -/
theorem Course.leaves {path results : List TestPhase}
    (h : Course config path results)
    (hlast : path.getLast? = some .cooldown)
    (hcool : t.currentPhase = .cooldown)
    (hmissing : results ≠ path.filter (· ≠ .cooldown)) :
    ¬path ++ [t.nextPhase results.length] <+: config.order := by
  unfold ABTest.nextPhase TestConfig.order
  rw [hcool]
  cases h with
  | baseline => cases hlast
  | cooldown h =>
      rcases h with rfl | rfl
      · by_cases hb : config.variantBValue.isSome <;> simp [hb]
      · exact absurd rfl hmissing
  | variantA => cases hlast
  | secondCooldown hb h =>
      rcases h with rfl | rfl
      · simp [hb]
      · exact absurd rfl hmissing
  | variantB hb => cases hlast
  | complete =>
      unfold TestConfig.order at hlast
      split at hlast <;> cases hlast

-- ================================================================== runs

/-- Calls never change the configuration. -/
theorem after_config (t : ABTest K) (ops : List (ABTestOp K)) :
    (t.after ops).config = t.config := by
  induction ops using List.reverseRecOn with
  | nil => rfl
  | append_singleton ops op ih =>
      rw [after_snoc, ← ih]
      rcases apply_cases op (t.after ops) with
        ⟨hconfig, -⟩ | ⟨-, -, -, -, -, hconfig, -⟩ <;> exact hconfig

theorem Sampled.of_snoc (h : Sampled config now (ops ++ [op])) :
    Sampled config now ops := by
  intro before read filedAt started rest hops
  refine h before read filedAt started (rest ++ [op]) ?_
  rw [hops]
  simp

/-- With all results found, a run is on its course. -/
theorem Sampled.course (h : Sampled config now ops) :
    Course config ((ABTest.new config now).phases ops)
      (filed ((ABTest.new config now).after ops)) := by
  induction ops using List.reverseRecOn with
  | nil => exact Course.baseline
  | append_singleton ops op ih =>
      rw [phases_snoc, after_snoc]
      refine (ih h.of_snoc).step (after_config _ ops) (phases_getLast? _ ops)
        ?_
      intro read filedAt started hop hcool hdue
      subst hop
      exact h ops read filedAt started [] rfl hcool hdue

/-- A run whose phases are in order found all results. -/
theorem sampled_of_order
    (h : (ABTest.new config now).phases ops <+: config.order) :
    Sampled config now ops := by
  induction ops using List.reverseRecOn with
  | nil =>
      intro before read filedAt started rest hops
      simp at hops
  | append_singleton ops op ih =>
      have hstep := phases_snoc (ABTest.new config now) ops op
      have hsampled : Sampled config now ops := by
        refine ih (List.IsPrefix.trans ?_ h)
        rw [hstep]
        split
        case isTrue => exact List.prefix_rfl
        case isFalse => exact List.prefix_append _ _
      intro before read filedAt started rest hops hcool hdue
      rcases List.eq_nil_or_concat rest with rfl | ⟨rest', op', rfl⟩
      · -- the last call is the tick
        obtain ⟨rfl, hop⟩ := List.append_inj' hops rfl
        cases hop
        by_contra hmissing
        have hlast := phases_getLast? (ABTest.new config now) ops
        rw [hcool] at hlast
        refine hsampled.course.leaves hlast hcool hmissing ?_
        have hphase := apply_cooldown hcool hdue filedAt started
        have hmoved : ((ABTest.new config now).after ops).nextPhase
            (filed ((ABTest.new config now).after ops)).length
              ≠ .cooldown := by
          unfold ABTest.nextPhase
          rw [hcool]
          dsimp only
          split
          case isTrue => simp
          case isFalse => split <;> simp
        rw [hphase, hcool, if_neg hmoved] at hstep
        rw [← hstep]
        exact h
      · refine hsampled before read filedAt started rest' ?_ hcool hdue
        have hcut : ops ++ [op]
            = (before ++ .tick read filedAt started :: rest') ++ [op'] := by
          rw [hops]
          simp
        exact (List.append_inj' hcut rfl).1

/-- The phase order, exactly: the phases of a run come in order if and
only if every cooldown that ends in it finds a result of each measured
phase in front of it. -/
theorem phases_in_order_iff (config : TestConfig K) (now : Nat)
    (ops : List (ABTestOp K)) :
    PhasesInOrder config now ops ↔ Sampled config now ops := by
  refine ⟨fun h => sampled_of_order h.inOrder, fun h => ?_⟩
  have horder := h.course.isPrefix
  have hone : config.order.count .variantA ≤ 1
      ∧ config.order.count .variantB ≤ 1
      ∧ config.order.getLast? = some .complete := by
    unfold TestConfig.order
    split <;> decide
  refine ⟨horder, ?_, ?_, ?_⟩
  · exact (horder.sublist.count_le _).trans hone.1
  · exact (horder.sublist.count_le _).trans hone.2.1
  · intro hlength
    have hall := horder.eq_of_length (horder.length_le.antisymm hlength)
    have hlast := phases_getLast? (ABTest.new config now) ops
    rw [hall, hone.2.2] at hlast
    exact (Option.some.inj hlast).symm

/-- A test with two variants, phases of 10 and cooldowns of 5. -/
private def twoVariants : TestConfig ℚ where
  parameterPath := "test.param"
  baselineValue := .float (.fin 1)
  variantAValue := .float (.fin 2)
  variantBValue := some (.float (.fin 3))
  phaseDuration := 10
  cooldownDuration := 5
  minSamples := 1
  successMetric := .maxThroughput

/-- A sample for the baseline and one for variant A. -/
private def sampledVariants : List (ABTestOp ℚ) :=
  [.recordMetrics ⟨1, 1, 1, 0, 0, 0⟩, .tick 10 10 10, .tick 15 15 15,
    .recordMetrics ⟨2, 2, 1, 0, 0, 16⟩, .tick 25 25 25, .tick 30 30 30]

/-- The law there: the second cooldown leads on to variant B. -/
theorem phases_in_order_sampled :
    (ABTest.new twoVariants 0).phases sampledVariants
        = [.baseline, .cooldown, .variantA, .cooldown, .variantB]
      ∧ Sampled twoVariants 0 sampledVariants := by
  have hphases : (ABTest.new twoVariants 0).phases sampledVariants
      = [.baseline, .cooldown, .variantA, .cooldown, .variantB] := by
    decide +kernel
  refine ⟨hphases, (phases_in_order_iff twoVariants 0 sampledVariants).mp
    ⟨?_, ?_, ?_, ?_⟩⟩
  · rw [hphases]
    decide
  · rw [hphases]
    decide
  · rw [hphases]
    decide
  · rw [hphases]
    decide

/-- A sample for the baseline, and none for variant A. -/
private def silentVariant : List (ABTestOp ℚ) :=
  [.recordMetrics ⟨1, 1, 1, 0, 0, 0⟩, .tick 10 10 10, .tick 15 15 15,
    .tick 25 25 25, .tick 30 30 30]

/-- Without samples in variant A the second cooldown leads back to it;
without samples at all, the first one to the end. -/
theorem phases_out_of_order :
    (ABTest.new twoVariants 0).phases silentVariant
        = [.baseline, .cooldown, .variantA, .cooldown, .variantA]
      ∧ (ABTest.new twoVariants 0).phases
          [.tick 10 10 10, .tick 15 15 15]
        = [.baseline, .cooldown, .complete]
      ∧ ¬PhasesInOrder twoVariants 0 silentVariant
      ∧ ¬PhasesInOrder twoVariants 0 [.tick 10 10 10, .tick 15 15 15] := by
  have hback : (ABTest.new twoVariants 0).phases silentVariant
      = [.baseline, .cooldown, .variantA, .cooldown, .variantA] := by
    decide +kernel
  have hend : (ABTest.new twoVariants 0).phases
      [.tick 10 10 10, .tick 15 15 15]
        = [.baseline, .cooldown, .complete] := by
    decide +kernel
  refine ⟨hback, hend, ?_, ?_⟩
  · intro h
    have htwice := h.variantA
    rw [hback] at htwice
    simp at htwice
  · intro h
    have horder := h.inOrder
    rw [hend] at horder
    simp [TestConfig.order, twoVariants] at horder

end ChainLightning
