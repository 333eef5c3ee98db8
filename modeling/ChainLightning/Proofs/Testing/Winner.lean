/-
What the winner of an A/B test rests on.

Every phase files its samples once, and a phase is gone through again
only without samples, so at any time the results are the measured
phases with samples so far, in order, with all their samples (`Tally`).
At the end of a run the first result with the best score wins, as soon
as there are two. Nothing looks at `min_samples` or at a phase that is
missing, so the winner rests on complete data exactly if the samples
were recorded that way (`winner_complete_iff`).
-/
import ChainLightning.Proofs.Testing.Phases

namespace ChainLightning

open ABTest

variable {K : Type*} [Field K] [LinearOrder K] {config : TestConfig K}
  {t : ABTest K} {lib : FloatLib K} {now : Nat}

-- ============================================================ the winner

/-- The phases that a test measures. -/
def TestConfig.measured (config : TestConfig K) : List TestPhase :=
  if config.variantBValue.isSome then [.baseline, .variantA, .variantB]
  else [.baseline, .variantA]

/-- A winner has a result of every measured phase with enough samples
beside it, and is a phase with the best score. -/
structure RestsOnCompleteData (config : TestConfig K) (r : TestResult K) :
    Prop where
  complete : r.winner.isSome → ∀ phase ∈ config.measured,
    ∃ p ∈ r.phases, p.phase = phase ∧ config.minSamples ≤ p.samples
  best : ∀ name, r.winner = some name → ∃ p ∈ r.phases,
    p.phase.name = name ∧ ∀ q ∈ r.phases, q.score ≤ p.score

/-- The samples that are recorded while the test is in a phase. -/
def samplesIn (phase : TestPhase) : List (ABTestOp K) → ABTest K → Nat
  | [], _ => 0
  | .recordMetrics metrics :: ops, t =>
      (if t.currentPhase = phase then 1 else 0)
        + samplesIn phase ops (t.recordMetrics metrics)
  | .tick read filed now :: ops, t =>
      samplesIn phase ops ((ABTestOp.tick read filed now).apply t)

omit [Field K] in
/-- One more phase, where there was none. -/
theorem bestPhase_singleton {phase : PhaseResult K}
    (hphase : phase.phase ≠ .cooldown) : bestPhase [phase] = some phase := by
  unfold bestPhase
  rw [List.foldl_cons, List.foldl_nil, if_neg hphase]

omit [Field K] in
/-- One more phase after a best one. -/
theorem bestPhase_snoc {phases : List (PhaseResult K)}
    {phase winner : PhaseResult K} (hphase : phase.phase ≠ .cooldown)
    (hbest : bestPhase phases = some winner) :
    bestPhase (phases ++ [phase])
      = if phase.score > winner.score then some phase else some winner := by
  unfold bestPhase at hbest ⊢
  rw [List.foldl_append, hbest, List.foldl_cons, List.foldl_nil,
    if_neg hphase]

omit [Field K] in
/-- The loop finds a phase with the best score. -/
theorem bestPhase_spec {phases : List (PhaseResult K)} (hne : phases ≠ [])
    (h : ∀ p ∈ phases, p.phase ≠ .cooldown) :
    ∃ winner ∈ phases, bestPhase phases = some winner
      ∧ ∀ p ∈ phases, p.score ≤ winner.score := by
  induction phases using List.reverseRecOn with
  | nil => exact absurd rfl hne
  | append_singleton phases phase ih =>
      have hphase : phase.phase ≠ .cooldown := h phase (by simp)
      rcases List.eq_nil_or_concat phases with rfl | ⟨_, _, rfl⟩
      · exact ⟨phase, by simp, bestPhase_singleton hphase, by simp⟩
      · obtain ⟨winner, hmem, hbest, hle⟩ := ih (by simp) fun p hp =>
          h p (List.mem_append_left _ hp)
        rw [bestPhase_snoc hphase hbest]
        split
        case isTrue hgt =>
          refine ⟨phase, by simp, rfl, ?_⟩
          intro p hp
          rcases List.mem_append.mp hp with hp | hp
          · exact (hle p hp).trans (le_of_lt hgt)
          · exact (List.mem_singleton.mp hp ▸ le_rfl)
        case isFalse hngt =>
          refine ⟨winner, List.mem_append_left _ hmem, rfl, ?_⟩
          intro p hp
          rcases List.mem_append.mp hp with hp | hp
          · exact hle p hp
          · exact (List.mem_singleton.mp hp ▸ not_lt.mp hngt)

/-- A winner needs two results, and is one with the best score. -/
theorem result_winner (lib : FloatLib K)
    (h : ∀ p ∈ t.results, p.phase ≠ .cooldown) :
    (t.results.length < 2 ∧ (t.result lib).winner = none)
      ∨ 2 ≤ t.results.length ∧ ∃ winner ∈ t.results,
        (t.result lib).winner = some winner.phase.name
          ∧ ∀ p ∈ t.results, p.score ≤ winner.score := by
  unfold ABTest.result determineWinner
  dsimp only
  split
  case isTrue hfew => exact Or.inl ⟨hfew, rfl⟩
  case isFalse hfew =>
    have htwo : 2 ≤ t.results.length := Nat.not_lt.mp hfew
    have hne : t.results ≠ [] := by
      intro hnil
      rw [hnil, List.length_nil] at htwo
      exact absurd htwo (by decide)
    obtain ⟨winner, hmem, hbest, hle⟩ := bestPhase_spec hne h
    rw [hbest]
    exact Or.inr ⟨htwo, winner, hmem, rfl, hle⟩

@[simp] theorem result_phases : (t.result lib).phases = t.results := by
  unfold ABTest.result determineWinner
  dsimp only
  split
  case isTrue => rfl
  case isFalse => split <;> rfl

-- ============================================================= the tally

/-- Phases and their samples, without the phases that have none. -/
def tallyOf (baseline variantA variantB : Nat) : List (TestPhase × Nat) :=
  [(.baseline, baseline), (.variantA, variantA),
    (.variantB, variantB)].filter fun entry => 0 < entry.2

theorem tallyOf_baseline {b : Nat} (hb : 0 < b) :
    tallyOf b 0 0 = [(.baseline, b)] := by
  simp [tallyOf, hb]

theorem tallyOf_variantA {b a : Nat} (hb : 0 < b) (ha : 0 < a) :
    tallyOf b a 0 = [(.baseline, b), (.variantA, a)] := by
  simp [tallyOf, hb, ha]

theorem tallyOf_variantB {b a v : Nat} (hb : 0 < b) (ha : 0 < a)
    (hv : 0 < v) : tallyOf b a v
      = [(.baseline, b), (.variantA, a), (.variantB, v)] := by
  simp [tallyOf, hb, ha, hv]

/-- The phase, the samples not yet filed and the ones filed, for so many
samples recorded in the baseline, in variant A and in variant B. -/
inductive Tally (config : TestConfig K) :
    Nat → Nat → Nat → TestPhase → Nat → List (TestPhase × Nat) → Prop
  | baseline {b : Nat} : Tally config b 0 0 .baseline b []
  | cooldown {b : Nat} :
      Tally config b 0 0 .cooldown 0 (tallyOf b 0 0)
  | variantA {b a : Nat} (hb : 0 < b) :
      Tally config b a 0 .variantA a [(.baseline, b)]
  | secondCooldown {b a : Nat} (hb : 0 < b)
      (hconfig : config.variantBValue.isSome = true) :
      Tally config b a 0 .cooldown 0 (tallyOf b a 0)
  | variantB {b a v : Nat} (hb : 0 < b) (ha : 0 < a)
      (hconfig : config.variantBValue.isSome = true) :
      Tally config b a v .variantB v [(.baseline, b), (.variantA, a)]
  | complete {b a v : Nat} (ha : 0 < a → 0 < b)
      (hv : 0 < v → 0 < a ∧ config.variantBValue.isSome = true) :
      Tally config b a v .complete 0 (tallyOf b a v)

/-- The samples filed, phase by phase. -/
def tally (t : ABTest K) : List (TestPhase × Nat) :=
  t.results.map fun r => (r.phase, r.samples)

/-- What the end of a phase files. -/
theorem tally_advance (filedAt started : Nat) (t : ABTest K) :
    tally (t.advancePhase filedAt started)
        = (if t.currentPhase ≠ .cooldown ∧ t.phaseMetrics.length ≠ 0 then
            tally t ++ [(t.currentPhase, t.phaseMetrics.length)]
          else tally t)
      ∧ (t.advancePhase filedAt started).currentPhase
        = t.nextPhase (tally (t.advancePhase filedAt started)).length
      ∧ (t.advancePhase filedAt started).phaseMetrics = [] := by
  refine ⟨?_, ?_, rfl⟩
  · unfold ABTest.advancePhase tally
    dsimp only
    by_cases hfile : t.currentPhase ≠ .cooldown ∧ t.phaseMetrics ≠ []
    · rw [if_pos (by simpa using hfile), if_pos (by simpa using hfile),
        List.map_append]
      rfl
    · rw [if_neg (by simpa using hfile), if_neg (by simpa using hfile)]
  · rw [tally, List.length_map]
    rfl

/-- The end of a phase files its samples, and moves on. -/
theorem Tally.advance {b a v : Nat} (filedAt started : Nat)
    (h : Tally config b a v t.currentPhase t.phaseMetrics.length (tally t))
    (hconfig : t.config = config) :
    Tally config b a v (t.advancePhase filedAt started).currentPhase
      (t.advancePhase filedAt started).phaseMetrics.length
      (tally (t.advancePhase filedAt started)) := by
  obtain ⟨htally, hphase, hpending⟩ := tally_advance filedAt started t
  rw [hpending, List.length_nil, hphase, htally]
  unfold ABTest.nextPhase
  rw [hconfig]
  generalize t.currentPhase = phase at h ⊢
  generalize t.phaseMetrics.length = pending at h ⊢
  generalize tally t = filed at h ⊢
  generalize hmore : (if phase ≠ .cooldown ∧ pending ≠ 0 then
    filed ++ [(phase, pending)] else filed) = more
  cases h with
  | baseline =>
      obtain rfl : tallyOf b 0 0 = more := by
        rw [← hmore]
        rcases Nat.eq_zero_or_pos b with rfl | hb
        · rfl
        · rw [tallyOf_baseline hb, if_pos ⟨by decide, hb.ne'⟩]
          rfl
      exact Tally.cooldown
  | cooldown =>
      rw [if_neg fun hcool => hcool.1 rfl] at hmore
      subst hmore
      rcases Nat.eq_zero_or_pos b with rfl | hb
      · have hdone : Tally config 0 0 0 .complete 0 (tallyOf 0 0 0) :=
          Tally.complete id fun hv => absurd hv (lt_irrefl 0)
        exact hdone
      · rw [tallyOf_baseline hb]
        exact Tally.variantA hb
  | variantA hb =>
      obtain rfl : tallyOf b a 0 = more := by
        rw [← hmore]
        rcases Nat.eq_zero_or_pos a with rfl | ha
        · rw [tallyOf_baseline hb, if_neg fun hA => hA.2 rfl]
        · rw [tallyOf_variantA hb ha, if_pos ⟨by decide, ha.ne'⟩]
          rfl
      by_cases hB : config.variantBValue.isSome = true
      · simp only [hB, if_true]
        exact Tally.secondCooldown hb hB
      · simp only [hB]
        exact Tally.complete (fun _ => hb) fun hv => absurd hv (lt_irrefl 0)
  | secondCooldown hb hB =>
      rw [if_neg fun hcool => hcool.1 rfl] at hmore
      subst hmore
      rcases Nat.eq_zero_or_pos a with rfl | ha
      · rw [tallyOf_baseline hb]
        exact Tally.variantA hb
      · rw [tallyOf_variantA hb ha]
        exact Tally.variantB hb ha hB
  | variantB hb ha hB =>
      obtain rfl : tallyOf b a v = more := by
        rw [← hmore]
        rcases Nat.eq_zero_or_pos v with rfl | hv
        · rw [tallyOf_variantA hb ha, if_neg fun hB => hB.2 rfl]
        · rw [tallyOf_variantB hb ha hv, if_pos ⟨by decide, hv.ne'⟩]
          rfl
      exact Tally.complete (fun _ => hb) fun _ => ⟨ha, hB⟩
  | complete ha hv =>
      rw [if_neg fun hdone => hdone.2 rfl] at hmore
      subst hmore
      exact Tally.complete ha hv

omit [Field K] [LinearOrder K] in
/-- A recorded sample is one more of the current phase. -/
theorem Tally.recordMetrics {b a v : Nat} (metrics : MetricsSample K)
    (h : Tally config b a v t.currentPhase t.phaseMetrics.length (tally t)) :
    Tally config (b + if t.currentPhase = .baseline then 1 else 0)
      (a + if t.currentPhase = .variantA then 1 else 0)
      (v + if t.currentPhase = .variantB then 1 else 0)
      (t.recordMetrics metrics).currentPhase
      (t.recordMetrics metrics).phaseMetrics.length
      (tally (t.recordMetrics metrics)) := by
  have hrecord : (t.recordMetrics metrics).currentPhase = t.currentPhase
      ∧ tally (t.recordMetrics metrics) = tally t
      ∧ (t.recordMetrics metrics).phaseMetrics.length
        = t.phaseMetrics.length
          + if t.currentPhase ≠ .cooldown ∧ t.currentPhase ≠ .complete then 1
            else 0 := by
    unfold ABTest.recordMetrics
    split
    case isTrue => exact ⟨rfl, rfl, List.length_append⟩
    case isFalse => exact ⟨rfl, rfl, rfl⟩
  obtain ⟨hphase, htally, hpending⟩ := hrecord
  rw [hphase, htally, hpending]
  generalize t.currentPhase = phase at h ⊢
  generalize t.phaseMetrics.length = pending at h ⊢
  generalize tally t = filed at h ⊢
  cases h with
  | baseline => exact Tally.baseline
  | cooldown => exact Tally.cooldown
  | variantA hb => exact Tally.variantA hb
  | secondCooldown hb hB => exact Tally.secondCooldown hb hB
  | variantB hb ha hB => exact Tally.variantB hb ha hB
  | complete ha hv => exact Tally.complete ha hv

-- ================================================================== runs

/-- One more call may record one more sample. -/
theorem samplesIn_snoc (phase : TestPhase) (t : ABTest K)
    (ops : List (ABTestOp K)) (op : ABTestOp K) :
    samplesIn phase (ops ++ [op]) t
      = samplesIn phase ops t
        + samplesIn phase [op] (t.after ops) := by
  induction ops generalizing t with
  | nil => exact (Nat.zero_add _).symm
  | cons first ops ih =>
      have hrest := ih (first.apply t)
      cases first with
      | recordMetrics metrics =>
          rw [List.cons_append, samplesIn, samplesIn]
          refine (congrArg _ hrest).trans ?_
          rw [Nat.add_assoc]
          rfl
      | tick read filedAt started =>
          rw [List.cons_append, samplesIn, samplesIn]
          exact hrest

/-- Every run of a test files what was recorded. -/
theorem tally_after (config : TestConfig K) (now : Nat)
    (ops : List (ABTestOp K)) :
    Tally config (samplesIn .baseline ops (ABTest.new config now))
      (samplesIn .variantA ops (ABTest.new config now))
      (samplesIn .variantB ops (ABTest.new config now))
      ((ABTest.new config now).after ops).currentPhase
      ((ABTest.new config now).after ops).phaseMetrics.length
      (tally ((ABTest.new config now).after ops)) := by
  induction ops using List.reverseRecOn with
  | nil => exact Tally.baseline
  | append_singleton ops op ih =>
      rw [samplesIn_snoc, samplesIn_snoc, samplesIn_snoc, after_snoc]
      cases op with
      | recordMetrics metrics => exact ih.recordMetrics metrics
      | tick read filedAt started =>
          by_cases hdue : ((ABTest.new config now).after ops).due read
          · rw [apply_due hdue]
            exact ih.advance filedAt started (after_config _ ops)
          · have hstay : (ABTestOp.tick read filedAt started).apply
                ((ABTest.new config now).after ops)
                = (ABTest.new config now).after ops := by
              show (if _ then _ else _) = _
              rw [if_neg hdue]
            rw [hstay]
            exact ih

/-- An entry of a tally is a phase with all its samples. -/
theorem mem_tallyOf {n : TestPhase → Nat} {phase : TestPhase} {k : Nat} :
    (phase, k) ∈ tallyOf (n .baseline) (n .variantA) (n .variantB)
      ↔ (phase = .baseline ∨ phase = .variantA ∨ phase = .variantB)
        ∧ n phase = k ∧ 0 < k := by
  unfold tallyOf
  rw [List.mem_filter]
  cases phase <;> simp [eq_comm]

/-- There are two entries as soon as the baseline and variant A have
samples. -/
theorem two_le_length_tallyOf {b a v : Nat} (ha : 0 < a → 0 < b)
    (hv : 0 < v → 0 < a) :
    2 ≤ (tallyOf b a v).length ↔ 0 < b ∧ 0 < a := by
  rcases Nat.eq_zero_or_pos a with rfl | hpos
  · have hnone : v = 0 := by omega
    subst hnone
    rcases Nat.eq_zero_or_pos b with rfl | hb
    · simp [tallyOf]
    · simp [tallyOf_baseline hb]
  · have hb := ha hpos
    rcases Nat.eq_zero_or_pos v with rfl | hvpos
    · simp [tallyOf_variantA hb hpos, hb, hpos]
    · simp [tallyOf_variantB hb hpos hvpos, hb, hpos]

omit [Field K] [LinearOrder K] in
/-- At the end everything is filed, and a variant has samples only
behind the phases in front of it. -/
theorem Tally.of_complete {b a v pending : Nat}
    {filed : List (TestPhase × Nat)}
    (h : Tally config b a v .complete pending filed) :
    filed = tallyOf b a v ∧ (0 < a → 0 < b) ∧ (0 < v → 0 < a) := by
  cases h with
  | complete ha hv => exact ⟨rfl, ha, fun hpos => (hv hpos).1⟩

omit [Field K] [LinearOrder K] in
/-- What is filed of a completed test: the measured phases with samples,
two of them as soon as the baseline and variant A have some. -/
theorem Tally.filed {n : TestPhase → Nat} {pending : Nat}
    (h : Tally config (n .baseline) (n .variantA) (n .variantB) .complete
      pending (tally t)) :
    (∀ phase k, (∃ p ∈ t.results, p.phase = phase ∧ p.samples = k)
      ↔ (phase = .baseline ∨ phase = .variantA ∨ phase = .variantB)
        ∧ n phase = k ∧ 0 < k)
    ∧ (2 ≤ t.results.length ↔ 0 < n .baseline ∧ 0 < n .variantA) := by
  obtain ⟨htally, ha, hv⟩ := h.of_complete
  refine ⟨?_, ?_⟩
  · intro phase k
    rw [← mem_tallyOf, ← htally]
    constructor
    · rintro ⟨p, hp, rfl, rfl⟩
      exact List.mem_map.mpr ⟨p, hp, rfl⟩
    · intro hmem
      obtain ⟨p, hp, heq⟩ := List.mem_map.mp hmem
      cases heq
      exact ⟨p, hp, rfl, rfl⟩
  · rw [← two_le_length_tallyOf ha hv, ← htally, tally, List.length_map]

omit [Field K] [LinearOrder K] in
/-- A measured phase is one of three. -/
private theorem measured_cases {phase : TestPhase}
    (h : phase ∈ config.measured) :
    phase = .baseline ∨ phase = .variantA ∨ phase = .variantB := by
  unfold TestConfig.measured at h
  split at h <;> simp at h <;> tauto

/-- The winner of a completed test rests on complete data exactly if the
baseline or variant A had no sample, or every measured phase had one and
as many as required. -/
theorem winner_complete_iff (lib : FloatLib K) (config : TestConfig K)
    (now : Nat) (ops : List (ABTestOp K))
    (hdone : ((ABTest.new config now).after ops).currentPhase = .complete) :
    RestsOnCompleteData config
        (((ABTest.new config now).after ops).result lib)
      ↔ samplesIn .baseline ops (ABTest.new config now) = 0
        ∨ samplesIn .variantA ops (ABTest.new config now) = 0
        ∨ ∀ phase ∈ config.measured,
          0 < samplesIn phase ops (ABTest.new config now)
            ∧ config.minSamples
              ≤ samplesIn phase ops (ABTest.new config now) := by
  have htally := tally_after config now ops
  rw [hdone] at htally
  obtain ⟨hfiled, htwo⟩ := Tally.filed
    (n := fun phase => samplesIn phase ops (ABTest.new config now)) htally
  have hcool : ∀ p ∈ ((ABTest.new config now).after ops).results,
      p.phase ≠ .cooldown := by
    intro p hp heq
    have hphase := ((hfiled .cooldown p.samples).mp ⟨p, hp, heq, rfl⟩).1
    simp at hphase
  constructor
  · intro h
    rcases Nat.eq_zero_or_pos (samplesIn .baseline ops
      (ABTest.new config now)) with hb | hb
    · exact Or.inl hb
    rcases Nat.eq_zero_or_pos (samplesIn .variantA ops
      (ABTest.new config now)) with ha | ha
    · exact Or.inr (Or.inl ha)
    refine Or.inr (Or.inr fun phase hphase => ?_)
    have hwinner : ((((ABTest.new config now).after ops).result
        lib).winner).isSome := by
      rcases result_winner lib hcool with
        ⟨hfew, -⟩ | ⟨-, winner, -, hwin, -⟩
      · exact absurd (htwo.mpr ⟨hb, ha⟩) (Nat.not_le.mpr hfew)
      · rw [hwin]
        rfl
    obtain ⟨p, hp, hpphase, hmin⟩ := h.complete hwinner phase hphase
    rw [result_phases] at hp
    obtain ⟨-, hn, hpos⟩ := (hfiled phase p.samples).mp ⟨p, hp, hpphase, rfl⟩
    rw [hn]
    exact ⟨hpos, hmin⟩
  · intro h
    constructor
    case complete =>
      intro hwinner phase hphase
      rcases result_winner lib hcool with ⟨-, hnone⟩ | ⟨hlen, -⟩
      · rw [hnone] at hwinner
        cases hwinner
      obtain ⟨hb, ha⟩ := htwo.mp hlen
      rcases h with hzero | hzero | hall
      · exact absurd hzero hb.ne'
      · exact absurd hzero ha.ne'
      obtain ⟨hpos, hmin⟩ := hall phase hphase
      obtain ⟨p, hp, hpphase, hsamples⟩ :=
        (hfiled phase _).mpr ⟨measured_cases hphase, rfl, hpos⟩
      rw [result_phases]
      exact ⟨p, hp, hpphase, hsamples ▸ hmin⟩
    case best =>
      intro name hname
      rw [result_phases]
      rcases result_winner lib hcool with
        ⟨-, hnone⟩ | ⟨-, winner, hmem, hwin, hbest⟩
      · rw [hnone] at hname
        cases hname
      · rw [hwin] at hname
        exact ⟨winner, hmem, Option.some.inj hname, hbest⟩

/-- The float functions at the scores 1 and 3, whose variance is 1. -/
private def oneAndThree : FloatLib ℚ where
  sqrt variance := variance
  fixed decimals _ := if decimals = 2 then "3.00" else "100"
  debug _ := "Float(2.0)"

/-- A test for the most throughput, with so many samples required. -/
private def throughputTest (variantB : Option ParameterValue)
    (minSamples : Nat) : TestConfig ℚ where
  parameterPath := "chunk_aggregator.bdp_multiplier"
  baselineValue := .float (.fin 1)
  variantAValue := .float (.fin 2)
  variantBValue := variantB
  phaseDuration := 10
  cooldownDuration := 5
  minSamples := minSamples
  successMetric := .maxThroughput

/-- One sample of 1 Mbps for the baseline and one of 3 Mbps for variant
A. -/
private def oneEach : List (ABTestOp ℚ) :=
  [.recordMetrics ⟨1, 1, 1, 0, 0, 0⟩, .tick 10 10 10, .tick 15 15 15,
    .recordMetrics ⟨1, 3, 1, 0, 0, 0⟩, .tick 25 25 25]

/-- One sample each is enough where one is required. -/
theorem winner_complete_iff_one :
    RestsOnCompleteData (throughputTest none 1)
      (((ABTest.new (throughputTest none 1) 0).after oneEach).result
        oneAndThree) :=
  (winner_complete_iff oneAndThree (throughputTest none 1) 0 oneEach
    (by decide +kernel)).mpr (by decide +kernel)

/-- Variant A wins on one sample of the ten required, and without any
sample of variant B. -/
theorem winner_on_one_sample :
    let t := (ABTest.new (throughputTest (some (.float (.fin 3))) 10)
      0).after (oneEach ++ [.tick 30 30 30, .tick 40 40 40])
    t.currentPhase = .complete
      ∧ (t.result oneAndThree).winner = some "Variant A"
      ∧ ¬RestsOnCompleteData (throughputTest (some (.float (.fin 3))) 10)
          (t.result oneAndThree) := by
  intro t
  have hwinner : (t.result oneAndThree).winner = some "Variant A" := by
    decide +kernel
  refine ⟨by decide +kernel, hwinner, ?_⟩
  intro h
  obtain ⟨p, hp, -, hmin⟩ := h.complete (by rw [hwinner]; rfl) .baseline
    (by decide)
  have hfew : ∀ p ∈ (t.result oneAndThree).phases, p.samples = 1 := by
    have hall : (t.result oneAndThree).phases.all
        (fun p => p.samples == 1) = true := by
      decide +kernel
    intro p hp
    exact beq_iff_eq.mp (List.all_eq_true.mp hall p hp)
  rw [hfew p hp] at hmin
  exact absurd hmin (by decide)

end ChainLightning
