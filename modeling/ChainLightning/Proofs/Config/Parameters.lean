/-
When `set_parameter` is a transaction.

A value that passes the joint validation is assigned and reads back,
with every other field as it was. A value that does not pass is
assigned all the same: the error leaves it in place, and the
configuration with it invalid. So the call is a transaction exactly for
the values that the checks of their field let through
(`setParameter_transactional_iff`).
-/
import ChainLightning.Config

namespace ChainLightning

variable {path : String} {value : ParameterValue} {c c' : Config}

-- ========================================================= transactions

/-- What no path reaches: the configuration with every parameter
blanked. -/
def Config.unreached (c : Config) : Config :=
  { c with
    flowClassifier.singleLinkThreshold := .fin 0
    flowClassifier.multiLinkThreshold := .fin 0
    flowClassifier.monitorDurationMs := 0
    chunkAggregator.minChunkSize := 0
    chunkAggregator.maxChunkSize := 0
    chunkAggregator.bdpMultiplier := .fin 0
    receiver.reorderTimeoutMs := 0
    linkScheduler.syncIntervalMs := 0
    announcer.enabled := "" }

/-- A call that succeeds sets its parameter, changes nothing else and
leaves a valid configuration; one that fails changes nothing. -/
structure Transactional (path : String) (value : ParameterValue)
    (c : Config) : Prop where
  set : (c.setParameter path value).1 = .ok () →
    (c.setParameter path value).2.getParameter path = some value
  others : (c.setParameter path value).1 = .ok () → ∀ other ≠ path,
    (c.setParameter path value).2.getParameter other = c.getParameter other
  rest : (c.setParameter path value).1 = .ok () →
    (c.setParameter path value).2.unreached = c.unreached
  restored : ∀ e, (c.setParameter path value).1 = .error e →
    (c.setParameter path value).2 = c
  valid : (c.setParameter path value).2.validate = .ok ()

/-- The checks of a parameter's field, with the other fields as they
are. -/
def Config.Accepts (path : String) (value : ParameterValue) (c : Config) :
    Prop :=
  match path, value with
  | "flow_classifier.single_link_threshold", .float v =>
      v.le (.fin 0) = false ∧ Double.le (.fin 1) v = false
        ∧ c.flowClassifier.multiLinkThreshold.le v = false
  | "flow_classifier.multi_link_threshold", .float v =>
      v.le c.flowClassifier.singleLinkThreshold = false
  | "chunk_aggregator.min_chunk_size", .usize v =>
      v ≤ c.chunkAggregator.maxChunkSize
  | "chunk_aggregator.max_chunk_size", .usize v =>
      c.chunkAggregator.minChunkSize ≤ v
  | _, _ => True

-- =========================================================== validation

/-- What `validate` checks. -/
theorem Config.validate_eq_ok :
    c.validate = .ok ()
      ↔ c.flowClassifier.singleLinkThreshold.le (.fin 0) = false
        ∧ Double.le (.fin 1) c.flowClassifier.singleLinkThreshold = false
        ∧ c.flowClassifier.multiLinkThreshold.le
            c.flowClassifier.singleLinkThreshold = false
        ∧ c.chunkAggregator.minChunkSize ≤ c.chunkAggregator.maxChunkSize
        ∧ c.stats.ewmaAlpha.le (.fin 0) = false
        ∧ Double.le (.fin 1) c.stats.ewmaAlpha = false := by
  unfold Config.validate
  split
  case isTrue hsingle =>
    rw [Bool.or_eq_true] at hsingle
    rcases hsingle with h | h <;> simp [h]
  case isFalse hsingle =>
    rw [Bool.or_eq_true, not_or, Bool.not_eq_true, Bool.not_eq_true]
      at hsingle
    split
    case isTrue hmulti => simp [hmulti]
    case isFalse hmulti =>
      rw [Bool.not_eq_true] at hmulti
      split
      case isTrue hsizes => simp [Nat.not_le.mpr hsizes]
      case isFalse hsizes =>
        split
        case isTrue halpha =>
          rw [Bool.or_eq_true] at halpha
          rcases halpha with h | h <;> simp [h]
        case isFalse halpha =>
          rw [Bool.or_eq_true, not_or, Bool.not_eq_true, Bool.not_eq_true]
            at halpha
          simp [hsingle, hmulti, Nat.not_lt.mp hsizes, halpha]

/-- An assignment leaves what no path reaches alone. -/
theorem Config.unreached_assign (h : c.assign path value = some c') :
    c'.unreached = c.unreached := by
  unfold Config.assign at h
  split at h <;> cases h <;> rfl

/-- An assignment to a valid configuration keeps it valid exactly if the
value is accepted. -/
theorem Config.validate_assign (hvalid : c.validate = .ok ())
    (h : c.assign path value = some c') :
    c'.validate = .ok () ↔ c.Accepts path value := by
  rw [Config.validate_eq_ok] at hvalid ⊢
  unfold Config.assign at h
  split at h <;> cases h <;> simp [Config.Accepts, hvalid]

/-- A value that is not assigned is not checked. -/
theorem Config.accepts_of_assign_none (h : c.assign path value = none) :
    c.Accepts path value := by
  unfold Config.Accepts
  split <;> trivial

-- ================================================================ the law

/-- `set_parameter` on a valid configuration is a transaction exactly
for the values that the checks of their field accept. -/
theorem setParameter_transactional_iff (hvalid : c.validate = .ok ()) :
    Transactional path value c ↔ c.Accepts path value := by
  cases hassign : c.assign path value with
  | none =>
      have hset : c.setParameter path value
          = (.error (.validationError
              s!"Unknown parameter or type mismatch: {path}"), c) := by
        rw [Config.setParameter, hassign]
      refine ⟨fun _ => Config.accepts_of_assign_none hassign, fun _ => ?_⟩
      constructor <;> rw [hset]
      case restored => exact fun _ _ => rfl
      case valid => exact hvalid
      all_goals
        intro h
        cases h
  | some c' =>
      have hset : c.setParameter path value = (c'.validate, c') := by
        rw [Config.setParameter, hassign]
      rw [← Config.validate_assign hvalid hassign]
      refine ⟨fun h => ?_, fun hok => ?_⟩
      · have hafter := h.valid
        rwa [hset] at hafter
      · constructor <;> rw [hset]
        case set => exact fun _ => Config.getParameter_assign hassign
        case others =>
          exact fun _ _ => Config.getParameter_assign_ne hassign
        case rest => exact fun _ => Config.unreached_assign hassign
        case restored =>
          intro e he
          rw [show c'.validate = .ok () from hok] at he
          cases he
        case valid => exact hok

/-- Half the fastest link is a threshold below the default of the other
one. -/
theorem setParameter_transactional_half :
    Transactional "flow_classifier.single_link_threshold"
      (.float (.fin (1 / 2))) Config.default :=
  (setParameter_transactional_iff config_default_valid).mpr
    (by simp only [Config.Accepts]; decide +kernel)

/-- A minimum above the maximum is refused and stays. -/
theorem setParameter_keeps_refused :
    Config.default.validate = .ok ()
      ∧ (Config.default.setParameter "chunk_aggregator.min_chunk_size"
          (.usize 100000)).1
        = .error (.validationError "min_chunk_size must be <= max_chunk_size")
      ∧ (Config.default.setParameter "chunk_aggregator.min_chunk_size"
          (.usize 100000)).2.chunkAggregator.minChunkSize = 100000
      ∧ ¬Transactional "chunk_aggregator.min_chunk_size" (.usize 100000)
          Config.default := by
  refine ⟨config_default_valid, by decide +kernel, by decide +kernel, ?_⟩
  intro h
  have hvalid := h.valid
  revert hvalid
  decide +kernel

end ChainLightning
