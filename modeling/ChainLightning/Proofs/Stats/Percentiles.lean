/-
The latency percentiles of a snapshot.

A snapshot computes them twice. `calculate_percentiles` sorts the
samples, so what it returns are ranks (`calculatePercentiles_eq`), the
same in every order of recording (`calculatePercentiles_perm`). The
microsecond fields are taken from fixed positions of the samples as they
were recorded. In ascending order that is the same up to one rank
(`inRank_of_ascending`), but over all orders they are order statistics
only if all samples are equal (`percentiles_iff`).
-/
import ChainLightning.Lib.Rank
import ChainLightning.Stats

namespace ChainLightning

open Machine Rank

variable {m : MetricsCollector} {samples : List UInt64}

-- ============================================================ recordings

/-- Latencies recorded one after the other. -/
def MetricsCollector.recordLatencies (samples : List UInt64)
    (m : MetricsCollector) : MetricsCollector :=
  samples.foldl (fun m latencyUs => m.recordLatencyUs latencyUs) m

/-- The snapshot behind some latencies. -/
def MetricsCollector.latencies (m : MetricsCollector)
    (samples : List UInt64) : Metrics :=
  (m.recordLatencies samples).snapshot.1

theorem recordLatencies_samples (samples : List UInt64)
    (m : MetricsCollector) :
    (m.recordLatencies samples).counters.latencySamples
      = m.counters.latencySamples ++ samples := by
  induction samples generalizing m with
  | nil => exact (List.append_nil _).symm
  | cons s samples ih =>
      refine (ih (m.recordLatencyUs s)).trans ?_
      show (m.counters.latencySamples ++ [s]) ++ samples = _
      rw [List.append_assoc, List.singleton_append]

-- ================================================================= ranks

/-- The samples as numbers. -/
def micros (samples : List UInt64) : List Nat := samples.map UInt64.toNat

/-- Microseconds in milliseconds. -/
def inMs (us : Nat) : ℚ := (us : ℚ) / 1000

theorem inMs_le_iff (a b : Nat) : a ≤ b ↔ inMs a ≤ inMs b := by
  unfold inMs
  rw [div_le_div_iff_of_pos_right (by norm_num), Nat.cast_le]

/-- The rank of a percentile among so many sorted samples. -/
def sortedPos (n percent : Nat) : Nat :=
  min ((n - 1) * percent / 100) (2 ^ 64 - 1)

/-- The position of the 99th percentile among so many samples as they
were recorded. -/
def recordedPos (n : Nat) : Nat := min (n * 99 / 100) (2 ^ 64 - 1)

theorem sortedPos_lt {n percent : Nat} (hn : 0 < n) (hp : percent ≤ 100) :
    sortedPos n percent < n := by
  have hmul : (n - 1) * percent ≤ (n - 1) * 100 := Nat.mul_le_mul_left _ hp
  unfold sortedPos
  omega

theorem recordedPos_lt {n : Nat} (hn : 0 < n) : recordedPos n < n := by
  unfold recordedPos
  omega

/-- What `calculate_percentiles` returns of some samples are ranks. -/
theorem calculatePercentiles_eq (h : samples ≠ []) :
    (calculatePercentiles samples).min = inMs (rank (micros samples) 0 0)
    ∧ (calculatePercentiles samples).max
      = inMs (rank (micros samples) (samples.length - 1) 0)
    ∧ (calculatePercentiles samples).p50
      = inMs (rank (micros samples) (sortedPos samples.length 50) 0)
    ∧ (calculatePercentiles samples).p99
      = inMs (rank (micros samples) (sortedPos samples.length 99) 0) := by
  have hmicros : (samples.map fun s => (s.toNat : ℚ) / 1000)
      = (micros samples).map inMs := by
    rw [micros, List.map_map]
    rfl
  have hrank : ∀ i,
      (((micros samples).map inMs).insertionSort (· ≤ ·)).getD i 0
        = inMs (rank (micros samples) i 0) := by
    intro i
    have hzero : inMs 0 = 0 := by simp [inMs]
    have hmap := rank_map inMs_le_iff (micros samples) i 0
    rwa [hzero] at hmap
  have hlen : (((micros samples).map inMs).insertionSort (· ≤ ·)).length
      = samples.length := by
    rw [List.length_insertionSort, List.length_map, micros, List.length_map]
  have h50 := trunc_mul_div (K := ℚ) 64 (samples.length - 1) 50 100
  have h99 := trunc_mul_div (K := ℚ) 64 (samples.length - 1) 99 100
  have hne : ¬samples.isEmpty = true := by simpa using h
  unfold calculatePercentiles sortedPos
  rw [if_neg hne, hmicros]
  dsimp only
  rw [hlen, ← h50, ← h99]
  exact ⟨hrank _, hrank _, hrank _, hrank _⟩

/-- It returns the same in every order of the samples. -/
theorem calculatePercentiles_perm {samples' : List UInt64}
    (hperm : samples'.Perm samples) :
    calculatePercentiles samples' = calculatePercentiles samples := by
  unfold calculatePercentiles
  rw [hperm.isEmpty_eq]
  dsimp only
  rw [insertionSort_of_perm (hperm.map _)]

/-- The microsecond fields are positions of the samples as recorded. -/
theorem latencies_us (hm : m.counters.latencySamples = [])
    (samples : List UInt64) :
    (m.latencies samples).latencyP50Us = samples.getD (samples.length / 2) 0
    ∧ (m.latencies samples).latencyP99Us
      = samples.getD (recordedPos samples.length) 0 := by
  have hrecorded := recordLatencies_samples samples m
  rw [hm, List.nil_append] at hrecorded
  have h99 := trunc_mul_div (K := ℚ) 64 samples.length 99 100
  unfold MetricsCollector.latencies MetricsCollector.snapshot recordedPos
  dsimp only
  rw [hrecorded, ← h99]
  exact ⟨rfl, rfl⟩

/-- The millisecond fields are ranks of the samples. -/
theorem latencies_ms (hm : m.counters.latencySamples = [])
    (h : samples ≠ []) :
    (m.latencies samples).latencyMinMs = inMs (rank (micros samples) 0 0)
    ∧ (m.latencies samples).latencyMaxMs
      = inMs (rank (micros samples) (samples.length - 1) 0)
    ∧ (m.latencies samples).latencyP50Ms
      = inMs (rank (micros samples) (sortedPos samples.length 50) 0)
    ∧ (m.latencies samples).latencyP99Ms
      = inMs (rank (micros samples) (sortedPos samples.length 99) 0) := by
  have hrecorded := recordLatencies_samples samples m
  rw [hm, List.nil_append] at hrecorded
  unfold MetricsCollector.latencies MetricsCollector.snapshot
  dsimp only
  rw [hrecorded]
  exact calculatePercentiles_eq h

-- ====================================================== order statistics

/-- The microsecond percentiles lie in order between the least and the
greatest sample, and each is the millisecond percentile or next to it
among the sorted samples. -/
structure InRank (m : MetricsCollector) (samples : List UInt64) : Prop where
  least : (m.latencies samples).latencyMinMs
    ≤ inMs (m.latencies samples).latencyP50Us.toNat
  ascending : (m.latencies samples).latencyP50Us
    ≤ (m.latencies samples).latencyP99Us
  greatest : inMs (m.latencies samples).latencyP99Us.toNat
    ≤ (m.latencies samples).latencyMaxMs
  p50 : ∃ i < samples.length, ∃ j < samples.length, i ≤ j + 1 ∧ j ≤ i + 1
    ∧ (m.latencies samples).latencyP50Us.toNat = rank (micros samples) i 0
    ∧ (m.latencies samples).latencyP50Ms = inMs (rank (micros samples) j 0)
  p99 : ∃ i < samples.length, ∃ j < samples.length, i ≤ j + 1 ∧ j ≤ i + 1
    ∧ (m.latencies samples).latencyP99Us.toNat = rank (micros samples) i 0
    ∧ (m.latencies samples).latencyP99Ms = inMs (rank (micros samples) j 0)

/-- They are so, and the same in every order of recording. -/
structure OrderStatistics (m : MetricsCollector) (samples : List UInt64) :
    Prop extends InRank m samples where
  anyOrder : ∀ samples' : List UInt64, samples'.Perm samples →
    (m.latencies samples').latencyP50Us = (m.latencies samples).latencyP50Us
      ∧ (m.latencies samples').latencyP99Us
        = (m.latencies samples).latencyP99Us

/-- Samples recorded in ascending order have percentiles in rank. -/
theorem inRank_of_ascending (hm : m.counters.latencySamples = [])
    (h : samples ≠ []) (hfit : samples.length < 2 ^ 64)
    (hsorted : samples.Pairwise (· ≤ ·)) : InRank m samples := by
  have hn : 0 < samples.length := List.length_pos_iff.mpr h
  have hlen : (micros samples).length = samples.length := List.length_map _
  have hascending : (micros samples).Pairwise (· ≤ ·) :=
    List.pairwise_map.mpr (hsorted.imp UInt64.le_iff_toNat_le.mp)
  have hrank : ∀ i, (samples.getD i 0).toNat = rank (micros samples) i 0 := by
    intro i
    rw [rank_of_sorted hascending]
    exact (List.getD_map samples 0 UInt64.toNat).symm
  obtain ⟨hp50, hp99⟩ := latencies_us hm samples
  obtain ⟨hmin, hmax, hp50Ms, hp99Ms⟩ := latencies_ms hm h
  have hhalf : samples.length / 2 < samples.length :=
    Nat.div_lt_self hn Nat.one_lt_two
  have hpos : recordedPos samples.length < samples.length :=
    recordedPos_lt hn
  constructor
  case least =>
    rw [hmin, hp50, hrank, ← inMs_le_iff]
    exact rank_mono (Nat.zero_le _) (by rwa [hlen])
  case ascending =>
    rw [hp50, hp99, UInt64.le_iff_toNat_le, hrank, hrank]
    refine rank_mono ?_ (by rwa [hlen])
    unfold recordedPos
    omega
  case greatest =>
    rw [hmax, hp99, hrank, ← inMs_le_iff]
    exact rank_mono (by omega) (by omega)
  case p50 =>
    refine ⟨_, hhalf, _, sortedPos_lt hn (by decide), ?_, ?_, ?_, hp50Ms⟩
    · unfold sortedPos
      omega
    · unfold sortedPos
      omega
    · rw [hp50, hrank]
  case p99 =>
    refine ⟨_, hpos, _, sortedPos_lt hn (by decide), ?_, ?_, ?_, hp99Ms⟩
    · unfold sortedPos recordedPos
      omega
    · unfold sortedPos recordedPos
      omega
    · rw [hp99, hrank]

/-- Equal samples have one value at every rank and position. -/
private theorem rank_of_equal {a : UInt64} (ha : ∀ b ∈ samples, b = a)
    {i : Nat} (hi : i < samples.length) :
    samples.getD i 0 = a ∧ rank (micros samples) i 0 = a.toNat := by
  have hlen : (micros samples).length = samples.length := List.length_map _
  refine ⟨?_, ?_⟩
  · rw [List.getD_eq_getElem _ _ hi]
    exact ha _ (List.getElem_mem hi)
  · obtain ⟨b, hb, hrank⟩ :=
      List.mem_map.mp (rank_mem (d := 0) (hlen.symm ▸ hi))
    exact hrank.symm.trans (congrArg UInt64.toNat (ha b hb))

/-- The microsecond percentiles are order statistics exactly of samples
that are all equal: they are taken at fixed positions of the samples as
recorded, where any of them may stand. -/
theorem percentiles_iff (hm : m.counters.latencySamples = [])
    (h : samples ≠ []) :
    OrderStatistics m samples ↔ ∀ a ∈ samples, ∀ b ∈ samples, a = b := by
  have hn : 0 < samples.length := List.length_pos_iff.mpr h
  have hhalf : samples.length / 2 < samples.length :=
    Nat.div_lt_self hn Nat.one_lt_two
  have hpos : recordedPos samples.length < samples.length :=
    recordedPos_lt hn
  constructor
  · intro hstat
    refine (getD_perm_iff hhalf 0).mp fun samples' hperm => ?_
    have hsame := (hstat.anyOrder samples' hperm).1
    rwa [(latencies_us hm _).1, (latencies_us hm _).1, hperm.length_eq] at hsame
  · intro hequal
    obtain ⟨a, ha⟩ := List.exists_mem_of_ne_nil samples h
    have hall := fun b hb => hequal b hb a ha
    obtain ⟨hp50, hp99⟩ := latencies_us hm samples
    obtain ⟨hmin, hmax, hp50Ms, hp99Ms⟩ := latencies_ms hm h
    have hzero := (rank_of_equal hall hn).2
    have hlt : samples.length - 1 < samples.length := by omega
    have hlt50 : sortedPos samples.length 50 < samples.length :=
      sortedPos_lt hn (by decide)
    have hlt99 : sortedPos samples.length 99 < samples.length :=
      sortedPos_lt hn (by decide)
    have hlast := (rank_of_equal hall hlt).2
    have h50 := (rank_of_equal hall hlt50).2
    have h99 := (rank_of_equal hall hlt99).2
    rw [(rank_of_equal hall hhalf).1] at hp50
    rw [(rank_of_equal hall hpos).1] at hp99
    rw [hzero] at hmin
    rw [hlast] at hmax
    rw [h50] at hp50Ms
    rw [h99] at hp99Ms
    constructor
    case anyOrder =>
      intro samples' hperm
      rw [(latencies_us hm _).1, (latencies_us hm _).2, (latencies_us hm _).1,
        (latencies_us hm _).2, hperm.length_eq]
      exact ⟨(getD_perm_iff hhalf 0).mpr hequal samples' hperm,
        (getD_perm_iff hpos 0).mpr hequal samples' hperm⟩
    case toInRank =>
      constructor
      case least => rw [hmin, hp50]
      case ascending =>
        rw [hp50, hp99]
        exact UInt64.le_refl a
      case greatest => rw [hmax, hp99]
      case p50 =>
        exact ⟨0, hn, 0, hn, Nat.zero_le _, Nat.zero_le _,
          by rw [hp50, hzero], by rw [hp50Ms, hzero]⟩
      case p99 =>
        exact ⟨0, hn, 0, hn, Nat.zero_le _, Nat.zero_le _,
          by rw [hp99, hzero], by rw [hp99Ms, hzero]⟩

/-- Three equal samples. -/
theorem percentiles_iff_equal :
    OrderStatistics MetricsCollector.new [7000, 7000, 7000] :=
  (percentiles_iff rfl (by decide)).mpr (by simp)

/-- Of 1, 9 and 2 ms, recorded in this order, the median is given as 9
ms and the 99th percentile as 2. -/
theorem percentiles_out_of_order :
    (MetricsCollector.new.latencies [1000, 9000, 2000]).latencyP50Us = 9000
      ∧ (MetricsCollector.new.latencies [1000, 9000, 2000]).latencyP99Us
        = 2000
      ∧ (MetricsCollector.new.latencies [1000, 9000, 2000]).latencyP50Ms = 2
      ∧ ¬OrderStatistics MetricsCollector.new [1000, 9000, 2000] := by
  refine ⟨by decide +kernel, by decide +kernel, by decide +kernel, ?_⟩
  intro hstat
  have hascending := hstat.ascending
  revert hascending
  decide +kernel

end ChainLightning
