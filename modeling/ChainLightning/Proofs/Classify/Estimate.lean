/-
The bandwidth estimate of a flow.

An estimate sums the samples of its window, but `record_bytes` has
dropped those of more than five seconds whatever the window is, and the
quotient is one of doubles, rounded before it is floored (`estimate_eq`).
So it is the average of the window exactly where the quotient of what was
kept lies between the middles below the average and below the next
integer (`estimate_iff`). In windows of a few whole seconds it does
(`estimate_of_seconds`).
-/
import Mathlib.Algebra.Order.Floor.Semifield
import Mathlib.Data.List.Induction
import Mathlib.Data.Nat.Cast.Order.Field
import ChainLightning.Classifier
import ChainLightning.Lib.Window

namespace ChainLightning

open Binary64 Machine Window

-- ============================================================= recordings

/-- A call of `record_bytes`, with its clock readings in order. -/
structure Recording where
  bytes : UInt64
  seen : Nat
  sampled : Nat
  pruned : Nat

namespace Recording

def clock (r : Recording) : List Nat := [r.seen, r.sampled, r.pruned]

def sample (r : Recording) : Nat × UInt64 := (r.sampled, r.bytes)

end Recording

/-- One call. -/
def FlowState.step (r : Recording) (f : FlowState) : Option FlowState :=
  f.recordBytes r.bytes r.seen r.sampled r.pruned

/-- The instant that the last call pruned behind. -/
def horizon (rs : List Recording) : Nat :=
  (rs.getLast?.map fun r => r.pruned - FlowState.keepSamples).getD 0

/-- The bytes that calls recorded after an instant. -/
def bytesSince (cut : Nat) (rs : List Recording) : Nat :=
  amount UInt64.toNat cut (rs.map Recording.sample)

/-- The bytes of these that the last call kept. -/
def keptSince (cut : Nat) (rs : List Recording) : Nat :=
  bytesSince (max cut (horizon rs)) rs

/-- The bytes recorded in a window, by its length in seconds. -/
def windowAverage (window now : Nat) (rs : List Recording) : Nat :=
  ⌊(bytesSince (now - window) rs : ℚ) / ((window : ℚ) / 1000000000)⌋₊

/-- The bytes that are in the sum over the length of the window: the
quotient of two doubles, before it is rounded. -/
def keptRate (window now : Nat) (rs : List Recording) : ℚ :=
  rnd (keptSince (now - window) rs % 2 ^ 64 : Nat) / asSecs window

theorem keptRate_nonneg (window now : Nat) (rs : List Recording) :
    0 ≤ keptRate window now rs := by
  rcases Nat.eq_zero_or_pos window with rfl | hpos
  · simp [keptRate, asSecs]
  · exact div_nonneg (rnd_nonneg (Nat.cast_nonneg _)) (asSecs_pos hpos).le

@[simp] theorem horizon_snoc (rs : List Recording) (r : Recording) :
    horizon (rs ++ [r]) = r.pruned - FlowState.keepSamples := by
  unfold horizon
  rw [List.getLast?_concat, Option.map_some, Option.getD_some]

-- =================================================================== runs

/-- A call that gets through has five seconds of clock behind it. -/
theorem step_eq_some {r : Recording} {f f' : FlowState} :
    FlowState.step r f = some f' ↔ FlowState.keepSamples ≤ r.pruned
      ∧ f' = { f with
        bytesSeen := f.bytesSeen + r.bytes
        packetsSeen := f.packetsSeen + 1
        lastSeen := r.seen
        bandwidthSamples := since (r.pruned - FlowState.keepSamples)
          (f.bandwidthSamples ++ [r.sample]) } := by
  unfold FlowState.step FlowState.recordBytes
  rw [Option.bind_eq_bind, Option.bind_eq_some_iff]
  constructor
  · rintro ⟨cutoff, hsub, hf'⟩
    obtain ⟨hle, rfl⟩ := sub_eq_some.mp hsub
    cases hf'
    exact ⟨hle, rfl⟩
  · rintro ⟨hle, rfl⟩
    exact ⟨_, sub_eq_some.mpr ⟨hle, rfl⟩, rfl⟩

/-- Calls get through as long as each has five seconds behind it. -/
theorem run_isSome {rs : List Recording} {f : FlowState} :
    (∃ f', Trace.run FlowState.step rs f = some f')
      ↔ ∀ r ∈ rs, FlowState.keepSamples ≤ r.pruned := by
  induction rs generalizing f with
  | nil => simp
  | cons r rs ih =>
      rw [List.forall_mem_cons]
      constructor
      · rintro ⟨f', hrun⟩
        obtain ⟨f₁, hstep, hrun'⟩ := Trace.run_cons_inv hrun
        exact ⟨(step_eq_some.mp hstep).1, ih.mp ⟨f', hrun'⟩⟩
      · rintro ⟨hr, hrs⟩
        obtain ⟨f', hrun'⟩ := ih.mpr hrs
        refine ⟨f', ?_⟩
        rw [Trace.run_cons, step_eq_some.mpr ⟨hr, rfl⟩, Option.bind_some]
        exact hrun'

/-- A call is after what was pruned before it. -/
theorem horizon_le {rs : List Recording} {now : Nat}
    (hclock : (rs.flatMap Recording.clock ++ [now]).Pairwise (· ≤ ·)) :
    horizon rs ≤ now - FlowState.keepSamples := by
  rcases List.eq_nil_or_concat rs with rfl | ⟨rs, r, rfl⟩
  · exact Nat.zero_le _
  · rw [List.concat_eq_append] at hclock ⊢
    have hle : r.pruned ≤ now :=
      (List.pairwise_append.mp hclock).2.2 r.pruned
        (by simp [Recording.clock]) now List.mem_cons_self
    rw [horizon_snoc]
    exact Nat.sub_le_sub_right hle _

/-- The samples of a flow are what the last call kept of all. -/
theorem run_samples {rs : List Recording} {f f' : FlowState}
    (hnew : f.bandwidthSamples = [])
    (hclock : (rs.flatMap Recording.clock).Pairwise (· ≤ ·))
    (hrun : Trace.run FlowState.step rs f = some f') :
    f'.bandwidthSamples = since (horizon rs) (rs.map Recording.sample) := by
  induction rs using List.reverseRecOn generalizing f' with
  | nil =>
      cases hrun
      rw [hnew]
      rfl
  | append_singleton rs r ih =>
      rw [Trace.run_append, Option.bind_eq_some_iff] at hrun
      obtain ⟨f₁, hrun, hlast⟩ := hrun
      obtain ⟨f₂, hstep, hf'⟩ := Trace.run_cons_inv hlast
      cases hf'
      rw [List.flatMap_append, List.flatMap_singleton] at hclock
      have hforward : horizon rs ≤ r.pruned - FlowState.keepSamples := by
        refine horizon_le (hclock.sublist ?_)
        exact (List.Sublist.refl _).append (by simp [Recording.clock])
      obtain ⟨-, rfl⟩ := step_eq_some.mp hstep
      rw [horizon_snoc, List.map_append, List.map_singleton]
      dsimp only
      rw [ih (List.pairwise_append.mp hclock).1 hrun, since_write hforward]

-- =============================================================== estimates

/-- A sum on the machine. -/
theorem toNat_sum (l : List UInt64) :
    l.sum.toNat = (l.map UInt64.toNat).sum % 2 ^ 64 := by
  induction l with
  | nil => rfl
  | cons n l ih =>
      rw [List.sum_cons, List.map_cons, List.sum_cons, UInt64.toNat_add, ih]
      exact Nat.add_mod_mod ..

/-- An estimate is the quotient of what was kept of its window, summed
by the machine, rounded and cast. -/
theorem estimate_eq {rs : List Recording} {f f' : FlowState}
    {window now : Nat} (hnew : f.bandwidthSamples = [])
    (hclock : (rs.flatMap Recording.clock).Pairwise (· ≤ ·))
    (hrun : Trace.run FlowState.step rs f = some f')
    (hpos : 0 < window) (hle : window ≤ now) :
    (f'.estimatedBandwidth window now).toNat
      = trunc 64 (rnd (keptRate window now rs)) := by
  have hcut : (sub now window).getD now = now - window := by
    rw [sub_eq_some.mpr ⟨hle, rfl⟩, Option.getD_some]
  have helapsed : now - (now - window) = window := by omega
  have hsum : ((f'.bandwidthSamples.filter fun s =>
      now - window < s.1).map Prod.snd).sum.toNat
        = keptSince (now - window) rs % 2 ^ 64 := by
    rw [toNat_sum, List.map_map, run_samples hnew hclock hrun]
    exact congrArg (· % 2 ^ 64)
      (amount_since UInt64.toNat (now - window) (horizon rs) _)
  unfold FlowState.estimatedBandwidth
  dsimp only
  rw [hcut, helapsed, if_pos (asSecs_pos hpos),
    UInt64.toNat_ofNat_of_lt' (trunc_lt 64 _), hsum, keptRate]

/-- The estimate of a flow is the average of its window exactly if every
call had five seconds of clock behind it, the average fits 64 bits, and
the quotient of the kept bytes is at least the middle from which doubles
round up to the average, and below the one from which they round up to
the next integer. -/
theorem estimate_iff (flowId : FlowId) (fastestLink first last : Nat)
    {rs : List Recording} {window now : Nat}
    (hclock : (rs.flatMap Recording.clock ++ [now]).Pairwise (· ≤ ·))
    (hpos : 0 < window) (hle : window ≤ now) :
    (∃ f, Trace.run FlowState.step rs
          (FlowState.new flowId fastestLink first last) = some f
        ∧ (f.estimatedBandwidth window now).toNat
          = windowAverage window now rs)
      ↔ (∀ r ∈ rs, FlowState.keepSamples ≤ r.pruned)
        ∧ windowAverage window now rs < 2 ^ 64
        ∧ Reaches (windowAverage window now rs) (keptRate window now rs)
        ∧ (Reaches (windowAverage window now rs + 1)
            (keptRate window now rs) →
          windowAverage window now rs + 1 = 2 ^ 64) := by
  have hcalls := (List.pairwise_append.mp hclock).1
  rw [← trunc_rnd_eq_iff (keptRate_nonneg window now rs), ← run_isSome]
  constructor
  · rintro ⟨f, hrun, heq⟩
    rw [estimate_eq rfl hcalls hrun hpos hle] at heq
    exact ⟨⟨f, hrun⟩, heq⟩
  · rintro ⟨⟨f, hrun⟩, heq⟩
    refine ⟨f, hrun, ?_⟩
    rw [estimate_eq rfl hcalls hrun hpos hle]
    exact heq

/-- Two packets of 1000 bytes, six seconds apart. -/
def sparse : List Recording :=
  [⟨1000, 10000000000, 10000000000, 10000000000⟩,
    ⟨1000, 16000000000, 16000000000, 16000000000⟩]

/-- The estimate of a window of five seconds, which holds the second. -/
theorem estimate_iff_sparse :
    ∃ f, Trace.run FlowState.step sparse (FlowState.new 0 0 0 0) = some f
      ∧ (f.estimatedBandwidth 5000000000 16000000000).toNat
        = windowAverage 5000000000 16000000000 sparse :=
  (estimate_iff 0 0 0 0 (by decide) (by decide) (by decide)).mpr
    (by decide +kernel)

/-- A window of ten seconds holds both, and its estimate counts one. -/
theorem estimate_misses_window :
    ¬∀ (flowId : FlowId) (fastestLink first last : Nat)
      (rs : List Recording) (window now : Nat) (f : FlowState),
      (rs.flatMap Recording.clock ++ [now]).Pairwise (· ≤ ·) →
      0 < window → window ≤ now →
      Trace.run FlowState.step rs
        (FlowState.new flowId fastestLink first last) = some f →
      (f.estimatedBandwidth window now).toNat
        = windowAverage window now rs := by
  intro h
  obtain ⟨f, hrun⟩ : ∃ f, Trace.run FlowState.step sparse
      (FlowState.new 0 0 0 0) = some f :=
    run_isSome.mpr (by decide)
  have hestimate := h 0 0 0 0 sparse 10000000000 16000000000 f (by decide)
    (by decide) (by decide) hrun
  rw [estimate_eq rfl (by decide) hrun (by decide) (by decide)] at hestimate
  exact absurd hestimate (by decide +kernel)

/-- A window of 1.1 seconds with 33 bytes in it: the window is not a
double, and the quotient falls short of 30. -/
example :
    (FlowState.estimatedBandwidth 1100000000 7000000000
        { FlowState.new 0 0 0 0 with
          bandwidthSamples := [(6500000000, 33)] }).toNat = 29
      ∧ windowAverage 1100000000 7000000000
        [⟨33, 6500000000, 6500000000, 6500000000⟩] = 30 := by
  decide +kernel

-- ============================================================ whole seconds

/-- A quotient by a few seconds stays clear of the next integer: it is at
most seven eighths past its floor, and so is what it rounds to. -/
theorem rnd_div_lt {bytes secs : Nat} (hpos : 0 < secs) (hfew : secs ≤ 8)
    (hbytes : bytes < 2 ^ 49) :
    rnd ((bytes : ℚ) / secs) < (bytes / secs : Nat) + 1 := by
  have hquot : bytes / secs ≤ bytes := Nat.div_le_self _ _
  have hrest : bytes = secs * (bytes / secs) + bytes % secs :=
    (Nat.div_add_mod _ _).symm
  have hmod := Nat.mod_lt bytes hpos
  generalize bytes / secs = n at *
  generalize bytes % secs = r at *
  have heighth : rnd ((8 * n + 7 : ℕ) * 2 ^ (-3 : ℤ))
      = (8 * n + 7 : ℕ) * 2 ^ (-3 : ℤ) := by
    refine round_of_representable (by norm_num)
      ⟨(8 * n + 7 : ℕ), -3, ?_, by norm_num, by push_cast; rfl⟩
    rw [Nat.abs_cast]
    exact_mod_cast (show 8 * n + 7 ≤ 2 ^ 53 by omega)
  have hle : (bytes : ℚ) / secs ≤ (8 * n + 7 : ℕ) * 2 ^ (-3 : ℤ) := by
    have hsecs : (0 : ℚ) < secs := by exact_mod_cast hpos
    rw [div_le_iff₀ hsecs, hrest]
    have hcast : ((8 * (secs * n + r) : ℕ) : ℚ)
        ≤ ((8 * n + 7) * secs : ℕ) := by
      refine Nat.cast_le.mpr ?_
      have hr : 8 * r ≤ 7 * secs := by omega
      calc 8 * (secs * n + r) = 8 * n * secs + 8 * r := by ring
        _ ≤ 8 * n * secs + 7 * secs := Nat.add_le_add_left hr _
        _ = (8 * n + 7) * secs := by ring
    push_cast at hcast ⊢
    norm_num
    linarith
  refine (rnd_le heighth hle).trans_lt ?_
  push_cast
  norm_num
  linarith

/-- No call prunes into a window of at most five seconds, and seconds are
whole doubles. -/
theorem estimate_of_seconds (flowId : FlowId)
    (fastestLink first last : Nat) {rs : List Recording} {secs now : Nat}
    (hclock : (rs.flatMap Recording.clock ++ [now]).Pairwise (· ≤ ·))
    (hpos : 0 < secs) (hshort : secs ≤ 5) (hle : secs * 1000000000 ≤ now)
    (hgone : ∀ r ∈ rs, FlowState.keepSamples ≤ r.pruned)
    (hbytes : bytesSince (now - secs * 1000000000) rs < 2 ^ 49) :
    ∃ f, Trace.run FlowState.step rs
          (FlowState.new flowId fastestLink first last) = some f
        ∧ (f.estimatedBandwidth (secs * 1000000000) now).toNat
          = windowAverage (secs * 1000000000) now rs := by
  have hall : keptSince (now - secs * 1000000000) rs
      = bytesSince (now - secs * 1000000000) rs := by
    have hhorizon := horizon_le hclock
    have hkeep : FlowState.keepSamples = 5000000000 := rfl
    unfold keptSince
    rw [max_eq_left (by omega)]
  have hrate : keptRate (secs * 1000000000) now rs
      = (bytesSince (now - secs * 1000000000) rs : ℚ) / secs := by
    unfold keptRate
    rw [hall, Nat.mod_eq_of_lt (by omega), rnd_natCast (by omega),
      asSecs_seconds (by omega)]
  have haverage : windowAverage (secs * 1000000000) now rs
      = bytesSince (now - secs * 1000000000) rs / secs := by
    unfold windowAverage
    push_cast
    rw [mul_div_cancel_right₀ _ (by norm_num), Nat.floor_div_eq_div]
  have hquot : bytesSince (now - secs * 1000000000) rs / secs < 2 ^ 49 :=
    (Nat.div_le_self _ _).trans_lt hbytes
  have hnonneg := keptRate_nonneg (secs * 1000000000) now rs
  obtain ⟨f, hrun⟩ := run_isSome.mpr hgone
  refine ⟨f, hrun, ?_⟩
  rw [estimate_eq rfl (List.pairwise_append.mp hclock).1 hrun (by omega) hle,
    trunc_rnd_eq_iff hnonneg, ← le_rnd_iff_reaches hnonneg,
    ← le_rnd_iff_reaches hnonneg, haverage, hrate]
  refine ⟨by omega, ?_, fun hnext => ?_⟩
  · exact le_rnd (rnd_natCast (by omega)) Nat.cast_div_le
  · push_cast at hnext
    exact absurd hnext (not_le.mpr (rnd_div_lt hpos (by omega) hbytes))

end ChainLightning
