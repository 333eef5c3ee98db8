/-
When chunks arrive that are held back to arrive together.

A chunk on a link of positive weight is delayed until it arrives with
the slowest of these links, but never by more than the configured cap
(`calculateSyncDelay_add_latency`). So the arrival is one monotone
function of the latency of a link, capped by the slowest one, and it
takes the greatest and the least latency to the last and the first
arrival: what the cap leaves of their distance is the spread.
-/
import Mathlib.Order.Bounds.Image
import ChainLightning.Scheduler

namespace ChainLightning

open LinkScheduler

/-- The most that a chunk is held back, in nanoseconds. -/
def LinkScheduler.maxSendDelay (s : LinkScheduler) : Nat :=
  s.config.maxSendDelayMs.toNat * 1000000

/-- The one-way latencies of the links with weight. -/
def LinkScheduler.latencies (s : LinkScheduler) : Set Nat :=
  {latency | ∃ (i : Nat) (l : LinkState), s.links[i]? = some l
    ∧ 0 < l.weight ∧ l.oneWayLatency = latency}

/-- When a chunk arrives on each of these links, held back as computed,
counted from its scheduling. -/
def LinkScheduler.arrivals (s : LinkScheduler) : Set Nat :=
  {arrival | ∃ (i : Nat) (l : LinkState), s.links[i]? = some l
    ∧ 0 < l.weight ∧ s.calculateSyncDelay i + l.oneWayLatency = arrival}

variable {s : LinkScheduler} {slowest fastest : Nat}

-- ============================================================== the delay

/-- A maximum taken along a list is below what is above all of it. -/
private theorem foldl_max_le {b : Nat} (l : List Nat) (a : Nat) :
    l.foldl max a ≤ b ↔ a ≤ b ∧ ∀ x ∈ l, x ≤ b := by
  induction l generalizing a with
  | nil => simp
  | cons x l ih => rw [List.foldl_cons, ih, max_le_iff, List.forall_mem_cons,
      and_assoc]

/-- The links with weight have the latencies that the maximum is taken
of. -/
private theorem mem_latencies {latency : Nat} :
    latency ∈ (s.links.filter (·.weight > 0)).map LinkState.oneWayLatency
      ↔ latency ∈ s.latencies := by
  constructor
  · intro h
    obtain ⟨l, hl, hlatency⟩ := List.mem_map.mp h
    obtain ⟨hmem, hweight⟩ := List.mem_filter.mp hl
    obtain ⟨i, hi⟩ := List.mem_iff_getElem?.mp hmem
    exact ⟨i, l, hi, of_decide_eq_true hweight, hlatency⟩
  · rintro ⟨i, l, hi, hweight, hlatency⟩
    have hmem := List.mem_iff_getElem?.mpr ⟨i, hi⟩
    exact List.mem_map.mpr
      ⟨l, List.mem_filter.mpr ⟨hmem, decide_eq_true hweight⟩, hlatency⟩

/-- The maximum that `calculate_sync_delay` takes is the greatest
latency. -/
private theorem maxLatency_eq (hmax : IsGreatest s.latencies slowest) :
    ((s.links.filter (·.weight > 0)).map
      LinkState.oneWayLatency).foldl max 0 = slowest := by
  refine Nat.le_antisymm ((foldl_max_le _ 0).mpr ⟨Nat.zero_le _, ?_⟩) ?_
  · intro latency h
    exact hmax.2 (mem_latencies.mp h)
  · exact ((foldl_max_le _ 0).mp le_rfl).2 slowest
      (mem_latencies.mpr hmax.1)

/-- A chunk arrives with the slowest link, or held back as long as
allowed. -/
theorem calculateSyncDelay_add_latency
    (hmax : IsGreatest s.latencies slowest) {i : Nat} {l : LinkState}
    (hl : s.links[i]? = some l) (hweight : 0 < l.weight) :
    s.calculateSyncDelay i + l.oneWayLatency
      = min slowest (l.oneWayLatency + s.maxSendDelay) := by
  have hle : l.oneWayLatency ≤ slowest := hmax.2 ⟨i, l, hl, hweight, rfl⟩
  unfold calculateSyncDelay maxSendDelay
  rw [hl]
  dsimp only
  rw [maxLatency_eq hmax]
  split <;> omega

/-- The arrivals are the latencies, each brought up to the slowest one
as far as the cap allows. -/
theorem arrivals_eq_image (hmax : IsGreatest s.latencies slowest) :
    s.arrivals = (fun latency => min slowest (latency + s.maxSendDelay))
      '' s.latencies := by
  ext arrival
  constructor
  · rintro ⟨i, l, hl, hweight, rfl⟩
    exact ⟨l.oneWayLatency, ⟨i, l, hl, hweight, rfl⟩,
      (calculateSyncDelay_add_latency hmax hl hweight).symm⟩
  · rintro ⟨_, ⟨i, l, hl, hweight, rfl⟩, rfl⟩
    exact ⟨i, l, hl, hweight, calculateSyncDelay_add_latency hmax hl hweight⟩

-- ============================================================= the spread

/-- Arrivals are synchronised up to the cap: each one is that of the
slowest link or held back by the cap, none is later than the slowest
link, and their spread is what the cap leaves of the latencies'. -/
theorem arrivals_synchronised (hmax : IsGreatest s.latencies slowest)
    (hmin : IsLeast s.latencies fastest) :
    (∀ i l, s.links[i]? = some l → 0 < l.weight →
      s.calculateSyncDelay i + l.oneWayLatency
        = min slowest (l.oneWayLatency + s.maxSendDelay))
    ∧ (∀ arrival ∈ s.arrivals, arrival ≤ slowest)
    ∧ ∃ last first, IsGreatest s.arrivals last
      ∧ IsLeast s.arrivals first
      ∧ (last - first : ℤ)
        = max 0 ((slowest - fastest : ℤ) - s.maxSendDelay) := by
  have hmono : Monotone fun latency =>
      min slowest (latency + s.maxSendDelay) := by
    intro a b hab
    exact min_le_min_left slowest (Nat.add_le_add_right hab _)
  have himage := arrivals_eq_image hmax
  refine ⟨fun i l => calculateSyncDelay_add_latency hmax, ?_,
    min slowest (slowest + s.maxSendDelay),
    min slowest (fastest + s.maxSendDelay), ?_, ?_, ?_⟩
  · rintro arrival ⟨i, l, hl, hweight, rfl⟩
    rw [calculateSyncDelay_add_latency hmax hl hweight]
    exact min_le_left _ _
  · rw [himage]
    exact hmono.map_isGreatest hmax
  · rw [himage]
    exact hmono.map_isLeast hmin
  · have hle : fastest ≤ slowest := hmax.2 hmin.1
    omega

/-- Three links, one without weight: the slow one waits for nobody, the
fast one by the cap of 100 ms. -/
private def threeLinks : LinkScheduler where
  config := Config.default.linkScheduler
  links := [{ LinkState.new 0 7500000 with rttUs := 40000 },
    { LinkState.new 1 27500000 with rttUs := 600000 },
    { LinkState.new 2 7500000 with weight := 0, rttUs := 900000 }]
  cursor := 0
  totalWeight := 280
  lastAdjustment := 0

/-- A spread of 280 ms less the cap. -/
theorem arrivals_synchronised_three :
    ∃ last first, IsGreatest threeLinks.arrivals last
      ∧ IsLeast threeLinks.arrivals first ∧ (last - first : ℤ) = 180000000 := by
  have hboth : threeLinks.latencies = {20000000, 300000000} := by
    ext latency
    rw [← mem_latencies]
    have hlist : (threeLinks.links.filter (·.weight > 0)).map
        LinkState.oneWayLatency = [20000000, 300000000] := by
      decide
    rw [hlist]
    simp
  have hmax : IsGreatest threeLinks.latencies 300000000 := by
    rw [hboth]
    simp [IsGreatest, upperBounds]
  have hmin : IsLeast threeLinks.latencies 20000000 := by
    rw [hboth]
    simp [IsLeast, lowerBounds]
  have hcap : threeLinks.maxSendDelay = 100000000 := by
    decide +kernel
  obtain ⟨last, first, hlast, hfirst, hspread⟩ :=
    (arrivals_synchronised hmax hmin).2.2
  refine ⟨last, first, hlast, hfirst, ?_⟩
  rw [hspread, hcap]
  omega

end ChainLightning
