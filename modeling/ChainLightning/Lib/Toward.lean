/-
Bounded steps toward a target, within a floor and a ceiling.

`step` moves a value toward a target by at most a cap, and `clamp` puts
the result between a floor and a ceiling. Both keep the order of their
targets, and what they make of a value is decided by the side on which
the target lies: that is all a proof about such a control loop needs.
-/
import Mathlib.Order.Basic

namespace Toward

/-- From `current` toward `target`, by at most `cap`. -/
def step (cap current target : Nat) : Nat :=
  if target > current then current + min (target - current) cap
  else current - min (current - target) cap

/-- The value between `lo` and `hi`; `hi` prevails. -/
def clamp (lo hi x : Nat) : Nat := min (max x lo) hi

variable {cap current target lo hi x c : Nat}

/-- A farther target takes the step farther. -/
theorem step_mono {target' : Nat} (h : target ≤ target') :
    step cap current target ≤ step cap current target' := by
  unfold step
  split <;> split <;> omega

/-- A step goes up exactly toward a target above. -/
theorem step_le_iff (hcap : 0 < cap) :
    step cap current target ≤ current ↔ target ≤ current := by
  unfold step
  split <;> omega

/-- A step goes down exactly toward a target below. -/
theorem le_step_iff (hcap : 0 < cap) :
    current ≤ step cap current target ↔ current ≤ target := by
  unfold step
  split <;> omega

/-- A target above that the cap reaches is reached. -/
theorem step_of_near (hup : current ≤ target)
    (hnear : target ≤ current + cap) : step cap current target = target := by
  unfold step
  split <;> omega

/-- A step up ends at the target or at the cap. -/
theorem step_up (hup : current ≤ target) :
    step cap current target = min target (current + cap) := by
  unfold step
  split <;> omega

theorem clamp_mono {y : Nat} (h : x ≤ y) :
    clamp lo hi x ≤ clamp lo hi y := by
  unfold clamp
  omega

theorem clamp_le_iff : clamp lo hi x ≤ c ↔ (x ≤ c ∧ lo ≤ c) ∨ hi ≤ c := by
  unfold clamp
  omega

theorem clamp_lt_iff : clamp lo hi x < c ↔ (x < c ∧ lo < c) ∨ hi < c := by
  unfold clamp
  omega

theorem clamp_lt_clamp_iff {y : Nat} :
    clamp lo hi x < clamp lo hi y ↔ max x lo < min y hi := by
  unfold clamp
  omega

end Toward
