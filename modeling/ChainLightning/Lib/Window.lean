/-
A log of timed samples that is pruned as it is written.

A write appends a sample and keeps what is after a horizon. Writes with
horizons that never move back leave what the history has after the last
of them (`since_write`), and a question about a window is then one about
the history after the later of the two instants (`amount_since`).
-/
import Mathlib.Data.List.Basic
import Mathlib.Algebra.Order.Group.Nat
import Mathlib.Algebra.Ring.Nat

namespace Window

variable {β : Type*}

/-- The samples after an instant. -/
def since (cut : Nat) (samples : List (Nat × β)) : List (Nat × β) :=
  samples.filter fun s => cut < s.1

theorem since_append (cut : Nat) (samples samples' : List (Nat × β)) :
    since cut (samples ++ samples')
      = since cut samples ++ since cut samples' :=
  List.filter_append ..

/-- After two instants is after the later. -/
theorem since_since (cut cut' : Nat) (samples : List (Nat × β)) :
    since cut (since cut' samples) = since (max cut cut') samples := by
  unfold since
  rw [List.filter_filter]
  refine List.filter_congr fun s _ => ?_
  rw [← Bool.decide_and]
  exact decide_eq_decide.mpr max_lt_iff.symm

/-- A write with a horizon that has not moved back. -/
theorem since_write {cut cut' : Nat} (h : cut ≤ cut')
    (samples : List (Nat × β)) (s : Nat × β) :
    since cut' (since cut samples ++ [s]) = since cut' (samples ++ [s]) := by
  rw [since_append, since_append, since_since, max_eq_left h]

/-- How much the samples after an instant add up to. -/
def amount (size : β → Nat) (cut : Nat) (samples : List (Nat × β)) : Nat :=
  ((since cut samples).map fun s => size s.2).sum

theorem amount_since (size : β → Nat) (cut cut' : Nat)
    (samples : List (Nat × β)) :
    amount size cut (since cut' samples)
      = amount size (max cut cut') samples := by
  unfold amount
  rw [since_since]

end Window
