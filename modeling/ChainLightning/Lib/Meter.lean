/-
Meters read by difference.

A meter is a counter that is reported through its increments: every
report carries the increment since the report before it. `Telescopes`
says so of a list of reports, given what the meter showed before the
first. The increments of such a list add up to the last value
(`telescopes_sum`): that is what a receiver of every report, once, can
conclude. A receiver that sees report `i` of `n` some number of times
(`sum_eq_sum_count`) sees the sum weighted by these numbers, which never
exceeds the true one if no report comes twice
(`sum_count_add_missed`), and misses what the reports that never came
would have added.
-/
import Mathlib.Algebra.BigOperators.Group.Finset.Basic
import Mathlib.Algebra.BigOperators.Intervals
import Mathlib.Data.List.Basic

namespace Meter

variable {α : Type*} (delta value : α → Nat)

/-- Each report's increment leads from the value before to its own. -/
def Telescopes : Nat → List α → Prop
  | _, [] => True
  | start, r :: l => start + delta r = value r ∧ Telescopes (value r) l

/-- What the meter shows after a list of reports. -/
def reading (start : Nat) (l : List α) : Nat :=
  (l.getLast?.map value).getD start

@[simp] theorem reading_nil (start : Nat) : reading value start [] = start :=
  rfl

@[simp] theorem reading_snoc (start : Nat) (l : List α) (r : α) :
    reading value start (l ++ [r]) = value r := by
  unfold reading
  rw [List.getLast?_concat]
  rfl

theorem reading_cons (start : Nat) (r : α) (l : List α) :
    reading value start (r :: l) = reading value (value r) l := by
  cases l with
  | nil => rfl
  | cons r' l => rfl

/-- Reading wrapped reports. -/
theorem reading_map {β : Type*} (f : β → α) (start : Nat) (l : List β) :
    reading value start (l.map f)
      = reading (fun b => value (f b)) start l := by
  unfold reading
  rw [List.getLast?_map, Option.map_map]
  rfl

/-- The distance of two meters. -/
theorem reading_sub (value' : α → Nat) (l : List α) :
    reading (fun r => value r - value' r) 0 l
      = reading value 0 l - reading value' 0 l := by
  unfold reading
  cases l.getLast? with
  | none => rfl
  | some r => rfl

variable {delta value}

/-- Two meters that agree on every report show the same. -/
theorem reading_congr {value' : α → Nat} (start : Nat) {l : List α}
    (h : ∀ r ∈ l, value r = value' r) :
    reading value start l = reading value' start l := by
  unfold reading
  cases hlast : l.getLast? with
  | none => rfl
  | some r => exact h r (List.mem_of_getLast? hlast)

/-- A meter that is behind another on every report shows less. -/
theorem reading_le {value' : α → Nat} {l : List α}
    (h : ∀ r ∈ l, value r ≤ value' r) :
    reading value 0 l ≤ reading value' 0 l := by
  unfold reading
  cases hlast : l.getLast? with
  | none => exact Nat.le_refl 0
  | some r => exact h r (List.mem_of_getLast? hlast)

/-- The increments add up to the last value. -/
theorem telescopes_sum {start : Nat} {l : List α}
    (h : Telescopes delta value start l) :
    start + (l.map delta).sum = reading value start l := by
  induction l generalizing start with
  | nil => rfl
  | cons r l ih =>
      rw [List.map_cons, List.sum_cons, ← Nat.add_assoc, h.1, ih h.2,
        reading_cons]

/-- A report that continues from the last value extends the list. -/
theorem telescopes_snoc {start : Nat} {l : List α} {r : α}
    (h : Telescopes delta value start l)
    (hr : reading value start l + delta r = value r) :
    Telescopes delta value start (l ++ [r]) := by
  induction l generalizing start with
  | nil => exact ⟨hr, trivial⟩
  | cons r' l ih =>
      refine ⟨h.1, ih h.2 ?_⟩
      rw [← reading_cons]
      exact hr

/-- The first reports of a list telescope. -/
theorem telescopes_left {start : Nat} {l l' : List α}
    (h : Telescopes delta value start (l ++ l')) :
    Telescopes delta value start l := by
  induction l generalizing start with
  | nil => trivial
  | cons r l ih => exact ⟨h.1, ih h.2⟩

/-- The report behind the first ones starts where they end. -/
theorem telescopes_next {start : Nat} {l l' : List α} {r : α}
    (h : Telescopes delta value start (l ++ r :: l')) :
    reading value start l + delta r = value r := by
  induction l generalizing start with
  | nil => exact h.1
  | cons r' l ih =>
      rw [reading_cons]
      exact ih h.2

/-- Reports wrapped in another record telescope as they do. -/
theorem telescopes_map {β : Type*} {f : β → α} {start : Nat} {l : List β}
    (h : Telescopes delta value start (l.map f)) :
    Telescopes (fun b => delta (f b)) (fun b => value (f b)) start l := by
  induction l generalizing start with
  | nil => trivial
  | cons b l ih => exact ⟨h.1, ih h.2⟩

-- ==================================================== reports by number

/-- The increment of report `i`, nothing if there is none. -/
def increment (delta : α → Nat) (l : List α) (i : Nat) : Nat :=
  (l[i]?.map delta).getD 0

/-- The increments of all reports, by number. -/
theorem sum_increment (delta : α → Nat) (l : List α) :
    ∑ i ∈ Finset.range l.length, increment delta l i
      = (l.map delta).sum := by
  induction l using List.reverseRecOn with
  | nil => rfl
  | append_singleton l r ih =>
      rw [List.length_append, List.length_singleton, Finset.sum_range_succ,
        List.map_append, List.sum_append, ← ih]
      congr 1
      · refine Finset.sum_congr rfl fun i hi => ?_
        unfold increment
        rw [List.getElem?_append_left (Finset.mem_range.mp hi)]
      · unfold increment
        rw [List.getElem?_concat_length]
        simp

/-- A sum over numbers below `n`, gathered by number. -/
theorem sum_eq_sum_count {n : Nat} {l : List Nat} (hl : ∀ i ∈ l, i < n)
    (f : Nat → Nat) :
    (l.map f).sum = ∑ i ∈ Finset.range n, l.count i * f i := by
  rw [Finset.sum_list_map_count]
  refine Finset.sum_subset ?_ ?_
  · intro i hi
    exact Finset.mem_range.mpr (hl i (List.mem_toFinset.mp hi))
  · intro i _ hi
    rw [List.count_eq_zero_of_not_mem fun hm => hi (List.mem_toFinset.mpr hm)]
    exact zero_nsmul _

/-- If no number comes twice, the gathered sum and the numbers that
never came make up the whole. -/
theorem sum_count_add_missed {n : Nat} {l : List Nat}
    (hl : ∀ i, l.count i ≤ 1) (f : Nat → Nat) :
    ∑ i ∈ Finset.range n, l.count i * f i
        + ∑ i ∈ (Finset.range n).filter (fun i => l.count i = 0), f i
      = ∑ i ∈ Finset.range n, f i := by
  rw [Finset.sum_filter, ← Finset.sum_add_distrib]
  refine Finset.sum_congr rfl fun i _ => ?_
  have hi := hl i
  by_cases h0 : l.count i = 0
  · rw [if_pos h0, h0, Nat.zero_mul, Nat.zero_add]
  · have h1 : l.count i = 1 := by omega
    rw [if_neg h0, h1, Nat.one_mul, Nat.add_zero]

end Meter
