/-
Reading from a log.

A log is a list that only grows; a reader takes entries by their place,
in whatever order and as often as it likes (`pick`). What it has read is
then bounded by the log: as a part of it in order if the places increase
(`pick_sublist`), and entry by entry within a factor if no place is taken
more often than that (`sum_pick_le`).
-/
import Mathlib.Algebra.BigOperators.Group.Finset.Basic
import Mathlib.Algebra.BigOperators.Ring.Finset
import Mathlib.Algebra.BigOperators.Ring.List
import Mathlib.Algebra.Order.BigOperators.Group.Finset
import Mathlib.Data.List.Perm.Basic

namespace Log

variable {α β : Type*}

/-- The entries at some places, in the order of the places. -/
def pick (l : List α) (places : List Nat) : List α :=
  places.flatMap fun i => l[i]?.toList

/-- What is read is in the log, at one of the places. -/
theorem mem_pick {l : List α} {places : List Nat} {x : α} :
    x ∈ pick l places ↔ ∃ i ∈ places, l[i]? = some x := by
  unfold pick
  simp only [List.mem_flatMap, Option.mem_toList]

/-- Taking the places one after the other reads the log. -/
theorem pick_range (l : List α) (n : Nat) :
    pick l (List.range n) = l.take n := by
  induction n with
  | zero => rfl
  | succ n ih =>
      unfold pick at ih ⊢
      rw [List.range_succ, List.flatMap_append, ih, List.flatMap_singleton,
        List.take_add_one]

/-- Places whose entries come to nothing may be left out. -/
theorem pick_filter {f : α → List β} {keep : α → Bool}
    (hkeep : ∀ x, keep x = false → f x = []) (l : List α)
    (places : List Nat) :
    (pick l (places.filter fun i => l[i]?.any keep)).flatMap f
      = (pick l places).flatMap f := by
  induction places with
  | nil => rfl
  | cons i places ih =>
      have hsplit : (pick l (i :: places)).flatMap f
          = l[i]?.toList.flatMap f ++ (pick l places).flatMap f :=
        List.flatMap_append
      rw [hsplit, ← ih, List.filter_cons]
      split
      case isTrue => exact List.flatMap_append
      case isFalse hnot =>
        have hnone : l[i]?.toList.flatMap f = [] := by
          cases hi : l[i]? with
          | none => rfl
          | some x =>
              rw [hi] at hnot
              have hx : keep x = false := Bool.eq_false_iff.mpr hnot
              rw [Option.toList_some, List.flatMap_singleton, hkeep x hx]
        rw [hnone, List.nil_append]

/-- If the places increase, what is read is in the order of the log. -/
private theorem pick_sublist_drop {l : List α} {places : List Nat} {n : Nat}
    (hincrease : places.Pairwise (· < ·)) (hfrom : ∀ i ∈ places, n ≤ i) :
    (pick l places).Sublist (l.drop n) := by
  induction places generalizing n with
  | nil => exact List.nil_sublist _
  | cons i places ih =>
      obtain ⟨hafter, hrest⟩ := List.pairwise_cons.mp hincrease
      have htail : (pick l places).Sublist (l.drop (i + 1)) :=
        ih hrest fun j hj => hafter j hj
      have hhead : (pick l (i :: places)).Sublist (l.drop i) := by
        unfold pick
        rw [List.flatMap_cons]
        by_cases hi : i < l.length
        · rw [List.drop_eq_getElem_cons hi, List.getElem?_eq_getElem hi]
          exact htail.cons_cons _
        · rw [List.getElem?_eq_none (by omega)]
          exact htail.trans (List.drop_sublist_drop_left l (Nat.le_succ i))
      exact hhead.trans
        (List.drop_sublist_drop_left l (hfrom i List.mem_cons_self))

/-- If the places increase, what is read is a part of the log in
order. -/
theorem pick_sublist {l : List α} {places : List Nat}
    (hincrease : places.Pairwise (· < ·)) :
    (pick l places).Sublist l :=
  pick_sublist_drop (n := 0) hincrease fun _ _ => Nat.zero_le _

/-- If no place is taken more than `k` times, what is read weighs at most
`k` times as much as the log. -/
theorem sum_pick_le (w : α → Nat) {l : List α} {places : List Nat} {k : Nat}
    (hplaces : ∀ i ∈ places, i < l.length) (hk : ∀ i, places.count i ≤ k) :
    ((pick l places).map w).sum ≤ k * (l.map w).sum := by
  have hsum : ∀ is : List Nat, ((pick l is).map w).sum
      = (is.map fun i => (l[i]?.toList.map w).sum).sum := by
    intro is
    unfold pick
    rw [List.map_flatMap, List.flatMap_def, List.sum_flatten, List.map_map]
    rfl
  have hlog : (l.map w).sum
      = ∑ i ∈ Finset.range l.length, (l[i]?.toList.map w).sum := by
    have hrange := hsum (List.range l.length)
    rw [pick_range, List.take_length] at hrange
    rw [hrange]
    rfl
  rw [hsum, Finset.sum_list_map_count, hlog, Finset.mul_sum]
  calc ∑ i ∈ places.toFinset, places.count i • (l[i]?.toList.map w).sum
      ≤ ∑ i ∈ places.toFinset, k * (l[i]?.toList.map w).sum :=
        Finset.sum_le_sum fun i _ => Nat.mul_le_mul_right _ (hk i)
    _ ≤ ∑ i ∈ Finset.range l.length, k * (l[i]?.toList.map w).sum := by
        refine Finset.sum_le_sum_of_subset fun i hi => ?_
        exact Finset.mem_range.mpr (hplaces i (List.mem_toFinset.mp hi))

end Log
