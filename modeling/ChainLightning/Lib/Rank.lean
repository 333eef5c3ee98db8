/-
Order statistics of lists.

`rank l i d` is the `i`-th least element of a list, counted from 0. It
depends on the elements alone (`insertionSort_of_perm`), grows with `i`
(`rank_mono`) and passes through monotone maps (`rank_map`). A fixed
position of the list itself is no such statistic: it holds one value in
every order of the elements only if there is one value to hold
(`getD_perm_iff`).
-/
import Mathlib.Data.List.GetD
import Mathlib.Data.List.Sort

namespace Rank

variable {α : Type*} [LinearOrder α] {l l' : List α} {i j : Nat} {d : α}

/-- The `i`-th least element. -/
def rank (l : List α) (i : Nat) (d : α) : α :=
  (l.insertionSort (· ≤ ·)).getD i d

/-- Two orders of the same elements sort to one. -/
theorem insertionSort_of_perm (h : l.Perm l') :
    l.insertionSort (· ≤ ·) = l'.insertionSort (· ≤ ·) := by
  have hperm := (List.perm_insertionSort (· ≤ ·) l).trans
    (h.trans (List.perm_insertionSort (· ≤ ·) l').symm)
  exact hperm.eq_of_pairwise' List.sortedLE_insertionSort.pairwise
    List.sortedLE_insertionSort.pairwise

/-- A rank inside the list is an element of it. -/
theorem rank_mem (h : i < l.length) : rank l i d ∈ l := by
  have hi : i < (l.insertionSort (· ≤ ·)).length := by
    rwa [List.length_insertionSort]
  unfold rank
  rw [List.getD_eq_getElem _ _ hi]
  exact (List.mem_insertionSort _).mp (List.getElem_mem hi)

/-- A greater rank has no lesser element. -/
theorem rank_mono (hij : i ≤ j) (hj : j < l.length) :
    rank l i d ≤ rank l j d := by
  have hlen := List.length_insertionSort (· ≤ ·) l
  have hj' : j < (l.insertionSort (· ≤ ·)).length := by rwa [hlen]
  have hi' : i < (l.insertionSort (· ≤ ·)).length := hij.trans_lt hj'
  unfold rank
  rw [List.getD_eq_getElem _ _ hi', List.getD_eq_getElem _ _ hj']
  exact List.sortedLE_insertionSort.getElem_le_getElem_of_le hij

/-- A monotone map takes ranks to ranks. -/
theorem rank_map {β : Type*} [LinearOrder β] {f : α → β}
    (hf : ∀ a b, a ≤ b ↔ f a ≤ f b) (l : List α) (i : Nat) (d : α) :
    rank (l.map f) i (f d) = f (rank l i d) := by
  unfold rank
  rw [← List.map_insertionSort (· ≤ ·) (· ≤ ·) f l fun a _ b _ => hf a b,
    List.getD_map]

/-- In ascending order positions are ranks. -/
theorem rank_of_sorted (h : l.Pairwise (· ≤ ·)) :
    rank l i d = l.getD i d := by
  unfold rank
  rw [h.insertionSort_eq]

-- ============================================================= positions

section Positions

variable {β : Type*} [DecidableEq β] {l : List β} {i : Nat} {a : β}

/-- Any element can come to stand at a position. -/
theorem exists_perm_getD (hi : i < l.length) (ha : a ∈ l) (d : β) :
    ∃ l' : List β, l'.Perm l ∧ l'.getD i d = a := by
  have herase := List.perm_cons_erase ha
  have hlen : (l.erase a).length = l.length - 1 := List.length_erase_of_mem ha
  refine ⟨(l.erase a).take i ++ a :: (l.erase a).drop i, ?_, ?_⟩
  · have hmiddle : ((l.erase a).take i ++ a :: (l.erase a).drop i).Perm
        (a :: ((l.erase a).take i ++ (l.erase a).drop i)) :=
      List.perm_middle
    rw [List.take_append_drop] at hmiddle
    exact hmiddle.trans herase.symm
  · have htake : ((l.erase a).take i).length = i := by
      rw [List.length_take, hlen]
      omega
    rw [List.getD_append_right _ _ _ _ htake.le, htake, Nat.sub_self]
    rfl

/-- A position holds one value in every order of the elements exactly if
they are all the same. -/
theorem getD_perm_iff (hi : i < l.length) (d : β) :
    (∀ l' : List β, l'.Perm l → l'.getD i d = l.getD i d)
      ↔ ∀ a ∈ l, ∀ b ∈ l, a = b := by
  constructor
  · intro h a ha b hb
    obtain ⟨la, hla, rfl⟩ := exists_perm_getD hi ha d
    obtain ⟨lb, hlb, rfl⟩ := exists_perm_getD hi hb d
    exact (h la hla).trans (h lb hlb).symm
  · intro h l' hperm
    have hi' : i < l'.length := by rwa [hperm.length_eq]
    rw [List.getD_eq_getElem _ _ hi, List.getD_eq_getElem _ _ hi']
    exact h _ (hperm.mem_iff.mp (List.getElem_mem hi')) _
      (List.getElem_mem hi)

end Positions

end Rank
