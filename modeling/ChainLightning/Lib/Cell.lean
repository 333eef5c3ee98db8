/-
A shared cell that clients update in two sections: one takes a copy, a
later one writes a changed copy back. Between the two any other client
may write, so a write undoes what was written since its copy was taken.

What a value contains is its lineage: the write that made it, the write
that made the copy it was made from, and so on (`Cell.lineage`). Every
value is the first one with the changes of its lineage applied
(`Rests`). Where one part of the value is changed by one client alone,
the part is that client's exactly when the client is in the lineage
(`Rests.part`).
-/
import Mathlib.Logic.Function.Basic

/-- A value, what it rests on, and the copies the clients hold, each with
what it rested on. The last writer is first in a lineage. -/
structure Cell (ι α : Type*) where
  value : α
  lineage : List ι
  copies : ι → Option (α × List ι)

namespace Cell

variable {ι α β : Type*}

/-- A cell that nobody has touched. -/
def fresh (value : α) : Cell ι α where
  value := value
  lineage := []
  copies := fun _ => none

/-- What the client's copy rests on; nothing, without one. -/
def base (i : ι) (c : Cell ι α) : List ι :=
  ((c.copies i).map Prod.snd).getD []

/-- The client writes. -/
def write (i : ι) (value : α) (c : Cell ι α) : Cell ι α :=
  { c with value, lineage := i :: c.base i }

variable [DecidableEq ι]

/-- The client takes a copy. -/
def read (i : ι) (c : Cell ι α) : Cell ι α :=
  { c with
    copies := Function.update c.copies i (some (c.value, c.lineage)) }

@[simp] theorem read_value (i : ι) (c : Cell ι α) :
    (c.read i).value = c.value := rfl

@[simp] theorem read_lineage (i : ι) (c : Cell ι α) :
    (c.read i).lineage = c.lineage := rfl

@[simp] theorem read_self (i : ι) (c : Cell ι α) :
    (c.read i).copies i = some (c.value, c.lineage) :=
  Function.update_self ..

theorem read_of_ne {i j : ι} (h : j ≠ i) (c : Cell ι α) :
    (c.read i).copies j = c.copies j :=
  Function.update_of_ne h ..

omit [DecidableEq ι] in
@[simp] theorem write_value (i : ι) (a : α) (c : Cell ι α) :
    (c.write i a).value = a := rfl

omit [DecidableEq ι] in
@[simp] theorem write_lineage (i : ι) (a : α) (c : Cell ι α) :
    (c.write i a).lineage = i :: c.base i := rfl

omit [DecidableEq ι] in
@[simp] theorem write_copies (i : ι) (a : α) (c : Cell ι α) :
    (c.write i a).copies = c.copies := rfl

-- =============================================================== contents

omit [DecidableEq ι]

/-- The value is the first one with the changes of the lineage applied,
the last one of them first in the list. -/
def Rests (change : ι → α → Option α) (init : α) : List ι → α → Prop
  | [], a => a = init
  | i :: l, a => ∃ b, Rests change init l b ∧ change i b = some a

/-- The cell and all copies are what they rest on. -/
structure Sound (change : ι → α → Option α) (init : α) (c : Cell ι α) :
    Prop where
  value : Rests change init c.lineage c.value
  copies : ∀ i a l, c.copies i = some (a, l) → Rests change init l a

variable {change : ι → α → Option α} {init : α} {c : Cell ι α}

theorem sound_fresh : Sound change init (fresh init) where
  value := rfl
  copies := fun _ _ _ h => by cases h

theorem Sound.read [DecidableEq ι] (h : c.Sound change init) (i : ι) :
    (c.read i).Sound change init where
  value := h.value
  copies := by
    intro j a l hcopy
    by_cases hj : j = i
    · subst hj
      rw [read_self] at hcopy
      cases hcopy
      exact h.value
    · rw [read_of_ne hj] at hcopy
      exact h.copies j a l hcopy

/-- A client that changes its copy writes what rests on the copy's
lineage and itself. -/
theorem Sound.write (h : c.Sound change init) {i : ι} {a b : α}
    {l : List ι} (hcopy : c.copies i = some (b, l))
    (hchange : change i b = some a) :
    (c.write i a).Sound change init where
  value := by
    have hbase : c.base i = l := by rw [base, hcopy]; rfl
    rw [write_lineage, hbase]
    exact ⟨b, h.copies i b l hcopy, hchange⟩
  copies := h.copies

/-- A part of the value that one client sets and all others leave alone:
it is as set exactly when that client is in the lineage. -/
theorem Rests.part [DecidableEq ι] {part : α → β} {i : ι} {x : β}
    (hset : ∀ a b, change i a = some b → part b = x)
    (hkeep : ∀ j a b, j ≠ i → change j a = some b → part b = part a)
    {l : List ι} {a : α} (h : Rests change init l a) :
    part a = if i ∈ l then x else part init := by
  induction l generalizing a with
  | nil =>
      obtain rfl : a = init := h
      rfl
  | cons j l ih =>
      obtain ⟨b, hb, hchange⟩ := h
      by_cases hj : j = i
      · subst hj
        rw [if_pos List.mem_cons_self]
        exact hset b a hchange
      · have hmem : i ∈ j :: l ↔ i ∈ l := by
          rw [List.mem_cons, or_iff_right (Ne.symm hj)]
        rw [hkeep j b a hj hchange, ih hb]
        simp only [hmem]

end Cell
