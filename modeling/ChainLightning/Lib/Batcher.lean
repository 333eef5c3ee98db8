/-
Batching: a stream of items cut into nonempty batches.

A batcher holds the batches it has cut and the items that wait for the
next cut. An item is pushed behind the waiting ones, and a cut turns
what waits into a batch; with nothing waiting it does nothing, so an
empty batch cannot be built. Whatever the order of pushes and cuts, the
items of the batches followed by the waiting ones are the items pushed
(`items_push`, `items_cut`).
-/
import Mathlib.Data.List.Basic

variable {α : Type*}

/-- Batches cut so far and items waiting; no batch is empty. -/
structure Batcher (α : Type*) where
  batches : List (List α)
  pending : List α
  nonempty : ∀ b ∈ batches, b ≠ []

namespace Batcher

/-- Nothing pushed yet. -/
def empty : Batcher α := ⟨[], [], fun _ h => nomatch h⟩

/-- Put one item behind the waiting ones. -/
def push (x : α) (b : Batcher α) : Batcher α :=
  { b with pending := b.pending ++ [x] }

/-- Turn the waiting items into a batch. -/
def cut (b : Batcher α) (h : b.pending ≠ []) : Batcher α where
  batches := b.batches ++ [b.pending]
  pending := []
  nonempty := by
    intro l hl
    rcases List.mem_append.mp hl with hl | hl
    · exact b.nonempty l hl
    · rw [List.mem_singleton.mp hl]
      exact h

/-- Everything the batcher holds, in the order it was pushed. -/
def items (b : Batcher α) : List α := b.batches.flatten ++ b.pending

@[simp] theorem items_push (x : α) (b : Batcher α) :
    (b.push x).items = b.items ++ [x] :=
  (List.append_assoc _ _ _).symm

@[simp] theorem items_cut (b : Batcher α) (h : b.pending ≠ []) :
    (b.cut h).items = b.items := by
  simp [items, cut]

end Batcher
