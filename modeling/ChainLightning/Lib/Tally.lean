/-
What a group of tasks carries together.

A section carries items (`f`), and while tasks take turns the items wander:
a section takes them from the shared state, hands them to the sections it
leaves, puts them back, or gives them away. The tally of a group is what
the sections of its tasks carry, in no order. A step changes it by what
the one section takes and leaves (`tally_perform`), whatever the other
tasks hold, so a law about one section is a law about the group:
`balance_perform` is that step for items that also lie in the shared
state.

The load of a group is the same for weights in place of items: a section
that weighs more than what it leaves lightens the group.
-/
import Mathlib.Algebra.BigOperators.Group.Finset.Piecewise
import Mathlib.Algebra.BigOperators.Ring.Finset
import Mathlib.Algebra.Order.BigOperators.Group.Finset
import Mathlib.Data.Multiset.OrderedMonoid
import ChainLightning.Lib.Pool

namespace Pool

variable {τ α σ β : Type*}

/-- What the sections that the tasks of a group still have to run carry,
in no order. -/
def tally (f : α → List β) (ts : Finset τ) (p : Pool τ α σ) : Multiset β :=
  ∑ t ∈ ts, (p.hold f t : Multiset β)

variable {f : α → List β} {ts : Finset τ}

@[simp] theorem tally_idle (s : σ) :
    tally f ts (idle s : Pool τ α σ) = 0 :=
  Finset.sum_eq_zero fun _ _ => rfl

/-- Tasks that hold nothing. -/
theorem tally_eq_zero {p : Pool τ α σ} (h : ∀ t ∈ ts, p.hold f t = []) :
    p.tally f ts = 0 :=
  Finset.sum_eq_zero fun t ht => congrArg _ (h t ht)

variable [DecidableEq τ]

/-- A task of the group gets other sections to run. -/
theorem tally_update {t : τ} (ht : t ∈ ts) (acts : List α) (s : σ)
    (p : Pool τ α σ) :
    tally f ts { shared := s, pending := Function.update p.pending t acts }
        + (p.hold f t : Multiset β)
      = p.tally f ts + (acts.flatMap f : Multiset β) := by
  have hothers : ∀ t' ∈ ts.erase t,
      (hold f t' { shared := s, pending := Function.update p.pending t acts }
        : Multiset β) = p.hold f t' := by
    intro t' ht'
    rw [hold_update_of_ne (Finset.ne_of_mem_erase ht')]
    rfl
  unfold tally
  rw [← Finset.sum_erase_add ts _ ht, Finset.sum_congr rfl hothers,
    hold_update_self, ← Finset.sum_erase_add ts _ ht]
  exact add_right_comm _ _ _

/-- A task outside the group is no concern of it. -/
theorem tally_update_of_notMem {t : τ} (ht : t ∉ ts) (acts : List α) (s : σ)
    (p : Pool τ α σ) :
    tally f ts { shared := s, pending := Function.update p.pending t acts }
      = p.tally f ts := by
  refine Finset.sum_congr rfl fun t' ht' => ?_
  have hne : t' ≠ t := fun heq => ht (heq ▸ ht')
  rw [hold_update_of_ne hne]
  rfl

/-- A task between two rounds starts one. -/
theorem tally_begin (f : α → List β) (ts : Finset τ) {t : τ}
    {p : Pool τ α σ} (hidle : p.pending t = []) {round : List α}
    (hround : t ∉ ts → round.flatMap f = []) :
    tally f ts { p with pending := Function.update p.pending t round }
      = p.tally f ts + (round.flatMap f : Multiset β) := by
  by_cases ht : t ∈ ts
  · have hupdate := tally_update (f := f) ht round p.shared p
    rw [hold_of_pending hidle] at hupdate
    exact (add_zero _).symm.trans hupdate
  · rw [hround ht]
    exact (tally_update_of_notMem ht round p.shared p).trans
      (add_zero _).symm

/-- A section gives up what it carries for what it leaves. -/
theorem tally_perform (f : α → List β) (ts : Finset τ) {t : τ}
    {p : Pool τ α σ} {a : α} {rest next : List α}
    (hpending : p.pending t = a :: rest)
    (hgroup : t ∉ ts → f a = [] ∧ next.flatMap f = []) (s : σ) :
    tally f ts
        { shared := s, pending := Function.update p.pending t (next ++ rest) }
        + (f a : Multiset β)
      = p.tally f ts + (next.flatMap f : Multiset β) := by
  by_cases ht : t ∈ ts
  · have hupdate := tally_update (f := f) ht (next ++ rest) s p
    rw [hold_of_pending hpending, List.flatMap_cons, List.flatMap_append,
      ← Multiset.coe_add, ← Multiset.coe_add, ← add_assoc, ← add_assoc]
      at hupdate
    exact add_right_cancel hupdate
  · rw [tally_update_of_notMem ht, (hgroup ht).1, (hgroup ht).2]

/-- Items in the shared state and in the hands of a group: a section that
keeps the balance between what comes in and what goes out keeps it for
the group. -/
theorem balance_perform (f : α → List β) (g : σ → Multiset β)
    (ts : Finset τ) {t : τ} {p : Pool τ α σ} {a : α} {rest next : List α}
    {s : σ} {incoming outgoing : Multiset β} (hpending : p.pending t = a :: rest)
    (hgroup : t ∉ ts → f a = [] ∧ next.flatMap f = [])
    (hsection : (next.flatMap f : Multiset β) + g s + outgoing
      = (f a : Multiset β) + g p.shared + incoming) :
    tally f ts
        { shared := s, pending := Function.update p.pending t (next ++ rest) }
        + g s + outgoing
      = p.tally f ts + g p.shared + incoming := by
  refine add_right_cancel (b := (f a : Multiset β)) ?_
  have htally := tally_perform f ts hpending hgroup s
  calc tally f ts { shared := s, pending := _ } + g s + outgoing + f a
      = (tally f ts { shared := s, pending := _ } + f a)
          + (g s + outgoing) := by ac_rfl
    _ = p.tally f ts + ((next.flatMap f : Multiset β) + g s + outgoing) := by
        rw [htally]
        ac_rfl
    _ = p.tally f ts + g p.shared + incoming + f a := by
        rw [hsection]
        ac_rfl

-- ================================================================ weights

/-- What the sections that the tasks of a group still have to run weigh. -/
def load (w : α → Nat) (ts : Finset τ) (p : Pool τ α σ) : Nat :=
  (p.tally (fun a => List.replicate (w a) ()) ts).card

variable {w : α → Nat}

omit [DecidableEq τ] in
/-- Weights of sections, told one by one. -/
private theorem length_weights (acts : List α) :
    (acts.flatMap fun a => List.replicate (w a) ()).length
      = (acts.map w).sum := by
  rw [List.length_flatMap]
  exact congrArg List.sum
    (List.map_congr_left fun a _ => List.length_replicate)

omit [DecidableEq τ] in
/-- The load is that of the tasks together. -/
theorem load_eq_sum (ts : Finset τ) (p : Pool τ α σ) :
    p.load w ts = ∑ t ∈ ts, ((p.pending t).map w).sum := by
  unfold load tally
  rw [Multiset.card_sum]
  refine Finset.sum_congr rfl fun t _ => ?_
  rw [Multiset.coe_card]
  exact length_weights (p.pending t)

/-- The load of a round that a task starts. -/
theorem load_begin (ts : Finset τ) {t : τ} {p : Pool τ α σ}
    (hidle : p.pending t = []) (round : List α)
    (hround : t ∉ ts → ∀ a ∈ round, w a = 0) :
    load w ts { p with pending := Function.update p.pending t round }
      = p.load w ts + (round.map w).sum := by
  unfold load
  rw [tally_begin _ ts hidle fun ht => List.flatMap_eq_nil_iff.mpr
    fun a ha => congrArg (List.replicate · ()) (hround ht a ha),
    Multiset.card_add, Multiset.coe_card, length_weights]

/-- A section gives up its weight for that of what it leaves. -/
theorem load_perform (ts : Finset τ) {t : τ} {p : Pool τ α σ} {a : α}
    {rest : List α} (hpending : p.pending t = a :: rest) (next : List α)
    (hgroup : t ∉ ts → w a = 0 ∧ ∀ b ∈ next, w b = 0) (s : σ) :
    load w ts
        { shared := s, pending := Function.update p.pending t (next ++ rest) }
        + w a
      = p.load w ts + (next.map w).sum := by
  have htally := congrArg Multiset.card (tally_perform
    (fun a => List.replicate (w a) ()) ts hpending
    (fun ht => ⟨congrArg (List.replicate · ()) (hgroup ht).1,
      List.flatMap_eq_nil_iff.mpr fun b hb =>
        congrArg (List.replicate · ()) ((hgroup ht).2 b hb)⟩) s)
  rwa [Multiset.card_add, Multiset.card_add, Multiset.coe_card,
    Multiset.coe_card, List.length_replicate, length_weights] at htally

end Pool
