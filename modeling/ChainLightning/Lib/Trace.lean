/-
Runs of partial transition systems.

A system is a partial step function `step : α → σ → Option σ` over
labels `α` and states `σ`; a label that is disabled in a state has no
successor. Runs are lists of labels, so a run is data: it can be split,
extended and evaluated, and an invariant is proved once per step
(`run_invariant`) and read off any run.

`Along` restricts a run to steps that meet a condition in the state
they are taken from. It is the vocabulary for network disciplines and
for "in every run whose steps all meet ..." statements:
`run_along` is the induction that goes with it, and `run_along_iff` the
one for a property that holds exactly of the runs that meet it. Steps
that lower a measure bound the length of a run (`run_length_le`).

An observer notes something at each step, and `record` is what it has
noted along a run. `run_record` is the induction for what holds between
the notes and the state, and `Throughout` says something of every note
and the ones before it.
-/
import Mathlib.Data.List.Basic

namespace Trace

variable {α σ : Type*} {step : α → σ → Option σ}

/-- Take the steps of `l` in order, failing on the first disabled one. -/
def run (step : α → σ → Option σ) : List α → σ → Option σ
  | [], s => some s
  | a :: l, s => (step a s).bind (run step l)

/-- Every step of the run meets `ok` in the state it is taken from. -/
def Along (step : α → σ → Option σ) (ok : α → σ → Prop) :
    List α → σ → Prop
  | [], _ => True
  | a :: l, s => ok a s ∧
      match step a s with
      | some s' => Along step ok l s'
      | none => True

/-- A decidable condition is decidable along a run. -/
instance Along.decidable {ok : α → σ → Prop}
    [∀ a s, Decidable (ok a s)] :
    ∀ (l : List α) (s : σ), Decidable (Along step ok l s)
  | [], _ => isTrue trivial
  | a :: l, s =>
      haveI : Decidable (match step a s with
          | some s' => Along step ok l s'
          | none => True) :=
        match step a s with
        | some s' => Along.decidable l s'
        | none => isTrue trivial
      inferInstanceAs (Decidable (ok a s ∧ _))

@[simp] theorem run_nil (s : σ) : run step [] s = some s := rfl

@[simp] theorem run_cons (a : α) (l : List α) (s : σ) :
    run step (a :: l) s = (step a s).bind (run step l) := rfl

/-- A successful nonempty run is a first step and a run from there. -/
theorem run_cons_inv {a : α} {l : List α} {s s' : σ}
    (h : run step (a :: l) s = some s') :
    ∃ s₁, step a s = some s₁ ∧ run step l s₁ = some s' :=
  Option.bind_eq_some_iff.mp h

/-- Runs compose. -/
theorem run_append (l₁ l₂ : List α) (s : σ) :
    run step (l₁ ++ l₂) s = (run step l₁ s).bind (run step l₂) := by
  induction l₁ generalizing s with
  | nil => rfl
  | cons a l₁ ih =>
      rw [List.cons_append, run_cons, run_cons, Option.bind_assoc]
      exact congrArg _ (funext fun s₁ => ih s₁)

@[simp] theorem along_nil (ok : α → σ → Prop) (s : σ) :
    Along step ok [] s := trivial

/-- The condition of a run, read at its first step. -/
theorem Along.head {ok : α → σ → Prop} {a : α} {l : List α} {s : σ}
    (h : Along step ok (a :: l) s) : ok a s := h.1

/-- The condition of a run, read after its first step. -/
theorem Along.tail {ok : α → σ → Prop} {a : α} {l : List α} {s s₁ : σ}
    (h : Along step ok (a :: l) s) (hs : step a s = some s₁) :
    Along step ok l s₁ := by
  have h2 := h.2
  rw [hs] at h2
  exact h2

/-- Two conditions along the same run. -/
theorem Along.and {ok ok' : α → σ → Prop} :
    ∀ {l : List α} {s : σ}, Along step ok l s → Along step ok' l s →
      Along step (fun a s => ok a s ∧ ok' a s) l s := by
  intro l
  induction l with
  | nil => intro _ _ _; trivial
  | cons a l ih =>
      intro s h h'
      refine ⟨⟨h.head, h'.head⟩, ?_⟩
      cases hs : step a s with
      | none => trivial
      | some s₁ => exact ih (h.tail hs) (h'.tail hs)

/-- A weaker condition along the same run. -/
theorem Along.imp {ok ok' : α → σ → Prop} (h : ∀ a s, ok a s → ok' a s)
    {l : List α} : ∀ {s : σ}, Along step ok l s → Along step ok' l s := by
  induction l with
  | nil => intro s _; trivial
  | cons a l ih =>
      intro s hal
      refine ⟨h a s hal.head, ?_⟩
      cases hs : step a s with
      | none => trivial
      | some s₁ => exact ih (hal.tail hs)

/-- A condition that every label meets in every state. -/
theorem Along.of_forall {ok : α → σ → Prop} {l : List α}
    (h : ∀ a ∈ l, ∀ s, ok a s) : ∀ s, Along step ok l s := by
  induction l with
  | nil => intro s; trivial
  | cons a l ih =>
      intro s
      refine ⟨h a List.mem_cons_self s, ?_⟩
      cases step a s with
      | none => trivial
      | some s₁ => exact ih (fun b hb => h b (List.mem_cons_of_mem a hb)) s₁

/-- What every conditioned step preserves, a conditioned run
preserves. -/
theorem run_along {ok : α → σ → Prop} {P : σ → Prop}
    (hstep : ∀ a s s', P s → ok a s → step a s = some s' → P s') :
    ∀ {l : List α} {s s' : σ}, Along step ok l s →
      run step l s = some s' → P s → P s' := by
  intro l
  induction l with
  | nil =>
      intro s s' _ hrun hP
      cases hrun
      exact hP
  | cons a l ih =>
      intro s s' hal hrun hP
      obtain ⟨s₁, hs, hrun'⟩ := run_cons_inv hrun
      exact ih (hal.tail hs) hrun' (hstep a s s₁ hP hal.head hs)

/-- What every step preserves, a run preserves. -/
theorem run_invariant {P : σ → Prop}
    (hstep : ∀ a s s', P s → step a s = some s' → P s')
    {l : List α} {s s' : σ} (hrun : run step l s = some s') (hP : P s) :
    P s' := by
  have htriv : Along step (fun _ _ => True) l s :=
    Along.of_forall (fun _ _ _ => trivial) s
  exact run_along (fun a s s' hP _ hs => hstep a s s' hP hs) htriv hrun hP

/-- What every step preserves holds in every state of a run. -/
theorem Along.of_invariant {P : σ → Prop}
    (hstep : ∀ a s s', P s → step a s = some s' → P s') {l : List α} :
    ∀ {s : σ}, P s → Along step (fun _ s => P s) l s := by
  induction l with
  | nil => intro s _; trivial
  | cons a l ih =>
      intro s hP
      refine ⟨hP, ?_⟩
      cases hs : step a s with
      | none => trivial
      | some s₁ => exact ih (hstep a s s₁ hP hs)

/-- What every conditioned step preserves holds in every state of a
conditioned run. -/
theorem Along.keeps {ok : α → σ → Prop} {P : σ → Prop}
    (hstep : ∀ a s s', P s → ok a s → step a s = some s' → P s')
    {l : List α} : ∀ {s : σ}, Along step ok l s → P s →
      Along step (fun a s => ok a s ∧ P s) l s := by
  induction l with
  | nil => intro s _ _; trivial
  | cons a l ih =>
      intro s hal hP
      refine ⟨⟨hal.head, hP⟩, ?_⟩
      cases hs : step a s with
      | none => trivial
      | some s₁ => exact ih (hal.tail hs) (hstep a s s₁ hP hal.head hs)

/-- What no step can bring about held all along a run if it holds at its
end. -/
theorem Along.of_final {P : σ → Prop}
    (hstep : ∀ a s s', step a s = some s' → P s' → P s) {l : List α} :
    ∀ {s s' : σ}, run step l s = some s' → P s' →
      P s ∧ Along step (fun _ s => P s) l s := by
  induction l with
  | nil =>
      intro s s' hrun hP
      cases hrun
      exact ⟨hP, trivial⟩
  | cons a l ih =>
      intro s s' hrun hP
      obtain ⟨s₁, hs, hrun'⟩ := run_cons_inv hrun
      obtain ⟨hP₁, halong⟩ := ih hrun' hP
      have hfirst := hstep a s s₁ hs hP₁
      refine ⟨hfirst, hfirst, ?_⟩
      rw [hs]
      exact halong

/-- A property that a step keeps exactly when it meets a condition, a run
keeps exactly when all its steps do. -/
theorem run_along_iff {ok : α → σ → Prop} {P Q : σ → Prop}
    (hstep : ∀ a s s', P s → step a s = some s' →
      P s' ∧ (Q s' ↔ Q s ∧ ok a s)) :
    ∀ {l : List α} {s s' : σ}, run step l s = some s' → P s →
      (Q s' ↔ Q s ∧ Along step ok l s) := by
  intro l
  induction l with
  | nil =>
      intro s s' hrun _
      cases hrun
      exact (and_iff_left trivial).symm
  | cons a l ih =>
      intro s s' hrun hP
      obtain ⟨s₁, hs, hrun'⟩ := run_cons_inv hrun
      obtain ⟨hP₁, hQ⟩ := hstep a s s₁ hP hs
      rw [ih hrun' hP₁, hQ, and_assoc, Along, hs]

/-- Steps that lower a measure run out: a run of them is no longer than
the measure was. -/
theorem run_length_le {ok : α → Prop} {P : σ → Prop} (due : σ → Nat)
    (hstep : ∀ a s s', P s → ok a → step a s = some s' →
      P s' ∧ due s' < due s) :
    ∀ {l : List α} {s s' : σ}, (∀ a ∈ l, ok a) → run step l s = some s' →
      P s → P s' ∧ l.length + due s' ≤ due s := by
  intro l
  induction l with
  | nil =>
      intro s s' _ hrun hP
      cases hrun
      exact ⟨hP, Nat.le_of_eq (Nat.zero_add _)⟩
  | cons a l ih =>
      intro s s' hok hrun hP
      obtain ⟨s₁, hs, hrun'⟩ := run_cons_inv hrun
      obtain ⟨hP₁, hdue⟩ := hstep a s s₁ hP (hok a List.mem_cons_self) hs
      obtain ⟨hP', hrest⟩ := ih (fun b hb => hok b (List.mem_cons_of_mem a hb))
        hrun' hP₁
      refine ⟨hP', ?_⟩
      rw [List.length_cons]
      omega

-- ============================================================ recordings

variable {β : Type*}

/-- What an observer notes along a run, oldest first. -/
def record (step : α → σ → Option σ) (obs : α → σ → List β) :
    List α → σ → List β
  | [], _ => []
  | a :: l, s => obs a s ++
      match step a s with
      | some s' => record step obs l s'
      | none => []

/-- An observer that notes at most one thing a step notes no more than
there are steps. -/
theorem record_length_le {obs : α → σ → List β}
    (hobs : ∀ a s, (obs a s).length ≤ 1) (l : List α) (s : σ) :
    (record step obs l s).length ≤ l.length := by
  induction l generalizing s with
  | nil => exact Nat.le_refl 0
  | cons a l ih =>
      rw [record, List.length_append, List.length_cons]
      have hfirst := hobs a s
      cases step a s with
      | none => exact Nat.le_add_left_of_le hfirst
      | some s₁ =>
          have hrest := ih s₁
          dsimp only
          omega

/-- The notes of a run are those of its first part and of the rest. -/
theorem record_append (obs : α → σ → List β) {l₁ : List α} {s s' : σ}
    (hrun : run step l₁ s = some s') (l₂ : List α) :
    record step obs (l₁ ++ l₂) s
      = record step obs l₁ s ++ record step obs l₂ s' := by
  induction l₁ generalizing s with
  | nil =>
      cases hrun
      rfl
  | cons a l₁ ih =>
      obtain ⟨s₁, hs, hrun'⟩ := run_cons_inv hrun
      rw [List.cons_append, record, record, hs]
      dsimp only
      rw [ih hrun', List.append_assoc]

/-- What every conditioned step preserves while it is noted, a
conditioned run preserves with all its notes. -/
theorem run_record (obs : α → σ → List β) {ok : α → σ → Prop}
    {P : List β → σ → Prop}
    (hstep : ∀ seen a s s', P seen s → ok a s → step a s = some s' →
      P (seen ++ obs a s) s') :
    ∀ {l : List α} {seen : List β} {s s' : σ}, Along step ok l s →
      run step l s = some s' → P seen s →
        P (seen ++ record step obs l s) s' := by
  intro l
  induction l with
  | nil =>
      intro seen s s' _ hrun hP
      cases hrun
      rwa [record, List.append_nil]
  | cons a l ih =>
      intro seen s s' hal hrun hP
      obtain ⟨s₁, hs, hrun'⟩ := run_cons_inv hrun
      have hrest := ih (hal.tail hs) hrun' (hstep seen a s s₁ hP hal.head hs)
      rwa [List.append_assoc, show obs a s ++ record step obs l s₁
        = record step obs (a :: l) s by rw [record, hs]] at hrest

/-- Every note has a property together with the notes before it. -/
def Throughout (P : List β → β → Prop) (seen : List β) : Prop :=
  ∀ earlier x later, seen = earlier ++ x :: later → P earlier x

theorem throughout_nil (P : List β → β → Prop) : Throughout P [] := by
  intro earlier x later h
  exact absurd h.symm (List.append_ne_nil_of_right_ne_nil _
    (List.cons_ne_nil x later))

/-- One more note. -/
theorem Throughout.snoc {P : List β → β → Prop} {seen : List β} {x : β}
    (h : Throughout P seen) (hx : P seen x) :
    Throughout P (seen ++ [x]) := by
  intro earlier y later hsplit
  rcases List.eq_nil_or_concat later with rfl | ⟨later', z, rfl⟩
  · obtain ⟨rfl, hxy⟩ := List.append_inj' hsplit rfl
    cases hxy
    exact hx
  · rw [List.concat_eq_append, ← List.cons_append,
      ← List.append_assoc] at hsplit
    obtain ⟨hseen, _⟩ := List.append_inj' hsplit rfl
    exact h earlier y later' hseen

end Trace
