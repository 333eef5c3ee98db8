/-
Tasks that share a state.

A task works in rounds. A round is a list of sections, and each section
runs atomically on the shared state, given a reading `ι` of what lies
outside it; it may put further sections in front of what is left of its
round. Between the sections of one task any other task may run, so the
runs of a pool are the interleavings of its tasks at the granularity of
sections.

The rule of a pool is `Fine`: an invariant of the shared state, and a
condition on every section that is still to run. A round of sections
that meet the condition starts finely (`Fine.begin`), and a section
that keeps the invariant and leaves such sections runs finely
(`Fine.perform`).

`Owned` says that every task has only its own sections to run. What the
sections of a task carry (`hold`) is then accounted for task by task: a
step changes what its own task holds (`hold_update_self`) and nothing
that another one does (`hold_update_of_ne`).
-/
import Mathlib.Logic.Function.Basic

/-- A shared state, with the sections each task still has to run. -/
structure Pool (τ α σ : Type*) where
  shared : σ
  pending : τ → List α

namespace Pool

variable {τ α σ ι : Type*} [DecidableEq τ]

/-- Every task is between two rounds. -/
def idle (s : σ) : Pool τ α σ where
  shared := s
  pending := fun _ => []

/-- A task starts a round; it is between two rounds. -/
def begin (t : τ) (round : List α) (p : Pool τ α σ) :
    Option (Pool τ α σ) :=
  if (p.pending t).isEmpty then
    some { p with pending := Function.update p.pending t round }
  else none

/-- A task runs the next section of its round. -/
def perform (exec : ι → α → σ → Option (List α × σ)) (reading : ι) (t : τ)
    (p : Pool τ α σ) : Option (Pool τ α σ) :=
  match p.pending t with
  | [] => none
  | a :: rest => (exec reading a p.shared).map fun (next, s) =>
      { shared := s
        pending := Function.update p.pending t (next ++ rest) }

/-- What the start of a round does. -/
theorem begin_inv {t : τ} {round : List α} {p p' : Pool τ α σ}
    (h : p.begin t round = some p') :
    p.pending t = []
      ∧ p' = { p with pending := Function.update p.pending t round } := by
  unfold begin at h
  split at h
  case isTrue hidle =>
    injection h with h
    exact ⟨List.isEmpty_iff.mp hidle, h.symm⟩
  case isFalse => cases h

theorem begin_of_idle {t : τ} {round : List α} {p : Pool τ α σ}
    (h : p.pending t = []) :
    p.begin t round
      = some { p with pending := Function.update p.pending t round } := by
  unfold begin
  rw [h]
  rfl

/-- What the next section of a round does. -/
theorem perform_inv {exec : ι → α → σ → Option (List α × σ)} {reading : ι}
    {t : τ} {p p' : Pool τ α σ} (h : p.perform exec reading t = some p') :
    ∃ a rest next s, p.pending t = a :: rest
      ∧ exec reading a p.shared = some (next, s)
      ∧ p' = {
        shared := s
        pending := Function.update p.pending t (next ++ rest) } := by
  unfold perform at h
  split at h
  case h_1 => cases h
  case h_2 a rest hpending =>
    obtain ⟨⟨next, s⟩, hexec, rfl⟩ := Option.map_eq_some_iff.mp h
    exact ⟨a, rest, next, s, hpending, hexec, rfl⟩

theorem perform_of_pending {exec : ι → α → σ → Option (List α × σ)}
    {reading : ι} {t : τ} {p : Pool τ α σ} {a : α} {rest : List α}
    (h : p.pending t = a :: rest) :
    p.perform exec reading t = (exec reading a p.shared).map fun (next, s) =>
      { shared := s
        pending := Function.update p.pending t (next ++ rest) } := by
  unfold perform
  rw [h]

-- =========================================================== other tasks

/-- Replace what a task has to run. -/
def assign (t : τ) (acts : List α) (p : Pool τ α σ) : Pool τ α σ :=
  { p with pending := Function.update p.pending t acts }

@[simp] theorem assign_shared (t : τ) (acts : List α) (p : Pool τ α σ) :
    (p.assign t acts).shared = p.shared := rfl

@[simp] theorem assign_pending_self (t : τ) (acts : List α)
    (p : Pool τ α σ) : (p.assign t acts).pending t = acts :=
  Function.update_self ..

theorem assign_pending_of_ne {t t' : τ} (h : t' ≠ t) (acts : List α)
    (p : Pool τ α σ) : (p.assign t acts).pending t' = p.pending t' :=
  Function.update_of_ne h ..

/-- What a task has to run makes no difference to the round another one
starts. -/
theorem begin_assign {t t' : τ} (h : t' ≠ t) (acts round : List α)
    (p : Pool τ α σ) :
    (p.assign t acts).begin t' round
      = (p.begin t' round).map (assign t acts) := by
  unfold begin
  rw [assign_pending_of_ne h]
  by_cases hidle : (p.pending t').isEmpty
  · rw [if_pos hidle, if_pos hidle]
    simp only [assign, Option.map_some, Function.update_comm h]
  · rw [if_neg hidle, if_neg hidle]
    rfl

/-- What a task has to run makes no difference to the section another
one runs. -/
theorem perform_assign {exec : ι → α → σ → Option (List α × σ)}
    {reading : ι} {t t' : τ} (h : t' ≠ t) (acts : List α)
    (p : Pool τ α σ) :
    (p.assign t acts).perform exec reading t'
      = (p.perform exec reading t').map (assign t acts) := by
  unfold perform
  rw [assign_pending_of_ne h, assign_shared]
  cases p.pending t' with
  | nil => rfl
  | cons a rest =>
      dsimp only
      rw [Option.map_map]
      congr 1
      funext ⟨next, s⟩
      simp only [assign, Function.comp_apply, Function.update_comm h]

-- ============================================================ invariants

/-- The shared state meets an invariant, and every section that is still
to run meets a condition. -/
structure Fine (I : σ → Prop) (ok : α → Prop) (p : Pool τ α σ) : Prop where
  shared : I p.shared
  pending : ∀ t, ∀ a ∈ p.pending t, ok a

variable {I : σ → Prop} {ok : α → Prop}

omit [DecidableEq τ] in
theorem fine_idle {s : σ} (h : I s) :
    Fine I ok (idle s : Pool τ α σ) where
  shared := h
  pending := fun _ _ hmem => nomatch hmem

/-- Replacing what one task has to run. -/
theorem pending_update {pending : τ → List α} {t : τ}
    {acts : List α} (h : ∀ t, ∀ a ∈ pending t, ok a)
    (hacts : ∀ a ∈ acts, ok a) :
    ∀ t', ∀ a ∈ Function.update pending t acts t', ok a := by
  intro t' a hmem
  by_cases heq : t' = t
  · subst heq
    rw [Function.update_self] at hmem
    exact hacts a hmem
  · rw [Function.update_of_ne heq] at hmem
    exact h t' a hmem

/-- A round of sections that meet the condition starts finely. -/
theorem Fine.begin {t : τ} {round : List α} {p p' : Pool τ α σ}
    (h : Fine I ok p) (hround : ∀ a ∈ round, ok a)
    (hstep : p.begin t round = some p') : Fine I ok p' := by
  obtain ⟨-, rfl⟩ := begin_inv hstep
  exact ⟨h.shared, pending_update h.pending hround⟩

/-- A section that keeps the invariant, and leaves sections that meet
the condition, runs finely. -/
theorem Fine.perform {exec : ι → α → σ → Option (List α × σ)} {reading : ι}
    {t : τ} {p p' : Pool τ α σ} (h : Fine I ok p)
    (hexec : ∀ a s next s', ok a → I s →
      exec reading a s = some (next, s') → I s' ∧ ∀ b ∈ next, ok b)
    (hstep : p.perform exec reading t = some p') : Fine I ok p' := by
  obtain ⟨a, rest, next, s, hpending, hrun, rfl⟩ := perform_inv hstep
  have hround : ∀ b ∈ a :: rest, ok b := hpending ▸ h.pending t
  obtain ⟨hI, hnext⟩ :=
    hexec a p.shared next s (hround a List.mem_cons_self) h.shared hrun
  refine ⟨hI, pending_update h.pending fun b hb => ?_⟩
  rcases List.mem_append.mp hb with hb | hb
  · exact hnext b hb
  · exact hround b (List.mem_cons_of_mem a hb)

-- ============================================================= ownership

/-- Every section that is still to run is one of its task's own. -/
def Owned (owns : τ → α → Prop) (p : Pool τ α σ) : Prop :=
  ∀ t, ∀ a ∈ p.pending t, owns t a

variable {owns : τ → α → Prop}

omit [DecidableEq τ] in
theorem owned_idle (s : σ) : Owned owns (idle s : Pool τ α σ) :=
  fun _ _ hmem => nomatch hmem

/-- A task that has its own sections to run instead. -/
private theorem owned_update {p : Pool τ α σ} (h : p.Owned owns) {t : τ}
    {acts : List α} (hacts : ∀ a ∈ acts, owns t a) (s : σ) :
    Owned owns { shared := s, pending := Function.update p.pending t acts } := by
  intro t' a hmem
  by_cases heq : t' = t
  · subst heq
    exact hacts a (Function.update_self (f := p.pending) t' acts ▸ hmem)
  · exact h t' a (Function.update_of_ne (f := p.pending) heq acts ▸ hmem)

/-- A round of a task's own sections keeps the ownership. -/
theorem Owned.begin {t : τ} {round : List α} {p p' : Pool τ α σ}
    (h : p.Owned owns) (hround : ∀ a ∈ round, owns t a)
    (hstep : p.begin t round = some p') : p'.Owned owns := by
  obtain ⟨-, rfl⟩ := begin_inv hstep
  exact owned_update h hround p.shared

/-- So does a section whose successors are its task's own. -/
theorem Owned.perform {exec : ι → α → σ → Option (List α × σ)} {reading : ι}
    {t : τ} {p p' : Pool τ α σ} (h : p.Owned owns)
    (hexec : ∀ a s next s', owns t a → exec reading a s = some (next, s') →
      ∀ b ∈ next, owns t b)
    (hstep : p.perform exec reading t = some p') : p'.Owned owns := by
  obtain ⟨a, rest, next, s, hpending, hrun, rfl⟩ := perform_inv hstep
  have hround : ∀ b ∈ a :: rest, owns t b := hpending ▸ h t
  refine owned_update h (fun b hb => ?_) s
  rcases List.mem_append.mp hb with hb | hb
  · exact hexec a p.shared next s (hround a List.mem_cons_self) hrun b hb
  · exact hround b (List.mem_cons_of_mem a hb)

-- ================================================================ holding

variable {β : Type*} {f : α → List β}

/-- What the sections that a task still has to run carry, in order. -/
def hold (f : α → List β) (t : τ) (p : Pool τ α σ) : List β :=
  (p.pending t).flatMap f

/-- What a task holds once it has other sections to run. -/
@[simp] theorem hold_update_self (t : τ) (acts : List α) (s : σ)
    (pending : τ → List α) :
    ({ shared := s, pending := Function.update pending t acts }
      : Pool τ α σ).hold f t = acts.flatMap f :=
  congrArg (List.flatMap f) (Function.update_self t acts pending)

theorem hold_update_of_ne {t t' : τ} (h : t' ≠ t) (acts : List α) (s : σ)
    (pending : τ → List α) :
    ({ shared := s, pending := Function.update pending t acts }
      : Pool τ α σ).hold f t' = (pending t').flatMap f :=
  congrArg (List.flatMap f) (Function.update_of_ne h acts pending)

omit [DecidableEq τ] in
/-- What a task holds, read off its sections. -/
theorem hold_of_pending {t : τ} {p : Pool τ α σ} {acts : List α}
    (h : p.pending t = acts) : p.hold f t = acts.flatMap f := by
  unfold hold
  rw [h]

end Pool
