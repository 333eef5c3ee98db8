/-
Changes of mode that have to be held for.

A watch is a mode and one timer. A look at it brings an observation and
its own readings of the clock: where the observation asks to leave the
mode the timer runs on (or starts), otherwise it is cleared, and the
mode changes where the observation also triggers the change and the
timer has run for the hold time. One timer serves every mode, since a
change clears it.

`Reaches` collects the notes of every look at a watch that may also be
replaced by a new one at any time. `Reaches.stretch` is the invariant: a
running timer was started by a look that every later look agreed with.
`Reaches.held` reads it at a change, and `Held.over` is what the clock
adds: whatever is outside the stretch was over a hold time ago.
-/
import ChainLightning.Lib.Trace

namespace Hysteresis

variable {M O : Type*}

/-- When a mode changes: which observations ask to leave it, which of
these trigger the change, where it leads and how long they must have
asked. -/
structure Rule (M O : Type*) where
  asks : M → O → Bool
  triggers : M → O → Bool
  target : M → O → M
  hold : Nat

/-- A mode and the timer that runs while it is asked to change. -/
structure Watch (M : Type*) where
  mode : M
  since : Option Nat

/-- An observation, with the readings of the clock when it was taken,
where it starts a timer and where it reads one. -/
structure Look (O : Type*) where
  obs : O
  taken : Nat
  started : Nat
  decided : Nat
  deriving DecidableEq

/-- A look at a watch, with what was there before and the mode after. -/
structure Note (M O : Type*) extends Look O where
  mode : M
  since : Option Nat
  after : M
  deriving DecidableEq

/-- The readings of a look in order. -/
def Look.times (x : Look O) : List Nat := [x.taken, x.started, x.decided]

/-- The watch after a look. -/
def Rule.next (rule : Rule M O) (look : Look O) (w : Watch M) : Watch M :=
  if rule.asks w.mode look.obs then
    let since := w.since.getD look.started
    if rule.triggers w.mode look.obs ∧ rule.hold ≤ look.decided - since then
      ⟨rule.target w.mode look.obs, none⟩
    else ⟨w.mode, some since⟩
  else ⟨w.mode, none⟩

/-- The note of a look. -/
def Rule.note (rule : Rule M O) (look : Look O) (w : Watch M) :
    Note M O where
  toLook := look
  mode := w.mode
  since := w.since
  after := (rule.next look w).mode

/-- The note of a change. -/
def Note.Changes (x : Note M O) : Prop := x.mode ≠ x.after

/-- A look in `m` whose observation asks to leave it. -/
def Rule.Agrees (rule : Rule M O) (m : M) (x : Note M O) : Prop :=
  x.mode = m ∧ rule.asks m x.obs

/-- A look that is due for a change: it triggers and the timer has run. -/
def Rule.Due (rule : Rule M O) (x : Note M O) : Prop :=
  rule.asks x.mode x.obs ∧ rule.triggers x.mode x.obs
    ∧ rule.hold ≤ x.decided - x.since.getD x.started

-- =============================================================== one look

variable {rule : Rule M O}

theorem due_note {look : Look O} {w : Watch M} :
    rule.Due (rule.note look w) ↔ rule.asks w.mode look.obs
      ∧ rule.triggers w.mode look.obs
      ∧ rule.hold ≤ look.decided - w.since.getD look.started :=
  Iff.rfl

/-- Where a look that is due leads. -/
theorem after_of_due {look : Look O} {w : Watch M}
    (h : rule.Due (rule.note look w)) :
    (rule.note look w).after = rule.target w.mode look.obs := by
  obtain ⟨hasks, htriggers, hhold⟩ := due_note.mp h
  show (rule.next look w).mode = _
  unfold Rule.next
  rw [if_pos hasks, if_pos ⟨htriggers, hhold⟩]

/-- A timer runs after a look that asked and left the mode. -/
theorem next_since {look : Look O} {w : Watch M} {s : Nat}
    (h : (rule.next look w).since = some s) :
    rule.asks w.mode look.obs ∧ (rule.next look w).mode = w.mode
      ∧ w.since.getD look.started = s := by
  unfold Rule.next at h ⊢
  by_cases hasks : rule.asks w.mode look.obs = true
  · rw [if_pos hasks] at h ⊢
    by_cases hdue : rule.triggers w.mode look.obs
        ∧ rule.hold ≤ look.decided - w.since.getD look.started
    · rw [if_pos hdue] at h
      cases h
    · rw [if_neg hdue] at h ⊢
      exact ⟨hasks, rfl, Option.some.inj h⟩
  · rw [if_neg hasks] at h
    cases h

/-- Only a look that is due changes the mode. -/
theorem due_of_changes {look : Look O} {w : Watch M}
    (h : (rule.note look w).Changes) : rule.Due (rule.note look w) := by
  by_contra hdue
  apply h
  show w.mode = (rule.next look w).mode
  unfold Rule.next
  by_cases hasks : rule.asks w.mode look.obs = true
  · rw [if_pos hasks, if_neg fun h => hdue (due_note.mpr ⟨hasks, h⟩)]
  · rw [if_neg hasks]

-- ================================================================ history

/-- The notes of a watch, oldest first, and what it shows after them. A
new watch may take its place at any time. -/
inductive Reaches (rule : Rule M O) : List (Note M O) → Watch M → Prop
  | start (m : M) : Reaches rule [] ⟨m, none⟩
  | reset {seen : List (Note M O)} {w : Watch M} (m : M) :
      Reaches rule seen w → Reaches rule seen ⟨m, none⟩
  | look {seen : List (Note M O)} {w : Watch M} (look : Look O) :
      Reaches rule seen w →
        Reaches rule (seen ++ [rule.note look w]) (rule.next look w)

/-- Every note is a look at a watch that the notes before it lead to. -/
theorem Reaches.throughout {seen : List (Note M O)} {w : Watch M}
    (h : Reaches rule seen w) :
    Trace.Throughout (fun earlier x => ∃ w, Reaches rule earlier w
      ∧ x = rule.note x.toLook w) seen := by
  induction h with
  | start m => exact Trace.throughout_nil _
  | reset m _ ih => exact ih
  | look look h ih => exact ih.snoc ⟨_, h, rfl⟩

/-- A running timer was started by a look, and since then every look was
in the mode, asked to leave it and did not. -/
theorem Reaches.stretch {seen : List (Note M O)} {w : Watch M}
    (h : Reaches rule seen w) :
    ∀ s, w.since = some s → ∃ before first rest,
      seen = before ++ first :: rest ∧ first.started = s
        ∧ ∀ x ∈ first :: rest, rule.Agrees w.mode x ∧ ¬x.Changes := by
  induction h with
  | start m => intro s hs; cases hs
  | reset m _ ih => intro s hs; cases hs
  | @look seen w look h ih =>
      intro s hs
      obtain ⟨hasks, hmode, hsince⟩ := next_since hs
      have hnote : rule.Agrees (rule.next look w).mode (rule.note look w)
          ∧ ¬(rule.note look w).Changes := by
        rw [hmode]
        exact ⟨⟨rfl, hasks⟩, fun hchange => hchange hmode.symm⟩
      cases hw : w.since with
      | none =>
          -- the look itself starts the timer
          rw [hw] at hsince
          exact ⟨seen, _, [], rfl, hsince,
            fun x hx => List.mem_singleton.mp hx ▸ hnote⟩
      | some s' =>
          rw [hw] at hsince
          obtain ⟨before, first, rest, rfl, hfirst, hall⟩ := ih s' hw
          refine ⟨before, first, rest ++ [rule.note look w], ?_,
            hfirst.trans hsince, ?_⟩
          · rw [List.append_assoc, List.cons_append]
          · intro x hx
            rw [← List.cons_append, List.mem_append,
              List.mem_singleton] at hx
            rcases hx with hx | rfl
            · rw [hmode]
              exact hall x hx
            · exact hnote

-- ================================================================ changes

/-- A look comes at the end of a stretch of looks that all asked to leave
its mode, that is at least a hold time long and that no look before it
reaches into; changes there are only before the stretch. -/
def Rule.Held (rule : Rule M O) (earlier : List (Note M O))
    (call : Note M O) : Prop :=
  ∃ before first rest,
    earlier ++ [call] = before ++ first :: rest
    ∧ first.started + rule.hold ≤ call.decided
    ∧ (∀ x ∈ before, x.decided ≤ first.started)
    ∧ (∀ x ∈ first :: rest, rule.Agrees call.mode x)
    ∧ ∀ x ∈ earlier, x.Changes → x ∈ before

/-- The readings of the clock along the notes never decrease. -/
def Chronological (seen : List (Note M O)) : Prop :=
  (seen.flatMap fun x => x.times).Pairwise (· ≤ ·)

theorem Chronological.of_append {seen seen' : List (Note M O)}
    (h : Chronological (seen ++ seen')) : Chronological seen := by
  unfold Chronological at h
  rw [List.flatMap_append, List.pairwise_append] at h
  exact h.1

/-- What is noted earlier is over before. -/
theorem Chronological.decided_le {before rest : List (Note M O)}
    {first : Note M O} (h : Chronological (before ++ first :: rest)) :
    ∀ x ∈ before, x.decided ≤ first.started := by
  intro x hx
  unfold Chronological at h
  rw [List.flatMap_append, List.pairwise_append] at h
  exact h.2.2 x.decided
    (List.mem_flatMap.mpr ⟨x, hx, by simp [Look.times]⟩) first.started
    (List.mem_flatMap.mpr ⟨first, List.mem_cons_self, by simp [Look.times]⟩)

/-- The readings of one note. -/
theorem Chronological.le {seen : List (Note M O)} (h : Chronological seen)
    {x : Note M O} (hx : x ∈ seen) :
    x.taken ≤ x.decided ∧ x.started ≤ x.decided := by
  unfold Chronological at h
  have hx := (List.pairwise_flatMap.mp h).1 x hx
  simp only [Look.times, List.pairwise_cons, List.mem_cons] at hx
  exact ⟨hx.1 _ (.inr (.inl rfl)), hx.2.1 _ (.inl rfl)⟩

/-- A change has been held for. -/
theorem Reaches.held {earlier : List (Note M O)} {w : Watch M}
    (h : Reaches rule earlier w) {look : Look O}
    (hchron : Chronological (earlier ++ [rule.note look w]))
    (hchange : (rule.note look w).Changes) :
    rule.Held earlier (rule.note look w) := by
  obtain ⟨hasks, -, hhold⟩ := due_note.mp (due_of_changes hchange)
  have hcall : rule.Agrees w.mode (rule.note look w) := ⟨rfl, hasks⟩
  cases hw : w.since with
  | none =>
      rw [hw, Option.getD_none] at hhold
      have hle : look.started ≤ look.decided :=
        (hchron.le (List.mem_append_right _ List.mem_cons_self)).2
      refine ⟨earlier, rule.note look w, [], rfl, ?_, hchron.decided_le, ?_,
        fun x hx _ => hx⟩
      · show look.started + rule.hold ≤ look.decided
        omega
      · intro x hx
        rw [List.mem_singleton.mp hx]
        exact hcall
  | some s =>
      rw [hw, Option.getD_some] at hhold
      obtain ⟨before, first, rest, rfl, rfl, hall⟩ := h.stretch s hw
      have hsplit : before ++ first :: rest ++ [rule.note look w]
          = before ++ first :: (rest ++ [rule.note look w]) := by
        rw [List.append_assoc, List.cons_append]
      have hstart : first.started ≤ look.decided := by
        have hmem : first ∈ before ++ first :: rest :=
          List.mem_append_right _ List.mem_cons_self
        have hfirst : first.started ≤ first.decided :=
          (hchron.of_append.le hmem).2
        have hnext : first.decided ≤ look.started :=
          hchron.decided_le first hmem
        have hlast : look.started ≤ look.decided :=
          (hchron.le (List.mem_append_right _ List.mem_cons_self)).2
        omega
      refine ⟨before, first, rest ++ [rule.note look w], hsplit, ?_, ?_, ?_,
        ?_⟩
      · show first.started + rule.hold ≤ look.decided
        omega
      · rw [hsplit] at hchron
        exact hchron.decided_le
      · intro x hx
        rw [← List.cons_append, List.mem_append, List.mem_singleton] at hx
        rcases hx with hx | rfl
        · exact (hall x hx).1
        · exact hcall
      · intro x hx hchanges
        rcases List.mem_append.mp hx with hx | hx
        · exact hx
        · exact absurd hchanges (hall x hx).2

/-- A look that disagrees with a change, or was one, was over a hold time
before it. -/
theorem Rule.Held.over {earlier : List (Note M O)} {call x : Note M O}
    (h : rule.Held earlier call) (hx : x ∈ earlier)
    (hout : x.Changes ∨ ¬rule.Agrees call.mode x) :
    x.decided + rule.hold ≤ call.decided := by
  obtain ⟨before, first, rest, hsplit, hstart, hbefore, hall, hchanges⟩ := h
  have hmem : x ∈ before := by
    rcases hout with hchange | hdisagree
    · exact hchanges x hx hchange
    · have hx' : x ∈ before ++ first :: rest :=
        hsplit ▸ List.mem_append_left _ hx
      rcases List.mem_append.mp hx' with hx' | hx'
      · exact hx'
      · exact absurd (hall x hx') hdisagree
  have hle := hbefore x hmem
  omega

end Hysteresis
