/-
Head-of-line blocking in ordered mode.

A drain goes through the slots from the front and stops at the first one
that holds it up: one behind a gap or without a chunk that is younger
than the reorder timeout (`HoldsUp`). The wait is judged on the age of
that slot alone, so a lower id that turns up late starts it anew for all
the chunks behind it. A drain leaves no chunk that is overdue if and only
if no slot with an overdue chunk stands behind one that holds the drain
up (`no_blocking_iff`).
-/
import ChainLightning.Proofs.Receive.Reorder

namespace ChainLightning

open ReassemblyBuffer

-- ============================================================== the loop

/-- The id that is expected next behind some slots. -/
def expectedAfter (nextExpected : Nat) (front : List (Nat × BufferSlot)) :
    Nat :=
  match front.getLast? with
  | none => nextExpected
  | some e => (e.1 + 1) % 2 ^ 64

theorem expectedAfter_cons (nextExpected id : Nat) (slot : BufferSlot)
    (front : List (Nat × BufferSlot)) :
    expectedAfter nextExpected ((id, slot) :: front)
      = expectedAfter ((id + 1) % 2 ^ 64) front := by
  cases front with
  | nil => rfl
  | cons e front =>
      unfold expectedAfter
      rw [List.getLast?_cons_cons, List.getLast?_cons]

/-- The slot holds up a drain that got to it past `front`: it is ahead of
the expected id, or not ready, and has not timed out at the reading of the
clock that is taken for that. -/
def HoldsUp (timeout : Nat) (clock : Nat → Nat) (nextExpected : Nat)
    (front : List (Nat × BufferSlot)) (e : Nat × BufferSlot) : Prop :=
  (expectedAfter nextExpected front < e.1
      ∧ e.2.isTimedOut timeout (clock (2 * front.length)) = false)
    ∨ (e.2.isReady = false
      ∧ e.2.isTimedOut timeout (clock (2 * front.length + 1)) = false)

instance (timeout : Nat) (clock : Nat → Nat) (nextExpected : Nat)
    (front : List (Nat × BufferSlot)) (e : Nat × BufferSlot) :
    Decidable (HoldsUp timeout clock nextExpected front e) :=
  inferInstanceAs (Decidable (_ ∨ _))

/-- Past the first slot, the same as from there. -/
theorem holdsUp_cons {timeout : Nat} {clock : Nat → Nat}
    {nextExpected id : Nat} {slot : BufferSlot}
    {front : List (Nat × BufferSlot)} {e : Nat × BufferSlot} :
    HoldsUp timeout clock nextExpected ((id, slot) :: front) e
      ↔ HoldsUp timeout (fun n => clock (n + 2)) ((id + 1) % 2 ^ 64) front
        e := by
  unfold HoldsUp
  rw [expectedAfter_cons, List.length_cons, Nat.mul_succ]

/-- The loop stops at a first slot that holds it up, and otherwise goes on
behind it. -/
theorem drainLoop_cons {timeout id : Nat} {clock : Nat → Nat}
    {slot : BufferSlot} {c : Cursor} (rest : List (Nat × BufferSlot)) :
    (HoldsUp timeout clock c.nextExpected [] (id, slot)
        ∧ (drainLoop timeout clock ((id, slot) :: rest) c).2.1
          = (id, slot) :: rest)
      ∨ (¬HoldsUp timeout clock c.nextExpected [] (id, slot)
        ∧ ∃ c' : Cursor, c'.nextExpected = (id + 1) % 2 ^ 64
          ∧ (drainLoop timeout clock ((id, slot) :: rest) c).2.1
            = (drainLoop timeout (fun n => clock (n + 2)) rest c').2.1) := by
  unfold HoldsUp
  rw [drainLoop]
  show (((c.nextExpected < id
      ∧ slot.isTimedOut timeout (clock 0) = false)
      ∨ (slot.isReady = false
        ∧ slot.isTimedOut timeout (clock 1) = false)) ∧ _)
    ∨ (¬((c.nextExpected < id
      ∧ slot.isTimedOut timeout (clock 0) = false)
      ∨ (slot.isReady = false
        ∧ slot.isTimedOut timeout (clock 1) = false)) ∧ _)
  by_cases hwait : id > c.nextExpected ∧ ¬slot.isTimedOut timeout (clock 0)
  · rw [if_pos hwait]
    exact Or.inl ⟨Or.inl ⟨hwait.1, by simpa using hwait.2⟩, rfl⟩
  rw [if_neg hwait]
  have hpast : ¬(c.nextExpected < id
      ∧ slot.isTimedOut timeout (clock 0) = false) :=
    fun h => hwait ⟨h.1, by simp [h.2]⟩
  dsimp only
  generalize (if id > c.nextExpected then c.skipGap id else c) = c₁
  by_cases hready : slot.isReady = true
  · rw [if_pos hready]
    refine Or.inr ⟨?_, c₁.forward id, rfl, rfl⟩
    rintro (h | h)
    · exact hpast h
    · rw [hready] at h
      exact absurd h.1 (by simp)
  rw [if_neg hready]
  by_cases htimed : slot.isTimedOut timeout (clock 1) = true
  · rw [if_pos htimed]
    refine Or.inr ⟨?_, c₁.skipSlot id, rfl, rfl⟩
    rintro (h | h)
    · exact hpast h
    · rw [htimed] at h
      exact absurd h.2 (by simp)
  · rw [if_neg htimed]
    exact Or.inl ⟨Or.inr ⟨by simpa using hready, by simpa using htimed⟩, rfl⟩

/-- What the loop leaves begins with a slot that holds it up. -/
theorem drainLoop_left {timeout : Nat} :
    ∀ (slots : List (Nat × BufferSlot)) (clock : Nat → Nat) (c : Cursor),
      (drainLoop timeout clock slots c).2.1 = []
        ∨ ∃ front e behind, slots = front ++ e :: behind
          ∧ HoldsUp timeout clock c.nextExpected front e
          ∧ (drainLoop timeout clock slots c).2.1 = e :: behind := by
  intro slots
  induction slots with
  | nil => exact fun _ _ => Or.inl rfl
  | cons e rest ih =>
      obtain ⟨id, slot⟩ := e
      intro clock c
      rcases drainLoop_cons rest with ⟨hholds, hleft⟩ | ⟨-, c', hc', hleft⟩
      · exact Or.inr ⟨[], _, rest, rfl, hholds, hleft⟩
      rw [hleft]
      rcases ih _ _ with hnone | ⟨front, e, behind, hsplit, hholds, hrest⟩
      · exact Or.inl hnone
      · refine Or.inr ⟨(id, slot) :: front, e, behind, ?_, ?_, hrest⟩
        · rw [hsplit]
          rfl
        · rw [holdsUp_cons, ← hc']
          exact hholds

/-- Everything behind a slot that holds it up is left by the loop. -/
theorem drainLoop_leaves {timeout : Nat}
    (behind : List (Nat × BufferSlot)) {e : Nat × BufferSlot} :
    ∀ {front : List (Nat × BufferSlot)} {clock : Nat → Nat} (c : Cursor),
      HoldsUp timeout clock c.nextExpected front e →
      e :: behind
        <:+ (drainLoop timeout clock (front ++ e :: behind) c).2.1 := by
  intro front
  induction front with
  | nil =>
      intro clock c hholds
      obtain ⟨id, slot⟩ := e
      rcases drainLoop_cons behind with ⟨-, hleft⟩ | ⟨hnot, -⟩
      · exact ⟨[], hleft.symm⟩
      · exact absurd hholds hnot
  | cons first front ih =>
      intro clock c hholds
      obtain ⟨id, slot⟩ := first
      rw [List.cons_append]
      rcases drainLoop_cons (front ++ e :: behind) with ⟨-, hleft⟩
        | ⟨-, c', hc', hleft⟩
      · rw [hleft]
        exact ((List.suffix_append front _).trans (List.suffix_cons _ _))
      · rw [hleft]
        rw [holdsUp_cons, ← hc'] at hholds
        exact ih c' hholds

-- ================================================================== runs

/-- A buffer in a run, with the time of the last call that stored or
announced something and the time at which each id was stored last. -/
structure Timeline where
  buffer : ReassemblyBuffer
  now : Nat
  storedAt : Nat → Nat

namespace Timeline

def start (config : ReceiverConfig) : Timeline where
  buffer := ReassemblyBuffer.new config
  now := 0
  storedAt := fun _ => 0

/-- One call. -/
def step : BufferOp → Timeline → Option Timeline
  | .recordAnnouncement ann now, s =>
      some { s with
        buffer := s.buffer.recordAnnouncement ann now
        now := now }
  | .storeChunk chunk now, s =>
      some {
        buffer := s.buffer.storeChunk chunk now
        now := now
        storedAt := fun id =>
          if id = chunk.id.toNat then now else s.storedAt id }
  | .drainReady clock pruneClock, s =>
      some { s with
        buffer := (s.buffer.drainReady clock pruneClock).2 }

/-- The clock does not run backwards. -/
def Clocked (op : BufferOp) (s : Timeline) : Prop :=
  match op with
  | .recordAnnouncement _ now => s.now ≤ now
  | .storeChunk _ now => s.now ≤ now
  | .drainReady clock _ => ∀ n, s.now ≤ clock n

/-- At time `t` the slot holds a chunk that was stored more than the
reorder timeout before. -/
def Overdue (s : Timeline) (t : Nat) (e : Nat × BufferSlot) : Prop :=
  e.2.chunk.isSome = true
    ∧ s.storedAt e.1 + reorderTimeout s.buffer.config < t

instance (s : Timeline) (t : Nat) (e : Nat × BufferSlot) :
    Decidable (s.Overdue t e) :=
  inferInstanceAs (Decidable (_ ∧ _))

/-- No slot with an overdue chunk stands behind one that holds up the
drain. -/
def Unblocked (s : Timeline) (t : Nat) (clock : Nat → Nat) : Prop :=
  ∀ front e behind, s.buffer.slots.entries = front ++ e :: behind →
    HoldsUp (reorderTimeout s.buffer.config) clock s.buffer.nextExpected
      front e →
    ∀ e' ∈ behind, ¬s.Overdue t e'

/-- The slots taken by position. -/
theorem unblocked_iff {s : Timeline} {t : Nat} {clock : Nat → Nat} :
    s.Unblocked t clock ↔ ∀ i < s.buffer.slots.entries.length,
      ∀ e ∈ s.buffer.slots.entries[i]?,
        HoldsUp (reorderTimeout s.buffer.config) clock s.buffer.nextExpected
          (s.buffer.slots.entries.take i) e →
        ∀ e' ∈ s.buffer.slots.entries.drop (i + 1), ¬s.Overdue t e' := by
  constructor
  · intro h i hi e he hholds
    refine h _ e _ ?_ hholds
    obtain ⟨hlt, rfl⟩ := List.getElem?_eq_some_iff.mp he
    rw [List.cons_getElem_drop_succ, List.take_append_drop]
  · intro h front e behind hsplit hholds
    have hlt : front.length < s.buffer.slots.entries.length := by
      rw [hsplit, List.length_append, List.length_cons]
      omega
    have hslot := h front.length hlt e (by simp [hsplit])
    rw [hsplit, List.take_left, ← List.drop_drop, List.drop_left] at hslot
    exact hslot hholds

instance (s : Timeline) (t : Nat) (clock : Nat → Nat) :
    Decidable (s.Unblocked t clock) :=
  decidable_of_iff' _ unblocked_iff

/-- A slot is made no later than the chunk in it is stored. -/
def Dated (s : Timeline) : Prop :=
  ∀ e ∈ s.buffer.slots.entries, e.2.createdAt ≤ s.now
    ∧ (e.2.chunk.isSome = true → e.2.createdAt ≤ s.storedAt e.1)

theorem dated_start (config : ReceiverConfig) : (start config).Dated :=
  fun _ h => nomatch h

/-- A call at a clock that does not run backwards keeps the dates, and the
configuration. -/
theorem Dated.step {config : ReceiverConfig} {s s' : Timeline}
    (hmode : config.immediateForward = false)
    (hconfig : s.buffer.config = config) (h : s.Dated) {op : BufferOp}
    (hclock : Clocked op s) (hstep : Timeline.step op s = some s') :
    s'.buffer.config = config ∧ s'.Dated := by
  cases op with
  | recordAnnouncement ann now =>
      cases hstep
      have hnow : s.now ≤ now := hclock
      refine ⟨hconfig, ?_⟩
      unfold Dated
      refine OrdMap.upsert_forall
        (P := fun (id : Nat) (slot : BufferSlot) => slot.createdAt ≤ now
          ∧ (slot.chunk.isSome = true → slot.createdAt ≤ s.storedAt id))
        ?_ ?_ ?_
      · exact fun e he => ⟨(h e he).1.trans hnow, (h e he).2⟩
      · exact ⟨Nat.le_refl now, fun hchunk => nomatch hchunk⟩
      · exact fun slot hslot => hslot
  | storeChunk chunk now =>
      cases hstep
      have hnow : s.now ≤ now := hclock
      refine ⟨hconfig, ?_⟩
      unfold Dated
      refine OrdMap.upsert_forall
        (P := fun (id : Nat) (slot : BufferSlot) => slot.createdAt ≤ now
          ∧ (slot.chunk.isSome = true → slot.createdAt
            ≤ if id = chunk.id.toNat then now else s.storedAt id))
        ?_ ?_ ?_
      · intro e he
        obtain ⟨hmade, hstored⟩ := h e he
        refine ⟨hmade.trans hnow, fun hchunk => ?_⟩
        split
        case isTrue => exact hmade.trans hnow
        case isFalse => exact hstored hchunk
      · refine ⟨Nat.le_refl now, fun _ => ?_⟩
        rw [if_pos rfl]
        exact Nat.le_refl now
      · rintro slot ⟨hmade, -⟩
        refine ⟨hmade, fun _ => ?_⟩
        rw [if_pos rfl]
        exact hmade
  | drainReady clock pruneClock =>
      cases hstep
      obtain ⟨-, -, hconfig', hslots⟩ := drainReady_ordered
        (hconfig ▸ hmode) clock pruneClock
      exact ⟨hconfig'.trans hconfig, fun e he => h e (hslots.subset he)⟩

/-- So does every run. -/
theorem dated_run {config : ReceiverConfig}
    (hmode : config.immediateForward = false) {ops : List BufferOp}
    {s : Timeline} (hclocked : Trace.Along Timeline.step Clocked ops
      (start config))
    (hrun : Trace.run Timeline.step ops (start config) = some s) :
    s.buffer.config = config ∧ s.Dated := by
  refine Trace.run_along
    (P := fun s : Timeline => s.buffer.config = config ∧ s.Dated) ?_
    hclocked hrun ⟨rfl, dated_start config⟩
  rintro op t t' ⟨hconfig, hdated⟩ hclock hstep
  exact Dated.step hmode hconfig hdated hclock hstep

/-- A slot with an overdue chunk does not hold up a drain. -/
theorem Overdue.not_holdsUp {s : Timeline} {t nextExpected : Nat}
    {clock : Nat → Nat} {front : List (Nat × BufferSlot)}
    {e : Nat × BufferSlot} (hdated : s.Dated)
    (he : e ∈ s.buffer.slots.entries) (ht : ∀ n, t ≤ clock n)
    (h : s.Overdue t e) :
    ¬HoldsUp (reorderTimeout s.buffer.config) clock nextExpected front e := by
  obtain ⟨hchunk, hoverdue⟩ := h
  have hmade := (hdated e he).2 hchunk
  have htimed : ∀ n, e.2.isTimedOut (reorderTimeout s.buffer.config)
      (clock n) = true := by
    intro n
    have hread := ht n
    unfold BufferSlot.isTimedOut
    rw [decide_eq_true_iff]
    omega
  unfold HoldsUp
  rintro (⟨-, hyoung⟩ | ⟨-, hyoung⟩)
  · rw [htimed] at hyoung
    cases hyoung
  · rw [htimed] at hyoung
    cases hyoung

end Timeline

/-- After a drain at time `t`, in every reachable state in ordered mode:
the loop leaves no chunk that was stored more than the reorder timeout
before `t` if and only if no slot with such a chunk stands behind one that
holds up the drain; then the whole drain leaves none. -/
theorem no_blocking_iff {config : ReceiverConfig}
    (hmode : config.immediateForward = false) {ops : List BufferOp}
    {s : Timeline}
    (hclocked : Trace.Along Timeline.step Timeline.Clocked ops
      (Timeline.start config))
    (hrun : Trace.run Timeline.step ops (Timeline.start config) = some s)
    {t : Nat} {clock : Nat → Nat} (ht : ∀ n, t ≤ clock n) :
    (s.Unblocked t clock
      ↔ ∀ e ∈ (s.buffer.drainOrdered clock).2.slots.entries,
        ¬s.Overdue t e)
    ∧ ∀ pruneClock, s.Unblocked t clock →
      ∀ e ∈ (s.buffer.drainReady clock pruneClock).2.slots.entries,
        ¬s.Overdue t e := by
  obtain ⟨hconfig, hdated⟩ := Timeline.dated_run hmode hclocked hrun
  have hloop : s.Unblocked t clock →
      ∀ e ∈ (s.buffer.drainOrdered clock).2.slots.entries,
        ¬s.Overdue t e := by
    intro hunblocked e he hoverdue
    rcases drainLoop_left s.buffer.slots.entries clock
      ⟨s.buffer.nextExpected, s.buffer.chunksForwarded,
        s.buffer.chunksTimeout⟩ with
      hnone | ⟨front, first, behind, hsplit, hholds, hleft⟩
    · have hmem : e ∈ (drainLoop (reorderTimeout s.buffer.config) clock
          s.buffer.slots.entries ⟨s.buffer.nextExpected,
            s.buffer.chunksForwarded, s.buffer.chunksTimeout⟩).2.1 := he
      rw [hnone] at hmem
      cases hmem
    · have hmem : e ∈ first :: behind := by
        rw [← hleft]
        exact he
      have hslot : first ∈ s.buffer.slots.entries := by
        rw [hsplit]
        exact List.mem_append_right _ List.mem_cons_self
      rcases List.mem_cons.mp hmem with rfl | hmem
      · exact hoverdue.not_holdsUp hdated hslot ht hholds
      · exact hunblocked front first behind hsplit hholds e hmem hoverdue
  refine ⟨⟨hloop, ?_⟩, ?_⟩
  · intro hnone front first behind hsplit hholds e he
    refine hnone e ?_
    have hleaves := drainLoop_leaves behind
      ⟨s.buffer.nextExpected, s.buffer.chunksForwarded,
        s.buffer.chunksTimeout⟩ hholds
    rw [← hsplit] at hleaves
    exact hleaves.subset (List.mem_cons_of_mem _ he)
  · intro pruneClock hunblocked e he
    refine hloop hunblocked e ?_
    have hentries := drainReady_entries (hconfig ▸ hmode) clock pruneClock
    rw [hentries] at he
    exact (List.drop_sublist _ _).subset
      ((removeOld_sublist _ _ _).subset he)

/-- Chunks 5 and 7 arrive, and later chunk 9 is announced. -/
def overdueOps : List BufferOp :=
  [.storeChunk (Chunk.new 5 0) 0, .storeChunk (Chunk.new 7 0) 0,
   .recordAnnouncement (AnnouncePacket.mk 9 1 1400 0) 9000000]

/-- Both have waited 11 ms when a drain with a timeout of 10 ms comes, each
of them behind a gap and one behind the other. Neither is left behind the
young slot of chunk 9. -/
theorem no_blocking_gaps : ∃ s,
    Trace.run Timeline.step overdueOps (Timeline.start orderedConfig) = some s
      ∧ s.buffer.slots.entries.map (fun e => (e.1, decide (s.Overdue 11000000 e)))
        = [(5, true), (7, true), (9, false)]
      ∧ (s.buffer.drainReady (fun _ => 11000000)
          (fun _ => 11000000)).2.slots.entries.length = 1
      ∧ ∀ e ∈ (s.buffer.drainReady (fun _ => 11000000)
          (fun _ => 11000000)).2.slots.entries,
        ¬s.Overdue 11000000 e := by
  obtain ⟨s, hrun⟩ : ∃ s, Trace.run Timeline.step overdueOps
      (Timeline.start orderedConfig) = some s := ⟨_, rfl⟩
  have hclocked : Trace.Along Timeline.step Timeline.Clocked overdueOps
      (Timeline.start orderedConfig) :=
    ⟨Nat.zero_le _, Nat.zero_le _, Nat.zero_le _, trivial⟩
  have hlate : ∀ n : Nat, 11000000 ≤ (fun _ => 11000000) n :=
    fun _ => Nat.le_refl _
  have hlaw := (no_blocking_iff rfl hclocked hrun hlate).2 fun _ => 11000000
  cases hrun
  exact ⟨_, rfl, by decide +kernel, by decide +kernel,
    hlaw (by decide +kernel)⟩

/-- Chunk 5 arrives, and later chunk 3 is announced. -/
def lateAnnounceOps : List BufferOp :=
  [.storeChunk (Chunk.new 5 0) 0,
   .recordAnnouncement (AnnouncePacket.mk 3 1 1400 0) 9000000]

/-- The announcement is young, and chunk 5 stays behind it, overdue. -/
theorem announcement_blocks_overdue : ∃ s,
    orderedConfig.immediateForward = false
      ∧ Trace.Along Timeline.step Timeline.Clocked lateAnnounceOps
        (Timeline.start orderedConfig)
      ∧ Trace.run Timeline.step lateAnnounceOps
        (Timeline.start orderedConfig) = some s
      ∧ s.now ≤ 11000000
      ∧ ∃ e ∈ (s.buffer.drainReady (fun _ => 11000000)
          (fun _ => 11000000)).2.slots.entries,
        s.Overdue 11000000 e := by
  exact ⟨_, rfl, ⟨Nat.zero_le _, Nat.zero_le _, trivial⟩, rfl, by decide,
    by decide⟩

end ChainLightning
