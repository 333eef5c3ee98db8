/-
Where the stored chunks go.

A slot leaves the buffer in five ways: its chunk is returned (in either
mode), its time is up in the loop of an ordered drain, there is no room
for it, or it is too old. The loop gives up only slots without a chunk,
and what goes for want of room is counted. The pruning by age counts
nothing; in ordered mode it meets chunks, namely those behind a slot that
holds up the drain (`standing`).

So the stored chunks are at each moment the returned ones, the ones that
were counted out, the lost ones and the ones in the buffer
(`Accounts.balance`), and none is lost exactly when no drain finds a
chunk too old when it prunes (`accounted_iff`).
-/
import Mathlib.Data.List.Nodup
import Mathlib.Data.List.Perm.Subperm
import ChainLightning.Proofs.Receive.Blocking

namespace ChainLightning

open ReassemblyBuffer

-- ============================================================== the loop

/-- The slots from the first one on that holds up the drain. -/
def heldUp (timeout : Nat) (clock : Nat → Nat) (nextExpected : Nat) :
    List (Nat × BufferSlot) → List (Nat × BufferSlot)
  | [] => []
  | (id, slot) :: rest =>
      if HoldsUp timeout clock nextExpected [] (id, slot) then
        (id, slot) :: rest
      else heldUp timeout (fun n => clock (n + 2)) ((id + 1) % 2 ^ 64) rest

/-- The loop leaves them. -/
theorem drainLoop_heldUp (timeout : Nat) :
    ∀ (slots : List (Nat × BufferSlot)) (clock : Nat → Nat) (c : Cursor),
      (drainLoop timeout clock slots c).2.1
        = heldUp timeout clock c.nextExpected slots := by
  intro slots
  induction slots with
  | nil => exact fun _ _ => rfl
  | cons e rest ih =>
      obtain ⟨id, slot⟩ := e
      intro clock c
      rw [heldUp]
      rcases drainLoop_cons rest with ⟨hholds, hleft⟩
        | ⟨hnot, c', hc', hleft⟩
      · rw [if_pos hholds, hleft]
      · rw [if_neg hnot, hleft, ih, hc']

/-- The chunks in some slots. -/
def heldChunks (slots : List (Nat × BufferSlot)) : List Chunk :=
  slots.filterMap (·.2.chunk)

theorem heldChunks_append (a b : List (Nat × BufferSlot)) :
    heldChunks (a ++ b) = heldChunks a ++ heldChunks b :=
  List.filterMap_append

theorem mem_heldChunks {slots : List (Nat × BufferSlot)} {c : Chunk} :
    c ∈ heldChunks slots ↔ ∃ e ∈ slots, e.2.chunk = some c :=
  List.mem_filterMap

theorem heldChunks_eq_nil {slots : List (Nat × BufferSlot)} :
    heldChunks slots = [] ↔ ∀ e ∈ slots, e.2.chunk = none :=
  List.filterMap_eq_nil_iff

/-- The chunks of a slot and of the slots behind it. -/
theorem heldChunks_cons (id : Nat) (slot : BufferSlot)
    (rest : List (Nat × BufferSlot)) :
    heldChunks ((id, slot) :: rest)
      = slot.chunk.toList ++ heldChunks rest := by
  unfold heldChunks
  rw [List.filterMap_cons]
  cases slot.chunk <;> rfl

/-- How much the loop adds to the timeouts: the ids it skips, and the
slots it gives up. -/
def loopTimeouts (timeout : Nat) (clock : Nat → Nat) (nextExpected : Nat) :
    List (Nat × BufferSlot) → Nat
  | [] => 0
  | (id, slot) :: rest =>
      let behind := loopTimeouts timeout (fun n => clock (n + 2))
        ((id + 1) % 2 ^ 64) rest
      if id > nextExpected ∧ ¬slot.isTimedOut timeout (clock 0) then 0
      else (id - nextExpected) + (if slot.isReady then behind
        else if slot.isTimedOut timeout (clock 1) then 1 + behind else 0)

/-- What the loop does to the chunks and to the counters. -/
structure LoopBooks (timeout : Nat) (clock : Nat → Nat)
    (slots : List (Nat × BufferSlot)) (c : Cursor)
    (r : List Chunk × List (Nat × BufferSlot) × Cursor) : Prop where
  chunks : r.1 ++ heldChunks r.2.1 = heldChunks slots
  forwarded : r.2.2.chunksForwarded
    = c.chunksForwarded + UInt64.ofNat r.1.length
  timeouts : r.2.2.chunksTimeout = c.chunksTimeout
    + UInt64.ofNat (loopTimeouts timeout clock c.nextExpected slots)

/-- A slot that was not forwarded and is not ready has no chunk. -/
theorem Waiting.none_of_not_ready {id : Nat} {slot : BufferSlot}
    (h : Waiting id slot) (hready : ¬slot.isReady = true) :
    slot.chunk = none := by
  have hnot := h.ready_iff.not.mp hready
  simpa using hnot

/-- The loop returns and leaves all chunks, and counts. -/
theorem drainLoop_books (timeout : Nat) :
    ∀ {slots : List (Nat × BufferSlot)} (clock : Nat → Nat) (c : Cursor),
      (∀ e ∈ slots, Waiting e.1 e.2) →
      LoopBooks timeout clock slots c (drainLoop timeout clock slots c) := by
  intro slots
  induction slots with
  | nil =>
      intro clock c _
      exact ⟨rfl, (UInt64.add_zero _).symm, (UInt64.add_zero _).symm⟩
  | cons e rest ih =>
      obtain ⟨id, slot⟩ := e
      intro clock c hslots
      have hslot : Waiting id slot := hslots _ List.mem_cons_self
      have hrest : ∀ e ∈ rest, Waiting e.1 e.2 :=
        fun e he => hslots e (List.mem_cons_of_mem _ he)
      have hbehind := ih (fun n => clock (n + 2))
      rw [drainLoop]
      by_cases hwait : id > c.nextExpected
          ∧ ¬slot.isTimedOut timeout (clock 0) = true
      · rw [if_pos hwait]
        refine ⟨rfl, (UInt64.add_zero _).symm, ?_⟩
        rw [loopTimeouts, if_pos hwait]
        exact (UInt64.add_zero _).symm
      rw [if_neg hwait]
      have hcount : loopTimeouts timeout clock c.nextExpected
          ((id, slot) :: rest) = (id - c.nextExpected) + _ := if_neg hwait
      dsimp only
      -- past the gap, if there is one
      generalize hc : (if id > c.nextExpected then c.skipGap id else c) = c₁
      have hgap : c₁.chunksForwarded = c.chunksForwarded
          ∧ c₁.chunksTimeout = c.chunksTimeout
            + UInt64.ofNat (id - c.nextExpected) := by
        rw [← hc]
        split
        case isTrue => exact ⟨rfl, rfl⟩
        case isFalse hle =>
            rw [Nat.sub_eq_zero_of_le (Nat.le_of_not_lt hle)]
            exact ⟨rfl, (UInt64.add_zero _).symm⟩
      by_cases hready : slot.isReady = true
      · rw [if_pos hready] at hcount ⊢
        obtain ⟨hchunks, hforwarded, htimeouts⟩ :=
          hbehind (c₁.forward id) hrest
        obtain ⟨chunk, hchunk⟩ :=
          Option.isSome_iff_exists.mp (hslot.ready_iff.mp hready)
        rw [hchunk]
        refine ⟨?_, ?_, ?_⟩
        · rw [List.append_assoc, hchunks, heldChunks_cons, hchunk]
        · refine hforwarded.trans ?_
          show c₁.chunksForwarded + 1 + _ = _
          rw [hgap.1, List.length_append, UInt64.ofNat_add, ← UInt64.add_assoc]
          rfl
        · refine htimeouts.trans ?_
          show c₁.chunksTimeout + _ = _
          rw [hgap.2, hcount, UInt64.ofNat_add, ← UInt64.add_assoc]
          rfl
      rw [if_neg hready] at hcount ⊢
      by_cases htimed : slot.isTimedOut timeout (clock 1) = true
      · rw [if_pos htimed] at hcount ⊢
        obtain ⟨hchunks, hforwarded, htimeouts⟩ :=
          hbehind (c₁.skipSlot id) hrest
        refine ⟨?_, ?_, ?_⟩
        · rw [hchunks, heldChunks_cons, hslot.none_of_not_ready hready]
          rfl
        · rw [hforwarded]
          exact congrArg (· + _) hgap.1
        · refine htimeouts.trans ?_
          show c₁.chunksTimeout + 1 + _ = _
          rw [hgap.2, hcount, UInt64.ofNat_add, UInt64.ofNat_add,
            ← UInt64.add_assoc, ← UInt64.add_assoc]
          rfl
      · rw [if_neg htimed] at hcount ⊢
        refine ⟨rfl, ?_, ?_⟩
        · exact hgap.1.trans (UInt64.add_zero _).symm
        · rw [hcount, Nat.add_zero]
          exact hgap.2

-- ============================================================= one drain

/-- The slots that a drain finds when it prunes: those without a chunk to
return, or the held up ones. -/
def standing (clock : Nat → Nat) (b : ReassemblyBuffer) :
    List (Nat × BufferSlot) :=
  if b.config.immediateForward then b.slots.entries.filter (!·.2.isReady)
  else heldUp (reorderTimeout b.config) clock b.nextExpected b.slots.entries

/-- Those of them that go for want of room, the first ones. -/
def crowdedOut (clock : Nat → Nat) (b : ReassemblyBuffer) :
    List (Nat × BufferSlot) :=
  (standing clock b).take
    ((standing clock b).length - b.config.maxBufferChunks)

/-- Those for which there is room. -/
def fitting (clock : Nat → Nat) (b : ReassemblyBuffer) :
    List (Nat × BufferSlot) :=
  (standing clock b).drop
    ((standing clock b).length - b.config.maxBufferChunks)

/-- The slots that have timed out, one reading of the clock each. -/
def agedOut (timeout : Nat) (clock : Nat → Nat) :
    List (Nat × BufferSlot) → List (Nat × BufferSlot)
  | [] => []
  | (id, slot) :: rest =>
      let old := agedOut timeout (fun n => clock (n + 1)) rest
      if slot.isTimedOut timeout (clock 0) then (id, slot) :: old else old

/-- A slot has timed out, or is left. -/
theorem removeOld_agedOut (timeout : Nat) (clock : Nat → Nat)
    (slots : List (Nat × BufferSlot)) :
    (agedOut timeout clock slots ++ removeOld timeout clock slots).Perm
      slots := by
  induction slots generalizing clock with
  | nil => exact List.Perm.nil
  | cons e rest ih =>
      obtain ⟨id, slot⟩ := e
      have hrest := (ih fun n => clock (n + 1)).cons (id, slot)
      rw [agedOut, removeOld]
      by_cases hold : slot.isTimedOut timeout (clock 0) = true
      · simp only [if_pos hold]
        exact hrest
      · simp only [if_neg hold]
        exact List.perm_middle.trans hrest

/-- What a drain leaves: of what it finds when it prunes and has room for,
the slots that are not too old. -/
theorem drainReady_left (clock pruneClock : Nat → Nat)
    (b : ReassemblyBuffer) :
    (b.drainReady clock pruneClock).2.slots.entries
      = removeOld (pruneTimeout b.config) pruneClock (fitting clock b) := by
  unfold drainReady fitting standing
  cases hmode : b.config.immediateForward with
  | true => rfl
  | false =>
      have hleft := drainLoop_heldUp (reorderTimeout b.config)
        b.slots.entries clock
        ⟨b.nextExpected, b.chunksForwarded, b.chunksTimeout⟩
      simp only [Bool.false_eq_true, if_false]
      rw [← hleft]
      rfl

/-- How much the drain adds to the timeouts before it prunes. -/
def drainTimeouts (clock : Nat → Nat) (b : ReassemblyBuffer) : Nat :=
  if b.config.immediateForward then 0
  else loopTimeouts (reorderTimeout b.config) clock b.nextExpected
    b.slots.entries

/-- A drain in either mode: what it leaves, where the chunks go, and the
counters. -/
structure DrainBooks (clock pruneClock : Nat → Nat) (b : ReassemblyBuffer)
    (ready : List Chunk) (b' : ReassemblyBuffer) : Prop where
  config : b'.config = b.config
  entries : b'.slots.entries
    = removeOld (pruneTimeout b.config) pruneClock (fitting clock b)
  chunks : ready ++ heldChunks (standing clock b) = heldChunks b.slots.entries
  received : b'.chunksReceived = b.chunksReceived
  forwarded : b'.chunksForwarded
    = b.chunksForwarded + UInt64.ofNat ready.length
  timeouts : b'.chunksTimeout = b.chunksTimeout
    + UInt64.ofNat (drainTimeouts clock b + (crowdedOut clock b).length)

/-- The excess slots are as many as there are too many. -/
theorem crowdedOut_length (clock : Nat → Nat) (b : ReassemblyBuffer) :
    (crowdedOut clock b).length
      = (standing clock b).length - b.config.maxBufferChunks := by
  unfold crowdedOut
  rw [List.length_take, Nat.min_eq_left (Nat.sub_le _ _)]

/-- In immediate mode no chunk is left for the pruning. -/
theorem standing_immediate {b : ReassemblyBuffer}
    (hmode : b.config.immediateForward = true)
    (hslots : ∀ e ∈ b.slots.entries, Waiting e.1 e.2)
    (clock : Nat → Nat) : ∀ e ∈ standing clock b, e.2.chunk = none := by
  unfold standing
  rw [if_pos hmode]
  intro e he
  obtain ⟨hmem, hready⟩ := List.mem_filter.mp he
  exact (hslots e hmem).none_of_not_ready (by simpa using hready)

/-- In immediate mode the chunks that are returned are all. -/
theorem drainImmediate_books {b : ReassemblyBuffer}
    (hmode : b.config.immediateForward = true)
    (hslots : ∀ e ∈ b.slots.entries, Waiting e.1 e.2)
    (clock pruneClock : Nat → Nat) :
    DrainBooks clock pruneClock b (b.drainReady clock pruneClock).1
      (b.drainReady clock pruneClock).2 := by
  have hdrain := drainReady_of_immediate hmode clock pruneClock
  have hstanding : standing clock b
      = b.slots.entries.filter (!·.2.isReady) := if_pos hmode
  have hnone : heldChunks (standing clock b) = [] :=
    heldChunks_eq_nil.mpr (standing_immediate hmode hslots clock)
  have hall : b.drainImmediate.1 = heldChunks b.slots.entries := by
    unfold drainImmediate heldChunks
    dsimp only
    rw [List.filterMap_filter]
    refine List.filterMap_congr fun e he => ?_
    split
    case isTrue => rfl
    case isFalse hready =>
        exact ((hslots e he).none_of_not_ready hready).symm
  have hentries := drainReady_left clock pruneClock b
  rw [hdrain] at hentries ⊢
  refine ⟨rfl, hentries, ?_, rfl, rfl, ?_⟩
  · rw [hnone, List.append_nil]
    exact hall
  · rw [crowdedOut_length, hstanding, drainTimeouts, if_pos hmode,
      Nat.zero_add]
    rfl

/-- In ordered mode the loop keeps the books. -/
theorem drainOrdered_books {b : ReassemblyBuffer}
    (hmode : b.config.immediateForward = false)
    (hslots : ∀ e ∈ b.slots.entries, Waiting e.1 e.2)
    (clock pruneClock : Nat → Nat) :
    DrainBooks clock pruneClock b (b.drainReady clock pruneClock).1
      (b.drainReady clock pruneClock).2 := by
  have hnot : ¬b.config.immediateForward = true := by simp [hmode]
  have hdrain := drainReady_of_ordered hmode clock pruneClock
  have hbooks := drainLoop_books (reorderTimeout b.config) clock
    ⟨b.nextExpected, b.chunksForwarded, b.chunksTimeout⟩ hslots
  have hleft := drainLoop_heldUp (reorderTimeout b.config)
    b.slots.entries clock
    ⟨b.nextExpected, b.chunksForwarded, b.chunksTimeout⟩
  have hstanding : standing clock b = heldUp (reorderTimeout b.config) clock
      b.nextExpected b.slots.entries := if_neg hnot
  have hentries := drainReady_left clock pruneClock b
  rw [hdrain] at hentries ⊢
  refine ⟨rfl, hentries, ?_, rfl, hbooks.forwarded, ?_⟩
  · rw [hstanding, ← hleft]
    exact hbooks.chunks
  · rw [crowdedOut_length, hstanding, drainTimeouts, if_neg hnot, ← hleft,
      UInt64.ofNat_add, ← UInt64.add_assoc]
    exact congrArg (· + _) hbooks.timeouts

/-- Either way a drain keeps the books. -/
theorem drainReady_books {b : ReassemblyBuffer}
    (hslots : ∀ e ∈ b.slots.entries, Waiting e.1 e.2)
    (clock pruneClock : Nat → Nat) :
    DrainBooks clock pruneClock b (b.drainReady clock pruneClock).1
      (b.drainReady clock pruneClock).2 := by
  cases hmode : b.config.immediateForward with
  | true => exact drainImmediate_books hmode hslots clock pruneClock
  | false => exact drainOrdered_books hmode hslots clock pruneClock

-- ================================================================== runs

/-- A buffer in a run, with the chunks that were stored, and returned,
counted out for want of room and lost to their age, and what was added to
the timeouts. -/
structure Audit where
  buffer : ReassemblyBuffer
  stored : List Chunk
  returned : List Chunk
  discarded : List Chunk
  lost : List Chunk
  timeouts : Nat

namespace Audit

def start (config : ReceiverConfig) : Audit where
  buffer := ReassemblyBuffer.new config
  stored := []
  returned := []
  discarded := []
  lost := []
  timeouts := 0

/-- A drain that returned `ready` and left `buffer`. -/
def drained (clock pruneClock : Nat → Nat) (ready : List Chunk)
    (buffer : ReassemblyBuffer) (s : Audit) : Audit :=
  { s with
    buffer
    returned := s.returned ++ ready
    discarded := s.discarded ++ heldChunks (crowdedOut clock s.buffer)
    lost := s.lost ++ heldChunks (agedOut (pruneTimeout s.buffer.config)
      pruneClock (fitting clock s.buffer))
    timeouts := s.timeouts + (drainTimeouts clock s.buffer
      + (crowdedOut clock s.buffer).length) }

/-- One call. -/
def step : BufferOp → Audit → Option Audit
  | .recordAnnouncement ann now, s =>
      some { s with buffer := s.buffer.recordAnnouncement ann now }
  | .storeChunk chunk now, s =>
      some { s with
        buffer := s.buffer.storeChunk chunk now
        stored := s.stored ++ [chunk] }
  | .drainReady clock pruneClock, s =>
      let (ready, buffer) := s.buffer.drainReady clock pruneClock
      some (s.drained clock pruneClock ready buffer)

/-- Of the slots that a drain finds when it prunes, and has room for, none
with a chunk is too old. -/
def Spares (s : Audit) (op : BufferOp) : Prop :=
  match op with
  | .drainReady clock pruneClock =>
      ∀ e ∈ agedOut (pruneTimeout s.buffer.config) pruneClock
        (fitting clock s.buffer), e.2.chunk = none
  | _ => True

/-- Every stored chunk was returned, is in the buffer, or was counted
out. -/
def Accounted (s : Audit) : Prop :=
  ∀ c ∈ s.stored, c ∈ s.returned
    ∨ c ∈ heldChunks s.buffer.slots.entries ∨ c ∈ s.discarded

end Audit

/-- The books of a run: while the ids are distinct the chunks balance, and
the counters count. -/
structure Accounts (config : ReceiverConfig) (s : Audit) : Prop where
  configured : s.buffer.config = config
  slots : ∀ e ∈ s.buffer.slots.entries, Waiting e.1 e.2
  balance : (chunkIds s.stored).Nodup →
    (s.returned ++ s.discarded ++ s.lost
      ++ heldChunks s.buffer.slots.entries).Perm s.stored
  counted : s.discarded.length ≤ s.timeouts
  received : s.buffer.chunksReceived = UInt64.ofNat s.stored.length
  forwarded : s.buffer.chunksForwarded = UInt64.ofNat s.returned.length
  timeouts : s.buffer.chunksTimeout = UInt64.ofNat s.timeouts

namespace Accounts

variable {config : ReceiverConfig} {s s' : Audit}

theorem start (config : ReceiverConfig) :
    Accounts config (Audit.start config) where
  configured := rfl
  slots := fun _ h => nomatch h
  balance := fun _ => List.Perm.nil
  counted := Nat.le_refl _
  received := rfl
  forwarded := rfl
  timeouts := rfl

theorem announce (h : Accounts config s) (ann : AnnouncePacket)
    (now : Nat) :
    Accounts config
      { s with buffer := s.buffer.recordAnnouncement ann now } where
  configured := h.configured
  slots := by
    refine OrdMap.upsert_forall h.slots ?_ ?_
    · exact ⟨UInt64.toNat_lt _, rfl, fun _ hc => nomatch hc⟩
    · exact fun slot hslot => ⟨hslot.fits, hslot.fresh, hslot.keyed⟩
  balance := by
    have hheld : heldChunks
        (s.buffer.recordAnnouncement ann now).slots.entries
          = heldChunks s.buffer.slots.entries :=
      OrdMap.filterMap_upsertList_of_eq rfl (fun _ => rfl) _
    dsimp only
    rw [hheld]
    exact h.balance
  counted := h.counted
  received := h.received
  forwarded := h.forwarded
  timeouts := h.timeouts

/-- A slot of an id that is not among the stored ones has no chunk. -/
theorem unstored (h : Accounts config s)
    (hdistinct : (chunkIds s.stored).Nodup) {id : Nat}
    (hid : id ∉ chunkIds s.stored) {slot : BufferSlot}
    (he : (id, slot) ∈ s.buffer.slots.entries) : slot.chunk = none := by
  cases hchunk : slot.chunk with
  | none => rfl
  | some c =>
      have hheld : c ∈ heldChunks s.buffer.slots.entries :=
        mem_heldChunks.mpr ⟨_, he, hchunk⟩
      have hstored : c ∈ s.stored :=
        (h.balance hdistinct).subset (List.mem_append_right _ hheld)
      have hmem : c.id.toNat ∈ chunkIds s.stored :=
        List.mem_map_of_mem hstored
      rw [(h.slots _ he).keyed c hchunk] at hmem
      exact absurd hmem hid

theorem store (h : Accounts config s) (chunk : Chunk) (now : Nat) :
    Accounts config { s with
      buffer := s.buffer.storeChunk chunk now
      stored := s.stored ++ [chunk] } where
  configured := h.configured
  slots := by
    refine OrdMap.upsert_forall h.slots ?_ ?_
    · exact ⟨UInt64.toNat_lt _, rfl, fun c hc => by cases hc; rfl⟩
    · exact fun slot hslot =>
        ⟨hslot.fits, hslot.fresh, fun c hc => by cases hc; rfl⟩
  balance := by
    intro hdistinct
    rw [chunkIds_append, List.nodup_append'] at hdistinct
    obtain ⟨hold, -, hdisjoint⟩ := hdistinct
    have hnew : chunk.id.toNat ∉ chunkIds s.stored :=
      fun hmem => hdisjoint hmem List.mem_cons_self
    have hheld : (heldChunks
        (s.buffer.storeChunk chunk now).slots.entries).Perm
          (chunk :: heldChunks s.buffer.slots.entries) :=
      OrdMap.filterMap_upsertList_perm
        (g := fun e : Nat × BufferSlot => e.2.chunk) (fun _ => rfl)
        fun slot he => h.unstored hold hnew he
    refine (hheld.append_left _).trans (List.perm_middle.trans ?_)
    exact ((h.balance hold).cons chunk).trans
      (List.perm_append_singleton chunk s.stored).symm
  counted := h.counted
  received := by
    show s.buffer.chunksReceived + 1 = _
    rw [h.received, List.length_append, UInt64.ofNat_add]
    rfl
  forwarded := h.forwarded
  timeouts := h.timeouts

/-- The chunks that a drain finds are returned, counted out, lost and left
in the buffer. -/
theorem drain_balance {clock pruneClock : Nat → Nat}
    {b b' : ReassemblyBuffer} {ready : List Chunk}
    (hbooks : DrainBooks clock pruneClock b ready b') :
    (ready ++ heldChunks (crowdedOut clock b)
      ++ heldChunks (agedOut (pruneTimeout b.config) pruneClock
        (fitting clock b)) ++ heldChunks b'.slots.entries).Perm
      (heldChunks b.slots.entries) := by
  have haged : (heldChunks (agedOut (pruneTimeout b.config) pruneClock
      (fitting clock b)) ++ heldChunks b'.slots.entries).Perm
        (heldChunks (fitting clock b)) := by
    rw [hbooks.entries, ← heldChunks_append]
    exact (removeOld_agedOut _ _ _).filterMap _
  have hstanding : heldChunks (standing clock b)
      = heldChunks (crowdedOut clock b) ++ heldChunks (fitting clock b) := by
    rw [← heldChunks_append, crowdedOut, fitting, List.take_append_drop]
  rw [← hbooks.chunks, hstanding, List.append_assoc, List.append_assoc]
  exact (haged.append_left _).append_left _

/-- What a drain finds when it prunes was in the buffer. -/
theorem standing_sublist (clock : Nat → Nat) (b : ReassemblyBuffer) :
    (standing clock b).Sublist b.slots.entries := by
  unfold standing
  split
  case isTrue => exact List.filter_sublist
  case isFalse =>
      have hleft := drainLoop_heldUp (reorderTimeout b.config)
        b.slots.entries clock ⟨b.nextExpected, 0, 0⟩
      rw [← hleft]
      exact (drainLoop_suffix _ _ _ _).sublist

theorem drain (h : Accounts config s) {clock pruneClock : Nat → Nat}
    {ready : List Chunk} {b' : ReassemblyBuffer}
    (hbooks : DrainBooks clock pruneClock s.buffer ready b') :
    Accounts config (s.drained clock pruneClock ready b') where
  configured := hbooks.config.trans h.configured
  slots := by
    intro e he
    have hleft : e ∈ removeOld (pruneTimeout s.buffer.config) pruneClock
        (fitting clock s.buffer) := hbooks.entries ▸ he
    have hfit := (removeOld_sublist _ _ _).subset hleft
    have hstanding := (List.drop_sublist _ _).subset hfit
    exact h.slots e ((standing_sublist clock s.buffer).subset hstanding)
  balance := by
    intro hdistinct
    refine List.Perm.trans ?_ (h.balance hdistinct)
    refine List.perm_iff_count.mpr fun c => ?_
    have hcount := (drain_balance hbooks).count_eq c
    simp only [Audit.drained, List.count_append] at hcount ⊢
    omega
  counted := by
    have hcounted := h.counted
    have hheld : (heldChunks (crowdedOut clock s.buffer)).length
        ≤ (crowdedOut clock s.buffer).length := List.length_filterMap_le _ _
    simp only [Audit.drained, List.length_append]
    omega
  received := hbooks.received.trans h.received
  forwarded := by
    show b'.chunksForwarded = _
    rw [hbooks.forwarded, h.forwarded, ← UInt64.ofNat_add,
      ← List.length_append]
    rfl
  timeouts := by
    show b'.chunksTimeout = _
    rw [hbooks.timeouts, h.timeouts, ← UInt64.ofNat_add]
    rfl

theorem step (h : Accounts config s) {op : BufferOp}
    (hstep : Audit.step op s = some s') : Accounts config s' := by
  cases op with
  | recordAnnouncement ann now =>
      cases hstep
      exact h.announce ann now
  | storeChunk chunk now =>
      cases hstep
      exact h.store chunk now
  | drainReady clock pruneClock =>
      have hbooks := drainReady_books h.slots clock pruneClock
      have hs' : s' = s.drained clock pruneClock
          (s.buffer.drainReady clock pruneClock).1
          (s.buffer.drainReady clock pruneClock).2 :=
        (Option.some.inj hstep).symm
      rw [hs']
      exact h.drain hbooks

end Accounts

/-- A call loses no chunk exactly when it spares them. -/
theorem Audit.step_lost {s s' : Audit} {op : BufferOp}
    (hstep : Audit.step op s = some s') :
    s'.lost = [] ↔ s.lost = [] ∧ s.Spares op := by
  cases op with
  | recordAnnouncement ann now =>
      cases hstep
      exact (and_iff_left trivial).symm
  | storeChunk chunk now =>
      cases hstep
      exact (and_iff_left trivial).symm
  | drainReady clock pruneClock =>
      have hlost : s'.lost = s.lost ++ heldChunks (agedOut
          (pruneTimeout s.buffer.config) pruneClock
          (fitting clock s.buffer)) :=
        congrArg Audit.lost (Option.some.inj hstep).symm
      rw [hlost, List.append_eq_nil_iff, heldChunks_eq_nil]
      rfl

/-- So does a run. -/
theorem Audit.run_lost {ops : List BufferOp} {s s' : Audit}
    (hrun : Trace.run Audit.step ops s = some s') :
    s'.lost = [] ↔ s.lost = []
      ∧ Trace.Along Audit.step (fun op s => s.Spares op) ops s := by
  refine Trace.run_along_iff (P := fun _ => True)
    (Q := fun t => t.lost = []) ?_ hrun trivial
  exact fun op t t' _ hstep => ⟨trivial, Audit.step_lost hstep⟩

namespace Accounts

variable {config : ReceiverConfig} {s : Audit}

/-- With distinct ids all chunks are accounted for exactly when none is
lost. -/
theorem accounted (h : Accounts config s)
    (hdistinct : (chunkIds s.stored).Nodup) :
    s.Accounted ↔ s.lost = [] := by
  have hbalance := h.balance hdistinct
  constructor
  · intro haccounted
    have hnodup := hbalance.nodup_iff.mpr (List.Nodup.of_map _ hdistinct)
    rw [List.nodup_append', List.nodup_append', List.nodup_append']
      at hnodup
    obtain ⟨⟨-, -, hlost⟩, -, hheld⟩ := hnodup
    refine List.eq_nil_iff_forall_not_mem.mpr fun c hc => ?_
    have hstored : c ∈ s.stored := hbalance.subset
      (List.mem_append_left _ (List.mem_append_right _ hc))
    rcases haccounted c hstored with hret | hbuf | hdis
    · exact hlost (List.mem_append_left _ hret) hc
    · exact hheld (List.mem_append_right _ hc) hbuf
    · exact hlost (List.mem_append_right _ hdis) hc
  · intro hnone c hc
    have hmem := hbalance.symm.subset hc
    rw [hnone, List.append_nil] at hmem
    rcases List.mem_append.mp hmem with hmem | hheld
    · rcases List.mem_append.mp hmem with hret | hdis
      · exact Or.inl hret
      · exact Or.inr (Or.inr hdis)
    · exact Or.inr (Or.inl hheld)

/-- The ready slots are the ones with a chunk. -/
theorem ready_eq (h : Accounts config s) :
    s.buffer.stats.ready = (heldChunks s.buffer.slots.entries).length := by
  unfold ReassemblyBuffer.stats heldChunks
  dsimp only
  rw [List.length_filterMap_eq_countP]
  refine List.countP_congr fun e he => ?_
  exact (h.slots e he).ready_iff

/-- Distinct ids are no more than there are. -/
theorem stored_le (hdistinct : (chunkIds s.stored).Nodup) :
    s.stored.length ≤ 2 ^ 64 := by
  have hsub : chunkIds s.stored ⊆ List.range (2 ^ 64) := by
    intro id hid
    obtain ⟨c, -, rfl⟩ := List.mem_map.mp hid
    exact List.mem_range.mpr (UInt64.toNat_lt _)
  have hle := (List.subperm_of_subset hdistinct hsub).length_le
  rwa [List.length_range, chunkIds, List.length_map] at hle

/-- Where no chunk is lost, and the timeouts have not wrapped, the
counters cover what was received. -/
theorem covers (h : Accounts config s)
    (hdistinct : (chunkIds s.stored).Nodup) (hnone : s.lost = [])
    (hfits : s.timeouts < 2 ^ 64) :
    s.buffer.stats.chunksReceived.toNat
      ≤ s.buffer.stats.chunksForwarded.toNat + s.buffer.stats.ready
        + s.buffer.stats.chunksTimeout.toNat := by
  have hlength := (h.balance hdistinct).length_eq
  rw [hnone, List.append_nil, List.length_append, List.length_append]
    at hlength
  have hcounted := h.counted
  have hle := stored_le hdistinct
  rw [h.ready_eq]
  show s.buffer.chunksReceived.toNat ≤ s.buffer.chunksForwarded.toNat + _
    + s.buffer.chunksTimeout.toNat
  rw [h.received, h.forwarded, h.timeouts, UInt64.toNat_ofNat',
    UInt64.toNat_ofNat', UInt64.toNat_ofNat', Nat.mod_eq_of_lt hfits]
  omega

/-- In immediate mode every call spares the chunks. -/
theorem spares (h : Accounts config s)
    (hmode : config.immediateForward = true) (op : BufferOp) :
    s.Spares op := by
  cases op with
  | recordAnnouncement ann now => trivial
  | storeChunk chunk now => trivial
  | drainReady clock pruneClock =>
      intro e he
      have hfit : e ∈ fitting clock s.buffer :=
        (removeOld_agedOut _ _ _).subset (List.mem_append_left _ he)
      exact standing_immediate (h.configured ▸ hmode) h.slots clock e
        ((List.drop_sublist _ _).subset hfit)

end Accounts

/-- The books of a reachable state. -/
theorem accounts_run {config : ReceiverConfig} {ops : List BufferOp}
    {s : Audit}
    (hrun : Trace.run Audit.step ops (Audit.start config) = some s) :
    Accounts config s :=
  Trace.run_invariant (fun _ _ _ h hstep => h.step hstep) hrun
    (Accounts.start config)

/-- In either mode, with distinct ids: every stored chunk was returned, is
in the buffer or was counted out if and only if no drain prunes a chunk
for its age, as none does in immediate mode. What is counted out is
counted; and where no chunk was pruned so, and the timeouts have not
wrapped, the counters cover what was received. -/
theorem accounted_iff {config : ReceiverConfig} {ops : List BufferOp}
    {s : Audit}
    (hrun : Trace.run Audit.step ops (Audit.start config) = some s)
    (hdistinct : (chunkIds s.stored).Nodup) :
    (s.Accounted ↔ Trace.Along Audit.step (fun op s => s.Spares op) ops
      (Audit.start config))
    ∧ (config.immediateForward = true → s.Accounted)
    ∧ (s.discarded.length ≤ s.timeouts
      ∧ s.buffer.stats.chunksTimeout = UInt64.ofNat s.timeouts)
    ∧ (Trace.Along Audit.step (fun op s => s.Spares op) ops
        (Audit.start config) → s.timeouts < 2 ^ 64 →
      s.buffer.stats.chunksReceived.toNat
        ≤ s.buffer.stats.chunksForwarded.toNat + s.buffer.stats.ready
          + s.buffer.stats.chunksTimeout.toNat) := by
  have haccounts := accounts_run hrun
  have hlost : s.lost = [] ↔ Trace.Along Audit.step
      (fun op s => s.Spares op) ops (Audit.start config) := by
    rw [Audit.run_lost hrun]
    exact and_iff_right rfl
  have hiff := haccounts.accounted hdistinct
  refine ⟨hiff.trans hlost, fun hmode => hiff.mpr ?_,
    ⟨haccounts.counted, haccounts.timeouts⟩, fun hspares hfits => ?_⟩
  · have hnone : Accounts config s ∧ s.lost = [] := by
      refine Trace.run_invariant
        (P := fun s => Accounts config s ∧ s.lost = []) ?_ hrun
        ⟨Accounts.start config, rfl⟩
      rintro op t t' ⟨ht, hnone⟩ hstep
      exact ⟨ht.step hstep,
        (Audit.step_lost hstep).mpr ⟨hnone, ht.spares hmode op⟩⟩
    exact hnone.2
  · exact haccounts.covers hdistinct (hlost.mpr hspares) hfits

/-- Chunk 5 arrives, and waits for the ones before it. Chunk 3 arrives
`gap` nanoseconds later. -/
def gapThenLowerOps (gap : Nat) : List BufferOp :=
  [.storeChunk (Chunk.new 5 0) 0, .drainReady (fun _ => 0) (fun _ => 0),
   .storeChunk (Chunk.new 3 0) gap,
   .drainReady (fun _ => gap) (fun _ => gap)]

/-- After 20 ms both are in the buffer, chunk 5 overdue. -/
theorem accounted_twenty : ∃ s,
    Trace.run Audit.step (gapThenLowerOps 20000000)
        (Audit.start orderedConfig) = some s
      ∧ chunkIds (heldChunks s.buffer.slots.entries) = [3, 5]
      ∧ s.Accounted := by
  obtain ⟨s, hrun⟩ : ∃ s, Trace.run Audit.step (gapThenLowerOps 20000000)
      (Audit.start orderedConfig) = some s := ⟨_, rfl⟩
  have hdistinct : (chunkIds s.stored).Nodup := by
    cases hrun
    decide
  refine ⟨s, hrun, ?_, (accounted_iff hrun hdistinct).1.mpr ?_⟩
  · cases hrun
    decide
  · exact ⟨trivial, (by decide : ∀ e ∈ agedOut _ _ _, e.2.chunk = none),
      trivial, (by decide : ∀ e ∈ agedOut _ _ _, e.2.chunk = none), trivial⟩

/-- After 101 ms chunk 3 holds up the drain, and behind it chunk 5 is
pruned for its age: two chunks were received, and one slot is all there
is. -/
theorem aged_chunk_vanishes : ∃ s,
    Trace.run Audit.step (gapThenLowerOps 101000000)
        (Audit.start orderedConfig) = some s
      ∧ (chunkIds s.stored).Nodup
      ∧ ¬s.Accounted
      ∧ s.buffer.stats.chunksReceived = 2
      ∧ s.buffer.stats.chunksForwarded = 0
      ∧ s.buffer.stats.ready = 1
      ∧ s.buffer.stats.chunksTimeout = 0 := by
  refine ⟨_, rfl, ?_, ?_, rfl, rfl, ?_, rfl⟩
  · decide
  · intro haccounted
    have hfive := haccounted (Chunk.new 5 0) List.mem_cons_self
    revert hfive
    decide
  · decide

end ChainLightning
