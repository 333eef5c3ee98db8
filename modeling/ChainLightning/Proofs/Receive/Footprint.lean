/-
What the receiver keeps.

The pruning behind a drain bounds the slots of the buffer. The map of the
announced links is written by every announcement and read and pruned by
nothing: it has one entry for each id that was ever announced
(`Footprint.Ledgered`). So what the receiver keeps is bounded by twice the
buffer while no more ids were announced than the buffer holds. No larger
number of ids is safe: announced at once, as many more fill the buffer and
outnumber it (`footprint_bounded_iff`).
-/
import Mathlib.Data.Finset.Range
import ChainLightning.Proofs.Receive.Accounted

namespace ChainLightning

open ReassemblyBuffer

-- ================================================================== runs

/-- The calls a receiver receives. -/
inductive ReceiverOp where
  | handleAnnouncement (ann : AnnouncePacket) (now : Nat)
  | handleChunk (chunk : Chunk) (now : Nat)
  | drain (clock pruneClock : Nat → Nat)

/-- A receiver in a run, with the ids that were announced to it. -/
structure Footprint where
  receiver : ChunkReceiver
  announced : Finset Nat

namespace Footprint

def start (config : ReceiverConfig) : Footprint where
  receiver := ChunkReceiver.new config
  announced := ∅

/-- One call. -/
def step : ReceiverOp → Footprint → Option Footprint
  | .handleAnnouncement ann now, s => some {
      receiver := s.receiver.handleAnnouncement ann now
      announced := insert ann.chunkId.toNat s.announced }
  | .handleChunk chunk now, s =>
      some { s with receiver := s.receiver.handleChunk chunk now }
  | .drain clock pruneClock, s =>
      some { s with receiver := (s.receiver.drain clock pruneClock).2 }

end Footprint

/-- The entries that a receiver keeps. -/
def ChunkReceiver.entries (r : ChunkReceiver) : Nat :=
  r.buffer.slots.entries.length + r.announcementLink.entries.length

-- ========================================================= the invariant

/-- The receiver has the configuration it was made with, and one link for
each announced id. -/
structure Footprint.Ledgered (config : ReceiverConfig) (s : Footprint) :
    Prop where
  configured : s.receiver.buffer.config = config
  links : ∀ id, id ∈ s.receiver.announcementLink.entries.map Prod.fst
    ↔ id ∈ s.announced

namespace Footprint.Ledgered

variable {config : ReceiverConfig} {s s' : Footprint}

theorem start (config : ReceiverConfig) :
    Ledgered config (Footprint.start config) where
  configured := rfl
  links := fun id => by simp [Footprint.start, ChunkReceiver.new, OrdMap.empty]

theorem step (h : Ledgered config s) {op : ReceiverOp}
    (hstep : Footprint.step op s = some s') : Ledgered config s' := by
  cases op with
  | handleAnnouncement ann now =>
      cases hstep
      refine ⟨h.configured, fun id => ?_⟩
      rw [Finset.mem_insert, ← h.links id]
      exact OrdMap.mem_keys_upsertList
  | handleChunk chunk now =>
      cases hstep
      exact ⟨h.configured, h.links⟩
  | drain clock pruneClock =>
      have hs' : s' = { s with
          receiver := (s.receiver.drain clock pruneClock).2 } :=
        (Option.some.inj hstep).symm
      rw [hs']
      refine ⟨?_, h.links⟩
      have hconfig : (s.receiver.buffer.drainReady clock pruneClock).2.config
          = s.receiver.buffer.config := by
        unfold drainReady
        cases s.receiver.buffer.config.immediateForward <;> rfl
      exact hconfig.trans h.configured

/-- There are as many links as announced ids. -/
theorem links_length (h : Ledgered config s) :
    s.receiver.announcementLink.entries.length = s.announced.card :=
  OrdMap.length_eq_card h.links

end Footprint.Ledgered

/-- There is room for what a drain leaves. -/
theorem left_le (clock pruneClock : Nat → Nat) (b : ReassemblyBuffer) :
    (removeOld (pruneTimeout b.config) pruneClock (fitting clock b)).length
      ≤ b.config.maxBufferChunks := by
  refine (removeOld_sublist _ _ _).length_le.trans ?_
  rw [fitting, List.length_drop]
  omega

-- ======================================================== what a drain keeps

section Drain

variable {config : ReceiverConfig} {s : Footprint}
  (h : Footprint.Ledgered config s) (clock pruneClock : Nat → Nat)

include h

theorem drain_slots :
    (s.receiver.drain clock pruneClock).2.buffer.slots.entries
      = removeOld (pruneTimeout config) pruneClock
        (fitting clock s.receiver.buffer) := by
  have hleft := drainReady_left clock pruneClock s.receiver.buffer
  rw [h.configured] at hleft
  exact hleft

/-- The slots are within the buffer. -/
theorem drain_slots_le :
    (s.receiver.drain clock pruneClock).2.buffer.slots.entries.length
      ≤ config.maxBufferChunks := by
  have hle := left_le clock pruneClock s.receiver.buffer
  rw [h.configured] at hle
  rw [drain_slots h]
  exact hle

/-- A drain takes no link. -/
theorem drain_links :
    (s.receiver.drain clock pruneClock).2.announcementLink.entries.length
      = s.announced.card :=
  h.links_length

theorem drain_entries_le
    (hfew : s.announced.card ≤ config.maxBufferChunks) :
    (s.receiver.drain clock pruneClock).2.entries
      ≤ 2 * config.maxBufferChunks := by
  have hslots := drain_slots_le h clock pruneClock
  have hlinks := drain_links h clock pruneClock
  unfold ChunkReceiver.entries
  omega

end Drain

-- ==================================================== announced all at once

/-- Announcements of some chunks, one after the other. -/
def announceOps (ids : List UInt64) : List ReceiverOp :=
  ids.map fun id => .handleAnnouncement (AnnouncePacket.mk id 1 1400 0) 0

/-- The first `n` ids. -/
def idsBelow (n : Nat) : List UInt64 :=
  (List.range n).map UInt64.ofNat

/-- The slots are those of chunks that were announced at time zero and have
not arrived, one for each announced id. -/
structure Footprint.Pending (s : Footprint) : Prop where
  slots : ∀ e ∈ s.receiver.buffer.slots.entries,
    e.2.chunk = none ∧ e.2.createdAt = 0
  ids : ∀ id, id ∈ s.receiver.buffer.slots.entries.map Prod.fst
    ↔ id ∈ s.announced

namespace Footprint.Pending

variable {s s' : Footprint}

theorem start (config : ReceiverConfig) :
    (Footprint.start config).Pending where
  slots := fun _ he => (List.not_mem_nil he).elim
  ids := fun id => by
    simp [Footprint.start, ChunkReceiver.new, ReassemblyBuffer.new,
      OrdMap.empty]

theorem announced (h : s.Pending) {ann : AnnouncePacket}
    (hstep : Footprint.step (.handleAnnouncement ann 0) s = some s') :
    s'.Pending := by
  cases hstep
  constructor
  · refine OrdMap.upsert_forall (P := fun _ (slot : BufferSlot) =>
      slot.chunk = none ∧ slot.createdAt = 0) h.slots ⟨rfl, rfl⟩ ?_
    intro slot hslot
    exact hslot
  · intro id
    rw [Finset.mem_insert, ← h.ids id]
    exact OrdMap.mem_keys_upsertList

theorem slots_length (h : s.Pending) :
    s.receiver.buffer.slots.entries.length = s.announced.card :=
  OrdMap.length_eq_card h.ids

theorem not_ready (h : s.Pending) {e : Nat × BufferSlot}
    (he : e ∈ s.receiver.buffer.slots.entries) : e.2.isReady = false := by
  simp [BufferSlot.isReady, (h.slots e he).1]

/-- At time zero none of them is too old. -/
theorem not_timedOut (h : s.Pending) (timeout : Nat) {e : Nat × BufferSlot}
    (he : e ∈ s.receiver.buffer.slots.entries) :
    e.2.isTimedOut timeout 0 = false := by
  simp [BufferSlot.isTimedOut, (h.slots e he).2]

/-- Neither mode of a drain at time zero takes one. -/
theorem standing_eq (h : s.Pending) :
    standing (fun _ => 0) s.receiver.buffer
      = s.receiver.buffer.slots.entries := by
  unfold standing
  split
  case isTrue =>
      refine List.filter_eq_self.mpr fun e he => ?_
      simp [h.not_ready he]
  case isFalse =>
      -- a slot that is neither ready nor too old stops the loop
      cases hslots : s.receiver.buffer.slots.entries with
      | nil => rfl
      | cons e rest =>
          have he : e ∈ s.receiver.buffer.slots.entries := by
            rw [hslots]
            exact List.mem_cons_self
          exact if_pos (Or.inr ⟨h.not_ready he, h.not_timedOut _ he⟩)

end Footprint.Pending

/-- Slots that are not too old at time zero are not pruned then. -/
theorem removeOld_young {timeout : Nat} {slots : List (Nat × BufferSlot)}
    (h : ∀ e ∈ slots, e.2.isTimedOut timeout 0 = false) :
    removeOld timeout (fun _ => 0) slots = slots := by
  induction slots with
  | nil => rfl
  | cons e rest ih =>
      obtain ⟨id, slot⟩ := e
      have hhead := h (id, slot) List.mem_cons_self
      rw [removeOld, hhead, ih fun e he => h e (List.mem_cons_of_mem _ he)]
      rfl

/-- A drain at time zero leaves as many of them as there is room for. -/
theorem Footprint.Pending.drain_slots {config : ReceiverConfig}
    {s : Footprint} (h : s.Pending) (hledger : Footprint.Ledgered config s) :
    (s.receiver.drain (fun _ => 0) (fun _ => 0)).2.buffer.slots.entries.length
      = min s.announced.card config.maxBufferChunks := by
  have hyoung : ∀ e ∈ fitting (fun _ => 0) s.receiver.buffer,
      e.2.isTimedOut (pruneTimeout config) 0 = false := by
    intro e he
    refine h.not_timedOut _ ?_
    rw [← h.standing_eq]
    exact (List.drop_sublist _ _).subset he
  rw [ChainLightning.drain_slots hledger, removeOld_young hyoung, fitting,
    List.length_drop, h.standing_eq, h.slots_length, hledger.configured]
  omega

/-- The run that announces the first `n` ids. -/
theorem run_idsBelow (config : ReceiverConfig) {n : Nat} (hn : n ≤ 2 ^ 64) :
    ∃ s, Trace.run Footprint.step (announceOps (idsBelow n))
        (Footprint.start config) = some s
      ∧ s.Pending ∧ s.announced = Finset.range n := by
  induction n with
  | zero => exact ⟨_, rfl, Footprint.Pending.start config, rfl⟩
  | succ n ih =>
      obtain ⟨s, hrun, hpending, hannounced⟩ := ih (by omega)
      have hops : announceOps (idsBelow (n + 1))
          = announceOps (idsBelow n) ++ announceOps [UInt64.ofNat n] := by
        simp [announceOps, idsBelow, List.range_succ]
      rw [hops, Trace.run_append, hrun]
      refine ⟨_, rfl, hpending.announced rfl, ?_⟩
      have hid : (UInt64.ofNat n).toNat = n := by
        rw [UInt64.toNat_ofNat']
        omega
      show insert (UInt64.ofNat n).toNat s.announced = _
      rw [hid, hannounced, Finset.range_add_one]

-- =============================================================== the bound

/-- What a receiver keeps is within twice its buffer behind every drain of
every run that announced at most `n` ids, if and only if `n` is no more
than the buffer holds. In every run the drain leaves slots within the
buffer and a link for each announced id, and once these ids are more than
twice the buffer no drain meets the bound again. -/
theorem footprint_bounded_iff {config : ReceiverConfig} {n : Nat}
    (hn : n ≤ 2 ^ 64) :
    ((∀ ops s, Trace.run Footprint.step ops (Footprint.start config) = some s →
        s.announced.card ≤ n → ∀ clock pruneClock,
        (s.receiver.drain clock pruneClock).2.entries
          ≤ 2 * config.maxBufferChunks)
      ↔ n ≤ config.maxBufferChunks)
    ∧ ∀ ops s, Trace.run Footprint.step ops (Footprint.start config) = some s →
      ∀ clock pruneClock,
        (s.receiver.drain clock pruneClock).2.buffer.slots.entries.length
          ≤ config.maxBufferChunks
        ∧ (s.receiver.drain clock pruneClock).2.announcementLink.entries.length
          = s.announced.card
        ∧ (2 * config.maxBufferChunks < s.announced.card →
          2 * config.maxBufferChunks
            < (s.receiver.drain clock pruneClock).2.entries) := by
  have hledgered : ∀ ops s,
      Trace.run Footprint.step ops (Footprint.start config) = some s →
      Footprint.Ledgered config s := fun _ _ hrun =>
    Trace.run_invariant (fun _ _ _ h hstep => h.step hstep) hrun
      (Footprint.Ledgered.start config)
  refine ⟨⟨?_, ?_⟩, ?_⟩
  · intro hbounded
    by_contra hmore
    -- one id more than the buffer holds
    obtain ⟨s, hrun, hpending, hannounced⟩ := run_idsBelow config
      (n := config.maxBufferChunks + 1) (by omega)
    have hcard : s.announced.card = config.maxBufferChunks + 1 := by
      rw [hannounced, Finset.card_range]
    have hle := hbounded _ s hrun (by omega) (fun _ => 0) (fun _ => 0)
    have hslots := hpending.drain_slots (hledgered _ s hrun)
    have hlinks := drain_links (hledgered _ s hrun) (fun _ => 0) (fun _ => 0)
    unfold ChunkReceiver.entries at hle
    omega
  · intro hfew ops s hrun hcard clock pruneClock
    exact drain_entries_le (hledgered ops s hrun) clock pruneClock
      (hcard.trans hfew)
  · intro ops s hrun clock pruneClock
    have hlinks := drain_links (hledgered ops s hrun) clock pruneClock
    refine ⟨drain_slots_le (hledgered ops s hrun) clock pruneClock, hlinks,
      fun hmany => ?_⟩
    unfold ChunkReceiver.entries
    omega

/-- Room for one slot, in immediate mode. -/
def oneSlotConfig : ReceiverConfig where
  reorderTimeoutMs := 10
  maxBufferChunks := 1
  immediateForward := true

/-- One announcement, any number of times: the bound holds. -/
theorem footprint_bounded_one : ∃ s,
    Trace.run Footprint.step (announceOps [7, 7, 7])
        (Footprint.start oneSlotConfig) = some s
      ∧ (s.receiver.drain (fun _ => 0) (fun _ => 0)).2.entries ≤ 2 := by
  obtain ⟨s, hrun⟩ : ∃ s, Trace.run Footprint.step (announceOps [7, 7, 7])
      (Footprint.start oneSlotConfig) = some s := ⟨_, rfl⟩
  have hbounded : ∀ ops s,
      Trace.run Footprint.step ops (Footprint.start oneSlotConfig) = some s →
      s.announced.card ≤ 1 → ∀ clock pruneClock,
      (s.receiver.drain clock pruneClock).2.entries ≤ 2 :=
    (footprint_bounded_iff (by decide)).1.mpr (Nat.le_refl 1)
  refine ⟨s, hrun, hbounded _ s hrun ?_ _ _⟩
  cases hrun
  decide

/-- Three announcements, and a drain much later that prunes every slot:
three links are left, where the bound is two. -/
theorem announcements_kept : ∃ s,
    Trace.run Footprint.step (announceOps [1, 2, 3])
        (Footprint.start oneSlotConfig) = some s
      ∧ oneSlotConfig.maxBufferChunks = 1
      ∧ ((s.receiver.drain (fun _ => 10000000000)
        (fun _ => 10000000000)).2.buffer.slots.entries.length = 0)
      ∧ (s.receiver.drain (fun _ => 10000000000)
        (fun _ => 10000000000)).2.entries = 3 := by
  exact ⟨_, rfl, rfl, by decide, by decide⟩

end ChainLightning
