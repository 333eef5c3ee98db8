/-
Delivery in immediate mode.

A drain hands out every slot with a chunk and removes it, so the slots
that the pruning finds are announcements without data
(`Collecting.spent`). What a drain returns is what was stored since the
one before: exactly that where the ids are distinct (`immediate_exact`).

A slot that was handed out takes with it all that was known about its
id: `forwarded` is a field of the slot, and nothing sets it. A chunk
that arrives again behind the drain that returned it is returned again,
and that is the only way to get one twice (`at_most_once_iff`).
-/
import Mathlib.Data.List.Nodup
import ChainLightning.Proofs.Receive.Ordered

namespace ChainLightning

open ReassemblyBuffer

-- ================================================================== runs

/-- What a drain returned, and what was stored since the one before. -/
structure Drain where
  returned : List Chunk
  stored : List Chunk

/-- A buffer in a run, with its drains and the chunks stored since the
last one. -/
structure Outbox where
  buffer : ReassemblyBuffer
  pending : List Chunk
  drains : List Drain

namespace Outbox

def start (config : ReceiverConfig) : Outbox where
  buffer := ReassemblyBuffer.new config
  pending := []
  drains := []

/-- One call. -/
def step : BufferOp → Outbox → Option Outbox
  | .recordAnnouncement ann now, s =>
      some { s with buffer := s.buffer.recordAnnouncement ann now }
  | .storeChunk chunk now, s =>
      some { s with
        buffer := s.buffer.storeChunk chunk now
        pending := s.pending ++ [chunk] }
  | .drainReady clock pruneClock, s =>
      let (ready, buffer) := s.buffer.drainReady clock pruneClock
      some {
        buffer
        pending := []
        drains := s.drains ++ [⟨ready, s.pending⟩] }

/-- All that the drains returned. -/
def returned (s : Outbox) : List Chunk := s.drains.flatMap Drain.returned

/-- The chunks that were stored before the last drain. -/
def settled (s : Outbox) : List Chunk := s.drains.flatMap Drain.stored

/-- The chunks that were stored in the run. -/
def stored (s : Outbox) : List Chunk := s.settled ++ s.pending

/-- No chunk since the last drain has an id that was stored before it. -/
def Unsettled (op : BufferOp) (s : Outbox) : Prop :=
  match op with
  | .drainReady _ _ => ∀ c ∈ s.pending, c.id.toNat ∉ chunkIds s.settled
  | _ => True

end Outbox

-- ============================================================= one drain

/-- A slot between two drains: not forwarded, and its chunk, if any, is a
pending one of its id. -/
def Collected (pending : List Chunk) (id : Nat) (slot : BufferSlot) : Prop :=
  slot.forwarded = false
    ∧ ∀ c, slot.chunk = some c → c.id.toNat = id ∧ c ∈ pending

namespace Collected

variable {pending : List Chunk} {id : Nat} {slot : BufferSlot}

theorem ready_iff (h : Collected pending id slot) :
    slot.isReady = true ↔ slot.chunk.isSome = true := by
  simp [BufferSlot.isReady, h.1]

/-- A slot that is not ready has no chunk. -/
theorem spent (h : Collected pending id slot)
    (hready : slot.isReady = false) : slot.chunk = none := by
  have hnot := h.ready_iff.not.mp (Bool.eq_false_iff.mp hready)
  simpa using hnot

theorem mono (h : Collected pending id slot) (c : Chunk) :
    Collected (pending ++ [c]) id slot := by
  refine ⟨h.1, fun c' hc' => ?_⟩
  obtain ⟨hid, hmem⟩ := h.2 c' hc'
  exact ⟨hid, List.mem_append_left _ hmem⟩

end Collected

/-- What an immediate drain returns. -/
theorem mem_drainImmediate {b : ReassemblyBuffer} {c : Chunk} :
    c ∈ b.drainImmediate.1
      ↔ ∃ e ∈ b.slots.entries, e.2.isReady = true ∧ e.2.chunk = some c := by
  unfold drainImmediate
  simp only [List.mem_filterMap, List.mem_filter]
  constructor
  · rintro ⟨e, ⟨he, hready⟩, hc⟩
    exact ⟨e, he, hready, hc⟩
  · rintro ⟨e, he, hready, hc⟩
    exact ⟨e, ⟨he, hready⟩, hc⟩

/-- It returns them in increasing order of ids. -/
theorem drainImmediate_increasing {b : ReassemblyBuffer}
    {pending : List Chunk}
    (hslots : ∀ e ∈ b.slots.entries, Collected pending e.1 e.2) :
    (chunkIds b.drainImmediate.1).Pairwise (· < ·) := by
  have hready : (b.slots.entries.filter (·.2.isReady)).Pairwise
      fun a b => a.1 < b.1 := b.slots.sorted.filter _
  unfold chunkIds drainImmediate
  refine List.pairwise_map.mpr (List.pairwise_filterMap.mpr ?_)
  refine hready.imp_of_mem ?_
  intro e e' he he' hlt c hc c' hc'
  rw [((hslots e (List.mem_of_mem_filter he)).2 c hc).1,
    ((hslots e' (List.mem_of_mem_filter he')).2 c' hc').1]
  exact hlt

/-- In immediate mode a drain prunes behind `drainImmediate`. -/
theorem Outbox.step_drain {s s' : Outbox}
    (hmode : s.buffer.config.immediateForward = true)
    {clock pruneClock : Nat → Nat}
    (hstep : Outbox.step (.drainReady clock pruneClock) s = some s') :
    s' = ⟨s.buffer.drainImmediate.2.pruneOldSlots pruneClock, [],
      s.drains ++ [⟨s.buffer.drainImmediate.1, s.pending⟩]⟩ := by
  have hs' : s' = ⟨(s.buffer.drainReady clock pruneClock).2, [],
      s.drains ++ [⟨(s.buffer.drainReady clock pruneClock).1,
        s.pending⟩]⟩ := (Option.some.inj hstep).symm
  rw [hs', drainReady_of_immediate hmode]

-- ============================================================ the invariant

/-- The slots collect the pending chunks: each slot with a chunk has a
pending one, and each pending id has a slot with a chunk. -/
structure Collecting (s : Outbox) : Prop where
  mode : s.buffer.config.immediateForward = true
  slots : ∀ e ∈ s.buffer.slots.entries, Collected s.pending e.1 e.2
  held : ∀ c ∈ s.pending, ∃ slot,
    (c.id.toNat, slot) ∈ s.buffer.slots.entries ∧ slot.chunk.isSome = true

namespace Collecting

variable {s s' : Outbox}

theorem start {config : ReceiverConfig}
    (hmode : config.immediateForward = true) :
    Collecting (Outbox.start config) where
  mode := hmode
  slots := fun _ h => nomatch h
  held := fun _ h => nomatch h

theorem announce (h : Collecting s) (ann : AnnouncePacket) (now : Nat) :
    Collecting { s with buffer := s.buffer.recordAnnouncement ann now } where
  mode := h.mode
  slots := by
    refine OrdMap.upsert_forall h.slots ?_ fun slot hslot => hslot
    exact ⟨rfl, fun _ hc => nomatch hc⟩
  held := by
    intro c hc
    obtain ⟨slot, hmem, hsome⟩ := h.held c hc
    by_cases hid : c.id.toNat = ann.chunkId.toNat
    · rw [hid] at hmem ⊢
      exact ⟨_, OrdMap.mem_upsertList_self s.buffer.slots.sorted hmem, hsome⟩
    · exact ⟨slot, OrdMap.mem_upsertList_of_ne hid hmem, hsome⟩

theorem store (h : Collecting s) (chunk : Chunk) (now : Nat) :
    Collecting { s with
      buffer := s.buffer.storeChunk chunk now
      pending := s.pending ++ [chunk] } where
  mode := h.mode
  slots := by
    have hnew : chunk ∈ s.pending ++ [chunk] :=
      List.mem_append_right _ List.mem_cons_self
    refine OrdMap.upsert_forall
      (P := fun id slot => Collected (s.pending ++ [chunk]) id slot)
      (fun e he => (h.slots e he).mono chunk) ?_ ?_
    · exact ⟨rfl, fun c hc => by cases hc; exact ⟨rfl, hnew⟩⟩
    · exact fun slot hslot =>
        ⟨hslot.1, fun c hc => by cases hc; exact ⟨rfl, hnew⟩⟩
  held := by
    intro c hc
    by_cases hid : c.id.toNat = chunk.id.toNat
    · obtain ⟨o, hmem, -⟩ := OrdMap.exists_mem_upsertList chunk.id.toNat
        (fun slot => { slot.getD (BufferSlot.new now) with
          chunk := some chunk }) s.buffer.slots.entries
      rw [hid]
      exact ⟨_, hmem, rfl⟩
    · have hold : c ∈ s.pending := by
        rcases List.mem_append.mp hc with hc | hc
        · exact hc
        · rw [List.mem_singleton.mp hc] at hid
          exact absurd rfl hid
      obtain ⟨slot, hmem, hsome⟩ := h.held c hold
      exact ⟨slot, OrdMap.mem_upsertList_of_ne hid hmem, hsome⟩

/-- Behind the handing out no slot has a chunk. -/
theorem spent (h : Collecting s) :
    ∀ e ∈ s.buffer.drainImmediate.2.slots.entries, e.2.chunk = none := by
  intro e he
  obtain ⟨hmem, hready⟩ := List.mem_filter.mp he
  exact (h.slots e hmem).spent (by simpa using hready)

theorem drain (h : Collecting s) (pruneClock : Nat → Nat) :
    Collecting ⟨s.buffer.drainImmediate.2.pruneOldSlots pruneClock, [],
      s.drains ++ [⟨s.buffer.drainImmediate.1, s.pending⟩]⟩ := by
  refine ⟨h.mode, ?_, fun _ hc => nomatch hc⟩
  intro e he
  have hmem : e ∈ s.buffer.drainImmediate.2.slots.entries :=
    (List.drop_sublist _ _).subset ((removeOld_sublist _ _ _).subset he)
  have hslot := h.slots e (List.mem_of_mem_filter hmem)
  refine ⟨hslot.1, fun c hc => ?_⟩
  rw [h.spent e hmem] at hc
  cases hc

theorem step (h : Collecting s) {op : BufferOp}
    (hstep : Outbox.step op s = some s') : Collecting s' := by
  cases op with
  | recordAnnouncement ann now =>
      cases hstep
      exact h.announce ann now
  | storeChunk chunk now =>
      cases hstep
      exact h.store chunk now
  | drainReady clock pruneClock =>
      rw [Outbox.step_drain h.mode hstep]
      exact h.drain pruneClock

-- ======================================================= what comes out

/-- A drain returns pending chunks, -/
theorem returns_pending (h : Collecting s) :
    ∀ c ∈ s.buffer.drainImmediate.1, c ∈ s.pending := by
  intro c hc
  obtain ⟨e, he, -, hchunk⟩ := mem_drainImmediate.mp hc
  exact ((h.slots e he).2 c hchunk).2

/-- and one of each pending id. -/
theorem returns_ids (h : Collecting s) (id : Nat) :
    id ∈ chunkIds s.buffer.drainImmediate.1 ↔ id ∈ chunkIds s.pending := by
  constructor
  · intro hid
    obtain ⟨c, hc, rfl⟩ := List.mem_map.mp hid
    exact List.mem_map_of_mem (h.returns_pending c hc)
  · intro hid
    obtain ⟨c, hc, rfl⟩ := List.mem_map.mp hid
    obtain ⟨slot, hmem, hsome⟩ := h.held c hc
    have hslot := h.slots _ hmem
    obtain ⟨c', hc'⟩ := Option.isSome_iff_exists.mp hsome
    refine List.mem_map.mpr ⟨c', mem_drainImmediate.mpr ?_, (hslot.2 c' hc').1⟩
    exact ⟨_, hmem, hslot.ready_iff.mpr hsome, hc'⟩

/-- With distinct ids it returns the pending chunks. -/
theorem returns_perm (h : Collecting s)
    (hdistinct : (chunkIds s.pending).Nodup) :
    s.buffer.drainImmediate.1.Perm s.pending := by
  have hout : (chunkIds s.buffer.drainImmediate.1).Nodup :=
    (drainImmediate_increasing h.slots).imp Nat.ne_of_lt
  refine (List.perm_ext_iff_of_nodup (List.Nodup.of_map _ hout)
    (List.Nodup.of_map _ hdistinct)).mpr ?_
  refine fun c => ⟨h.returns_pending c, fun hc => ?_⟩
  -- the chunk that is returned for its id is the chunk itself
  have hid := (h.returns_ids c.id.toNat).mpr (List.mem_map_of_mem hc)
  obtain ⟨c', hc', hsame⟩ := List.mem_map.mp hid
  have heq : c' = c :=
    List.inj_on_of_nodup_map hdistinct (h.returns_pending c' hc') hc hsame
  exact heq ▸ hc'

end Collecting

-- ================================================================== exact

/-- The run so far, if its ids are distinct: each drain returned what was
stored since the one before, and the counters differ by what is pending. -/
structure DrainsExact (s : Outbox) : Prop where
  exact : ∀ d ∈ s.drains,
    d.returned.Perm d.stored ∧ (chunkIds d.returned).Pairwise (· < ·)
  counters : s.buffer.chunksReceived
    = s.buffer.chunksForwarded + UInt64.ofNat s.pending.length

/-- The ids that were stored in a drain are those of the pending chunks
before it, behind the settled ones. -/
theorem Outbox.step_stored {s s' : Outbox} {op : BufferOp}
    (hstep : Outbox.step op s = some s') :
    ∃ new, s'.stored = s.stored ++ new := by
  cases op with
  | recordAnnouncement ann now =>
      cases hstep
      exact ⟨[], (List.append_nil _).symm⟩
  | storeChunk chunk now =>
      cases hstep
      exact ⟨[chunk], by simp [Outbox.stored, Outbox.settled]⟩
  | drainReady clock pruneClock =>
      cases hstep
      exact ⟨[], by simp [Outbox.stored, Outbox.settled]⟩

/-- A call keeps the deliveries exact while the ids are distinct. -/
theorem DrainsExact.step {s s' : Outbox} (hcollecting : Collecting s)
    (h : (chunkIds s.stored).Nodup → DrainsExact s) {op : BufferOp}
    (hstep : Outbox.step op s = some s') :
    (chunkIds s'.stored).Nodup → DrainsExact s' := by
  intro hdistinct'
  have hdistinct : (chunkIds s.stored).Nodup := by
    obtain ⟨new, hnew⟩ := Outbox.step_stored hstep
    rw [hnew, chunkIds_append] at hdistinct'
    exact hdistinct'.of_append_left
  obtain ⟨hexact, hcounters⟩ := h hdistinct
  cases op with
  | recordAnnouncement ann now =>
      cases hstep
      exact ⟨hexact, hcounters⟩
  | storeChunk chunk now =>
      cases hstep
      refine ⟨hexact, ?_⟩
      show s.buffer.chunksReceived + 1 = s.buffer.chunksForwarded
        + UInt64.ofNat (s.pending ++ [chunk]).length
      rw [hcounters, List.length_append, UInt64.ofNat_add, UInt64.add_assoc]
      rfl
  | drainReady clock pruneClock =>
      have hs' := Outbox.step_drain hcollecting.mode hstep
      have hpending : (chunkIds s.pending).Nodup := by
        rw [Outbox.stored, chunkIds_append] at hdistinct
        exact hdistinct.of_append_right
      have hperm := hcollecting.returns_perm hpending
      rw [hs']
      refine ⟨?_, ?_⟩
      · intro d hd
        rcases List.mem_append.mp hd with hd | hd
        · exact hexact d hd
        · rw [List.mem_singleton.mp hd]
          exact ⟨hperm, drainImmediate_increasing hcollecting.slots⟩
      · show s.buffer.chunksReceived = s.buffer.chunksForwarded
          + UInt64.ofNat s.buffer.drainImmediate.1.length + 0
        rw [hperm.length_eq, UInt64.add_zero]
        exact hcounters

/-- Every reachable state collects, and with distinct ids its deliveries
are exact. -/
theorem immediate_run {config : ReceiverConfig}
    (hmode : config.immediateForward = true) {ops : List BufferOp}
    {s : Outbox}
    (hrun : Trace.run Outbox.step ops (Outbox.start config) = some s) :
    Collecting s ∧ ((chunkIds s.stored).Nodup → DrainsExact s) := by
  refine Trace.run_invariant
    (P := fun s => Collecting s ∧ ((chunkIds s.stored).Nodup → DrainsExact s))
    ?_ hrun ⟨Collecting.start hmode,
      fun _ => ⟨fun _ hd => (nomatch hd), rfl⟩⟩
  rintro op t t' ⟨hcollecting, hdelivered⟩ hstep
  exact ⟨hcollecting.step hstep, DrainsExact.step hcollecting hdelivered hstep⟩

/-- Permuted drain by drain, permuted in all. -/
theorem returned_perm_settled {s : Outbox}
    (h : ∀ d ∈ s.drains, d.returned.Perm d.stored) :
    s.returned.Perm s.settled := by
  unfold Outbox.returned Outbox.settled
  exact List.Perm.flatMap_left s.drains h

/-- Immediate mode is exact. With distinct ids, each drain returned the
chunks stored since the one before, in increasing order of ids; so every
stored chunk is returned once, or pending. The next drain hands out all
chunks in the buffer before it prunes, and with it the counters agree. -/
theorem immediate_exact {config : ReceiverConfig}
    (hmode : config.immediateForward = true) {ops : List BufferOp}
    {s : Outbox}
    (hrun : Trace.run Outbox.step ops (Outbox.start config) = some s)
    (hdistinct : (chunkIds s.stored).Nodup) :
    (∀ d ∈ s.drains, d.returned.Perm d.stored
      ∧ (chunkIds d.returned).Pairwise (· < ·))
    ∧ (s.returned ++ s.pending).Perm s.stored
    ∧ ∀ clock pruneClock,
      s.buffer.drainReady clock pruneClock
        = (s.buffer.drainImmediate.1,
          s.buffer.drainImmediate.2.pruneOldSlots pruneClock)
      ∧ (∀ e ∈ s.buffer.drainImmediate.2.slots.entries, e.2.chunk = none)
      ∧ s.buffer.drainImmediate.1.Perm s.pending
      ∧ (chunkIds s.buffer.drainImmediate.1).Pairwise (· < ·)
      ∧ (s.buffer.drainReady clock pruneClock).2.chunksReceived
        = (s.buffer.drainReady clock pruneClock).2.chunksForwarded := by
  obtain ⟨hcollecting, hdelivered⟩ := immediate_run hmode hrun
  obtain ⟨hexact, hcounters⟩ := hdelivered hdistinct
  have hpending : (chunkIds s.pending).Nodup := by
    rw [Outbox.stored, chunkIds_append] at hdistinct
    exact hdistinct.of_append_right
  have hperm := hcollecting.returns_perm hpending
  refine ⟨hexact, ?_, ?_⟩
  · exact (returned_perm_settled fun d hd => (hexact d hd).1).append_right _
  · intro clock pruneClock
    have hdrain := drainReady_of_immediate hcollecting.mode clock pruneClock
    refine ⟨hdrain, hcollecting.spent, hperm,
      drainImmediate_increasing hcollecting.slots, ?_⟩
    rw [hdrain]
    show s.buffer.chunksReceived = s.buffer.chunksForwarded
      + UInt64.ofNat s.buffer.drainImmediate.1.length
    rw [hperm.length_eq]
    exact hcounters

/-- Immediate mode, with room for one slot. -/
def immediateConfig : ReceiverConfig where
  reorderTimeoutMs := 10
  maxBufferChunks := 1
  immediateForward := true

/-- Chunks 3 and 2 among announcements, and chunk 5 a second later. -/
private def mixedInOps : List BufferOp :=
  [.recordAnnouncement (AnnouncePacket.mk 3 1 1400 0) 0,
   .recordAnnouncement (AnnouncePacket.mk 9 1 1400 0) 0,
   .storeChunk (Chunk.new 3 0) 1000000,
   .storeChunk (Chunk.new 2 0) 2000000,
   .recordAnnouncement (AnnouncePacket.mk 7 0 1400 0) 3000000,
   .drainReady (fun _ => 3000000) (fun _ => 3000000),
   .storeChunk (Chunk.new 5 0) 1000000000,
   .drainReady (fun _ => 1000000000) (fun _ => 1000000000)]

/-- The law at this run: the announcement of 7 is pruned for want of
room, the one of 9 for its age. -/
theorem immediate_exact_mixed : ∃ s,
    Trace.run Outbox.step mixedInOps (Outbox.start immediateConfig) = some s
      ∧ s.drains.map (fun d => chunkIds d.returned) = [[2, 3], [5]]
      ∧ s.buffer.slots.entries.length = 0
      ∧ ∀ d ∈ s.drains, d.returned.Perm d.stored
        ∧ (chunkIds d.returned).Pairwise (· < ·) := by
  obtain ⟨s, hrun⟩ : ∃ s, Trace.run Outbox.step mixedInOps
      (Outbox.start immediateConfig) = some s := ⟨_, rfl⟩
  have hdistinct : (chunkIds s.stored).Nodup := by
    cases hrun
    decide
  have hexact := (immediate_exact rfl hrun hdistinct).1
  refine ⟨s, hrun, ?_, ?_, hexact⟩
  · cases hrun
    decide
  · cases hrun
    decide

-- ============================================================ at most once

/-- The ids returned so far are those of the settled chunks. -/
def AllReturned (s : Outbox) : Prop :=
  ∀ id, id ∈ chunkIds s.returned ↔ id ∈ chunkIds s.settled

/-- What a drain adds to the run. -/
theorem drains_append (s : Outbox) (buffer : ReassemblyBuffer)
    (ready : List Chunk) :
    let s' : Outbox := ⟨buffer, [], s.drains ++ [⟨ready, s.pending⟩]⟩
    chunkIds s'.returned = chunkIds s.returned ++ chunkIds ready
      ∧ chunkIds s'.settled = chunkIds s.settled ++ chunkIds s.pending := by
  simp [Outbox.returned, Outbox.settled]

/-- A call keeps that, and the returned ids distinct exactly when it
returns none of them again. -/
theorem AllReturned.step {s s' : Outbox} (hcollecting : Collecting s)
    (h : AllReturned s) {op : BufferOp}
    (hstep : Outbox.step op s = some s') :
    AllReturned s' ∧ ((chunkIds s'.returned).Nodup
      ↔ (chunkIds s.returned).Nodup ∧ s.Unsettled op) := by
  cases op with
  | recordAnnouncement ann now =>
      cases hstep
      exact ⟨h, (and_iff_left trivial).symm⟩
  | storeChunk chunk now =>
      cases hstep
      exact ⟨h, (and_iff_left trivial).symm⟩
  | drainReady clock pruneClock =>
      rw [Outbox.step_drain hcollecting.mode hstep]
      obtain ⟨hreturned, hsettled⟩ := drains_append s
        (s.buffer.drainImmediate.2.pruneOldSlots pruneClock)
        s.buffer.drainImmediate.1
      have hout : (chunkIds s.buffer.drainImmediate.1).Nodup :=
        (drainImmediate_increasing hcollecting.slots).imp Nat.ne_of_lt
      refine ⟨?_, ?_⟩
      · intro id
        rw [hreturned, hsettled, List.mem_append, List.mem_append, h id,
          hcollecting.returns_ids id]
      · rw [hreturned, List.nodup_append']
        constructor
        · rintro ⟨hold, -, hdisjoint⟩
          refine ⟨hold, ?_⟩
          intro c hc hmem
          refine hdisjoint ((h _).mpr hmem) ?_
          exact (hcollecting.returns_ids _).mpr (List.mem_map_of_mem hc)
        · rintro ⟨hold, hunsettled⟩
          refine ⟨hold, hout, ?_⟩
          intro id hmem hnew
          obtain ⟨c, hc, hid⟩ :=
            List.mem_map.mp ((hcollecting.returns_ids id).mp hnew)
          refine hunsettled c hc ?_
          rw [hid]
          exact (h id).mp hmem

/-- So does a run. -/
theorem AllReturned.run {ops : List BufferOp} {s s' : Outbox}
    (hcollecting : Collecting s) (h : AllReturned s)
    (hrun : Trace.run Outbox.step ops s = some s') :
    (chunkIds s'.returned).Nodup
      ↔ (chunkIds s.returned).Nodup
        ∧ Trace.Along Outbox.step (fun op s => s.Unsettled op) ops s := by
  refine Trace.run_along_iff (P := fun t => Collecting t ∧ AllReturned t)
    (Q := fun t => (chunkIds t.returned).Nodup) ?_ hrun ⟨hcollecting, h⟩
  rintro op t t' ⟨hcollecting, hall⟩ hstep
  obtain ⟨hall', hnodup⟩ := hall.step hcollecting hstep
  exact ⟨⟨hcollecting.step hstep, hall'⟩, hnodup⟩

/-- In immediate mode no id is returned twice if and only if, at each
drain, none of the chunks stored since the one before has an id that was
stored before that; whatever is stored, announced and drained. -/
theorem at_most_once_iff {config : ReceiverConfig}
    (hmode : config.immediateForward = true) {ops : List BufferOp}
    {s : Outbox}
    (hrun : Trace.run Outbox.step ops (Outbox.start config) = some s) :
    (chunkIds s.returned).Nodup
      ↔ Trace.Along Outbox.step (fun op s => s.Unsettled op) ops
        (Outbox.start config) := by
  have hall : AllReturned (Outbox.start config) := fun id => Iff.rfl
  rw [hall.run (Collecting.start hmode) hrun]
  exact and_iff_right List.nodup_nil

/-- Chunk 1 arrives twice. -/
def repeatedOps (drains : List BufferOp) : List BufferOp :=
  [.storeChunk (Chunk.new 1 0) 0] ++ drains
    ++ [.storeChunk (Chunk.new 1 0) 2000000,
      .drainReady (fun _ => 3000000) (fun _ => 3000000)]

/-- Both times before the same drain: it is returned once. -/
theorem at_most_once_together : ∃ s,
    Trace.run Outbox.step (repeatedOps []) (Outbox.start immediateConfig)
      = some s
      ∧ chunkIds s.returned = [1] ∧ (chunkIds s.returned).Nodup := by
  obtain ⟨s, hrun⟩ : ∃ s, Trace.run Outbox.step (repeatedOps [])
      (Outbox.start immediateConfig) = some s := ⟨_, rfl⟩
  refine ⟨s, hrun, ?_, (at_most_once_iff rfl hrun).mpr ?_⟩
  · cases hrun
    decide
  · exact ⟨trivial, trivial, (fun _ _ h => nomatch h), trivial⟩

/-- With a drain in between it is returned twice. -/
theorem repeated_chunk_returned_twice : ∃ s,
    immediateConfig.immediateForward = true
      ∧ Trace.run Outbox.step
        (repeatedOps [.drainReady (fun _ => 1000000) (fun _ => 1000000)])
        (Outbox.start immediateConfig) = some s
      ∧ chunkIds s.returned = [1, 1]
      ∧ ¬(chunkIds s.returned).Nodup := by
  refine ⟨_, rfl, rfl, ?_, ?_⟩
  · decide
  · decide

end ChainLightning
