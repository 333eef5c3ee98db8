/-
Ordered reassembly undoes reordering.

A run stores every chunk once, in any order, with drains anywhere and
announcements of chunks that are still to come. As long as no slot is
old and the buffer not full at a drain, the buffer holds exactly the
stored chunks from the least missing id on, and a drain hands out the
ones up to the next missing id (`drainLoop_restores`). What can go wrong
is the pruning behind a drain: ten times the reorder timeout is a `u64`
product, and where it wraps below the timeout itself, it prunes chunks
that are still waited for (`reordering_undone_iff`).
-/
import ChainLightning.Proofs.Receive.Ordered

namespace ChainLightning

open ReassemblyBuffer

-- ================================================================== runs

/-- A buffer in a run, with the chunks stored so far, the ones that were
stored at the last drain, and all that the drains returned. -/
structure Reassembly where
  buffer : ReassemblyBuffer
  stored : List Chunk
  storedAtDrain : List Chunk
  returned : List Chunk

namespace Reassembly

def start (config : ReceiverConfig) : Reassembly where
  buffer := ReassemblyBuffer.new config
  stored := []
  storedAtDrain := []
  returned := []

/-- One call. -/
def step : BufferOp → Reassembly → Option Reassembly
  | .recordAnnouncement ann now, s =>
      some { s with buffer := s.buffer.recordAnnouncement ann now }
  | .storeChunk chunk now, s =>
      some { s with
        buffer := s.buffer.storeChunk chunk now
        stored := s.stored ++ [chunk] }
  | .drainReady clock pruneClock, s =>
      let (ready, buffer) := s.buffer.drainReady clock pruneClock
      some { s with
        buffer
        storedAtDrain := s.stored
        returned := s.returned ++ ready }

/-- The runs in question: a chunk is stored once, and announced before
that if at all; at a drain no slot is older than the reorder timeout, at
any reading of the clock, and the buffer is not overfull. -/
def Orderly (op : BufferOp) (s : Reassembly) : Prop :=
  match op with
  | .recordAnnouncement ann _ => ann.chunkId.toNat ∉ chunkIds s.stored
  | .storeChunk chunk _ => chunk.id.toNat ∉ chunkIds s.stored
  | .drainReady clock pruneClock =>
      s.buffer.slots.entries.length ≤ s.buffer.config.maxBufferChunks
      ∧ ∀ e ∈ s.buffer.slots.entries, ∀ n,
        e.2.isTimedOut (reorderTimeout s.buffer.config) (clock n) = false
        ∧ e.2.isTimedOut (reorderTimeout s.buffer.config) (pruneClock n)
          = false

end Reassembly

/-- The least id that is not among some. -/
structure LeastMissing (m : Nat) (ids : List Nat) : Prop where
  below : ∀ id < m, id ∈ ids
  missing : m ∉ ids

/-- The drains returned the chunks 0, 1, … up to the least id that was
not stored at the last drain, each as it was stored. -/
def Reassembly.Restored (s : Reassembly) : Prop :=
  ∃ m, LeastMissing m (chunkIds s.storedAtDrain)
    ∧ chunkIds s.returned = List.range m
    ∧ ∀ c ∈ s.returned, c ∈ s.storedAtDrain

-- ============================================================== the loop

/-- A slot in the buffer of such a run: for a `u64` id, never forwarded,
and with a chunk of that id if with any. -/
structure Waiting (id : Nat) (slot : BufferSlot) : Prop where
  fits : id < 2 ^ 64
  fresh : slot.forwarded = false
  keyed : ∀ c, slot.chunk = some c → c.id.toNat = id

theorem Waiting.ready_iff {id : Nat} {slot : BufferSlot}
    (h : Waiting id slot) : slot.isReady = true ↔ slot.chunk.isSome = true := by
  unfold BufferSlot.isReady
  rw [h.fresh, Bool.not_false, Bool.and_true]

/-- What a loop from the id `m` makes of the slots: it returns the chunks
up to the next id `m'` without one, leaves the slots from there on and has
its cursor there. -/
structure Restores (slots : List (Nat × BufferSlot)) (m m' : Nat)
    (r : List Chunk × List (Nat × BufferSlot) × Cursor) : Prop where
  forward : m ≤ m'
  fits : m' ≤ 2 ^ 64
  cursor : r.2.2.nextExpected = m' % 2 ^ 64
  ids : chunkIds r.1 = List.range' m (m' - m)
  stored : ∀ chunk ∈ r.1, ∃ e ∈ slots, e.2.chunk = some chunk
  kept : ∀ e ∈ slots, m' ≤ e.1 → e ∈ r.2.1
  ahead : ∀ e ∈ r.2.1, m' ≤ e.1
  missing : ∀ e ∈ slots, e.1 = m' → e.2.chunk = none

/-- A loop that stops at once, with nothing to return at its cursor. -/
private theorem restores_nothing {slots : List (Nat × BufferSlot)} {m : Nat}
    {c : Cursor} (hm : m ≤ 2 ^ 64) (hc : c.nextExpected = m % 2 ^ 64)
    (hahead : ∀ e ∈ slots, m ≤ e.1)
    (hnone : ∀ e ∈ slots, e.1 = m → e.2.chunk = none) :
    Restores slots m m ([], slots, c) where
  forward := Nat.le_refl m
  fits := hm
  cursor := hc
  ids := by
    rw [Nat.sub_self]
    rfl
  stored := fun _ h => nomatch h
  kept := fun _ he _ => he
  ahead := hahead
  missing := hnone

/-- From the least missing id on, and with no slot timed out, the loop
restores the order up to the next missing one. -/
theorem drainLoop_restores {timeout : Nat} :
    ∀ {slots : List (Nat × BufferSlot)} (clock : Nat → Nat) (c : Cursor)
      {m : Nat},
      slots.Pairwise (fun a b => a.1 < b.1) →
      (∀ e ∈ slots, Waiting e.1 e.2 ∧ m ≤ e.1
        ∧ ∀ n, e.2.isTimedOut timeout (clock n) = false) →
      m ≤ 2 ^ 64 → c.nextExpected = m % 2 ^ 64 →
      ∃ m', Restores slots m m' (drainLoop timeout clock slots c) := by
  intro slots
  induction slots with
  | nil =>
      intro clock c m _ _ hm hc
      exact ⟨m, restores_nothing hm hc (fun _ h => nomatch h)
        (fun _ h => nomatch h)⟩
  | cons e rest ih =>
      obtain ⟨id, slot⟩ := e
      intro clock c m hsorted hslots hm hc
      obtain ⟨hfirst, hrest⟩ := List.pairwise_cons.mp hsorted
      obtain ⟨hwaiting, hle, hyoung⟩ := hslots _ List.mem_cons_self
      have hfits := hwaiting.fits
      have hnext : c.nextExpected = m := by
        rw [hc]
        exact Nat.mod_eq_of_lt (lt_of_le_of_lt hle hfits)
      have hbehind : ∀ e ∈ rest, id < e.1 := hfirst
      -- where the loop stops, no slot has a chunk at the cursor
      have hstop : (id = m → slot.chunk = none) →
          Restores ((id, slot) :: rest) m m ([], (id, slot) :: rest, c) := by
        intro hnone
        refine restores_nothing hm hc (fun e he => (hslots e he).2.1) ?_
        intro e he hem
        rcases List.mem_cons.mp he with rfl | he
        · exact hnone hem
        · have hlt := hbehind e he
          omega
      by_cases hgap : id > m
      · refine ⟨m, ?_⟩
        rw [drainLoop, if_pos ⟨hnext ▸ hgap, by simp [hyoung 0]⟩]
        exact hstop (fun hid => by omega)
      have hid : id = m := by omega
      have hno : ¬id > c.nextExpected := by omega
      by_cases hready : slot.isReady = true
      · -- the chunk at the cursor is returned, and the loop goes on
        obtain ⟨chunk, hchunk⟩ :=
          Option.isSome_iff_exists.mp (hwaiting.ready_iff.mp hready)
        have hslots' : ∀ e ∈ rest, Waiting e.1 e.2 ∧ m + 1 ≤ e.1
            ∧ ∀ n, e.2.isTimedOut timeout (clock (n + 2)) = false := by
          intro e he
          obtain ⟨hw, -, hy⟩ := hslots e (List.mem_cons_of_mem _ he)
          have hlt := hbehind e he
          exact ⟨hw, by omega, fun n => hy (n + 2)⟩
        obtain ⟨m', hr⟩ := ih (fun n => clock (n + 2))
          (c.forward id) hrest hslots' (by omega) (by rw [← hid]; rfl)
        have hpast := hr.forward
        refine ⟨m', ?_⟩
        rw [drainLoop, if_neg (fun h => hno h.1), if_neg hno]
        dsimp only
        rw [if_pos hready, hchunk]
        exact {
          forward := by omega
          fits := hr.fits
          cursor := hr.cursor
          ids := by
            show chunk.id.toNat :: chunkIds (drainLoop timeout
              (fun n => clock (n + 2)) rest (c.forward id)).1 = _
            have hlen : m' - m = m' - (m + 1) + 1 := by omega
            rw [hr.ids, hwaiting.keyed chunk hchunk, hid, hlen,
              List.range'_succ]
          stored := by
            intro chunk' hmem
            rcases List.mem_cons.mp hmem with rfl | hmem
            · exact ⟨_, List.mem_cons_self, hchunk⟩
            · obtain ⟨e, he, hce⟩ := hr.stored chunk' hmem
              exact ⟨e, List.mem_cons_of_mem _ he, hce⟩
          kept := by
            intro e he hem
            rcases List.mem_cons.mp he with rfl | he
            · dsimp only at hem
              omega
            · exact hr.kept e he hem
          ahead := hr.ahead
          missing := by
            intro e he hem
            rcases List.mem_cons.mp he with rfl | he
            · dsimp only at hem
              omega
            · exact hr.missing e he hem }
      · refine ⟨m, ?_⟩
        rw [drainLoop, if_neg (fun h => hno h.1), if_neg hno]
        dsimp only
        rw [if_neg hready, if_neg (by simp [hyoung 1])]
        refine hstop fun _ => ?_
        have hnotready := hwaiting.ready_iff.not.mp hready
        simpa using hnotready

-- ============================================================== the buffer

/-- The tenfold timeout of the pruning, as the product comes out. -/
def pruneTimeout (config : ReceiverConfig) : Nat :=
  (config.reorderTimeoutMs * 10).toNat * 1000000

/-- What an ordered drain leaves: of the slots behind the loop the last
ones that fit, and of these the ones that are not too old. -/
theorem drainReady_entries {b : ReassemblyBuffer}
    (hmode : b.config.immediateForward = false)
    (clock pruneClock : Nat → Nat) :
    let left := (drainLoop (reorderTimeout b.config) clock b.slots.entries
      ⟨b.nextExpected, b.chunksForwarded, b.chunksTimeout⟩).2.1
    (b.drainReady clock pruneClock).2.slots.entries
      = removeOld (pruneTimeout b.config) pruneClock
        (left.drop (left.length - b.config.maxBufferChunks)) := by
  intro left
  rw [ReassemblyBuffer.drainReady_of_ordered hmode]
  rfl

/-- Pruning removes nothing from a buffer that is not overfull and has no
slot older than the tenfold timeout. -/
theorem removeOld_eq_self {timeout : Nat} :
    ∀ {slots : List (Nat × BufferSlot)} {clock : Nat → Nat},
      (∀ e ∈ slots, ∀ n, e.2.isTimedOut timeout (clock n) = false) →
      removeOld timeout clock slots = slots := by
  intro slots
  induction slots with
  | nil => exact fun _ => rfl
  | cons e rest ih =>
      intro clock hyoung
      obtain ⟨id, slot⟩ := e
      rw [removeOld]
      rw [if_neg (by simp [hyoung _ List.mem_cons_self 0]),
        ih fun e he n => hyoung e (List.mem_cons_of_mem _ he) (n + 1)]

/-- A drain that finds the buffer not overfull and no slot old prunes
nothing of what its loop leaves, if the pruning comes no earlier. -/
private theorem drainReady_unpruned {b : ReassemblyBuffer}
    (hmode : b.config.immediateForward = false)
    (hprune : b.config.maxBufferChunks = 0
      ∨ reorderTimeout b.config ≤ pruneTimeout b.config)
    (clock : Nat → Nat) {pruneClock : Nat → Nat}
    (hroom : b.slots.entries.length ≤ b.config.maxBufferChunks)
    (hyoung : ∀ e ∈ b.slots.entries, ∀ n,
      e.2.isTimedOut (reorderTimeout b.config) (pruneClock n) = false) :
    (b.drainReady clock pruneClock).2.slots.entries
      = (drainLoop (reorderTimeout b.config) clock b.slots.entries
        ⟨b.nextExpected, b.chunksForwarded, b.chunksTimeout⟩).2.1 := by
  have hsuffix := drainLoop_suffix (reorderTimeout b.config) clock
    b.slots.entries ⟨b.nextExpected, b.chunksForwarded, b.chunksTimeout⟩
  have hentries := drainReady_entries hmode clock pruneClock
  dsimp only at hentries
  rw [hentries]
  generalize (drainLoop (reorderTimeout b.config) clock b.slots.entries
    ⟨b.nextExpected, b.chunksForwarded, b.chunksTimeout⟩).2.1 = left
    at hsuffix ⊢
  have hexcess : left.length - b.config.maxBufferChunks = 0 := by
    have hle := hsuffix.length_le
    omega
  rw [hexcess, List.drop_zero]
  apply removeOld_eq_self
  intro e he n
  have hmem := hsuffix.subset he
  rcases hprune with hzero | hle
  · have hempty : b.slots.entries = [] :=
      List.length_eq_zero_iff.mp (by omega)
    rw [hempty] at hmem
    cases hmem
  · have hnot := hyoung e hmem n
    unfold BufferSlot.isTimedOut at hnot ⊢
    simp only [decide_eq_false_iff_not, not_lt] at hnot ⊢
    omega

/-- The invariant of the runs, at the least id `m` that was not stored at
the last drain: the cursor is there, the chunks before it are returned,
and the stored ones from there on are in the buffer. -/
structure Restoring (config : ReceiverConfig) (m : Nat) (s : Reassembly) :
    Prop where
  config : s.buffer.config = config
  least : LeastMissing m (chunkIds s.storedAtDrain)
  fits : m ≤ 2 ^ 64
  cursor : s.buffer.nextExpected = m % 2 ^ 64
  ids : chunkIds s.returned = List.range m
  returned : ∀ c ∈ s.returned, c ∈ s.storedAtDrain
  grows : ∀ c ∈ s.storedAtDrain, c ∈ s.stored
  slots : ∀ e ∈ s.buffer.slots.entries, Waiting e.1 e.2 ∧ m ≤ e.1
    ∧ ∀ c, e.2.chunk = some c → c ∈ s.stored
  buffered : ∀ c ∈ s.stored, c.id.toNat < m
    ∨ ∃ slot, (c.id.toNat, slot) ∈ s.buffer.slots.entries
      ∧ slot.chunk = some c

theorem restoring_start (config : ReceiverConfig) :
    Restoring config 0 (Reassembly.start config) where
  config := rfl
  least := ⟨(fun _ h => nomatch h), (fun h => nomatch h)⟩
  fits := Nat.zero_le _
  cursor := rfl
  ids := rfl
  returned := fun _ h => nomatch h
  grows := fun _ h => nomatch h
  slots := fun _ h => nomatch h
  buffered := fun _ h => nomatch h

theorem Restoring.restored {config : ReceiverConfig} {m : Nat}
    {s : Reassembly} (h : Restoring config m s) : s.Restored :=
  ⟨m, h.least, h.ids, h.returned⟩

/-- An id that is not stored is not below the least missing one. -/
theorem Restoring.le_of_unstored {config : ReceiverConfig} {m id : Nat}
    {s : Reassembly} (h : Restoring config m s)
    (hid : id ∉ chunkIds s.stored) : m ≤ id := by
  by_contra hlt
  apply hid
  obtain ⟨c, hc, hcid⟩ := List.mem_map.mp (h.least.below id (by omega))
  exact List.mem_map.mpr ⟨c, h.grows c hc, hcid⟩

/-- Of a slot that is made or kept by an announcement, only the
announcement is new. -/
private theorem waiting_announced {id now : Nat} {ann : AnnouncePacket}
    {slot : Option BufferSlot} (hid : id < 2 ^ 64)
    (h : ∀ v, slot = some v → Waiting id v) :
    Waiting id { slot.getD (BufferSlot.new now) with
      announcement := some ann
      expectedLink := some ann.linkId.toNat } := by
  cases slot with
  | none => exact ⟨hid, rfl, fun _ hc => nomatch hc⟩
  | some v =>
      have hv := h v rfl
      exact ⟨hid, hv.fresh, hv.keyed⟩

/-- An announcement of a chunk that is not stored changes nothing about
the stored ones. -/
theorem Restoring.announce {config : ReceiverConfig} {m : Nat}
    {s : Reassembly} (h : Restoring config m s) {ann : AnnouncePacket}
    {now : Nat} (hid : ann.chunkId.toNat ∉ chunkIds s.stored) :
    Restoring config m
      { s with buffer := s.buffer.recordAnnouncement ann now } := by
  have hle := h.le_of_unstored hid
  have hfits : ann.chunkId.toNat < 2 ^ 64 := UInt64.toNat_lt _
  exact {
    config := h.config
    least := h.least
    fits := h.fits
    cursor := h.cursor
    ids := h.ids
    returned := h.returned
    grows := h.grows
    slots := by
      refine OrdMap.upsert_forall
        (P := fun id slot => Waiting id slot ∧ m ≤ id
          ∧ ∀ c, slot.chunk = some c → c ∈ s.stored) h.slots ?_ ?_
      · exact ⟨waiting_announced hfits (fun _ hv => nomatch hv), hle,
          fun _ hc => nomatch hc⟩
      · rintro v ⟨hv, -, hstored⟩
        exact ⟨waiting_announced hfits (fun _ hv' => by cases hv'; exact hv),
          hle, hstored⟩
    buffered := by
      intro c hc
      rcases h.buffered c hc with hlt | ⟨slot, hmem, hslot⟩
      · exact Or.inl hlt
      · refine Or.inr ⟨slot, OrdMap.mem_upsertList_of_ne ?_ hmem, hslot⟩
        intro heq
        exact hid (List.mem_map.mpr ⟨c, hc, heq⟩) }

/-- A chunk that is stored for the first time is in the buffer then. -/
theorem Restoring.store {config : ReceiverConfig} {m : Nat}
    {s : Reassembly} (h : Restoring config m s) {chunk : Chunk} {now : Nat}
    (hid : chunk.id.toNat ∉ chunkIds s.stored) :
    Restoring config m
      { s with
        buffer := s.buffer.storeChunk chunk now
        stored := s.stored ++ [chunk] } := by
  have hle := h.le_of_unstored hid
  have hfits : chunk.id.toNat < 2 ^ 64 := UInt64.toNat_lt _
  have hnew : chunk ∈ s.stored ++ [chunk] :=
    List.mem_append_right _ List.mem_cons_self
  exact {
    config := h.config
    least := h.least
    fits := h.fits
    cursor := h.cursor
    ids := h.ids
    returned := h.returned
    grows := fun c hc => List.mem_append_left _ (h.grows c hc)
    slots := by
      refine OrdMap.upsert_forall
        (P := fun id slot => Waiting id slot ∧ m ≤ id
          ∧ ∀ c, slot.chunk = some c → c ∈ s.stored ++ [chunk]) ?_ ?_ ?_
      · intro e he
        obtain ⟨hw, hm, hstored⟩ := h.slots e he
        exact ⟨hw, hm, fun c hc => List.mem_append_left _ (hstored c hc)⟩
      · exact ⟨⟨hfits, rfl, fun c hc => by cases hc; rfl⟩, hle,
          fun c hc => by cases hc; exact hnew⟩
      · rintro v ⟨hv, -, -⟩
        exact ⟨⟨hfits, hv.fresh, fun c hc => by cases hc; rfl⟩, hle,
          fun c hc => by cases hc; exact hnew⟩
    buffered := by
      intro c hc
      rcases List.mem_append.mp hc with hc | hc
      · rcases h.buffered c hc with hlt | ⟨slot, hmem, hslot⟩
        · exact Or.inl hlt
        · refine Or.inr ⟨slot, OrdMap.mem_upsertList_of_ne ?_ hmem, hslot⟩
          intro heq
          exact hid (List.mem_map.mpr ⟨c, hc, heq⟩)
      · rw [List.mem_singleton.mp hc]
        obtain ⟨o, hmem, -⟩ := OrdMap.exists_mem_upsertList chunk.id.toNat
          (fun slot => { slot.getD (BufferSlot.new now) with
            chunk := some chunk }) s.buffer.slots.entries
        exact Or.inr ⟨_, hmem, rfl⟩ }

/-- The id at which the loop stops is the least that is not stored now. -/
private theorem Restoring.least_of_loop {config : ReceiverConfig}
    {m m' : Nat} {s : Reassembly} (h : Restoring config m s)
    {r : List Chunk × List (Nat × BufferSlot) × Cursor}
    (hr : Restores s.buffer.slots.entries m m' r) :
    LeastMissing m' (chunkIds s.stored) where
  below := by
    intro id hid
    by_cases hpast : id < m
    · obtain ⟨c, hc, hcid⟩ := List.mem_map.mp (h.least.below id hpast)
      exact List.mem_map.mpr ⟨c, h.grows c hc, hcid⟩
    · have hmem : id ∈ chunkIds r.1 := by
        rw [hr.ids]
        exact List.mem_range'_1.mpr ⟨by omega, by omega⟩
      obtain ⟨c, hc, hcid⟩ := List.mem_map.mp hmem
      obtain ⟨e, he, hchunk⟩ := hr.stored c hc
      exact List.mem_map.mpr ⟨c, (h.slots e he).2.2 c hchunk, hcid⟩
  missing := by
    intro hmem
    obtain ⟨c, hc, hcid⟩ := List.mem_map.mp hmem
    have hforward := hr.forward
    rcases h.buffered c hc with hlt | ⟨slot, hslots, hslot⟩
    · omega
    · have hnone := hr.missing _ hslots hcid
      rw [hslot] at hnone
      cases hnone

/-- A drain that finds no old slot moves the invariant on to the least id
that is not stored now. -/
theorem Restoring.drain {config : ReceiverConfig} {m : Nat}
    {s : Reassembly} (h : Restoring config m s)
    (hmode : config.immediateForward = false)
    (hprune : config.maxBufferChunks = 0
      ∨ reorderTimeout config ≤ pruneTimeout config)
    {clock pruneClock : Nat → Nat}
    (hroom : s.buffer.slots.entries.length ≤ config.maxBufferChunks)
    (hyoung : ∀ e ∈ s.buffer.slots.entries, ∀ n,
      e.2.isTimedOut (reorderTimeout config) (clock n) = false
      ∧ e.2.isTimedOut (reorderTimeout config) (pruneClock n) = false) :
    ∃ m', Restoring config m'
      { s with
        buffer := (s.buffer.drainReady clock pruneClock).2
        storedAtDrain := s.stored
        returned := s.returned
          ++ (s.buffer.drainReady clock pruneClock).1 } := by
  have hcfg := h.config
  obtain ⟨m', hr⟩ := drainLoop_restores clock
    ⟨s.buffer.nextExpected, s.buffer.chunksForwarded,
      s.buffer.chunksTimeout⟩ s.buffer.slots.sorted
    (fun e he => ⟨(h.slots e he).1, (h.slots e he).2.1,
      fun n => (hyoung e he n).1⟩) h.fits h.cursor
  have hentries := drainReady_unpruned (hcfg ▸ hmode) (hcfg ▸ hprune) clock
    (hcfg ▸ hroom) (fun e he n => hcfg ▸ (hyoung e he n).2)
  obtain ⟨hready, hnext, hconfig, -⟩ := drainReady_ordered
    (hcfg ▸ hmode) clock pruneClock
  rw [hcfg] at hready hnext hentries
  have hleft := (drainLoop_suffix (reorderTimeout config) clock
    s.buffer.slots.entries ⟨s.buffer.nextExpected, s.buffer.chunksForwarded,
      s.buffer.chunksTimeout⟩).subset
  generalize drainLoop (reorderTimeout config) clock s.buffer.slots.entries
    ⟨s.buffer.nextExpected, s.buffer.chunksForwarded,
      s.buffer.chunksTimeout⟩ = r at hr hready hnext hentries hleft
  -- a stored chunk is returned, or behind the loop
  have hstored : ∀ c ∈ s.stored, c.id.toNat < m'
      ∨ ∃ slot, (c.id.toNat, slot) ∈ r.2.1 ∧ slot.chunk = some c := by
    intro c hc
    by_cases hlt : c.id.toNat < m'
    · exact Or.inl hlt
    rcases h.buffered c hc with hpast | ⟨slot, hmem, hslot⟩
    · have hforward := hr.forward
      omega
    · exact Or.inr ⟨slot, hr.kept _ hmem (Nat.le_of_not_lt hlt), hslot⟩
  refine ⟨m', ?_⟩
  exact {
    config := hconfig.trans hcfg
    least := h.least_of_loop hr
    fits := hr.fits
    cursor := hnext.trans hr.cursor
    ids := by
      have hforward := hr.forward
      rw [hready, chunkIds_append, h.ids, hr.ids, List.range_eq_range']
      have happend := List.range'_append_1 (s := 0) (m := m) (n := m' - m)
      rw [Nat.zero_add] at happend
      rw [happend, Nat.add_sub_cancel' hforward, List.range_eq_range']
    returned := by
      intro c hc
      rcases List.mem_append.mp hc with hc | hc
      · exact h.grows c (h.returned c hc)
      · rw [hready] at hc
        obtain ⟨e, he, hchunk⟩ := hr.stored c hc
        exact (h.slots e he).2.2 c hchunk
    grows := fun _ hc => hc
    slots := by
      intro e he
      rw [hentries] at he
      obtain ⟨hw, -, hchunks⟩ := h.slots e (hleft he)
      exact ⟨hw, hr.ahead e he, hchunks⟩
    buffered := by
      rw [hentries]
      exact hstored }

-- ================================================================ all runs

/-- Every run of the kind keeps the invariant. -/
theorem Restoring.run {config : ReceiverConfig}
    (hmode : config.immediateForward = false)
    (hprune : config.maxBufferChunks = 0
      ∨ reorderTimeout config ≤ pruneTimeout config)
    {ops : List BufferOp} {s : Reassembly}
    (horderly : Trace.Along Reassembly.step Reassembly.Orderly ops
      (Reassembly.start config))
    (hrun : Trace.run Reassembly.step ops (Reassembly.start config)
      = some s) : ∃ m, Restoring config m s := by
  refine Trace.run_along (P := fun s => ∃ m, Restoring config m s) ?_
    horderly hrun ⟨0, restoring_start config⟩
  rintro op t t' ⟨m, h⟩ hop hstep
  cases op with
  | recordAnnouncement ann now =>
      cases hstep
      exact ⟨m, h.announce hop⟩
  | storeChunk chunk now =>
      cases hstep
      exact ⟨m, h.store hop⟩
  | drainReady clock pruneClock =>
      obtain ⟨hroom, hyoung⟩ := hop
      rw [h.config] at hroom hyoung
      obtain ⟨m', h'⟩ := h.drain hmode hprune hroom hyoung
      have ht' := (Option.some.inj hstep).symm
      rw [ht']
      exact ⟨m', h'⟩

/-- A drain that takes no time. -/
private theorem orderly_drain {s : Reassembly} {t : Nat}
    (hroom : s.buffer.slots.entries.length
      ≤ s.buffer.config.maxBufferChunks)
    (hyoung : ∀ e ∈ s.buffer.slots.entries,
      e.2.isTimedOut (reorderTimeout s.buffer.config) t = false) :
    Reassembly.Orderly (.drainReady (fun _ => t) (fun _ => t)) s :=
  ⟨hroom, fun e he _ => ⟨hyoung e he, hyoung e he⟩⟩

/-- Chunk 1 waits for chunk 0 for some time, and then chunk 0 comes. -/
def patientOps (t : Nat) : List BufferOp :=
  [.storeChunk (Chunk.new 1 0) 0,
   .drainReady (fun _ => t) (fun _ => t),
   .storeChunk (Chunk.new 0 0) t,
   .drainReady (fun _ => t) (fun _ => t)]

/-- The slot of a chunk stored at `since`. -/
private def slotOf (chunk : Chunk) (since : Nat) : BufferSlot :=
  { BufferSlot.new since with chunk := some chunk }

/-- No slot has timed out while the clock reads no more than the
timeout. -/
private theorem slotOf_young (chunk : Chunk) (since : Nat)
    {t timeout : Nat} (ht : t ≤ timeout) :
    (slotOf chunk since).isTimedOut timeout t = false :=
  decide_eq_false (Nat.not_lt_of_le ((Nat.sub_le t since).trans ht))

/-- The loop waits at the gap before chunk 1, and the pruning does not. -/
private theorem gap_pruned {b : ReassemblyBuffer} {t : Nat}
    (hmode : b.config.immediateForward = false)
    (hroom : b.config.maxBufferChunks ≠ 0)
    (hearly : pruneTimeout b.config < t) (ht : t ≤ reorderTimeout b.config)
    (hentries : b.slots.entries = [(1, slotOf (Chunk.new 1 0) 0)])
    (hnext : b.nextExpected = 0) :
    let r := b.drainReady (fun _ => t) (fun _ => t)
    r.1 = [] ∧ r.2.nextExpected = 0 ∧ r.2.config = b.config
      ∧ r.2.slots.entries = [] := by
  have hpruned : (slotOf (Chunk.new 1 0) 0).isTimedOut
      (pruneTimeout b.config) t = true := by
    simpa [BufferSlot.isTimedOut, slotOf, BufferSlot.new] using hearly
  have hloop : drainLoop (reorderTimeout b.config) (fun _ => t)
      b.slots.entries ⟨b.nextExpected, b.chunksForwarded, b.chunksTimeout⟩
      = ([], [(1, slotOf (Chunk.new 1 0) 0)],
        ⟨0, b.chunksForwarded, b.chunksTimeout⟩) := by
    rw [hentries, hnext, drainLoop,
      if_pos ⟨Nat.zero_lt_one, by simp [slotOf_young _ _ ht]⟩]
  have hmax : 1 - b.config.maxBufferChunks = 0 := by omega
  obtain ⟨hready, hnext', hconfig, -⟩ :=
    drainReady_ordered hmode (fun _ => t) (fun _ => t)
  have hleft := drainReady_entries hmode (fun _ => t) (fun _ => t)
  simp only [hloop] at hready hnext' hleft
  refine ⟨hready, hnext', hconfig, ?_⟩
  rw [hleft, List.length_singleton, hmax, List.drop_zero, removeOld,
    if_pos hpruned]
  rfl

/-- Chunk 0 fills the gap, and goes out alone. -/
private theorem gap_filled {b : ReassemblyBuffer} {since : Nat}
    (hmode : b.config.immediateForward = false)
    (hentries : b.slots.entries = [(0, slotOf (Chunk.new 0 0) since)])
    (hnext : b.nextExpected = 0) (clock pruneClock : Nat → Nat) :
    (b.drainReady clock pruneClock).1 = [Chunk.new 0 0] := by
  rw [(drainReady_ordered hmode _ _).1, hentries, hnext, drainLoop,
    if_neg (fun h => absurd h.1 (lt_irrefl 0)), if_neg (lt_irrefl 0)]
  rfl

/-- The buffer that holds chunk 1, from the start. -/
private def heldBack (config : ReceiverConfig) : ReassemblyBuffer :=
  (ReassemblyBuffer.new config).storeChunk (Chunk.new 1 0) 0

/-- The buffer of `patientOps` before its last drain. -/
private def filledUp (config : ReceiverConfig) (t : Nat) :
    ReassemblyBuffer :=
  ((heldBack config).drainReady (fun _ => t) (fun _ => t)).2.storeChunk
    (Chunk.new 0 0) t

/-- If the pruning comes too early, chunk 1 is lost in this run. -/
private theorem pruned_too_early (config : ReceiverConfig) {t : Nat}
    (hmode : config.immediateForward = false)
    (hroom : config.maxBufferChunks ≠ 0)
    (hearly : pruneTimeout config < t) (ht : t ≤ reorderTimeout config) :
    ∃ s, Trace.Along Reassembly.step Reassembly.Orderly (patientOps t)
        (Reassembly.start config)
      ∧ Trace.run Reassembly.step (patientOps t) (Reassembly.start config)
        = some s
      ∧ chunkIds s.returned = [0] ∧ chunkIds s.stored = [1, 0]
      ∧ s.storedAtDrain = s.stored := by
  obtain ⟨hready₁, hnext, hconfig, hempty⟩ :=
    gap_pruned (b := heldBack config) hmode hroom hearly ht rfl rfl
  have hentries : (filledUp config t).slots.entries
      = [(0, slotOf (Chunk.new 0 0) t)] := by
    show OrdMap.upsertList 0 _ ((heldBack config).drainReady
      (fun _ => t) (fun _ => t)).2.slots.entries = _
    rw [show ((heldBack config).drainReady (fun _ => t)
      (fun _ => t)).2.slots.entries = [] from hempty]
    rfl
  have hfilled : (filledUp config t).config = config := hconfig
  have hready₂ := gap_filled (b := filledUp config t)
    (by rw [hfilled]; exact hmode) hentries hnext (fun _ => t) (fun _ => t)
  refine ⟨⟨((filledUp config t).drainReady (fun _ => t) (fun _ => t)).2,
    [Chunk.new 1 0, Chunk.new 0 0], [Chunk.new 1 0, Chunk.new 0 0],
    [] ++ ((heldBack config).drainReady (fun _ => t) (fun _ => t)).1
      ++ ((filledUp config t).drainReady (fun _ => t) (fun _ => t)).1⟩,
    ?_, rfl, ?_, rfl, rfl⟩
  · refine ⟨(fun h => nomatch h), orderly_drain ?_ ?_, ?_,
      orderly_drain ?_ ?_, trivial⟩
    · show 1 ≤ config.maxBufferChunks
      omega
    · intro e he
      cases List.mem_singleton.mp he
      exact slotOf_young _ _ ht
    · show (Chunk.new 0 0).id.toNat ∉ chunkIds [Chunk.new 1 0]
      decide
    · show (filledUp config t).slots.entries.length
        ≤ (filledUp config t).config.maxBufferChunks
      rw [hentries, hfilled, List.length_singleton]
      omega
    · show ∀ e ∈ (filledUp config t).slots.entries,
        e.2.isTimedOut (reorderTimeout (filledUp config t).config) t = false
      rw [hentries, hfilled]
      intro e he
      cases List.mem_singleton.mp he
      exact slotOf_young _ _ ht
  · show chunkIds _ = _
    rw [show ((heldBack config).drainReady (fun _ => t)
      (fun _ => t)).1 = [] from hready₁, hready₂]
    rfl

/-- Ordered mode undoes every reordering, for exactly the configurations
whose tenfold timeout, a `u64` product, is not below the timeout (or that
buffer nothing): at each point of every run the drains returned the
chunks up to the least id not stored at the last drain, and once all of
`0..n` are stored and drained, they returned these. -/
theorem reordering_undone_iff {config : ReceiverConfig}
    (hmode : config.immediateForward = false) :
    (∀ (ops : List BufferOp) (s : Reassembly),
      Trace.Along Reassembly.step Reassembly.Orderly ops
        (Reassembly.start config) →
      Trace.run Reassembly.step ops (Reassembly.start config) = some s →
      s.Restored ∧ ∀ n, (chunkIds s.stored).Perm (List.range n) →
        s.storedAtDrain = s.stored → chunkIds s.returned = List.range n)
    ↔ config.maxBufferChunks = 0
      ∨ config.reorderTimeoutMs ≤ config.reorderTimeoutMs * 10 := by
  have htimeouts : reorderTimeout config ≤ pruneTimeout config
      ↔ config.reorderTimeoutMs ≤ config.reorderTimeoutMs * 10 := by
    unfold reorderTimeout pruneTimeout
    rw [UInt64.le_iff_toNat_le]
    omega
  rw [← htimeouts]
  constructor
  · intro hall
    by_contra hnot
    obtain ⟨hroom, hearly⟩ := not_or.mp hnot
    obtain ⟨s, horderly, hrun, hreturned, hstored, hlast⟩ :=
      pruned_too_early config hmode hroom (Nat.lt_of_not_le hearly)
        (Nat.le_refl _)
    obtain ⟨m, hleast, hids, -⟩ := (hall _ s horderly hrun).1
    rw [hreturned] at hids
    have hm : m = 1 := by
      have hlen := congrArg List.length hids
      simpa using hlen.symm
    rw [hlast, hstored, hm] at hleast
    exact hleast.missing List.mem_cons_self
  · intro hprune ops s horderly hrun
    obtain ⟨m, h⟩ := Restoring.run hmode hprune horderly hrun
    refine ⟨h.restored, ?_⟩
    intro n hperm hlast
    have hleast := h.least
    rw [hlast] at hleast
    have hm : m = n := by
      have hbelow : ¬n < m := fun hlt =>
        absurd (List.mem_range.mp (hperm.mem_iff.mp (hleast.below n hlt)))
          (lt_irrefl n)
      have habove : ¬m < n := fun hlt =>
        hleast.missing (hperm.mem_iff.mpr (List.mem_range.mpr hlt))
      omega
    rw [h.ids, hm]

/-- Chunk 1 arrives before chunk 0, with drains behind each. -/
def swappedOps : List BufferOp :=
  [.storeChunk (Chunk.new 1 0) 0,
   .drainReady (fun _ => 1000000) (fun _ => 1000000),
   .storeChunk (Chunk.new 0 0) 2000000,
   .drainReady (fun _ => 3000000) (fun _ => 3000000)]

/-- They are returned in order, at a timeout of 10 ms. -/
theorem reordering_undone_swapped : ∃ s,
    Trace.run Reassembly.step swappedOps (Reassembly.start orderedConfig)
        = some s
      ∧ s.Restored ∧ chunkIds s.returned = List.range 2 := by
  obtain ⟨s, hrun⟩ : ∃ s, Trace.run Reassembly.step swappedOps
      (Reassembly.start orderedConfig) = some s := ⟨_, rfl⟩
  have horderly : Trace.Along Reassembly.step Reassembly.Orderly swappedOps
      (Reassembly.start orderedConfig) := by
    refine ⟨(fun h => nomatch h), orderly_drain (by decide) (by decide), ?_,
      orderly_drain (by decide) (by decide), trivial⟩
    show (Chunk.new 0 0).id.toNat ∉ chunkIds [Chunk.new 1 0]
    decide
  have hfits : orderedConfig.reorderTimeoutMs
      ≤ orderedConfig.reorderTimeoutMs * 10 := by decide
  obtain ⟨hrestored, hall⟩ := (reordering_undone_iff rfl).mpr
    (Or.inr hfits) swappedOps s horderly hrun
  have hstored : chunkIds s.stored = [1, 0] ∧ s.storedAtDrain = s.stored := by
    cases hrun
    exact ⟨rfl, rfl⟩
  refine ⟨s, hrun, hrestored, hall 2 ?_ hstored.2⟩
  rw [hstored.1]
  decide

/-- A reorder timeout whose tenfold wraps to 4 ms. -/
def wrappedConfig : ReceiverConfig where
  reorderTimeoutMs := 1844674407370955162
  maxBufferChunks := 1000
  immediateForward := false

/-- Both chunks are stored within 5 ms, and one is returned. -/
theorem reordering_not_undone : ∃ ops s,
    wrappedConfig.immediateForward = false
      ∧ Trace.Along Reassembly.step Reassembly.Orderly ops
        (Reassembly.start wrappedConfig)
      ∧ Trace.run Reassembly.step ops (Reassembly.start wrappedConfig)
        = some s
      ∧ (chunkIds s.stored).Perm (List.range 2)
      ∧ s.storedAtDrain = s.stored ∧ chunkIds s.returned = [0] := by
  obtain ⟨s, horderly, hrun, hreturned, hstored, hlast⟩ :=
    pruned_too_early wrappedConfig (t := 5000000) rfl (by decide) (by decide)
      (by decide)
  refine ⟨_, s, rfl, horderly, hrun, ?_, hlast, hreturned⟩
  rw [hstored]
  decide

end ChainLightning
