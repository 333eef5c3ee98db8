/-
Ordered delivery of the reassembly buffer.

The slots of a drain come in increasing order of ids, so only the first
one can lie behind the cursor: once it is gone, the cursor stands right
behind it and every further slot is ahead (`drainLoop_ahead`). Ahead of
the cursor the loop delivers increasing ids and moves the cursor
forward. A first slot behind the cursor is a late or a duplicate one;
`InOrder` says which of these a drain may meet, and `Delivering` is the
invariant of the runs whose drains meet no others.
-/
import ChainLightning.Receiver

namespace ChainLightning

open ReassemblyBuffer

/-- The ids of the chunks a drain returns. -/
def chunkIds (ready : List Chunk) : List Nat := ready.map fun c => c.id.toNat

@[simp] theorem chunkIds_nil : chunkIds [] = [] := rfl

@[simp] theorem chunkIds_append (a b : List Chunk) :
    chunkIds (a ++ b) = chunkIds a ++ chunkIds b := List.map_append

/-- A slot belongs to its key: the chunk in it has that id, which is
below `u64::MAX`. -/
def Keyed (id : Nat) (slot : BufferSlot) : Prop :=
  (∀ c, slot.chunk = some c → c.id.toNat = id) ∧ id + 1 < 2 ^ 64

theorem Keyed.next {id : Nat} {slot : BufferSlot} (h : Keyed id slot) :
    (id + 1) % 2 ^ 64 = id + 1 := Nat.mod_eq_of_lt h.2

/-- A ready slot hands out one chunk, of its own id. -/
theorem Keyed.ids_ready {id : Nat} {slot : BufferSlot}
    (h : Keyed id slot) (hready : slot.isReady = true) :
    chunkIds slot.chunk.toList = [id] := by
  obtain ⟨hsome, -⟩ := Bool.and_eq_true_iff.mp hready
  obtain ⟨c, hc⟩ := Option.isSome_iff_exists.mp hsome
  rw [hc, ← h.1 c hc]
  rfl

-- ============================================================== the loop

/-- Increasing ids from a cursor on, with the cursor behind them. -/
structure Advance (lo : Nat) (ids : List Nat) (hi : Nat) : Prop where
  increasing : ids.Pairwise (· < ·)
  within : ∀ id ∈ ids, lo ≤ id ∧ id < hi
  forward : lo ≤ hi

namespace Advance

variable {lo hi id : Nat} {ids : List Nat}

theorem nil (h : lo ≤ hi) : Advance lo [] hi :=
  ⟨List.Pairwise.nil, (fun _ h => nomatch h), h⟩

/-- The id at the cursor, or one ahead of it, comes first. -/
theorem cons (h : Advance (id + 1) ids hi) (hid : lo ≤ id) :
    Advance lo (id :: ids) hi where
  increasing := List.pairwise_cons.mpr
    ⟨fun id' hid' => (h.within id' hid').1, h.increasing⟩
  within := by
    intro id' hmem
    rcases List.mem_cons.mp hmem with rfl | hmem
    · exact ⟨hid, h.forward⟩
    · obtain ⟨hlo, hhi⟩ := h.within id' hmem
      exact ⟨by omega, hhi⟩
  forward := by
    have hforward := h.forward
    omega

/-- A cursor further back. -/
theorem from_lower {lo' : Nat} (h : Advance lo ids hi) (hlo : lo' ≤ lo) :
    Advance lo' ids hi where
  increasing := h.increasing
  within := fun id hmem =>
    ⟨le_trans hlo (h.within id hmem).1, (h.within id hmem).2⟩
  forward := le_trans hlo h.forward

end Advance

/-- Delivered ids in step with a cursor: increasing, and behind it. -/
structure InStep (delivered : List Nat) (cursor : Nat) : Prop where
  increasing : delivered.Pairwise (· < ·)
  behind : ∀ id ∈ delivered, id < cursor

/-- An advance of the cursor keeps the step. -/
theorem InStep.advance {delivered ids : List Nat} {lo hi : Nat}
    (h : InStep delivered lo) (hadvance : Advance lo ids hi) :
    InStep (delivered ++ ids) hi where
  increasing := by
    refine List.pairwise_append.mpr ⟨h.increasing, hadvance.increasing, ?_⟩
    intro a ha b hb
    exact lt_of_lt_of_le (h.behind a ha) (hadvance.within b hb).1
  behind := by
    intro id hmem
    rcases List.mem_append.mp hmem with hmem | hmem
    · exact lt_of_lt_of_le (h.behind id hmem) hadvance.forward
    · exact (hadvance.within id hmem).2

variable {timeout : Nat}

/-- With every slot at the cursor or ahead of it, the loop advances. -/
theorem drainLoop_ahead (clock : Nat → Nat)
    {slots : List (Nat × BufferSlot)} {c : Cursor}
    (hsorted : slots.Pairwise fun a b => a.1 < b.1)
    (hkeyed : ∀ e ∈ slots, Keyed e.1 e.2)
    (hahead : ∀ e ∈ slots, c.nextExpected ≤ e.1) :
    Advance c.nextExpected (chunkIds (drainLoop timeout clock slots c).1)
      (drainLoop timeout clock slots c).2.2.nextExpected := by
  induction slots generalizing clock c with
  | nil => exact Advance.nil (Nat.le_refl _)
  | cons e rest ih =>
      obtain ⟨id, slot⟩ := e
      obtain ⟨hfirst, hrest⟩ := List.pairwise_cons.mp hsorted
      have hid : c.nextExpected ≤ id := hahead _ List.mem_cons_self
      have hkey : Keyed id slot := hkeyed _ List.mem_cons_self
      -- the rest, from a cursor right behind this slot
      have htail : ∀ (clock : Nat → Nat) (c : Cursor),
          c.nextExpected = id + 1 →
          Advance (id + 1) (chunkIds (drainLoop timeout clock rest c).1)
            (drainLoop timeout clock rest c).2.2.nextExpected := by
        intro clock c hc
        rw [← hc]
        refine ih clock hrest
          (fun e he => hkeyed e (List.mem_cons_of_mem _ he)) ?_
        intro e he
        rw [hc]
        exact hfirst e he
      rw [drainLoop]
      by_cases hwait : id > c.nextExpected
          ∧ ¬slot.isTimedOut timeout (clock 0)
      · rw [if_pos hwait]
        exact Advance.nil (Nat.le_refl _)
      rw [if_neg hwait]
      dsimp only
      -- past the gap, if there is one, the cursor is at the slot
      generalize hc : (if id > c.nextExpected then c.skipGap id else c) = c₁
      have hat : c₁.nextExpected = id := by
        rw [← hc]
        split
        case isTrue => rfl
        case isFalse hgap => omega
      by_cases hready : slot.isReady = true
      · rw [if_pos hready]
        rw [chunkIds_append, hkey.ids_ready hready]
        exact (htail _ (c₁.forward id) hkey.next).cons hid
      rw [if_neg hready]
      by_cases htimed : slot.isTimedOut timeout (clock 1) = true
      · rw [if_pos htimed]
        exact (htail _ (c₁.skipSlot id) hkey.next).from_lower (by omega)
      · rw [if_neg htimed]
        exact Advance.nil (by rw [hat]; exact hid)

/-- Behind its first slot, a map is ahead of the cursor past it. -/
theorem drainLoop_tail (clock : Nat → Nat) {id : Nat} {slot : BufferSlot}
    {rest : List (Nat × BufferSlot)} {c : Cursor}
    (hsorted : ((id, slot) :: rest).Pairwise fun a b => a.1 < b.1)
    (hkeyed : ∀ e ∈ (id, slot) :: rest, Keyed e.1 e.2)
    (hc : c.nextExpected = id + 1) :
    Advance (id + 1) (chunkIds (drainLoop timeout clock rest c).1)
      (drainLoop timeout clock rest c).2.2.nextExpected := by
  obtain ⟨hfirst, hrest⟩ := List.pairwise_cons.mp hsorted
  rw [← hc]
  refine drainLoop_ahead clock hrest
    (fun e he => hkeyed e (List.mem_cons_of_mem _ he)) ?_
  intro e he
  rw [hc]
  exact hfirst e he

/-- A first slot behind the cursor is not a gap: it is handed out when
ready, dropped when timed out, and otherwise stops the loop. -/
theorem drainLoop_late (clock : Nat → Nat) {id : Nat} {slot : BufferSlot}
    {rest : List (Nat × BufferSlot)} {c : Cursor}
    (hlate : id < c.nextExpected) :
    drainLoop timeout clock ((id, slot) :: rest) c
      = if slot.isReady then
          let r := drainLoop timeout (fun n => clock (n + 2)) rest
            (c.forward id)
          (slot.chunk.toList ++ r.1, r.2.1, r.2.2)
        else if slot.isTimedOut timeout (clock 1) then
          drainLoop timeout (fun n => clock (n + 2)) rest (c.skipSlot id)
        else ([], (id, slot) :: rest, c) := by
  have hgap : ¬id > c.nextExpected := by omega
  rw [drainLoop, if_neg (fun h => hgap h.1), if_neg hgap]

-- =============================================================== one drain

/-- What a drain may meet at the front of the buffer: a slot at the
cursor or ahead of it; behind the cursor, a slot neither ready nor timed
out, or the one right behind, unless it is ready again after it was
delivered last. -/
def FrontInOrder (config : ReceiverConfig) (clock : Nat → Nat)
    (nextExpected : Nat) (lastDelivered : Option Nat) :
    List (Nat × BufferSlot) → Prop
  | [] => True
  | (id, slot) :: _ =>
      nextExpected ≤ id
      ∨ (slot.isReady = false
        ∧ slot.isTimedOut (reorderTimeout config) (clock 1) = false)
      ∨ (id + 1 = nextExpected
        ∧ (slot.isReady = true → lastDelivered ≠ some id))

/-- A drain meets only that; the other calls are free. -/
def InOrder (op : BufferOp) (s : Intake) : Prop :=
  match op with
  | .drainReady clock _ =>
      FrontInOrder s.buffer.config clock s.buffer.nextExpected
        s.delivered.getLast? s.buffer.slots.entries
  | _ => True

/-- In step with the cursor past `id`, and not ended by `id`: in step
with the cursor at `id`. -/
theorem InStep.step_back {delivered : List Nat} {id : Nat}
    (h : InStep delivered (id + 1)) (hlast : delivered.getLast? ≠ some id) :
    InStep delivered id := by
  refine ⟨h.increasing, ?_⟩
  rcases List.eq_nil_or_concat delivered with rfl | ⟨front, last, rfl⟩
  · exact fun _ h => nomatch h
  rw [List.concat_eq_append] at *
  obtain ⟨-, -, hfront⟩ := List.pairwise_append.mp h.increasing
  have hlt : last < id := by
    have hle := h.behind last (List.mem_append_right _ List.mem_cons_self)
    have hne : last ≠ id := by
      rintro rfl
      exact hlast List.getLast?_concat
    omega
  intro d hd
  rcases List.mem_append.mp hd with hd | hd
  · exact lt_trans (hfront d hd last List.mem_cons_self) hlt
  · rw [List.mem_singleton.mp hd]
    exact hlt

/-- A loop in order keeps the step, and moves the cursor forward. -/
theorem drainLoop_inOrder {config : ReceiverConfig} {clock : Nat → Nat}
    {slots : List (Nat × BufferSlot)} {c : Cursor} {delivered : List Nat}
    (hsorted : slots.Pairwise fun a b => a.1 < b.1)
    (hkeyed : ∀ e ∈ slots, Keyed e.1 e.2)
    (hstep : InStep delivered c.nextExpected)
    (hfront : FrontInOrder config clock c.nextExpected delivered.getLast?
      slots) :
    let r := drainLoop (reorderTimeout config) clock slots c
    InStep (delivered ++ chunkIds r.1) r.2.2.nextExpected
      ∧ c.nextExpected ≤ r.2.2.nextExpected := by
  intro r
  by_cases hahead : ∀ e ∈ slots, c.nextExpected ≤ e.1
  · have hadvance : Advance c.nextExpected (chunkIds r.1)
        r.2.2.nextExpected := drainLoop_ahead clock hsorted hkeyed hahead
    exact ⟨hstep.advance hadvance, hadvance.forward⟩
  cases slots with
  | nil => exact absurd (fun _ h => nomatch h) hahead
  | cons e rest =>
      obtain ⟨id, slot⟩ := e
      have hkey : Keyed id slot := hkeyed _ List.mem_cons_self
      have hlate : id < c.nextExpected := by
        by_contra hge
        apply hahead
        intro e he
        rcases List.mem_cons.mp he with rfl | he
        · exact Nat.le_of_not_lt hge
        · have hlt := (List.pairwise_cons.mp hsorted).1 e he
          dsimp only at hlt
          omega
      have hr : r = _ := drainLoop_late clock hlate
      have hstop : r = ([], (id, slot) :: rest, c) →
          InStep (delivered ++ chunkIds r.1) r.2.2.nextExpected
            ∧ c.nextExpected ≤ r.2.2.nextExpected := by
        intro hstop
        rw [hstop, chunkIds_nil, List.append_nil]
        exact ⟨hstep, Nat.le_refl _⟩
      rcases hfront with hge | ⟨hready, htimed⟩ | ⟨hnext, hagain⟩
      · omega
      · rw [hready, htimed] at hr
        exact hstop hr
      have htail : ∀ c' : Cursor, c'.nextExpected = (id + 1) % 2 ^ 64 →
          Advance (id + 1)
            (chunkIds (drainLoop (reorderTimeout config)
              (fun n => clock (n + 2)) rest c').1)
            (drainLoop (reorderTimeout config)
              (fun n => clock (n + 2)) rest c').2.2.nextExpected :=
        fun c' hc' => drainLoop_tail _ hsorted hkeyed (hc'.trans hkey.next)
      rw [← hnext] at hstep ⊢
      by_cases hready : slot.isReady = true
      · -- the slot right behind the cursor, not delivered before
        rw [if_pos hready] at hr
        have hadvance := htail (c.forward id) rfl
        have hback := hstep.step_back (hagain hready)
        rw [hr, chunkIds_append, hkey.ids_ready hready]
        exact ⟨hback.advance (hadvance.cons (Nat.le_refl id)),
          hadvance.forward⟩
      rw [if_neg hready] at hr
      by_cases htimed : slot.isTimedOut (reorderTimeout config) (clock 1)
          = true
      · rw [if_pos htimed] at hr
        have hadvance := htail (c.skipSlot id) rfl
        rw [hr]
        exact ⟨hstep.advance hadvance, hadvance.forward⟩
      · rw [if_neg htimed] at hr
        rw [hnext]
        exact hstop hr

/-- A front out of order breaks the step: the loop delivers the last
delivered id again, or goes on from a cursor further back. -/
theorem drainLoop_outOfOrder {config : ReceiverConfig} {clock : Nat → Nat}
    {slots : List (Nat × BufferSlot)} {c : Cursor} {last : Option Nat}
    (hkeyed : ∀ e ∈ slots, Keyed e.1 e.2)
    (hfront : ¬FrontInOrder config clock c.nextExpected last slots) :
    let r := drainLoop (reorderTimeout config) clock slots c
    (∃ id ∈ chunkIds r.1, last = some id)
      ∨ ∃ rest c' clock', c'.nextExpected < c.nextExpected
        ∧ r.2 = (drainLoop (reorderTimeout config) clock' rest c').2 := by
  intro r
  cases slots with
  | nil => exact absurd trivial hfront
  | cons e rest =>
      obtain ⟨id, slot⟩ := e
      obtain ⟨hge, hbehind⟩ := not_or.mp hfront
      obtain ⟨hactive, hnext⟩ := not_or.mp hbehind
      have hkey : Keyed id slot := hkeyed _ List.mem_cons_self
      have hlate : id < c.nextExpected := Nat.lt_of_not_le hge
      have hr : r = _ := drainLoop_late clock hlate
      by_cases hready : slot.isReady = true
      · rw [if_pos hready] at hr
        by_cases hright : id + 1 = c.nextExpected
        · refine Or.inl ⟨id, ?_, ?_⟩
          · rw [hr, chunkIds_append, hkey.ids_ready hready]
            exact List.mem_cons_self
          · by_contra hlast
            exact hnext ⟨hright, fun _ => hlast⟩
        · refine Or.inr ⟨rest, c.forward id, fun n => clock (n + 2), ?_, ?_⟩
          · show (id + 1) % 2 ^ 64 < c.nextExpected
            rw [hkey.next]
            omega
          · rw [hr]
      · rw [if_neg hready] at hr
        have hidle : slot.isReady = false := Bool.eq_false_iff.mpr hready
        have htimed : slot.isTimedOut (reorderTimeout config) (clock 1)
            = true := by
          by_contra htimed
          exact hactive ⟨hidle, Bool.eq_false_iff.mpr htimed⟩
        have hright : id + 1 ≠ c.nextExpected :=
          fun h => hnext ⟨h, fun h' => absurd h' hready⟩
        rw [if_pos htimed] at hr
        refine Or.inr ⟨rest, c.skipSlot id, fun n => clock (n + 2), ?_, ?_⟩
        · show (id + 1) % 2 ^ 64 < c.nextExpected
          rw [hkey.next]
          omega
        · rw [hr]

-- ================================================================== runs

/-- The ids of a call are below `u64::MAX`. -/
def BufferOp.IdsBelowMax : BufferOp → Prop
  | .recordAnnouncement ann _ => ann.chunkId.toNat + 1 < 2 ^ 64
  | .storeChunk chunk _ => chunk.id.toNat + 1 < 2 ^ 64
  | .drainReady _ _ => True

/-- The invariant of ordered runs. -/
structure Delivering (s : Intake) : Prop where
  mode : s.buffer.config.immediateForward = false
  keyed : ∀ e ∈ s.buffer.slots.entries, Keyed e.1 e.2
  inStep : InStep s.delivered s.buffer.nextExpected

theorem delivering_start {config : ReceiverConfig}
    (hmode : config.immediateForward = false) :
    Delivering (Intake.start config) where
  mode := hmode
  keyed := fun _ h => nomatch h
  inStep := ⟨List.Pairwise.nil, fun _ h => nomatch h⟩

/-- In ordered mode a drain is its loop, and then removes slots. -/
theorem drainReady_ordered {b : ReassemblyBuffer}
    (hmode : b.config.immediateForward = false)
    (clock pruneClock : Nat → Nat) :
    let r := drainLoop (reorderTimeout b.config) clock b.slots.entries
      ⟨b.nextExpected, b.chunksForwarded, b.chunksTimeout⟩
    (b.drainReady clock pruneClock).1 = r.1
      ∧ (b.drainReady clock pruneClock).2.nextExpected = r.2.2.nextExpected
      ∧ (b.drainReady clock pruneClock).2.config = b.config
      ∧ (b.drainReady clock pruneClock).2.slots.entries.Sublist
        b.slots.entries := by
  rw [ReassemblyBuffer.drainReady_of_ordered hmode]
  refine ⟨rfl, rfl, rfl, ?_⟩
  refine ((removeOld_sublist _ _ _).trans (List.drop_sublist _ _)).trans ?_
  exact (drainLoop_suffix _ _ _ _).sublist

/-- A call in order keeps the invariant, and moves the cursor
forward. -/
theorem Delivering.step {s s' : Intake} (h : Delivering s) {op : BufferOp}
    (hids : op.IdsBelowMax) (horder : InOrder op s)
    (hstep : Intake.step op s = some s') :
    Delivering s' ∧ s.buffer.nextExpected ≤ s'.buffer.nextExpected := by
  cases op with
  | recordAnnouncement ann now =>
      cases hstep
      refine ⟨⟨h.mode, ?_, h.inStep⟩, Nat.le_refl _⟩
      refine OrdMap.upsert_forall h.keyed ?_ ?_
      · exact ⟨fun _ hc => (nomatch hc), hids⟩
      · exact fun slot hslot => hslot
  | storeChunk chunk now =>
      cases hstep
      refine ⟨⟨h.mode, ?_, h.inStep⟩, Nat.le_refl _⟩
      refine OrdMap.upsert_forall h.keyed ?_ ?_
      · exact ⟨fun c hc => by cases hc; rfl, hids⟩
      · exact fun slot _ => ⟨fun c hc => by cases hc; rfl, hids⟩
  | drainReady clock pruneClock =>
      have hs' : s' = ⟨(s.buffer.drainReady clock pruneClock).2,
          s.delivered
            ++ chunkIds (s.buffer.drainReady clock pruneClock).1⟩ :=
        (Option.some.inj hstep).symm
      subst hs'
      obtain ⟨hready, hnext, hconfig, hslots⟩ :=
        drainReady_ordered h.mode clock pruneClock
      obtain ⟨hin, hforward⟩ := drainLoop_inOrder
        (c := ⟨s.buffer.nextExpected, s.buffer.chunksForwarded,
          s.buffer.chunksTimeout⟩)
        s.buffer.slots.sorted h.keyed h.inStep horder
      refine ⟨⟨?_, ?_, ?_⟩, ?_⟩
      · exact hconfig.symm ▸ h.mode
      · exact fun e he => h.keyed e (hslots.subset he)
      · rw [hready, hnext]
        exact hin
      · rw [hnext]
        exact hforward

/-- So does a run in order. -/
theorem Delivering.run {ops : List BufferOp} {s s' : Intake}
    (h : Delivering s) (hids : ∀ op ∈ ops, op.IdsBelowMax)
    (horder : Trace.Along Intake.step InOrder ops s)
    (hrun : Trace.run Intake.step ops s = some s') :
    Delivering s' ∧ s.buffer.nextExpected ≤ s'.buffer.nextExpected := by
  have hbelow : Trace.Along Intake.step (fun op _ => op.IdsBelowMax) ops s :=
    Trace.Along.of_forall (fun op hop _ => hids op hop) s
  refine Trace.run_along
    (P := fun t => Delivering t
      ∧ s.buffer.nextExpected ≤ t.buffer.nextExpected)
    ?_ (horder.and hbelow) hrun ⟨h, Nat.le_refl _⟩
  rintro op t t' ⟨ht, hle⟩ ⟨horder, hids⟩ hstep
  obtain ⟨ht', hforward⟩ := ht.step hids horder hstep
  exact ⟨ht', le_trans hle hforward⟩

/-- In ordered mode, in every run whose drains meet their front in
order, the delivered ids are strictly increasing and the cursor never
moves back. -/
theorem ordered_delivery {config : ReceiverConfig}
    (hmode : config.immediateForward = false)
    {ops₁ ops₂ : List BufferOp} {s₁ s₂ : Intake}
    (hids : ∀ op ∈ ops₁ ++ ops₂, op.IdsBelowMax)
    (horder₁ : Trace.Along Intake.step InOrder ops₁ (Intake.start config))
    (hrun₁ : Trace.run Intake.step ops₁ (Intake.start config) = some s₁)
    (horder₂ : Trace.Along Intake.step InOrder ops₂ s₁)
    (hrun₂ : Trace.run Intake.step ops₂ s₁ = some s₂) :
    s₂.delivered.Pairwise (· < ·)
      ∧ s₁.buffer.nextExpected ≤ s₂.buffer.nextExpected := by
  obtain ⟨h₁, -⟩ := (delivering_start hmode).run
    (fun op hop => hids op (List.mem_append_left _ hop)) horder₁ hrun₁
  obtain ⟨h₂, hforward⟩ := h₁.run
    (fun op hop => hids op (List.mem_append_right _ hop)) horder₂ hrun₂
  exact ⟨h₂.inStep.increasing, hforward⟩

/-- A configuration in ordered mode. -/
def orderedConfig : ReceiverConfig where
  reorderTimeoutMs := 10
  maxBufferChunks := 1000
  immediateForward := false

/-- Chunk 1 arrives first and is handed out when the gap times out. -/
def gapOps : List BufferOp :=
  [.storeChunk (Chunk.new 1 0) 0,
   .drainReady (fun _ => 15000000) (fun _ => 15000000)]

/-- Then chunk 2 arrives. -/
def nextOps : List BufferOp :=
  [.storeChunk (Chunk.new 2 0) 15000000,
   .drainReady (fun _ => 16000000) (fun _ => 16000000)]

/-- Or chunk 0 arrives, which was skipped. -/
def lateOps : List BufferOp :=
  [.storeChunk (Chunk.new 0 0) 20000000,
   .drainReady (fun _ => 21000000) (fun _ => 21000000)]

/-- The law with chunk 2 behind chunk 1. -/
theorem ordered_delivery_gap : ∃ s₁ s₂,
    Trace.run Intake.step gapOps (Intake.start orderedConfig) = some s₁
      ∧ Trace.run Intake.step nextOps s₁ = some s₂
      ∧ s₂.delivered.Pairwise (· < ·)
      ∧ s₁.buffer.nextExpected ≤ s₂.buffer.nextExpected := by
  have hids : ∀ op ∈ gapOps ++ nextOps, op.IdsBelowMax := by
    simp [gapOps, nextOps, BufferOp.IdsBelowMax, Chunk.new]
  have horder₁ : Trace.Along Intake.step InOrder gapOps
      (Intake.start orderedConfig) :=
    ⟨trivial, Or.inl (by decide), trivial⟩
  obtain ⟨s₁, hrun₁⟩ : ∃ s₁, Trace.run Intake.step gapOps
      (Intake.start orderedConfig) = some s₁ := ⟨_, rfl⟩
  have horder₂ : Trace.Along Intake.step InOrder nextOps s₁ := by
    cases hrun₁
    exact ⟨trivial, Or.inl (by decide), trivial⟩
  obtain ⟨s₂, hrun₂⟩ : ∃ s₂, Trace.run Intake.step nextOps s₁ = some s₂ :=
    ⟨_, rfl⟩
  exact ⟨s₁, s₂, hrun₁, hrun₂,
    ordered_delivery rfl hids horder₁ hrun₁ horder₂ hrun₂⟩

/-- Chunk 0 is handed out behind chunk 1, and the cursor moves back. -/
theorem late_chunk_delivered : ∃ s₁ s₂,
    Trace.run Intake.step gapOps (Intake.start orderedConfig) = some s₁
      ∧ Trace.run Intake.step lateOps s₁ = some s₂
      ∧ orderedConfig.immediateForward = false
      ∧ (∀ op ∈ gapOps ++ lateOps, op.IdsBelowMax)
      ∧ ¬s₂.delivered.Pairwise (· < ·)
      ∧ s₂.buffer.nextExpected < s₁.buffer.nextExpected := by
  refine ⟨_, _, rfl, rfl, rfl, ?_, ?_, ?_⟩
  · simp [gapOps, lateOps, BufferOp.IdsBelowMax, Chunk.new]
  · decide
  · decide

end ChainLightning
