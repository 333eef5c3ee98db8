/-
The flow tag of a chunk.

A chunk is tagged once: `add_packet` sets the flow of a chunk that has
none and never looks at it again. So the tag is the first flow that a
packet of the chunk names (`Carries`), and a later packet of another
flow, or of none, leaves it. The tag therefore speaks for the whole
chunk exactly when all its packets were added alike.

The run is the one of `Feed`, with the flow id of each packet beside it
(`FlowFeed.forget`).
-/
import ChainLightning.Proofs.Chunk.Feed

namespace ChainLightning

open Bytes Machine

/-- A packet and the flow id it was added with. -/
abbrev Added := List UInt8 × Option FlowId

/-- What a call adds. -/
def AggOp.added : AggOp → List Added
  | .addPacket packet flowId _ => [(packet, flowId)]
  | _ => []

/-- An aggregator in a run, with the packets that no emitted chunk holds
and those of each emitted chunk, and their flow ids. -/
structure FlowFeed where
  agg : ChunkAggregator
  unsent : List Added
  emitted : List (Chunk × List Added)

namespace FlowFeed

def start (config : ChunkAggregatorConfig) (numLinks now : Nat) :
    FlowFeed where
  agg := ChunkAggregator.new config numLinks now
  unsent := []
  emitted := []

/-- One call. The packets of an emitted chunk are the oldest of those
not emitted, as many as were added to the chunk. -/
def step (op : AggOp) (s : FlowFeed) : Option FlowFeed :=
  let unsent := s.unsent ++ op.added
  match op.apply s.agg with
  | (none, agg) => some { s with agg, unsent }
  | (some c, agg) => some {
      agg
      unsent := unsent.drop c.packetCount
      emitted := s.emitted ++ [(c, unsent.take c.packetCount)] }

/-- The run without the flow ids. -/
def forget (s : FlowFeed) : Feed where
  agg := s.agg
  unsent := s.unsent.map Prod.fst
  emitted := s.emitted.map fun e => (e.1, e.2.map Prod.fst)

theorem added_packets (op : AggOp) : op.added.map Prod.fst = op.packets := by
  cases op <;> rfl

/-- Without the flow ids a step is a step of `Feed`. -/
theorem step_forget {op : AggOp} {s s' : FlowFeed}
    (hstep : step op s = some s') : Feed.step op s.forget = some s'.forget := by
  unfold step at hstep
  unfold Feed.step
  rw [show s.forget.agg = s.agg from rfl]
  rcases happ : op.apply s.agg with ⟨chunk, agg⟩
  rw [happ] at hstep
  cases chunk with
  | none =>
      cases hstep
      simp [forget, added_packets]
  | some c =>
      cases hstep
      simp [forget, added_packets, List.map_take, List.map_drop]

/-- So is a run. -/
theorem run_forget {ops : List AggOp} {s s' : FlowFeed}
    (hrun : Trace.run step ops s = some s') :
    Trace.run Feed.step ops s.forget = some s'.forget := by
  induction ops generalizing s with
  | nil =>
      cases hrun
      rfl
  | cons op ops ih =>
      obtain ⟨s₁, hstep, hrest⟩ := Trace.run_cons_inv hrun
      rw [Trace.run_cons, step_forget hstep]
      exact ih hrest

end FlowFeed

-- ================================================================ the tag

/-- The first flow that a packet names. -/
def firstFlow (ps : List Added) : Option FlowId := ps.findSome? Prod.snd

/-- The packets were added alike. -/
def SameFlow (ps : List Added) : Prop := ∀ x ∈ ps, ∀ y ∈ ps, x.2 = y.2

/-- A chunk with its packets is tagged with the flow of all of them, and
not tagged when there are several. -/
def SingleFlow (c : Chunk) (ps : List Added) : Prop :=
  (∀ f, c.flowId = some f → ∀ x ∈ ps, x.2 = some f)
    ∧ ((∃ x ∈ ps, ∃ y ∈ ps, ∃ f g, x.2 = some f ∧ y.2 = some g ∧ f ≠ g) →
      c.flowId = none)

/-- The first flow of a sequence speaks for all of it where all packets
were added alike. -/
theorem singleFlow_iff {c : Chunk} {ps : List Added}
    (htag : c.flowId = firstFlow ps) : SingleFlow c ps ↔ SameFlow ps := by
  constructor
  · rintro ⟨hall, -⟩ x hx y hy
    cases hfirst : firstFlow ps with
    | some f =>
        have hsame := hall f (htag.trans hfirst)
        rw [hsame x hx, hsame y hy]
    | none =>
        have hnone := List.findSome?_eq_none_iff.mp hfirst
        rw [hnone x hx, hnone y hy]
  · intro hsame
    refine ⟨fun f hf x hx => ?_, ?_⟩
    · obtain ⟨y, hy, hyf⟩ :=
        List.exists_of_findSome?_eq_some (htag.symm.trans hf)
      rw [hsame x hx y hy, hyf]
    · rintro ⟨x, hx, y, hy, f, g, hxf, hyg, hne⟩
      have hfg := hsame x hx y hy
      rw [hxf, hyg] at hfg
      exact absurd (Option.some.inj hfg) hne

/-- A chunk carries packets: it counts them, it is empty without them,
and its tag is the first flow that one of them names. -/
structure Chunk.Carries (c : Chunk) (ps : List Added) : Prop where
  count : c.packetCount = ps.length
  empty : c.isEmpty = true ↔ ps = []
  tag : c.flowId = firstFlow ps

namespace Chunk.Carries

variable {c : Chunk} {ps : List Added}

theorem new (id : ChunkId) (now : Nat) : (Chunk.new id now).Carries [] where
  count := rfl
  empty := ⟨fun _ => rfl, fun _ => rfl⟩
  tag := rfl

theorem renumber (h : c.Carries ps) (id : ChunkId) :
    Chunk.Carries { c with id } ps :=
  ⟨h.count, h.empty, h.tag⟩

/-- A packet put into a chunk tags it where it has no tag. -/
theorem put (h : c.Carries ps) (packet : List UInt8)
    (flowId : Option FlowId) :
    Chunk.Carries { c.addPacket packet with flowId := c.flowId.or flowId }
      (ps ++ [(packet, flowId)]) where
  count := by
    have hcount := h.count
    unfold Chunk.packetCount at hcount ⊢
    simp [Chunk.addPacket, hcount]
  empty := by
    constructor
    · intro hempty
      have hnonempty := addPacket_nonempty packet c
      unfold Chunk.isEmpty at hempty hnonempty
      rw [hnonempty] at hempty
      cases hempty
    · intro hnil
      simp at hnil
  tag := by
    show c.flowId.or flowId = firstFlow (ps ++ [(packet, flowId)])
    unfold firstFlow
    rw [List.findSome?_append, h.tag]
    cases flowId <;> rfl

end Chunk.Carries

-- =============================================================== one call

/-- The call starts a new chunk for its packet. -/
def AggOp.StartsNew (a : ChunkAggregator) : AggOp → Prop
  | .addPacket packet _ _ =>
      a.currentChunk.size + 2 + packet.length > a.optimalChunkSize
        ∧ ¬a.currentChunk.isEmpty
  | _ => False

/-- What a call may do, `ps` waiting and `new` added: emit nothing, emit
what waited and start with what is new, or emit all of it. -/
inductive Handed (a : ChunkAggregator) (op : AggOp) (ps : List Added) :
    Option Chunk × ChunkAggregator → Prop
  | kept {a' : ChunkAggregator} (joins : ¬op.StartsNew a)
      (current : a'.currentChunk.Carries (ps ++ op.added)) :
      Handed a op ps (none, a')
  | before {c : Chunk} {a' : ChunkAggregator} (full : op.StartsNew a)
      (emitted : c.Carries ps)
      (current : a'.currentChunk.Carries op.added) :
      Handed a op ps (some c, a')
  | whole {c : Chunk} {a' : ChunkAggregator} (joins : ¬op.StartsNew a)
      (emitted : c.Carries (ps ++ op.added))
      (current : a'.currentChunk.Carries []) : Handed a op ps (some c, a')

section

variable {a : ChunkAggregator} {ps : List Added}

/-- A packet put into the current chunk, its flow set under a condition
that holds where it matters. -/
theorem put_current (h : a.currentChunk.Carries ps) (packet : List UInt8)
    (flowId : Option FlowId) (cond : Prop) [Decidable cond]
    (hset : cond → a.currentChunk.flowId = none)
    (hleft : ¬cond → flowId = none ∨ a.currentChunk.flowId.isSome) :
    (if cond then (a.pushCurrent packet).setFlow flowId
      else a.pushCurrent packet).currentChunk.Carries
        (ps ++ [(packet, flowId)]) := by
  have hput := h.put packet flowId
  split
  case isTrue hcond =>
      rw [hset hcond, Option.none_or] at hput
      exact hput
  case isFalse hcond =>
      have hsame : a.currentChunk.flowId.or flowId
          = a.currentChunk.flowId := by
        rcases hleft hcond with hnone | hsome
        · rw [hnone, Option.or_none]
        · exact Option.or_of_isSome hsome
      rw [hsame] at hput
      exact hput

/-- `add_packet` hands the packets on. -/
theorem addPacket_handed (h : a.currentChunk.Carries ps)
    (packet : List UInt8) (flowId : Option FlowId) (now : Nat) :
    Handed a (.addPacket packet flowId now) ps
      (a.addPacket packet flowId now) := by
  unfold ChunkAggregator.addPacket
  dsimp only
  split
  case isTrue hfull =>
      refine .before hfull (h.renumber _) ?_
      -- the new chunk has no flow
      exact put_current (Chunk.Carries.new a.nextChunkId now) packet flowId
        _ (a := (a.finalizeCurrentChunk now).2) (fun _ => rfl)
        (fun hcond => Or.inl (by simpa using hcond))
  case isFalse hroom =>
      have hjoins : ¬(AggOp.addPacket packet flowId now).StartsNew a := hroom
      have hput := put_current h packet flowId
        (flowId.isSome ∧ (a.pushCurrent packet).currentChunk.flowId.isNone)
        (fun hcond => Option.isNone_iff_eq_none.mp hcond.2)
        (fun hcond => by
          cases flowId with
          | none => exact Or.inl rfl
          | some f =>
              refine Or.inr (Option.isSome_iff_ne_none.mpr ?_)
              exact fun hnone =>
                hcond ⟨rfl, Option.isNone_iff_eq_none.mpr hnone⟩)
      -- the aggregator behind the push, with its flow
      generalize (if flowId.isSome
        ∧ (a.pushCurrent packet).currentChunk.flowId.isNone then
          (a.pushCurrent packet).setFlow flowId
        else a.pushCurrent packet) = cur at hput ⊢
      split
      case isTrue =>
          exact .whole hjoins (hput.renumber _) (Chunk.Carries.new _ now)
      case isFalse => exact .kept hjoins hput

/-- `flush` hands on what waits. -/
theorem flush_handed (h : a.currentChunk.Carries ps) {op : AggOp}
    (hop : op.added = []) (hjoins : ¬op.StartsNew a) (now : Nat) :
    Handed a op ps (a.flush now) := by
  have hcurrent : a.currentChunk.Carries (ps ++ op.added) := by
    rwa [hop, List.append_nil]
  unfold ChunkAggregator.flush
  split
  case isTrue => exact .kept hjoins hcurrent
  case isFalse =>
      exact .whole hjoins (hcurrent.renumber _) (Chunk.Carries.new _ now)

/-- Every call hands the packets on. -/
theorem apply_handed (h : a.currentChunk.Carries ps) (op : AggOp) :
    Handed a op ps (op.apply a) := by
  cases op with
  | addPacket packet flowId now => exact addPacket_handed h packet flowId now
  | flush now => exact flush_handed h rfl id now
  | checkTimeout read now =>
      show Handed a _ ps (a.checkTimeout read now)
      rcases checkTimeout_cases a read now with hcase | hcase
      · rw [hcase]
        exact flush_handed h rfl id now
      · rw [hcase]
        exact .kept id (by simpa [AggOp.added] using h)
  | updateLinkStats linkId bandwidthBps rttMs =>
      refine .kept id ?_
      rw [(updateLinkStats_current a linkId bandwidthBps rttMs).1]
      simpa [AggOp.added] using h

end

-- ================================================================ the run

/-- The chunks of a run carry their packets. -/
structure Flowing (s : FlowFeed) : Prop where
  current : s.agg.currentChunk.Carries s.unsent
  emitted : ∀ e ∈ s.emitted, e.1.Carries e.2

namespace Flowing

variable {s s' : FlowFeed} {op : AggOp}

theorem start (config : ChunkAggregatorConfig) (numLinks now : Nat) :
    Flowing (FlowFeed.start config numLinks now) where
  current := Chunk.Carries.new 0 now
  emitted := fun _ h => nomatch h

/-- The three things a call may do, as steps of the run. -/
theorem step_cases (h : Flowing s) (hstep : FlowFeed.step op s = some s') :
    (∃ agg, s' = { s with agg, unsent := s.unsent ++ op.added }
      ∧ ¬op.StartsNew s.agg ∧ agg.currentChunk.Carries (s.unsent ++ op.added))
    ∨ (∃ c agg, s' = ⟨agg, op.added, s.emitted ++ [(c, s.unsent)]⟩
      ∧ op.StartsNew s.agg ∧ c.Carries s.unsent
      ∧ agg.currentChunk.Carries op.added)
    ∨ ∃ c agg,
      s' = ⟨agg, [], s.emitted ++ [(c, s.unsent ++ op.added)]⟩
        ∧ ¬op.StartsNew s.agg ∧ c.Carries (s.unsent ++ op.added) ∧ agg.currentChunk.Carries [] := by
  have hhanded := apply_handed h.current op
  unfold FlowFeed.step at hstep
  generalize op.apply s.agg = result at hhanded hstep
  cases hhanded with
  | kept joins current =>
      exact Or.inl ⟨_, (Option.some.inj hstep).symm, joins, current⟩
  | before full emitted current =>
      refine Or.inr (Or.inl ⟨_, _, ?_, full, emitted, current⟩)
      rw [← Option.some.inj hstep, emitted.count, List.take_left,
        List.drop_left]
  | whole joins emitted current =>
      refine Or.inr (Or.inr ⟨_, _, ?_, joins, emitted, current⟩)
      rw [← Option.some.inj hstep, emitted.count, List.take_length,
        List.drop_length]

/-- An emitted chunk is one of before, or the new one. -/
private theorem emit {c : Chunk} {ps : List Added} (h : Flowing s)
    (hc : c.Carries ps) : ∀ e ∈ s.emitted ++ [(c, ps)], e.1.Carries e.2 := by
  intro e he
  rcases List.mem_append.mp he with he | he
  · exact h.emitted e he
  · rw [List.mem_singleton.mp he]
    exact hc

theorem step (h : Flowing s) (hstep : FlowFeed.step op s = some s') :
    Flowing s' := by
  rcases h.step_cases hstep with ⟨agg, rfl, -, hcurrent⟩
    | ⟨c, agg, rfl, -, hc, hcurrent⟩ | ⟨c, agg, rfl, -, hc, hcurrent⟩
  · exact ⟨hcurrent, h.emitted⟩
  · exact ⟨hcurrent, h.emit hc⟩
  · exact ⟨hcurrent, h.emit hc⟩

end Flowing

/-- A packet that joins waiting ones is added as they were. -/
def JoinsAlike (op : AggOp) (s : FlowFeed) : Prop :=
  ¬op.StartsNew s.agg → ∀ x ∈ op.added, ∀ y ∈ s.unsent, x.2 = y.2

/-- Packets of one flow stay so when another joins them alike. -/
theorem SameFlow.join {ps new : List Added} (h : SameFlow ps)
    (hnew : SameFlow new) (hjoin : ∀ x ∈ new, ∀ y ∈ ps, x.2 = y.2) :
    SameFlow (ps ++ new) := by
  intro x hx y hy
  rcases List.mem_append.mp hx with hx | hx
  · rcases List.mem_append.mp hy with hy | hy
    · exact h x hx y hy
    · exact (hjoin y hy x hx).symm
  · rcases List.mem_append.mp hy with hy | hy
    · exact hjoin x hx y hy
    · exact hnew x hx y hy

theorem added_sameFlow (op : AggOp) : SameFlow op.added := by
  cases op <;> simp [SameFlow, AggOp.added]

/-- What waits was added alike, and so was what each chunk holds. -/
def Alike (s : FlowFeed) : Prop :=
  SameFlow s.unsent ∧ ∀ e ∈ s.emitted, SameFlow e.2

/-- A step that joins alike keeps the chunks alike. -/
theorem Alike.step {s s' : FlowFeed} {op : AggOp} (hflow : Flowing s)
    (h : Alike s) (hjoins : JoinsAlike op s)
    (hstep : FlowFeed.step op s = some s') : Alike s' := by
  have hemit : ∀ {c : Chunk} {ps : List Added}, SameFlow ps →
      ∀ e ∈ s.emitted ++ [(c, ps)], SameFlow e.2 := by
    intro c ps hps e he
    rcases List.mem_append.mp he with he | he
    · exact h.2 e he
    · rw [List.mem_singleton.mp he]
      exact hps
  have hall : ¬op.StartsNew s.agg → SameFlow (s.unsent ++ op.added) :=
    fun hin => h.1.join (added_sameFlow op) (hjoins hin)
  rcases hflow.step_cases hstep with ⟨agg, rfl, hin, -⟩
    | ⟨c, agg, rfl, -, -, -⟩ | ⟨c, agg, rfl, hin, -, -⟩
  · exact ⟨hall hin, h.2⟩
  · exact ⟨added_sameFlow op, hemit h.1⟩
  · exact ⟨fun _ hx => (nomatch hx), hemit (hall hin)⟩

/-- The tag of an emitted chunk speaks for its packets exactly when they
were all added alike. So it does for every chunk of a run in which each
packet that joins waiting ones is added as they were. Without the flow
ids the run is one of `Feed`. -/
theorem flow_tag_single_iff (config : ChunkAggregatorConfig)
    (numLinks now : Nat) {ops : List AggOp} {s : FlowFeed}
    (hrun : Trace.run FlowFeed.step ops
      (FlowFeed.start config numLinks now) = some s) :
    Trace.run Feed.step ops (Feed.start config numLinks now)
      = some s.forget
    ∧ (∀ e ∈ s.emitted, SingleFlow e.1 e.2 ↔ SameFlow e.2)
    ∧ (Trace.Along FlowFeed.step JoinsAlike ops
        (FlowFeed.start config numLinks now) →
      ∀ e ∈ s.emitted, SingleFlow e.1 e.2) := by
  have hstart := Flowing.start config numLinks now
  have hflow : Flowing s :=
    Trace.run_invariant (fun _ _ _ h hstep => h.step hstep) hrun hstart
  have hiff : ∀ e ∈ s.emitted, SingleFlow e.1 e.2 ↔ SameFlow e.2 :=
    fun e he => singleFlow_iff (hflow.emitted e he).tag
  refine ⟨FlowFeed.run_forget hrun, hiff,
    fun hjoins e he => (hiff e he).mpr ?_⟩
  have halike : Flowing s ∧ Alike s := by
    refine Trace.run_along (P := fun s => Flowing s ∧ Alike s) ?_ hjoins
      hrun ⟨hstart, fun _ hx => (nomatch hx), fun _ he => (nomatch he)⟩
    intro op s s' h hjoin hstep
    exact ⟨h.1.step hstep, h.2.step h.1 hjoin hstep⟩
  exact halike.2.2 e he

/-- Room for a few packets. -/
private def roomyConfig : ChunkAggregatorConfig where
  minChunkSize := 20
  maxChunkSize := 20
  bdpMultiplier := .fin 1
  aggregationTimeoutMs := 5

/-- One flow, then two in one chunk. -/
private def mixedOps : List AggOp :=
  [.addPacket [1] (some 7) 0, .addPacket [2] (some 7) 1, .flush 2,
    .addPacket [3] (some 7) 3, .addPacket [4] (some 9) 4,
    .addPacket [5] none 5, .flush 6]

/-- A chunk of one flow keeps the law, a chunk of several breaks it. -/
theorem flow_tag_single_first : ∃ s,
    Trace.run FlowFeed.step mixedOps (FlowFeed.start roomyConfig 1 0)
      = some s
    ∧ s.emitted.map (fun e => e.2.map Prod.snd)
      = [[some 7, some 7], [some 7, some 9, none]]
    ∧ ∀ e ∈ s.emitted, SingleFlow e.1 e.2 ↔ SameFlow e.2 := by
  obtain ⟨s, hrun⟩ : ∃ s, Trace.run FlowFeed.step mixedOps
      (FlowFeed.start roomyConfig 1 0) = some s := ⟨_, rfl⟩
  refine ⟨s, hrun, ?_, (flow_tag_single_iff roomyConfig 1 0 hrun).2.1⟩
  cases hrun
  rfl

/-- The second chunk is tagged with flow 7 and holds packets of flow 9
and of none. -/
theorem flow_tag_mixed : ∃ s, ∃ c ps,
    Trace.run FlowFeed.step mixedOps (FlowFeed.start roomyConfig 1 0)
      = some s
    ∧ (c, ps) ∈ s.emitted ∧ c.flowId = some 7
    ∧ c.data = frames 2 [[3], [4], [5]]
    ∧ ps = [([3], some 7), ([4], some 9), ([5], none)]
    ∧ ¬SingleFlow c ps := by
  refine ⟨_, _, _, rfl, List.mem_cons_of_mem _ List.mem_cons_self, rfl, rfl,
    rfl, ?_⟩
  rintro ⟨hall, -⟩
  have hfour := hall 7 rfl ([4], some 9)
    (List.mem_cons_of_mem _ List.mem_cons_self)
  cases hfour

end ChainLightning
