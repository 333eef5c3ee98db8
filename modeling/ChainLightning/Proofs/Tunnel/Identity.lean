/-
Chunk ids on the wire.

The aggregator numbers the chunks that it emits one after the other
(`apply_id`), and from there to a link a chunk is only handed on: an
emitted chunk is in a task's hand, in the queue, or handed to a link, and
in one of these places only (`Filed`). So, short of 2^64 chunks, no two
data packets of a log carry the same id (`chunk_ids_unique`).
-/
import ChainLightning.Proofs.Endpoint.Hands
import ChainLightning.Proofs.Tunnel.Datagrams
import ChainLightning.Proofs.Tunnel.Uplink

namespace ChainLightning

/-- The chunk that the aggregator emits with an event. -/
def ProgramEvent.emitted : ProgramEvent → List Chunk
  | .began _ => []
  | .performed r a e => a.emits r e

/-- The first ids. -/
def firstIds (n : Nat) : List ChunkId := (List.range n).map UInt64.ofNat

theorem firstIds_succ (n : Nat) :
    firstIds (n + 1) = firstIds n ++ [UInt64.ofNat n] := by
  unfold firstIds
  rw [List.range_succ, List.map_append]
  rfl

/-- The first 2^64 ids are different. -/
theorem firstIds_nodup {n : Nat} (h : n ≤ 2 ^ 64) : (firstIds n).Nodup := by
  refine List.Nodup.map_on (fun i hi j hj heq => ?_) List.nodup_range
  have hi : i < 2 ^ 64 := (List.mem_range.mp hi).trans_le h
  have hj : j < 2 ^ 64 := (List.mem_range.mp hj).trans_le h
  have heq : (UInt64.ofNat i).toNat = (UInt64.ofNat j).toNat :=
    congrArg UInt64.toNat heq
  rwa [UInt64.toNat_ofNat', UInt64.toNat_ofNat', Nat.mod_eq_of_lt hi,
    Nat.mod_eq_of_lt hj] at heq

-- ============================================================ one call

/-- A call emits nothing and leaves the next id, or it emits a chunk with
the id before the next one, which moves on. -/
theorem apply_id (op : AggOp) (a : ChunkAggregator) :
    ((op.apply a).1 = none ∧ (op.apply a).2.nextChunkId = a.nextChunkId)
      ∨ ∃ c, (op.apply a).1 = some c ∧ c.id = a.nextChunkId - 1
        ∧ (op.apply a).2.nextChunkId = a.nextChunkId + 1 := by
  cases op with
  | addPacket packet flowId now =>
      unfold AggOp.apply ChunkAggregator.addPacket
      dsimp only
      by_cases hfull : a.currentChunk.size + 2 + packet.length
          > a.optimalChunkSize ∧ ¬a.currentChunk.isEmpty
      · rw [if_pos hfull]
        refine Or.inr ⟨_, rfl, rfl, ?_⟩
        split <;> rfl
      · rw [if_neg hfull]
        -- the flow of the current chunk is apart from its id
        generalize hflow : (if flowId.isSome
          ∧ (a.pushCurrent packet).currentChunk.flowId.isNone then
          (a.pushCurrent packet).setFlow flowId else a.pushCurrent packet) = b
        have hb : b.nextChunkId = a.nextChunkId := by
          rw [← hflow]
          split <;> rfl
        rw [← hb]
        split
        case isTrue => exact Or.inr ⟨_, rfl, rfl, rfl⟩
        case isFalse => exact Or.inl ⟨rfl, rfl⟩
  | flush now =>
      unfold AggOp.apply ChunkAggregator.flush
      dsimp only
      split
      case isTrue => exact Or.inl ⟨rfl, rfl⟩
      case isFalse => exact Or.inr ⟨_, rfl, rfl, rfl⟩
  | checkTimeout read now =>
      unfold AggOp.apply ChunkAggregator.checkTimeout ChunkAggregator.flush
      dsimp only
      split
      case isTrue => exact Or.inl ⟨rfl, rfl⟩
      case isFalse =>
        split
        case isTrue => exact Or.inr ⟨_, rfl, rfl, rfl⟩
        case isFalse => exact Or.inl ⟨rfl, rfl⟩
  | updateLinkStats linkId bandwidthBps rttMs =>
      exact Or.inl
        ⟨rfl, (updateLinkStats_current a linkId bandwidthBps rttMs).2⟩

/-- So does an action, which emits a chunk at most. -/
theorem exec_id {role : Role} {r : Reading} {a : Action} {e e' : Endpoint}
    {next : List Action}
    (hexec : Endpoint.exec role r a e = some (next, e')) :
    (a.emits r e = []
        ∧ e'.aggregator.nextChunkId = e.aggregator.nextChunkId)
      ∨ ∃ c, a.emits r e = [c] ∧ c.id = e.aggregator.nextChunkId - 1
        ∧ e'.aggregator.nextChunkId = e.aggregator.nextChunkId + 1 := by
  unfold Action.emits
  rw [(exec_effects hexec).aggregator]
  cases a.aggOp r with
  | none => exact Or.inl ⟨rfl, rfl⟩
  | some op =>
      rcases apply_id op e.aggregator with ⟨hnone, hnext⟩ | ⟨c, hc, hid⟩
      · exact Or.inl ⟨congrArg Option.toList hnone, hnext⟩
      · exact Or.inr ⟨c, congrArg Option.toList hc, hid⟩

-- ============================================================== invariant

/-- The chunks a run has emitted are numbered from 0, and each is where
the program has put it. -/
structure Filed (seen : List ProgramEvent) (p : Program) : Prop where
  ids : (seen.flatMap ProgramEvent.emitted).map Chunk.id
    = firstIds (seen.flatMap ProgramEvent.emitted).length
  nextId : p.shared.aggregator.nextChunkId
    = UInt64.ofNat ((seen.flatMap ProgramEvent.emitted).length + 1)
  balance : (seen.flatMap ProgramEvent.emitted : Multiset Chunk)
    = p.tally Action.chunks uplink + p.shared.toLinks
      + seen.flatMap ProgramEvent.handed

/-- The other tasks have no chunk in hand. -/
theorem chunks_owned {t : Task} {a : Action} (howns : t.owns a)
    (ht : t ∉ uplink) : a.chunks = [] := by
  have hne : t ≠ .tunReader ∧ t ≠ .timeoutChecker ∧ t ≠ .chunkSender := by
    simpa [uplink] using ht
  cases a with
  | enqueue chunk =>
      rcases howns with h | h
      · exact absurd h hne.1
      · exact absurd h hne.2.1
  | schedule chunk => exact absurd howns hne.2.2
  | sendChunk linkId chunk => exact absurd howns hne.2.2
  | _ => rfl

theorem filed_start (config : Config) (linkBandwidths : List UInt64)
    (now : Nat → Nat) :
    Filed [] (Program.start config linkBandwidths now) where
  ids := rfl
  nextId := rfl
  balance := by
    rw [Program.start, Pool.tally_idle]
    rfl

namespace Filed

variable {seen : List ProgramEvent} {p : Program}

theorem begin (h : Filed seen p)
    {statsFromSlice : List UInt8 → Option StatsPacket} {role : Role}
    {round : Round} (hidle : p.pending round.task = []) :
    Filed (seen ++ [.began round])
      { p with
        pending := Function.update p.pending round.task
          (round.actions statsFromSlice role p.shared) } := by
  have hnone := actions_chunks statsFromSlice role p.shared round
  have hemitted : (seen ++ [ProgramEvent.began round]).flatMap
      ProgramEvent.emitted = seen.flatMap ProgramEvent.emitted := by
    rw [List.flatMap_append]
    exact List.append_nil _
  have hhanded : (seen ++ [ProgramEvent.began round]).flatMap
      ProgramEvent.handed = seen.flatMap ProgramEvent.handed := by
    rw [List.flatMap_append]
    exact List.append_nil _
  constructor
  · rw [hemitted]
    exact h.ids
  · rw [hemitted]
    exact h.nextId
  · rw [hemitted, hhanded, h.balance,
      Pool.tally_begin Action.chunks uplink hidle
        fun _ => List.flatMap_eq_nil_iff.mpr hnone,
      List.flatMap_eq_nil_iff.mpr hnone]
    exact congrArg (· + _ + _) (add_zero _).symm

theorem perform (h : Filed seen p) {role : Role} {r : Reading} {t : Task}
    {a : Action} {rest next : List Action} {e : Endpoint}
    (horderly : p.Orderly) (hpending : p.pending t = a :: rest)
    (hexec : Endpoint.exec role r a p.shared = some (next, e)) :
    Filed (seen ++ [.performed r a p.shared])
      { shared := e, pending := Function.update p.pending t (next ++ rest) } := by
  have hemitted : (seen ++ [ProgramEvent.performed r a p.shared]).flatMap
      ProgramEvent.emitted
      = seen.flatMap ProgramEvent.emitted ++ a.emits r p.shared := by
    rw [List.flatMap_append, List.flatMap_singleton]
    rfl
  have hhanded : (seen ++ [ProgramEvent.performed r a p.shared]).flatMap
      ProgramEvent.handed = seen.flatMap ProgramEvent.handed ++ a.hands := by
    rw [List.flatMap_append, List.flatMap_singleton]
    rfl
  have hnumber : (seen.flatMap ProgramEvent.emitted ++ a.emits r p.shared).map
        Chunk.id
        = firstIds (seen.flatMap ProgramEvent.emitted
          ++ a.emits r p.shared).length
      ∧ e.aggregator.nextChunkId
        = UInt64.ofNat ((seen.flatMap ProgramEvent.emitted
          ++ a.emits r p.shared).length + 1) := by
    rcases exec_id hexec with ⟨hnone, hnext⟩ | ⟨c, hone, hid, hnext⟩
    · rw [hnone, List.append_nil]
      exact ⟨h.ids, hnext.trans h.nextId⟩
    · rw [hone, hnext, List.map_append, List.length_append, h.ids,
        List.length_singleton, firstIds_succ, h.nextId]
      refine ⟨?_, (UInt64.ofNat_add _ _).symm⟩
      rw [List.map_singleton, hid, h.nextId, UInt64.ofNat_add]
      exact congrArg (fun id => _ ++ [id]) (UInt64.add_sub_cancel _ _)
  constructor
  · rw [hemitted]
    exact hnumber.1
  · rw [hemitted]
    exact hnumber.2
  · have howns : t.owns a :=
      horderly.owned t a (hpending ▸ List.mem_cons_self)
    have hmove := chunks_move r p.shared a
    rw [← (exec_effects hexec).leaves, ← (exec_effects hexec).toLinks,
      ← Multiset.coe_eq_coe] at hmove
    have hqueue : (next.flatMap Action.chunks : Multiset Chunk) + e.toLinks
        + a.hands = (a.chunks : Multiset Chunk) + p.shared.toLinks
          + a.emits r p.shared := by
      simp only [← Multiset.coe_add] at hmove
      rw [hmove]
      ac_rfl
    have hbalance := Pool.balance_perform Action.chunks
      (fun e => (e.toLinks : Multiset Chunk)) uplink hpending
      (fun ht => ⟨chunks_owned howns ht, List.flatMap_eq_nil_iff.mpr
        fun b hb => chunks_owned ((exec_leads hexec b hb).owned howns) ht⟩)
      hqueue
    rw [hemitted, hhanded, ← Multiset.coe_add, ← Multiset.coe_add, h.balance]
    calc p.tally Action.chunks uplink + p.shared.toLinks
          + seen.flatMap ProgramEvent.handed + a.emits r p.shared
        = p.tally Action.chunks uplink + p.shared.toLinks
            + a.emits r p.shared + seen.flatMap ProgramEvent.handed := by
          ac_rfl
      _ = _ := by
          rw [← hbalance]
          ac_rfl

end Filed

-- =================================================================== runs

variable {statsFromSlice : List UInt8 → Option StatsPacket} {role : Role}
  {config : Config} {linkBandwidths : List UInt64} {now : Nat → Nat}
  {steps : List ProgramStep} {p : Program}

/-- A run keeps the books of its chunks. -/
theorem run_filed
    (hrun : Trace.run (Program.step statsFromSlice role) steps
      (Program.start config linkBandwidths now) = some p) :
    Filed (Program.events statsFromSlice role steps
      (Program.start config linkBandwidths now)) p :=
  Program.run_events (P := Filed)
    (fun _ _ _ h _ hidle => h.begin hidle)
    (fun _ _ _ _ _ _ _ _ h _ horderly hpending hexec =>
      h.perform horderly hpending hexec)
    (Trace.Along.of_forall (fun _ _ _ => trivial) _) hrun (orderly_idle _)
    (filed_start config linkBandwidths now)

/-- A run emits no more chunks than it has steps. -/
theorem emitted_length_le (p : Program) :
    ((Program.events statsFromSlice role steps p).flatMap
      ProgramEvent.emitted).length ≤ steps.length := by
  refine run_notes_length_le (fun event => ?_) steps p
  cases event with
  | began round => exact Nat.zero_le 1
  | performed r a e =>
      show (((a.aggOp r).bind _).toList).length ≤ 1
      cases (a.aggOp r).bind fun op => (op.apply e.aggregator).1 with
      | none => exact Nat.zero_le 1
      | some c => exact Nat.le_refl 1

/-- The data packets that an event puts on the wire carry the ids of the
chunks that it hands to a socket. -/
private theorem sends_ids (event : ProgramEvent) :
    (((event.sends role).flatMap Datagram.data).map
      ChunkPacket.chunkId).Sublist
      ((event.done Action.transmits).map Chunk.id) := by
  cases event with
  | began round => exact .refl _
  | performed r a e =>
      unfold ProgramEvent.sends
      rcases sends_data role r a with hnone | ⟨l, dest, chunk, rfl, hone⟩
      · rw [hnone]
        exact List.nil_sublist _
      · rw [hone]
        exact .refl _

/-- The chunks that a run of at most 2^64 steps hands to the links have
different ids. -/
theorem run_handed_nodup
    (hrun : Trace.run (Program.step statsFromSlice role) steps
      (Program.start config linkBandwidths now) = some p)
    (hshort : steps.length ≤ 2 ^ 64) :
    (((Program.events statsFromSlice role steps
      (Program.start config linkBandwidths now)).flatMap
        ProgramEvent.handed).map Chunk.id).Nodup := by
  have hfiled := run_filed hrun
  have hnodup : (((Program.events statsFromSlice role steps
      (Program.start config linkBandwidths now)).flatMap
        ProgramEvent.emitted).map Chunk.id).Nodup := by
    rw [hfiled.ids]
    exact firstIds_nodup ((emitted_length_le _).trans hshort)
  have hhanded : ((Program.events statsFromSlice role steps
      (Program.start config linkBandwidths now)).flatMap
        ProgramEvent.handed).Subperm
      ((Program.events statsFromSlice role steps
        (Program.start config linkBandwidths now)).flatMap
          ProgramEvent.emitted) := by
    rw [← Multiset.coe_le, hfiled.balance]
    exact Multiset.le_add_left _ _
  obtain ⟨handed, hperm, hsub⟩ := hhanded
  have hids : (handed.map Chunk.id).Nodup :=
    hnodup.sublist (hsub.map Chunk.id)
  exact (hperm.map Chunk.id).nodup_iff.mp hids

/-- The data packets in the log carry ids of chunks handed to the links. -/
theorem run_data_ids
    (hrun : Trace.run (Program.step statsFromSlice role) steps
      (Program.start config linkBandwidths now) = some p) :
    ((p.shared.sent.flatMap Datagram.data).map
      ChunkPacket.chunkId).Sublist
      (((Program.events statsFromSlice role steps
        (Program.start config linkBandwidths now)).flatMap
          ProgramEvent.handed).map Chunk.id) := by
  refine .trans ?_
    ((run_transmits_handed hrun (orderly_idle _) rfl).map Chunk.id)
  rw [run_sent hrun (orderly_idle _), List.flatMap_append,
    List.flatMap_assoc]
  show (List.map _ (List.flatMap _ _)).Sublist _
  rw [List.map_flatMap, List.map_flatMap]
  exact .flatMap_right _ fun event _ => sends_ids event

/-- No chunk id is used twice. In every run of a program of at most 2^64
steps, the data packets in its log carry different chunk ids. -/
theorem chunk_ids_unique (statsFromSlice : List UInt8 → Option StatsPacket)
    (role : Role) (config : Config) (linkBandwidths : List UInt64)
    (now : Nat → Nat) {steps : List ProgramStep} {p : Program}
    (hrun : Trace.run (Program.step statsFromSlice role) steps
      (Program.start config linkBandwidths now) = some p)
    (hshort : steps.length ≤ 2 ^ 64) :
    ((p.shared.sent.flatMap Datagram.data).map
      ChunkPacket.chunkId).Nodup :=
  (run_handed_nodup hrun hshort).sublist (run_data_ids hrun)

/-- The law where the second chunk is sent before the first. -/
theorem chunk_ids_unique_reader_first : ∃ p,
    Trace.run (Program.step (fun _ => none) .client) readerFirst freshClient
        = some p
      ∧ (p.shared.sent.flatMap Datagram.data).map ChunkPacket.chunkId
        = [1, 0]
      ∧ ((p.shared.sent.flatMap Datagram.data).map
        ChunkPacket.chunkId).Nodup := by
  have hsent : (Trace.run (Program.step (fun _ => none) .client) readerFirst
      freshClient).map (fun p =>
        (p.shared.sent.flatMap Datagram.data).map ChunkPacket.chunkId)
      = some [1, 0] := by
    decide +kernel
  obtain ⟨p, hrun, hsent⟩ := Option.map_eq_some_iff.mp hsent
  exact ⟨p, hrun, hsent, chunk_ids_unique (fun _ => none) .client
    Config.default expectedBandwidthUp (fun _ => 0) hrun (by decide)⟩

end ChainLightning
