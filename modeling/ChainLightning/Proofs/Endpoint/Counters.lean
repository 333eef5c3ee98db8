/-
The rate controller's counters and the wire.

A program makes its calls on the rate controller one at a time, so what a
run does to it is a run of its calls (`run_rates`); of these only the
records move the counters of a link, by what they record
(`run_totals`). A record is due from the moment a chunk is handed to a
socket, or its datagram arrives, until the task gets to it. So at any
moment a link's counters and the records still due make up exactly the
datagrams of chunks that its socket was handed, and exactly those that
have arrived on it (`counters_exact`).
-/
import Mathlib.Algebra.BigOperators.Group.List.Basic
import ChainLightning.Proofs.Endpoint.Hands
import ChainLightning.Proofs.Rate.Link
import ChainLightning.Proofs.Rate.Stages
import ChainLightning.Proofs.Tunnel.Datagrams

namespace ChainLightning

-- ============================================================ definitions

/-- The bytes that a call counts as sent on a link. -/
def RateOp.countsTx (linkId : Nat) : RateOp → List Nat
  | .recordTx l bytes => if l = linkId then [bytes] else []
  | _ => []

/-- The bytes that a call counts as received on a link. -/
def RateOp.countsRx (linkId : Nat) : RateOp → List Nat
  | .recordRx l bytes => if l = linkId then [bytes] else []
  | _ => []

/-- The calls that a program makes on its rate controller. -/
def ProgramEvent.rateOps : ProgramEvent → List RateOp
  | .began _ => []
  | .performed r a _ => (a.rateOp r).toList

/-- The record of a sent chunk that an action is about to make. -/
def Action.countsTx (linkId : Nat) : Action → List Nat
  | .rateTx l bytes => if l = linkId then [bytes] else []
  | _ => []

/-- The record of a received chunk that an action is about to make. -/
def Action.countsRx (linkId : Nat) : Action → List Nat
  | .rateRx l bytes => if l = linkId then [bytes] else []
  | _ => []

/-- The bytes of a datagram that carries a chunk on a link. -/
def Datagram.chunkBytesOn (linkId : Nat) (d : Datagram) : List Nat :=
  if d.linkId = linkId then d.data.map fun _ => d.bytes.length else []

/-- The bytes of a datagram that arrives with a chunk on a link. -/
def Round.chunkBytesOn (linkId : Nat) : Round → List Nat
  | .receive l bytes _ =>
      if l = linkId then
        (ChunkPacket.decode bytes).toList.map fun _ => bytes.length
      else []
  | _ => []

-- ========================================================= one controller

/-- The counters of a link are ahead of those of an earlier state by some
packets sent and some received. -/
structure RateState.Ahead (tx rx : List Nat) (s s' : RateState) : Prop where
  linkId : s'.linkId = s.linkId
  txBytes : s'.totalTxBytes = s.totalTxBytes + tx.sum
  txPackets : s'.totalTxPackets = s.totalTxPackets + tx.length
  rxBytes : s'.totalRxBytes = s.totalRxBytes + rx.sum
  rxPackets : s'.totalRxPackets = s.totalRxPackets + rx.length

theorem RateState.Ahead.refl (s : RateState) : Ahead [] [] s s :=
  ⟨rfl, rfl, rfl, rfl, rfl⟩

theorem RateState.Ahead.trans {tx tx' rx rx' : List Nat}
    {s s' s'' : RateState} (h : Ahead tx rx s s')
    (h' : Ahead tx' rx' s' s'') : Ahead (tx ++ tx') (rx ++ rx') s s'' where
  linkId := h'.linkId.trans h.linkId
  txBytes := by rw [h'.txBytes, h.txBytes, List.sum_append, Nat.add_assoc]
  txPackets := by
    rw [h'.txPackets, h.txPackets, List.length_append, Nat.add_assoc]
  rxBytes := by rw [h'.rxBytes, h.rxBytes, List.sum_append, Nat.add_assoc]
  rxPackets := by
    rw [h'.rxPackets, h.rxPackets, List.length_append, Nat.add_assoc]

/-- A call moves the counters of a link by what it records there. -/
theorem linkStep_ahead {rc : RateController} {linkId : Nat} {op : RateOp}
    {s s' : RateState} (h : op.linkStep rc linkId s = some s') :
    RateState.Ahead (op.countsTx linkId) (op.countsRx linkId) s s' := by
  cases op with
  | recordTx l bytes =>
      unfold RateOp.linkStep at h
      unfold RateOp.countsTx RateOp.countsRx
      dsimp only at h ⊢
      split at h
      case isTrue hl =>
        rw [if_pos hl, RateState.recordTx_inv h]
        exact ⟨rfl, rfl, rfl, rfl, rfl⟩
      case isFalse hl =>
        cases h
        rw [if_neg hl]
        exact .refl s
  | recordRx l bytes =>
      unfold RateOp.linkStep at h
      unfold RateOp.countsTx RateOp.countsRx
      dsimp only at h ⊢
      split at h
      case isTrue hl =>
        rw [if_pos hl, RateState.recordRx_inv h]
        exact ⟨rfl, rfl, rfl, rfl, rfl⟩
      case isFalse hl =>
        cases h
        rw [if_neg hl]
        exact .refl s
  | buildProbes now =>
      obtain ⟨⟨probe, s₁⟩, hbuild, rfl⟩ := Option.map_eq_some_iff.mp h
      obtain ⟨-, -, -, -, -, rfl⟩ := RateState.buildProbe_inv hbuild
      exact ⟨rfl, rfl, rfl, rfl, rfl⟩
  | processProbe clk probe =>
      unfold RateOp.linkStep at h
      dsimp only at h
      split at h
      case isTrue =>
        obtain ⟨confidence, -, h⟩ := Option.bind_eq_some_iff.mp h
        obtain ⟨hframe, -⟩ := RateState.processProbe_frame h
        exact ⟨hframe.linkId, hframe.totalTxBytes, hframe.totalTxPackets,
          hframe.totalRxBytes, hframe.totalRxPackets⟩
      case isFalse =>
        cases h
        exact .refl s
  | checkTimeouts now =>
      cases h
      unfold RateState.checkTimeout
      split
      · exact ⟨rfl, rfl, rfl, rfl, rfl⟩
      · exact .refl s

/-- So does a run of calls. -/
theorem run_totals {linkId : Nat} {ops : List RateOp} :
    ∀ {rc rc' : RateController} {s : RateState},
      Trace.run RateOp.apply ops rc = some rc' →
      rc.states[linkId]? = some s →
      ∃ s', rc'.states[linkId]? = some s'
        ∧ RateState.Ahead (ops.flatMap (RateOp.countsTx linkId))
          (ops.flatMap (RateOp.countsRx linkId)) s s' := by
  induction ops with
  | nil =>
      intro rc rc' s hrun hs
      cases hrun
      exact ⟨s, hs, .refl s⟩
  | cons op ops ih =>
      intro rc rc' s hrun hs
      obtain ⟨rc₁, hop, hrest⟩ := Trace.run_cons_inv hrun
      obtain ⟨-, -, hlink⟩ := apply_link hop
      obtain ⟨s₁, hstep, hs₁⟩ := hlink linkId s hs
      obtain ⟨s', hs', hahead⟩ := ih hrest hs₁
      exact ⟨s', hs', (linkStep_ahead hstep).trans hahead⟩

-- ============================================================ one program

variable {statsFromSlice : List UInt8 → Option StatsPacket} {role : Role}
  {config : Config} {linkBandwidths : List UInt64} {now : Nat → Nat}
  {steps : List ProgramStep}

/-- What a run does to the rate controller is a run of its calls. -/
theorem run_rates {p p' : Program}
    (hrun : Trace.run (Program.step statsFromSlice role) steps p = some p')
    (horderly : p.Orderly) :
    Trace.run RateOp.apply
      ((Program.events statsFromSlice role steps p).flatMap
        ProgramEvent.rateOps) p.shared.rateController
      = some p'.shared.rateController := by
  refine Program.run_events (P := fun seen q => Trace.run RateOp.apply
    (seen.flatMap ProgramEvent.rateOps) p.shared.rateController
      = some q.shared.rateController)
    ?_ ?_ (Trace.Along.of_forall (fun _ _ _ => trivial) _) hrun horderly rfl
  · intro seen round q hq _ _
    rw [List.flatMap_append, Trace.run_append, hq]
    rfl
  · intro seen t r a rest next e q hq _ _ _ hexec
    rw [List.flatMap_append, List.flatMap_singleton, Trace.run_append, hq]
    have hrates := (exec_outputs hexec).rates
    unfold ProgramEvent.rateOps
    dsimp only
    cases hop : a.rateOp r with
    | none =>
        rw [hop] at hrates
        exact hrates
    | some op =>
        rw [hop] at hrates
        have hrates : op.apply q.shared.rateController
          = some e.rateController := hrates
        show Trace.run RateOp.apply [op] q.shared.rateController = _
        rw [Trace.run_cons, hrates]
        rfl

/-- The link of a rate controller at its start. -/
theorem start_link (config : Config) (now : Nat → Nat) {linkId : Nat}
    (hlink : linkId < linkBandwidths.length) :
    ∃ s, (Program.start config linkBandwidths
        now).shared.rateController.states[linkId]? = some s
      ∧ s.totalTxBytes = 0 ∧ s.totalTxPackets = 0 ∧ s.totalRxBytes = 0
      ∧ s.totalRxPackets = 0 := by
  have hlength : linkId < (linkBandwidths.map UInt64.toNat).length := by
    rwa [List.length_map]
  refine ⟨RateState.new linkId (linkBandwidths.map UInt64.toNat)[linkId]
    config.rateControl.minRateFraction
    (now (2 + linkBandwidths.length + linkId)), ?_, rfl, rfl, rfl, rfl⟩
  show ((linkBandwidths.map UInt64.toNat).mapIdx _)[linkId]? = _
  rw [List.getElem?_mapIdx, List.getElem?_eq_getElem hlength]
  rfl

/-- The records that were made are those the tasks have given up. -/
private theorem ops_counts (linkId : Nat) (seen : List ProgramEvent) :
    (seen.flatMap ProgramEvent.rateOps).flatMap (RateOp.countsTx linkId)
        = seen.flatMap (ProgramEvent.done (Action.countsTx linkId))
      ∧ (seen.flatMap ProgramEvent.rateOps).flatMap (RateOp.countsRx linkId)
        = seen.flatMap (ProgramEvent.done (Action.countsRx linkId)) := by
  rw [List.flatMap_assoc, List.flatMap_assoc]
  constructor
  · refine List.flatMap_congr fun event _ => ?_
    cases event with
    | began round => rfl
    | performed r a e =>
        cases a with
        | rateTx l bytes => exact List.append_nil _
        | _ => rfl
  · refine List.flatMap_congr fun event _ => ?_
    cases event with
    | began round => rfl
    | performed r a e =>
        cases a with
        | rateRx l bytes => exact List.append_nil _
        | _ => rfl

/-- A chunk that goes out leaves its record to be made. -/
theorem exec_counts (linkId : Nat) {r : Reading} {a : Action}
    {e e' : Endpoint} {next : List Action}
    (hexec : Endpoint.exec role r a e = some (next, e')) :
    next.flatMap (Action.countsTx linkId)
      = (a.sends role r).flatMap (Datagram.chunkBytesOn linkId) := by
  have hother : (∀ l dest chunk, a ≠ .transmitChunk l dest chunk) →
      next.flatMap (Action.countsTx linkId)
        = (a.sends role r).flatMap (Datagram.chunkBytesOn linkId) := by
    intro hne
    have hnext : next.flatMap (Action.countsTx linkId) = [] := by
      refine List.flatMap_eq_nil_iff.mpr fun b hb => ?_
      cases exec_leads hexec b hb with
      | rateTx l dest chunk => exact absurd rfl (hne l dest chunk)
      | _ => rfl
    have hdata : (a.sends role r).flatMap Datagram.data = [] := by
      rcases sends_data role r a with hnone | ⟨l, dest, chunk, heq, -⟩
      · exact hnone
      · exact absurd heq (hne l dest chunk)
    rw [hnext]
    refine (List.flatMap_eq_nil_iff.mpr fun d hd => ?_).symm
    unfold Datagram.chunkBytesOn
    rw [List.flatMap_eq_nil_iff.mp hdata d hd]
    exact ite_self _
  cases a with
  | transmitChunk l dest chunk =>
      injection hexec with hexec
      have hnext : (e.transmitChunk r l dest chunk).1 = next :=
        congrArg Prod.fst hexec
      rw [← hnext]
      unfold Endpoint.transmitChunk Action.sends
      dsimp only
      split
      case isFalse => rfl
      case isTrue =>
        show Action.countsTx linkId (.rateTx l _) ++ []
          = Datagram.chunkBytesOn linkId ⟨l, dest, _⟩ ++ []
        unfold Action.countsTx Datagram.chunkBytesOn
        rw [data_chunkBytes]
        rfl
  | _ => exact hother fun _ _ _ h => nomatch h

/-- The chunks that a program has handed to the socket of a link were
recorded, or their records are in the chunk sender's hand. -/
theorem run_counts_sent (linkId : Nat) {p : Program}
    (hrun : Trace.run (Program.step statsFromSlice role) steps
      (Program.start config linkBandwidths now) = some p) :
    ((Program.events statsFromSlice role steps
        (Program.start config linkBandwidths now)).flatMap
          (ProgramEvent.done (Action.countsTx linkId))
        ++ p.hold (Action.countsTx linkId) .chunkSender).Perm
      (p.shared.sent.flatMap (Datagram.chunkBytesOn linkId)) := by
  have htally := run_tally {.chunkSender} (f := Action.countsTx linkId)
    (g := fun event => (event.sends role).flatMap
      (Datagram.chunkBytesOn linkId))
    (fun t a howns ht _ => by
      cases a with
      | rateTx l bytes => exact absurd (Finset.mem_singleton.mpr howns) ht
      | _ => rfl)
    (fun round e => List.flatMap_eq_nil_iff.mpr fun a ha => by
      have howns := actions_owned statsFromSlice role e round a ha
      cases a with
      | rateTx l bytes =>
          cases round with
          | sendChunk => cases List.mem_singleton.mp ha
          | _ => cases howns
      | _ => rfl)
    (fun r a e next e' hexec => exec_counts linkId hexec) hrun
  rw [run_sent hrun (orderly_idle _), List.flatMap_append,
    List.flatMap_assoc]
  refine Multiset.coe_eq_coe.mp ?_
  rw [← Multiset.coe_add]
  unfold Pool.tally at htally
  rw [Finset.sum_singleton] at htally
  exact htally

/-- The chunks that have arrived on a link were recorded in this order, or
their records are in the hand of the link's receiver. -/
theorem run_counts_arrived (linkId : Nat) {p : Program}
    (hrun : Trace.run (Program.step statsFromSlice role) steps
      (Program.start config linkBandwidths now) = some p) :
    (Program.events statsFromSlice role steps
        (Program.start config linkBandwidths now)).flatMap
          (ProgramEvent.done (Action.countsRx linkId))
        ++ p.hold (Action.countsRx linkId) (.linkReceiver linkId)
      = (Program.events statsFromSlice role steps
        (Program.start config linkBandwidths now)).flatMap
          (ProgramEvent.brought (Round.chunkBytesOn linkId)) := by
  refine run_hand (g := Round.chunkBytesOn linkId) (fun round e => ?_)
    (fun round ht => ?_) (fun r a e next e' hexec => ?_) hrun
  · rw [actions_arrivals statsFromSlice (fun a ha => by
      cases a with
      | rateRx => cases ha
      | _ => rfl)]
    cases round with
    | receive l bytes src =>
        unfold Round.chunkBytesOn Round.arrivals
        dsimp only
        cases ChunkPacket.decode bytes with
        | none => exact (ite_self _).symm
        | some p => exact List.append_nil _
    | _ => rfl
  · cases round with
    | receive l bytes src =>
        exact if_neg fun heq => ht (congrArg Task.linkReceiver heq)
    | _ => rfl
  · refine List.flatMap_eq_nil_iff.mpr fun b hb => ?_
    cases exec_leads hexec b hb <;> rfl

/-- A link's counters have the records that were done. -/
private theorem run_recorded {linkId : Nat}
    (hlink : linkId < linkBandwidths.length) {p : Program}
    (hrun : Trace.run (Program.step statsFromSlice role) steps
      (Program.start config linkBandwidths now) = some p) :
    ∃ s s₀, p.shared.rateController.states[linkId]? = some s
      ∧ (s₀.totalTxBytes = 0 ∧ s₀.totalTxPackets = 0 ∧ s₀.totalRxBytes = 0
        ∧ s₀.totalRxPackets = 0)
      ∧ RateState.Ahead
        ((Program.events statsFromSlice role steps
          (Program.start config linkBandwidths now)).flatMap
            (ProgramEvent.done (Action.countsTx linkId)))
        ((Program.events statsFromSlice role steps
          (Program.start config linkBandwidths now)).flatMap
            (ProgramEvent.done (Action.countsRx linkId))) s₀ s := by
  obtain ⟨s₀, hs₀, hzero⟩ := start_link config now hlink
  obtain ⟨s, hs, hahead⟩ := run_totals (run_rates hrun (orderly_idle _)) hs₀
  obtain ⟨hopsTx, hopsRx⟩ := ops_counts linkId
    (Program.events statsFromSlice role steps
      (Program.start config linkBandwidths now))
  rw [hopsTx, hopsRx] at hahead
  exact ⟨s, s₀, hs, hzero, hahead⟩

/-- What a link's counters have as sent. -/
theorem run_counters_sent {linkId : Nat}
    (hlink : linkId < linkBandwidths.length) {p : Program}
    (hrun : Trace.run (Program.step statsFromSlice role) steps
      (Program.start config linkBandwidths now) = some p) :
    ∃ s, p.shared.rateController.states[linkId]? = some s
      ∧ s.totalTxPackets + (p.hold (Action.countsTx linkId)
          .chunkSender).length
        = (p.shared.sent.flatMap (Datagram.chunkBytesOn linkId)).length
      ∧ s.totalTxBytes + (p.hold (Action.countsTx linkId) .chunkSender).sum
        = (p.shared.sent.flatMap (Datagram.chunkBytesOn linkId)).sum := by
  obtain ⟨s, s₀, hs, ⟨htxBytes, htxPackets, -, -⟩, hahead⟩ :=
    run_recorded hlink hrun
  have hsent := run_counts_sent linkId hrun
  refine ⟨s, hs, ?_, ?_⟩
  · rw [← hsent.length_eq, List.length_append, hahead.txPackets, htxPackets,
      Nat.zero_add]
  · rw [← hsent.sum_eq, List.sum_append, hahead.txBytes, htxBytes,
      Nat.zero_add]

/-- What a link's counters have as received. -/
theorem run_counters_received {linkId : Nat}
    (hlink : linkId < linkBandwidths.length) {p : Program}
    (hrun : Trace.run (Program.step statsFromSlice role) steps
      (Program.start config linkBandwidths now) = some p) :
    ∃ s, p.shared.rateController.states[linkId]? = some s
      ∧ s.totalRxPackets + (p.hold (Action.countsRx linkId)
          (.linkReceiver linkId)).length
        = ((Program.events statsFromSlice role steps
          (Program.start config linkBandwidths now)).flatMap
            (ProgramEvent.brought (Round.chunkBytesOn linkId))).length
      ∧ s.totalRxBytes + (p.hold (Action.countsRx linkId)
          (.linkReceiver linkId)).sum
        = ((Program.events statsFromSlice role steps
          (Program.start config linkBandwidths now)).flatMap
            (ProgramEvent.brought (Round.chunkBytesOn linkId))).sum := by
  obtain ⟨s, s₀, hs, ⟨-, -, hrxBytes, hrxPackets⟩, hahead⟩ :=
    run_recorded hlink hrun
  have harrived := run_counts_arrived linkId hrun
  refine ⟨s, hs, ?_, ?_⟩
  · rw [← harrived, List.length_append, hahead.rxPackets, hrxPackets,
      Nat.zero_add]
  · rw [← harrived, List.sum_append, hahead.rxBytes, hrxBytes, Nat.zero_add]

/-- The counters are exact. In every run of a program, on every link, the
packets and bytes that the rate controller has counted as sent, with the
records in the chunk sender's hand, are the datagrams of chunks that the
link's socket was handed and their bytes; and those it has counted as
received, with the records in the hand of the link's receiver, are the
datagrams of chunks that have arrived on the link and their bytes. -/
theorem counters_exact (statsFromSlice : List UInt8 → Option StatsPacket)
    (role : Role) (config : Config) (linkBandwidths : List UInt64)
    (now : Nat → Nat) {steps : List ProgramStep} {p : Program}
    (hrun : Trace.run (Program.step statsFromSlice role) steps
      (Program.start config linkBandwidths now) = some p)
    {linkId : Nat} (hlink : linkId < linkBandwidths.length) :
    ∃ s, p.shared.rateController.states[linkId]? = some s
      ∧ s.totalTxPackets + (p.hold (Action.countsTx linkId)
          .chunkSender).length
        = (p.shared.sent.flatMap (Datagram.chunkBytesOn linkId)).length
      ∧ s.totalTxBytes + (p.hold (Action.countsTx linkId) .chunkSender).sum
        = (p.shared.sent.flatMap (Datagram.chunkBytesOn linkId)).sum
      ∧ s.totalRxPackets + (p.hold (Action.countsRx linkId)
          (.linkReceiver linkId)).length
        = ((Program.events statsFromSlice role steps
          (Program.start config linkBandwidths now)).flatMap
            (ProgramEvent.brought (Round.chunkBytesOn linkId))).length
      ∧ s.totalRxBytes + (p.hold (Action.countsRx linkId)
          (.linkReceiver linkId)).sum
        = ((Program.events statsFromSlice role steps
          (Program.start config linkBandwidths now)).flatMap
            (ProgramEvent.brought (Round.chunkBytesOn linkId))).sum := by
  obtain ⟨s, hs, htxPackets, htxBytes⟩ := run_counters_sent hlink hrun
  obtain ⟨s', hs', hrxPackets, hrxBytes⟩ := run_counters_received hlink hrun
  cases hs.symm.trans hs'
  exact ⟨s, hs, htxPackets, htxBytes, hrxPackets, hrxBytes⟩

/-- The client has sent a chunk of one packet and not recorded it. -/
def sentUnrecorded : List ProgramStep :=
  [.begin (.readTun [69] none),
   .perform .tunReader (.atMillis 0),
   .perform .tunReader (.atMillis 0),
   .begin .checkTimeout,
   .perform .timeoutChecker (.atMillis 5),
   .perform .timeoutChecker (.atMillis 5),
   .begin .sendChunk]
    ++ List.replicate 4 (.perform .chunkSender (.atMillis 5))

/-- The law there. -/
theorem counters_exact_unrecorded : ∃ p s,
    Trace.run (Program.step (fun _ => none) .client) sentUnrecorded
        freshClient = some p
      ∧ p.shared.rateController.states[0]? = some s
      ∧ (p.hold (Action.countsTx 0) .chunkSender).length = 1
      ∧ s.totalTxPackets + (p.hold (Action.countsTx 0) .chunkSender).length
        = (p.shared.sent.flatMap (Datagram.chunkBytesOn 0)).length := by
  have hhand : (Trace.run (Program.step (fun _ => none) .client)
      sentUnrecorded freshClient).map (fun p =>
        (p.hold (Action.countsTx 0) .chunkSender).length) = some 1 := by
    decide +kernel
  obtain ⟨p, hrun, hhand⟩ := Option.map_eq_some_iff.mp hhand
  obtain ⟨s, hs, hcount, -⟩ := counters_exact (fun _ => none) .client
    Config.default expectedBandwidthUp (fun _ => 0) hrun (show 0 < _ by
      decide)
  exact ⟨p, s, hrun, hs, hhand, hcount⟩

end ChainLightning
