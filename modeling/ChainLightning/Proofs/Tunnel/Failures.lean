/-
The rate controllers of the two programs do not fail.

A call on a tame controller is defined if its own numbers fit
(`apply_isSome`). The numbers of a record are those of a chunk that was
sent or has arrived, and those of a probe were counted by the far side
(`Action.Modest`), since a program is delivered only what the far side
has sent. So as long as not more than 2^40 bytes have crossed a link, and
in no more than 2^31 steps, no task of either program is about to fail
(`programs_never_fail`), whatever else the network does.
-/
import ChainLightning.Proofs.Endpoint.Counters
import ChainLightning.Proofs.Endpoint.Progress
import ChainLightning.Proofs.Rate.Defined
import ChainLightning.Proofs.Tunnel.EndToEnd

namespace ChainLightning

variable {statsFromSlice : List UInt8 → Option StatsPacket} {role : Role}

-- ============================================================ light links

/-- A link that is light behind a call was light before it. -/
private theorem apply_light {op : RateOp} {rc rc' : RateController}
    (hop : op.apply rc = some rc') (h : rc'.Light) : rc.Light := by
  intro s hs
  obtain ⟨i, hi, rfl⟩ := List.getElem_of_mem hs
  obtain ⟨-, -, hlink⟩ := apply_link hop
  obtain ⟨s', hstep, hs'⟩ := hlink i _ (List.getElem?_eq_getElem hi)
  have hahead := linkStep_ahead hstep
  have hlight := h s' (List.mem_of_getElem? hs')
  have htxBytes := hahead.txBytes ▸ hlight.txBytes
  have hrxBytes := hahead.rxBytes ▸ hlight.rxBytes
  have htxPackets := hahead.txPackets ▸ hlight.txPackets
  have hrxPackets := hahead.rxPackets ▸ hlight.rxPackets
  exact ⟨by omega, by omega, by omega, by omega⟩

/-- So was a program's. -/
private theorem step_light {step : ProgramStep} {p p' : Program}
    (hstep : Program.step statsFromSlice role step p = some p')
    (h : p'.shared.rateController.Light) : p.shared.rateController.Light := by
  cases step with
  | begin round =>
      unfold Program.step at hstep
      dsimp only at hstep
      split at hstep
      case isFalse => cases hstep
      case isTrue =>
        obtain ⟨-, rfl⟩ := Pool.begin_inv hstep
        exact h
  | perform t r =>
      obtain ⟨a, rest, next, e, -, hexec, rfl⟩ := Pool.perform_inv hstep
      have hrates := (exec_outputs hexec).rates
      cases hop : a.rateOp r with
      | none =>
          rw [hop] at hrates
          have heq : p.shared.rateController = e.rateController :=
            Option.some.inj hrates
          rw [heq]
          exact h
      | some op =>
          rw [hop] at hrates
          exact apply_light hrates h

/-- And so were both programs'. -/
private theorem systemStep_light {step : SystemStep} {s s' : System}
    (hstep : System.step statsFromSlice step s = some s')
    (h : ∀ role, (s'.program role).shared.rateController.Light) (role : Role) :
    (s.program role).shared.rateController.Light := by
  have hrun := step_program hstep role
  exact (Trace.Along.of_final
    (P := fun p : Program => p.shared.rateController.Light)
    (fun _ _ _ hone hlight => step_light hone hlight) hrun (h role)).1

-- ========================================================= modest numbers

/-- A probe in hand reports fewer than 2^40 bytes received. -/
def Action.Modest : Action → Prop
  | .processProbe probe | .sendProbe probe | .transmitProbe _ probe =>
      probe.rxBytes.toNat < 2 ^ 40
  | _ => True

/-- So does a probe on the wire. -/
def Datagram.Modest (d : Datagram) : Prop :=
  ∀ probe, ProbePacket.decode d.bytes = some probe →
    probe.rxBytes.toNat < 2 ^ 40

/-- A probe reports no more bytes received than were counted. -/
private theorem buildProbe_rxBytes {s s' : RateState} {now : UInt64}
    {probe : ProbePacket} (h : s.buildProbe now = some (probe, s')) :
    probe.rxBytes.toNat ≤ s.totalRxBytes := by
  unfold RateState.buildProbe at h
  simp only [Option.bind_eq_bind, Option.bind_eq_some_iff,
    Machine.sub_eq_some] at h
  obtain ⟨_, -, _, -, _, ⟨-, rfl⟩, _, -, h⟩ := h
  cases h
  show (UInt64.ofNat _).toNat ≤ _
  rw [UInt64.toNat_ofNat']
  exact (Nat.mod_le _ _).trans (Nat.sub_le _ _)

/-- The probes of a light controller are modest. -/
private theorem buildProbes_modest {rc rc' : RateController}
    {now : Nat → UInt64} {probes : List ProbePacket} (hlight : rc.Light)
    (h : rc.buildProbes now = some (probes, rc')) :
    ∀ probe ∈ probes, probe.rxBytes.toNat < 2 ^ 40 := by
  intro probe hmem
  obtain ⟨i, hi, hget⟩ := List.getElem_of_mem hmem
  have hi' : i < rc.states.length := probes_length h ▸ hi
  obtain ⟨probe', s', hbuild, hprobe', -⟩ :=
    (buildProbes_inv h).2.2 i _ (List.getElem?_eq_getElem hi')
  rw [List.getElem?_eq_getElem hi, hget] at hprobe'
  cases hprobe'
  exact (buildProbe_rxBytes hbuild).trans_lt
    (hlight _ (List.getElem_mem hi')).rxBytes

/-- The laws of modest probes. -/
private theorem modest_laws :
    System.Laws statsFromSlice (fun _ e => e.rateController.Light)
      (fun _ _ => True) (fun _ a => a.Modest) (fun _ d => d.Modest) where
  round := by
    intro role round e hreceive _ _ a ha
    have howns := actions_owned statsFromSlice role e round a ha
    cases a with
    | processProbe probe =>
        cases round with
        | receive => cases hreceive
        | _ =>
            obtain ⟨linkId, htask⟩ := howns
            cases htask
    | sendProbe probe =>
        cases round with
        | sendProbes => cases List.mem_singleton.mp ha
        | _ => cases howns
    | transmitProbe dest probe =>
        cases (actions_empty statsFromSlice role e round _ ha).2
    | _ => trivial
  receive := by
    intro role d src e hd _ _ a ha
    have hhandle : ∀ a ∈ Round.handle d.linkId d.bytes.length src
        (Packet.decode statsFromSlice d.bytes), a.Modest := by
      cases hdecode : Packet.decode statsFromSlice d.bytes with
      | none => exact fun _ h => nomatch h
      | some p =>
          cases p with
          | probe probe =>
              intro a ha
              cases List.mem_singleton.mp ha
              exact hd probe ((decode_probe_iff _).mp hdecode)
          | _ => simp [Round.handle, Action.Modest]
    cases role with
    | client => exact hhandle a ha
    | server =>
        rcases List.mem_cons.mp ha with rfl | ha
        · trivial
        · exact hhandle a ha
  exec := by
    intro role r a e next e' hlight ha _ hexec
    refine ⟨trivial, fun b hb => ?_, fun d hd probe hprobe => ?_⟩
    · cases a with
      | buildProbes =>
          obtain ⟨⟨probes, rc⟩, hbuild, hexec⟩ :=
            Option.bind_eq_some_iff.mp hexec
          cases hexec
          obtain ⟨probe, hmem, rfl⟩ := List.mem_map.mp hb
          exact buildProbes_modest hlight hbuild probe hmem
      | sendProbe probe =>
          cases exec_leads hexec b hb
          exact ha
      | _ => cases exec_leads hexec b hb <;> trivial
    · obtain ⟨dest, rfl⟩ := sends_probes hd hprobe
      exact ha

-- ================================================================ records

/-- What is to be counted as received on a link is in the hand of its
receiver. -/
def Task.tends (t : Task) : Action → Prop
  | .rateRx linkId _ => t = .linkReceiver linkId
  | _ => True

/-- A round puts it there. -/
private theorem actions_tends (e : Endpoint) (round : Round) :
    ∀ a ∈ round.actions statsFromSlice role e, round.task.tends a := by
  have hhandle : ∀ linkId n src packet,
      ∀ a ∈ Round.handle linkId n src packet,
        (Task.linkReceiver linkId).tends a := by
    intro linkId n src packet
    cases packet with
    | none => exact fun a ha => nomatch ha
    | some packet => cases packet <;> simp [Round.handle, Task.tends]
  intro a ha
  cases round with
  | receive linkId bytes src =>
      cases role with
      | client => exact hhandle _ _ _ _ a ha
      | server =>
          rcases List.mem_cons.mp ha with rfl | ha
          · trivial
          · exact hhandle _ _ _ _ a ha
  | _ =>
      have howns := actions_owned statsFromSlice role e _ a ha
      cases a with
      | rateRx linkId bytes =>
          obtain ⟨l, htask⟩ := howns
          cases htask
      | _ => trivial

/-- A step keeps it there. -/
private theorem step_tends {step : ProgramStep} {p p' : Program}
    (hstep : Program.step statsFromSlice role step p = some p')
    (h : Pool.Owned Task.tends p) : Pool.Owned Task.tends p' := by
  cases step with
  | begin round =>
      unfold Program.step at hstep
      dsimp only at hstep
      split at hstep
      case isFalse => cases hstep
      case isTrue =>
        exact Pool.Owned.begin h (actions_tends p.shared round) hstep
  | perform t r =>
      refine Pool.Owned.perform h (fun a e next e' _ hexec b hb => ?_) hstep
      cases exec_leads hexec b hb <;> trivial

/-- A datagram that carries a chunk is not empty. -/
private theorem chunkBytesOn_pos (linkId : Nat) (d : Datagram) :
    ∀ bytes ∈ d.chunkBytesOn linkId, 1 ≤ bytes := by
  intro bytes hbytes
  unfold Datagram.chunkBytesOn at hbytes
  split at hbytes
  case isFalse => cases hbytes
  case isTrue =>
    obtain ⟨p, hp, rfl⟩ := List.mem_map.mp hbytes
    obtain ⟨-, hlength, -⟩ := chunk_decode_inv (Option.mem_toList.mp hp)
    exact (Nat.le_add_right_of_le (by decide)).trans hlength

/-- There are no more datagrams of chunks than they have bytes. -/
private theorem chunks_length_le (linkId : Nat) (log : List Datagram) :
    (log.flatMap (Datagram.chunkBytesOn linkId)).length
      ≤ (log.flatMap (Datagram.chunkBytesOn linkId)).sum := by
  have hpos : ∀ bytes ∈ log.flatMap (Datagram.chunkBytesOn linkId),
      1 ≤ bytes := by
    intro bytes hbytes
    obtain ⟨d, -, hd⟩ := List.mem_flatMap.mp hbytes
    exact chunkBytesOn_pos linkId d bytes hd
  generalize log.flatMap (Datagram.chunkBytesOn linkId) = weights at hpos
  induction weights with
  | nil => exact Nat.le_refl 0
  | cons w weights ih =>
      have hw := hpos w List.mem_cons_self
      have hrest := ih fun b hb => hpos b (List.mem_cons_of_mem w hb)
      rw [List.length_cons, List.sum_cons]
      omega

-- =============================================================== the result

variable {config : Role → Config} {linkBandwidths : Role → List UInt64}
  {now : Role → Nat → Nat} {steps : List SystemStep} {s : System}

/-- What has crossed a link: the chunks that a program has sent on it, and
those that were delivered to it. -/
structure System.Slight (s : System) (steps : List SystemStep) : Prop where
  sent : ∀ role linkId, ((s.program role).shared.sent.flatMap
    (Datagram.chunkBytesOn linkId)).sum < 2 ^ 40
  delivered : ∀ role linkId, ((Log.pick (s.program role.peer).shared.sent
    (steps.flatMap (SystemStep.delivers role))).flatMap
      (Datagram.chunkBytesOn linkId)).sum < 2 ^ 40

/-- What arrives on a link is what was delivered of it. -/
private theorem arrived_eq
    (hrun : Trace.run (System.step statsFromSlice) steps
      (System.start config linkBandwidths now) = some s) (role : Role)
    (linkId : Nat) :
    (Program.events statsFromSlice role
        (System.programSteps statsFromSlice role steps
          (System.start config linkBandwidths now))
        (Program.start (config role) (linkBandwidths role) (now role))).flatMap
          (ProgramEvent.brought (Round.chunkBytesOn linkId))
      = (Log.pick (s.program role.peer).shared.sent
        (steps.flatMap (SystemStep.delivers role))).flatMap
          (Datagram.chunkBytesOn linkId) := by
  have hpick := brought_pick (g := Round.chunkBytesOn linkId)
    (h := Datagram.chunkBytesOn linkId) (fun d src => rfl)
    (fun round hround => by
      cases round with
      | receive => cases hround
      | _ => rfl) hrun role
  rwa [events_start] at hpick

/-- Little has crossed the links, so the controllers are light. -/
private theorem light_of_slight
    (hrun : Trace.run (System.step statsFromSlice) steps
      (System.start config linkBandwidths now) = some s)
    (hslight : s.Slight steps) (role : Role) :
    (s.program role).shared.rateController.Light := by
  have hprogram := run_program_start hrun role
  have hlinked := run_linked hprogram
  intro st hst
  obtain ⟨i, hi, rfl⟩ := List.getElem_of_mem hst
  have hlink : i < (linkBandwidths role).length := by
    have hlinks := (run_silent hprogram).links
    rw [← hlinks, ← hlinked.rates]
    exact hi
  obtain ⟨st₁, hst₁, htxPackets, htxBytes⟩ :=
    run_counters_sent hlink hprogram
  obtain ⟨st₂, hst₂, hrxPackets, hrxBytes⟩ :=
    run_counters_received hlink hprogram
  rw [List.getElem?_eq_getElem hi] at hst₁ hst₂
  cases hst₁
  cases hst₂
  have hsent := hslight.sent role i
  have hdelivered := hslight.delivered role i
  have hsentLength := chunks_length_le i (s.program role).shared.sent
  have hdeliveredLength := chunks_length_le i
    (Log.pick (s.program role.peer).shared.sent
      (steps.flatMap (SystemStep.delivers role)))
  rw [arrived_eq hrun role i] at hrxPackets hrxBytes
  exact ⟨by omega, by omega, by omega, by omega⟩

/-- A record that is still due is of a chunk that crossed its link. -/
private theorem records_fit
    (hrun : Trace.run (System.step statsFromSlice) steps
      (System.start config linkBandwidths now) = some s)
    (hslight : s.Slight steps) (role : Role) {t : Task} {a : Action}
    {rest : List Action}
    (hpending : (s.program role).pending t = a :: rest) (linkId bytes : Nat)
    (ha : a = .rateTx linkId bytes ∨ a = .rateRx linkId bytes) :
    bytes < 2 ^ 40 := by
  have hprogram := run_program_start hrun role
  have hmem : a ∈ (s.program role).pending t :=
    hpending ▸ List.mem_cons_self
  rcases ha with rfl | rfl
  · have howns : t = .chunkSender := (run_orderly hprogram).owned t _ hmem
    subst howns
    have hheld : bytes ∈ (s.program role).hold (Action.countsTx linkId)
        .chunkSender := by
      refine List.mem_flatMap.mpr ⟨_, hmem, ?_⟩
      rw [Action.countsTx, if_pos rfl]
      exact List.mem_cons_self
    have hsum := (run_counts_sent linkId hprogram).sum_eq
    rw [List.sum_append] at hsum
    have hle := List.le_sum_of_mem hheld
    have hsent := hslight.sent role linkId
    omega
  · have howns : t = .linkReceiver linkId :=
      (Trace.run_invariant (P := Pool.Owned Task.tends)
        (fun _ _ _ h hstep => step_tends hstep h) hprogram
        (Pool.owned_idle _)) t _ hmem
    subst howns
    have hheld : bytes ∈ (s.program role).hold (Action.countsRx linkId)
        (.linkReceiver linkId) := by
      refine List.mem_flatMap.mpr ⟨_, hmem, ?_⟩
      rw [Action.countsRx, if_pos rfl]
      exact List.mem_cons_self
    have hsum := congrArg List.sum (run_counts_arrived linkId hprogram)
    rw [List.sum_append, arrived_eq hrun role linkId] at hsum
    have hle := List.le_sum_of_mem hheld
    have hdelivered := hslight.delivered role linkId
    omega

/-- An action makes one call at most. -/
private theorem rateOps_length_le (event : ProgramEvent) :
    event.rateOps.length ≤ 1 := by
  cases event with
  | began round => exact Nat.zero_le 1
  | performed r a e =>
      show (a.rateOp r).toList.length ≤ 1
      cases a.rateOp r with
      | none => exact Nat.zero_le 1
      | some op => exact Nat.le_refl 1

/-- No call on a rate controller is about to fail. In every run of both
programs under the default rate control, of fewer than 2^31 steps and with
fewer than 2^40 bytes of chunks sent and delivered on each link, no task
of either program is about to overflow a counter or an account, whatever
it reads and whatever the network loses, repeats or reorders. -/
theorem programs_never_fail
    (statsFromSlice : List UInt8 → Option StatsPacket)
    (config : Role → Config) (linkBandwidths : Role → List UInt64)
    (now : Role → Nat → Nat)
    (hdefault : ∀ role, (config role).rateControl = .default)
    (hrates : ∀ role, ∀ rate ∈ linkBandwidths role,
      25000 ≤ rate.toNat ∧ rate.toNat ≤ 2 ^ 40)
    {steps : List SystemStep} {s : System}
    (hrun : Trace.run (System.step statsFromSlice) steps
      (System.start config linkBandwidths now) = some s)
    (hshort : steps.length < 2 ^ 31) (hslight : s.Slight steps)
    (role : Role) : ¬ (s.program role).Failing := by
  have hprogram := run_program_start hrun role
  have hlight := light_of_slight hrun hslight
  -- little had crossed the links all along
  have halong := (Trace.Along.of_final
    (P := fun s : System =>
      ∀ role, (s.program role).shared.rateController.Light)
    (fun _ _ _ hstep h => systemStep_light hstep h) hrun hlight).2
  have hlawful := run_lawful modest_laws halong hrun
    ⟨fun role => by rw [start_program]; exact Pool.fine_idle trivial,
      fun role d hd => by cases role <;> cases hd⟩
  have htame : ((s.program role).shared.rateController).Tame _ :=
    run_tame (run_rates hprogram (orderly_idle _))
      (show RateController.Tame 0 _ by
        have hfresh := tame_new ((linkBandwidths role).map UInt64.toNat)
          (fun rate hrate => by
            obtain ⟨bw, hbw, rfl⟩ := List.mem_map.mp hrate
            exact hrates role bw hbw)
          fun id => now role (2 + (linkBandwidths role).length + id)
        rw [← hdefault role] at hfresh
        exact hfresh)
  have hcalls : ((Program.events statsFromSlice role
      (System.programSteps statsFromSlice role steps
        (System.start config linkBandwidths now))
      (Program.start (config role) (linkBandwidths role)
        (now role))).flatMap ProgramEvent.rateOps).length ≤ steps.length :=
    (run_notes_length_le rateOps_length_le _ _).trans
      (programSteps_length_le role steps _)
  rintro ⟨t, a, rest, r, hpending, op, hop, hnone⟩
  have hmodest : a.Modest :=
    (hlawful.fine role).pending t a (hpending ▸ List.mem_cons_self)
  have hfits : op.Fits := by
    cases a with
    | rateTx linkId bytes =>
        cases hop
        exact (records_fit hrun hslight role hpending linkId bytes
          (Or.inl rfl)).trans (by norm_num)
    | rateRx linkId bytes =>
        cases hop
        exact (records_fit hrun hslight role hpending linkId bytes
          (Or.inr rfl)).trans (by norm_num)
    | processProbe probe =>
        cases hop
        exact hmodest
    | buildProbes | checkRates =>
        cases hop
        trivial
    | _ => cases hop
  have hdefined := apply_isSome htame (hlight role)
    (by rw [Nat.zero_add]; exact hcalls.trans_lt hshort) hfits
  rw [hnone] at hdefined
  cases hdefined

/-- The client has sent a chunk and a probe, and the server is about to
process the probe. -/
def probeArrives : List SystemStep :=
  clientSends ++ [
    .begin .client .sendProbes,
    .perform .client .probeSender (readingAt 5000),
    .perform .client .probeSender (readingAt 5000),
    .perform .client .probeSender (readingAt 5000),
    .deliver .server 1 ⟨1, 40000⟩,
    .perform .server (.linkReceiver 0) (readingAt 30000)]

/-- Chunks weigh no more than the datagrams they are in. -/
private theorem chunkBytesOn_sum_le (linkId : Nat) (log : List Datagram) :
    (log.flatMap (Datagram.chunkBytesOn linkId)).sum
      ≤ (log.map fun d => d.bytes.length).sum := by
  induction log with
  | nil => exact Nat.le_refl 0
  | cons d log ih =>
      have hone : (d.chunkBytesOn linkId).sum ≤ d.bytes.length := by
        unfold Datagram.chunkBytesOn Datagram.data
        split
        case isFalse => exact Nat.zero_le _
        case isTrue =>
          cases ChunkPacket.decode d.bytes with
          | none => exact Nat.zero_le _
          | some p => exact Nat.le_of_eq (Nat.add_zero _)
      rw [List.flatMap_cons, List.sum_append, List.map_cons, List.sum_cons]
      omega

/-- The law there. -/
theorem programs_never_fail_probe : ∃ s,
    Trace.run (System.step fun _ => none) probeArrives freshSystem = some s
      ∧ (s.server.pending (.linkReceiver 0)).length = 1
      ∧ ¬ s.server.Failing := by
  have hseen : (Trace.run (System.step fun _ => none) probeArrives
      freshSystem).map (fun s =>
        ((s.server.pending (.linkReceiver 0)).length,
          [(s.client.shared.sent.map fun d => d.bytes.length).sum,
            (s.server.shared.sent.map fun d => d.bytes.length).sum,
            ((Log.pick s.client.shared.sent (probeArrives.flatMap
              (SystemStep.delivers .server))).map
                fun d => d.bytes.length).sum,
            ((Log.pick s.server.shared.sent (probeArrives.flatMap
              (SystemStep.delivers .client))).map
                fun d => d.bytes.length).sum])) = some (1, [74, 0, 51, 0]) := by
    decide +kernel
  obtain ⟨s, hrun, hseen⟩ := Option.map_eq_some_iff.mp hseen
  injection hseen with hpending hbytes
  injection hbytes with hclient hbytes
  injection hbytes with hserver hbytes
  injection hbytes with hdelivered hbytes
  injection hbytes with hnone
  have hslight : s.Slight probeArrives := by
    constructor <;> intro role linkId <;>
      refine (chunkBytesOn_sum_le linkId _).trans_lt ?_ <;> cases role
    · exact hclient.trans_lt (by norm_num)
    · exact hserver.trans_lt (by norm_num)
    · exact hnone.trans_lt (by norm_num)
    · exact hdelivered.trans_lt (by norm_num)
  exact ⟨s, hrun, hpending, programs_never_fail (fun _ => none)
    (fun _ => Config.default) _ (fun _ _ => 0) (fun _ => rfl)
    (fun role => by
      cases role <;> simp [expectedBandwidthUp, expectedBandwidthDown])
    hrun (by decide) hslight .server⟩

end ChainLightning
