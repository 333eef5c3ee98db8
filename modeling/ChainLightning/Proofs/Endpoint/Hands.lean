/-
What the tasks have in hand and what they have done with it.

An action carries items (`f`) that a round brought, or the action before
it left; when it is performed it gives them up. So along a run what was
brought is what was performed and what is still in hand, whatever the
order in which the tasks take turns (`run_tally`). Which items and which
tasks is up to the caller: the tasks outside the group own no action that
carries any, and the receivers of links that are not there never do
anything (`Program.Silent`).

A chunk is in the chunk sender's hand between the lookup of its
destination and the socket, and is the only one there; so the chunks reach
the sockets in the order of the lookups (`run_transmits`).
-/
import ChainLightning.Lib.Tally
import ChainLightning.Proofs.Endpoint.Outputs

namespace ChainLightning

/-- The receivers of the links. -/
def receivers (numLinks : Nat) : Finset Task :=
  (Finset.range numLinks).image .linkReceiver

theorem mem_receivers {numLinks linkId : Nat} :
    .linkReceiver linkId ∈ receivers numLinks ↔ linkId < numLinks := by
  constructor
  · intro hmem
    obtain ⟨l, hl, heq⟩ := Finset.mem_image.mp hmem
    cases heq
    exact Finset.mem_range.mp hl
  · exact fun hlt => Finset.mem_image_of_mem _ (Finset.mem_range.mpr hlt)

/-- What the receivers have in hand, link by link. -/
theorem tally_receivers {β : Type*} (f : Action → List β) (numLinks : Nat)
    (p : Program) :
    p.tally f (receivers numLinks)
      = ((List.range numLinks).flatMap fun linkId =>
          p.hold f (.linkReceiver linkId)) := by
  unfold Pool.tally receivers
  rw [Finset.sum_image (fun _ _ _ _ h => Task.linkReceiver.inj h)]
  induction numLinks with
  | zero => rfl
  | succ n ih =>
      rw [Finset.sum_range_succ, ih, List.range_succ, List.flatMap_append,
        ← Multiset.coe_add, List.flatMap_singleton]

/-- The receiver of a link that is not there has nothing to do. -/
structure Program.Silent (numLinks : Nat) (p : Program) : Prop where
  links : p.shared.numLinks = numLinks
  idle : ∀ linkId, numLinks ≤ linkId → p.pending (.linkReceiver linkId) = []

namespace Program.Silent

variable {numLinks : Nat} {p : Program}

theorem start (config : Config) (linkBandwidths : List UInt64)
    (now : Nat → Nat) :
    Silent linkBandwidths.length (Program.start config linkBandwidths now) :=
  ⟨rfl, fun _ _ => rfl⟩

/-- A round of a receiver is one of a link that is there. -/
theorem task_lt (h : p.Silent numLinks) {role : Role} {round : Round}
    (henabled : round.enabled role p.shared = true) {linkId : Nat}
    (htask : round.task = .linkReceiver linkId) : linkId < numLinks := by
  cases round with
  | receive l bytes src =>
      cases htask
      have hlt : linkId < p.shared.numLinks := of_decide_eq_true henabled
      rwa [h.links] at hlt
  | _ => cases htask

/-- So is a receiver that has something to do. -/
theorem pending_lt (h : p.Silent numLinks) {linkId : Nat} {a : Action}
    {rest : List Action}
    (hpending : p.pending (.linkReceiver linkId) = a :: rest) :
    linkId < numLinks := by
  by_contra hge
  rw [h.idle linkId (Nat.le_of_not_lt hge)] at hpending
  cases hpending

theorem begin (h : p.Silent numLinks) {role : Role} {round : Round}
    (henabled : round.enabled role p.shared = true) (acts : List Action) :
    Silent numLinks
      { p with pending := Function.update p.pending round.task acts } := by
  refine ⟨h.links, fun linkId hle => ?_⟩
  show Function.update p.pending round.task acts (.linkReceiver linkId) = []
  rw [Function.update_of_ne]
  · exact h.idle linkId hle
  · exact fun heq => absurd (h.task_lt henabled heq.symm) (by omega)

theorem perform (h : p.Silent numLinks) {role : Role} {r : Reading}
    {t : Task} {a : Action} {rest next : List Action} {e : Endpoint}
    (hpending : p.pending t = a :: rest)
    (hexec : Endpoint.exec role r a p.shared = some (next, e)) :
    Silent numLinks
      { shared := e, pending := Function.update p.pending t (next ++ rest) } := by
  refine ⟨(exec_effects hexec).numLinks.trans h.links, fun linkId hle => ?_⟩
  show Function.update p.pending t _ (.linkReceiver linkId) = []
  rw [Function.update_of_ne]
  · exact h.idle linkId hle
  · rintro rfl
    exact absurd (h.pending_lt hpending) (by omega)

end Program.Silent

/-- A run keeps the receivers of links that are not there silent. -/
theorem run_silent {statsFromSlice : List UInt8 → Option StatsPacket}
    {role : Role} {config : Config} {linkBandwidths : List UInt64}
    {now : Nat → Nat} {steps : List ProgramStep} {p : Program}
    (hrun : Trace.run (Program.step statsFromSlice role) steps
      (Program.start config linkBandwidths now) = some p) :
    p.Silent linkBandwidths.length :=
  Program.run_events (P := fun _ q => Program.Silent linkBandwidths.length q)
    (fun _ _ _ h henabled _ => h.begin henabled _)
    (fun _ _ _ _ _ _ _ _ h _ _ hpending hexec => h.perform hpending hexec)
    (Trace.Along.of_forall (fun _ _ _ => trivial) _) hrun (orderly_idle _)
    (Program.Silent.start config linkBandwidths now)

/-- The items that are given up with an event. -/
def ProgramEvent.done {β : Type*} (f : Action → List β) :
    ProgramEvent → List β
  | .began _ => []
  | .performed _ a _ => f a

/-- The items that an event brings with the round it starts. -/
def ProgramEvent.brought {β : Type*} (g : Round → List β) :
    ProgramEvent → List β
  | .began round => g round
  | .performed _ _ _ => []

/-- The tasks of a group own every action that carries items, but for the
receivers of links that are not there. -/
def Carried {β : Type*} (f : Action → List β) (numLinks : Nat)
    (ts : Finset Task) : Prop :=
  ∀ t a, t.owns a → t ∉ ts →
    (∀ linkId, t = .linkReceiver linkId → linkId < numLinks) → f a = []

/-- What a run has brought is what its actions have given up and what the
tasks still have in hand. -/
theorem run_tally {statsFromSlice : List UInt8 → Option StatsPacket}
    {role : Role} {β : Type*} (ts : Finset Task) {f : Action → List β}
    {g : ProgramEvent → List β} {config : Config}
    {linkBandwidths : List UInt64} {now : Nat → Nat}
    (hcarried : Carried f linkBandwidths.length ts)
    (hround : ∀ (round : Round) e,
      (round.actions statsFromSlice role e).flatMap f = g (.began round))
    (hexec : ∀ r a e next e', Endpoint.exec role r a e = some (next, e') →
      next.flatMap f = g (.performed r a e))
    {steps : List ProgramStep} {p : Program}
    (hrun : Trace.run (Program.step statsFromSlice role) steps
      (Program.start config linkBandwidths now) = some p) :
    ((Program.events statsFromSlice role steps
        (Program.start config linkBandwidths now)).flatMap
          (ProgramEvent.done f) : Multiset β)
      + p.tally f ts
    = (Program.events statsFromSlice role steps
        (Program.start config linkBandwidths now)).flatMap g := by
  have hall := Program.run_events (P := fun seen q =>
      Program.Silent linkBandwidths.length q
      ∧ (seen.flatMap (ProgramEvent.done f) : Multiset β)
          + q.tally f ts = seen.flatMap g)
    ?_ ?_ (Trace.Along.of_forall (fun _ _ _ => trivial) _) hrun
    (orderly_idle _) ⟨Program.Silent.start config linkBandwidths now, ?_⟩
  · exact hall.2
  · intro seen round q ⟨hsilent, hq⟩ henabled hidle
    refine ⟨hsilent.begin henabled _, ?_⟩
    have hgroup : round.task ∉ ts →
        (round.actions statsFromSlice role q.shared).flatMap f = [] :=
      fun ht => List.flatMap_eq_nil_iff.mpr fun a ha => hcarried round.task a
        (actions_owned statsFromSlice role q.shared round a ha) ht
        fun _ htask => hsilent.task_lt henabled htask
    rw [Pool.tally_begin f ts hidle hgroup, hround, List.flatMap_append, List.flatMap_append,
      List.flatMap_singleton, List.flatMap_singleton, ← Multiset.coe_add,
      ← Multiset.coe_add, ← hq]
    show _ + 0 + _ = _
    rw [add_zero, add_assoc]
  · intro seen t r a rest next e q ⟨hsilent, hq⟩ _ horderly hpending hexec'
    refine ⟨hsilent.perform hpending hexec', ?_⟩
    have howns : t.owns a :=
      horderly.owned t a (hpending ▸ List.mem_cons_self)
    have hthere : ∀ linkId, t = .linkReceiver linkId →
        linkId < linkBandwidths.length := by
      rintro linkId rfl
      exact hsilent.pending_lt hpending
    have htally := Pool.tally_perform f ts hpending (fun ht =>
      ⟨hcarried t a howns ht hthere, List.flatMap_eq_nil_iff.mpr fun b hb =>
        hcarried t b ((exec_leads hexec' b hb).owned howns) ht hthere⟩) e
    rw [List.flatMap_append, List.flatMap_append, List.flatMap_singleton,
      List.flatMap_singleton, ← hexec r a q.shared next e hexec',
      ← Multiset.coe_add, ← Multiset.coe_add, ← hq, add_assoc]
    show _ + ((f a : Multiset β) + _) = _
    rw [add_comm (f a : Multiset β), htally, add_assoc]
  · rw [Program.start, Pool.tally_idle]
    rfl

/-- Items that only one task carries, and that no action leaves anew: what
a run has brought is what the task has given up, then what it has in hand,
in this order. -/
theorem run_hand {statsFromSlice : List UInt8 → Option StatsPacket}
    {role : Role} {β : Type*} {f : Action → List β} {g : Round → List β}
    {t : Task}
    (hround : ∀ (round : Round) e,
      (round.actions statsFromSlice role e).flatMap f = g round)
    (htask : ∀ round, round.task ≠ t → g round = [])
    (hnext : ∀ r a e next e', Endpoint.exec role r a e = some (next, e') →
      next.flatMap f = [])
    {config : Config} {linkBandwidths : List UInt64} {now : Nat → Nat}
    {steps : List ProgramStep} {p : Program}
    (hrun : Trace.run (Program.step statsFromSlice role) steps
      (Program.start config linkBandwidths now) = some p) :
    (Program.events statsFromSlice role steps
        (Program.start config linkBandwidths now)).flatMap
          (ProgramEvent.done f) ++ p.hold f t
    = (Program.events statsFromSlice role steps
        (Program.start config linkBandwidths now)).flatMap
          (ProgramEvent.brought g) := by
  have hall := Program.run_events (P := fun seen q =>
      seen.flatMap (ProgramEvent.done f) ++ q.hold f t
        = seen.flatMap (ProgramEvent.brought g)
      ∧ ∀ t', t' ≠ t → q.hold f t' = [])
    ?_ ?_ (Trace.Along.of_forall (fun _ _ _ => trivial) _) hrun
    (orderly_idle _) ⟨rfl, fun _ _ => rfl⟩
  · exact hall.1
  · intro seen round q ⟨hq, hrest⟩ _ hidle
    rw [List.flatMap_append, List.flatMap_append, ← hq]
    refine ⟨?_, fun t' ht' => ?_⟩
    · by_cases ht : round.task = t
      · subst ht
        rw [Pool.hold_update_self, hround, Pool.hold_of_pending hidle]
        show (_ ++ []) ++ g round = (_ ++ []) ++ (g round ++ [])
        simp only [List.append_nil]
      · rw [Pool.hold_update_of_ne (Ne.symm ht)]
        show (_ ++ []) ++ q.hold f t = (_ ++ q.hold f t) ++ (g round ++ [])
        rw [htask round ht]
        simp only [List.append_nil]
    · by_cases ht : t' = round.task
      · subst ht
        rw [Pool.hold_update_self, hround, htask round ht']
      · rw [Pool.hold_update_of_ne ht]
        exact hrest t' ht'
  · intro seen t₁ r a rest next e q ⟨hq, hrest⟩ _ _ hpending hexec
    have hheld : q.hold f t₁ = f a ++ rest.flatMap f := by
      rw [Pool.hold_of_pending hpending, List.flatMap_cons]
    rw [List.flatMap_append, List.flatMap_append, ← hq,
      List.flatMap_singleton]
    refine ⟨?_, fun t' ht' => ?_⟩
    · by_cases ht : t₁ = t
      · subst ht
        rw [Pool.hold_update_self, List.flatMap_append,
          hnext r a q.shared next e hexec, hheld]
        show (_ ++ f a) ++ _ = (_ ++ (f a ++ _)) ++ []
        simp only [List.append_nil, List.nil_append, List.append_assoc]
      · have hnone := hrest t₁ ht
        rw [hheld, List.append_eq_nil_iff] at hnone
        rw [Pool.hold_update_of_ne (Ne.symm ht)]
        show (_ ++ f a) ++ q.hold f t = (_ ++ q.hold f t) ++ []
        rw [hnone.1]
        simp only [List.append_nil]
    · by_cases ht : t' = t₁
      · subst ht
        have hnone := hrest t' ht'
        rw [hheld, List.append_eq_nil_iff] at hnone
        rw [Pool.hold_update_self, List.flatMap_append,
          hnext r a q.shared next e hexec, hnone.2]
        rfl
      · rw [Pool.hold_update_of_ne ht]
        exact hrest t' ht'

-- ========================================================== transmissions

/-- The chunk that an action hands to a socket. -/
def Action.transmits : Action → List Chunk
  | .transmitChunk _ _ chunk => [chunk]
  | _ => []

/-- The chunk that an event finds a destination for. -/
def ProgramEvent.routed (role : Role) : ProgramEvent → List Chunk
  | .performed _ (.sendChunk linkId chunk) e =>
      (e.destination role linkId).toList.map fun _ => chunk
  | _ => []

private theorem transmits_of_cargo {acts : List Action}
    (h : ∀ a ∈ acts, a.cargo = []) :
    acts.flatMap Action.transmits = [] := by
  refine List.flatMap_eq_nil_iff.mpr fun a ha => ?_
  have hcargo := h a ha
  cases a with
  | transmitChunk linkId dest chunk => cases hcargo
  | _ => rfl

/-- A chunk that has a destination is left to be transmitted. -/
private theorem next_transmits {role : Role} {r : Reading} {a : Action}
    {e e' : Endpoint} {next : List Action}
    (hexec : Endpoint.exec role r a e = some (next, e')) :
    next.flatMap Action.transmits
      = ProgramEvent.routed role (.performed r a e) := by
  have hnone : (∀ l chunk, a ≠ .sendChunk l chunk) →
      next.flatMap Action.transmits = [] := by
    intro hne
    refine List.flatMap_eq_nil_iff.mpr fun b hb => ?_
    cases exec_leads hexec b hb with
    | sendChunk l dest chunk => exact absurd rfl (hne l chunk)
    | _ => rfl
  cases a with
  | sendChunk linkId chunk =>
      cases hexec
      rw [List.flatMap_map]
      show _ = (e.destination role linkId).toList.map fun _ => chunk
      cases e.destination role linkId <;> rfl
  | _ => exact hnone fun _ _ h => nomatch h

/-- The chunk sender transmits what it finds a destination for, one chunk
after the other. -/
theorem run_transmits {statsFromSlice : List UInt8 → Option StatsPacket}
    {role : Role} {steps : List ProgramStep} {p p' : Program}
    (hrun : Trace.run (Program.step statsFromSlice role) steps p = some p')
    (horderly : p.Orderly) (hidle : p.pending .chunkSender = []) :
    (Program.events statsFromSlice role steps p).flatMap
        (ProgramEvent.done Action.transmits)
        ++ p'.hold Action.transmits .chunkSender
      = (Program.events statsFromSlice role steps p).flatMap
        (ProgramEvent.routed role) := by
  refine Program.run_events (P := fun seen q =>
    seen.flatMap (ProgramEvent.done Action.transmits)
        ++ q.hold Action.transmits .chunkSender
      = seen.flatMap (ProgramEvent.routed role))
    ?_ ?_ (Trace.Along.of_forall (fun _ _ _ => trivial) _) hrun horderly
    (Pool.hold_of_pending hidle)
  · intro seen round q hq _ hidle
    rw [List.flatMap_append, List.flatMap_append, ← hq]
    show (_ ++ []) ++ _ = (_ ++ _) ++ []
    rw [List.append_nil, List.append_nil]
    by_cases ht : Task.chunkSender = round.task
    · rw [ht, Pool.hold_update_self, Pool.hold_of_pending hidle,
        transmits_of_cargo fun a ha =>
          (actions_empty statsFromSlice role q.shared round a ha).1]
      rfl
    · rw [Pool.hold_update_of_ne ht]
      rfl
  · intro seen t r a rest next e q hq _ horderly hpending hexec
    have howns : t.owns a :=
      horderly.owned t a (hpending ▸ List.mem_cons_self)
    have hrest :=
      transmits_of_cargo (horderly.behind_of_pending hpending)
    have hnext := next_transmits hexec
    rw [List.flatMap_append, List.flatMap_append, List.flatMap_singleton,
      List.flatMap_singleton, ← hnext, ← hq]
    by_cases ht : t = .chunkSender
    · subst ht
      rw [Pool.hold_update_self, Pool.hold_of_pending hpending,
        List.flatMap_append, List.flatMap_cons, hrest, List.append_nil,
        List.append_nil]
      show (_ ++ a.transmits) ++ _ = (_ ++ a.transmits) ++ _
      rfl
    · have hquiet : a.transmits = [] ∧ next.flatMap Action.transmits = [] := by
        rw [hnext]
        cases a with
        | sendChunk l chunk => exact absurd howns ht
        | transmitChunk l dest chunk => exact absurd howns ht
        | _ => exact ⟨rfl, rfl⟩
      rw [Pool.hold_update_of_ne (Ne.symm ht), hquiet.2]
      show (_ ++ a.transmits) ++ _ = (_ ++ _) ++ []
      rw [hquiet.1, List.append_nil, List.append_nil]
      rfl

/-- So what it transmits was handed to a link, in this order. -/
theorem run_transmits_handed
    {statsFromSlice : List UInt8 → Option StatsPacket} {role : Role}
    {steps : List ProgramStep} {p p' : Program}
    (hrun : Trace.run (Program.step statsFromSlice role) steps p = some p')
    (horderly : p.Orderly) (hidle : p.pending .chunkSender = []) :
    ((Program.events statsFromSlice role steps p).flatMap
        (ProgramEvent.done Action.transmits)).Sublist
      ((Program.events statsFromSlice role steps p).flatMap
        ProgramEvent.handed) := by
  have hrouted : ((Program.events statsFromSlice role steps p).flatMap
      (ProgramEvent.routed role)).Sublist
      ((Program.events statsFromSlice role steps p).flatMap
        ProgramEvent.handed) := by
    refine .flatMap_right _ fun event _ => ?_
    cases event with
    | began round => exact .refl _
    | performed r a e =>
        cases a with
        | sendChunk linkId chunk =>
            show List.Sublist (Option.toList _ |>.map _) [chunk]
            cases e.destination role linkId with
            | none => exact List.nil_sublist _
            | some dest => exact .refl _
        | _ => exact .refl _
  rw [← run_transmits hrun horderly hidle] at hrouted
  exact (List.sublist_append_left _ _).trans hrouted

end ChainLightning
