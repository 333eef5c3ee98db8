/-
A run of both programs, seen from one of them.

The steps of a run that concern a program are a run of that program
(`run_program`); a datagram that the network delivers is a round of its
own, and its bytes are those of the log it was delivered from. The log
only grows, so what was delivered in a run can be read off the log behind
it (`run_datagrams`).

Conditions that each program keeps, given that what it is delivered meets
the far side's condition on what it sends, hold of both programs and of
the wire after any run (`run_lawful`).
-/
import ChainLightning.Lib.Pick
import ChainLightning.Proofs.Chunk.Order
import ChainLightning.Proofs.Endpoint.Hands

namespace ChainLightning

-- ============================================================ definitions

/-- The packets that a program reads from its TUN device in a step. -/
def SystemStep.reads (role : Role) : SystemStep → List (List UInt8)
  | .begin r (.readTun packet _) => if r = role then [packet] else []
  | _ => []

/-- The datagram that a program is delivered in a step, by its place in
the far side's log. -/
def SystemStep.delivers (role : Role) : SystemStep → List Nat
  | .deliver r i _ => if r = role then [i] else []
  | _ => []

/-- What a program does in a step. -/
def SystemStep.programSteps (role : Role) : SystemStep → System →
    List ProgramStep
  | .begin r round, _ => if r = role then [.begin round] else []
  | .perform r t reading, _ => if r = role then [.perform t reading] else []
  | .deliver r i src, s =>
      if r = role then
        (s.program role.peer).shared.sent[i]?.toList.map fun d =>
          .begin (.receive d.linkId d.bytes src)
      else []

/-- The round that a program starts in a step. -/
def SystemStep.rounds (role : Role) : SystemStep → System → List Round
  | .begin r round, _ => if r = role then [round] else []
  | .perform _ _ _, _ => []
  | .deliver r i src, s =>
      if r = role then
        (s.program role.peer).shared.sent[i]?.toList.map fun d =>
          .receive d.linkId d.bytes src
      else []

/-- What a program does in a run. -/
def System.programSteps (statsFromSlice : List UInt8 → Option StatsPacket)
    (role : Role) : List SystemStep → System → List ProgramStep :=
  Trace.record (System.step statsFromSlice) (SystemStep.programSteps role)

/-- What is seen of a program in a run. -/
def System.events (statsFromSlice : List UInt8 → Option StatsPacket)
    (role : Role) (steps : List SystemStep) (s : System) :
    List ProgramEvent :=
  Program.events statsFromSlice role
    (System.programSteps statsFromSlice role steps s) (s.program role)

/-- The datagram that arrives with an event: its link and its bytes. -/
def ProgramEvent.datagram : ProgramEvent → List (Nat × List UInt8)
  | .began (.receive linkId bytes _) => [(linkId, bytes)]
  | _ => []

variable {statsFromSlice : List UInt8 → Option StatsPacket}

-- =============================================================== one step

/-- What a step does to the program it is about. -/
private theorem map_set {role : Role} {s s' : System} {p : Option Program}
    (h : p.map (s.set role) = some s') :
    ∃ q, p = some q ∧ s'.program role = q
      ∧ ∀ r, r ≠ role → s'.program r = s.program r := by
  obtain ⟨q, hq, rfl⟩ := Option.map_eq_some_iff.mp h
  exact ⟨q, hq, System.program_set_self s role q,
    fun r hr => System.program_set_of_ne hr s q⟩

/-- The step of one program is a step of it, and none of the other. -/
private theorem run_one {role r : Role} {s s' : System} {p : Program}
    {step : ProgramStep}
    (hstep : Program.step statsFromSlice r step (s.program r) = some p)
    (hself : s'.program r = p)
    (hother : ∀ r', r' ≠ r → s'.program r' = s.program r') :
    Trace.run (Program.step statsFromSlice role)
      (if r = role then [step] else []) (s.program role)
      = some (s'.program role) := by
  by_cases hr : r = role
  · subst hr
    rw [if_pos rfl, Trace.run_cons, hstep, hself]
    rfl
  · rw [if_neg hr, hother role (Ne.symm hr)]
    rfl

/-- What the network delivers is what the far side has sent. -/
theorem deliver_inv {role : Role} {i : Nat} {src : SocketAddr}
    {s s' : System}
    (hstep : System.step statsFromSlice (.deliver role i src) s = some s') :
    ∃ d p, (s.program role.peer).shared.sent[i]? = some d
      ∧ Program.step statsFromSlice role
        (.begin (.receive d.linkId d.bytes src)) (s.program role) = some p
      ∧ s' = s.set role p := by
  obtain ⟨d, hd, hstep⟩ := Option.bind_eq_some_iff.mp hstep
  obtain ⟨p, hp, hstep⟩ := Option.bind_eq_some_iff.mp hstep
  cases hstep
  exact ⟨d, p, hd, hp, rfl⟩

/-- A step of the system is what each program does in it. -/
theorem step_program {step : SystemStep} {s s' : System}
    (hstep : System.step statsFromSlice step s = some s') (role : Role) :
    Trace.run (Program.step statsFromSlice role) (step.programSteps role s)
      (s.program role) = some (s'.program role) := by
  cases step with
  | begin r round =>
      unfold System.step at hstep
      dsimp only at hstep
      split at hstep
      case isTrue => cases hstep
      case isFalse =>
        obtain ⟨p, hp, hself, hother⟩ := map_set hstep
        exact run_one hp hself hother
  | perform r t reading =>
      obtain ⟨p, hp, hself, hother⟩ := map_set hstep
      exact run_one hp hself hother
  | deliver r i src =>
      obtain ⟨d, p, hd, hp, rfl⟩ := deliver_inv hstep
      unfold SystemStep.programSteps
      dsimp only
      by_cases hr : r = role
      · subst hr
        rw [if_pos rfl, hd, System.program_set_self]
        show Trace.run _ [ProgramStep.begin _] _ = _
        rw [Trace.run_cons, hp]
        rfl
      · rw [if_neg hr, System.program_set_of_ne (Ne.symm hr)]
        rfl

/-- A program's log only grows. -/
theorem programStep_sent {role : Role} {step : ProgramStep} {p p' : Program}
    (hstep : Program.step statsFromSlice role step p = some p') :
    p.shared.sent <+: p'.shared.sent := by
  cases step with
  | begin round =>
      unfold Program.step at hstep
      dsimp only at hstep
      split at hstep
      case isFalse => cases hstep
      case isTrue =>
        obtain ⟨-, rfl⟩ := Pool.begin_inv hstep
        exact List.prefix_rfl
  | perform t r =>
      obtain ⟨a, rest, next, e, -, hexec, rfl⟩ := Pool.perform_inv hstep
      exact (exec_effects hexec).sent

theorem programRun_sent {role : Role} {steps : List ProgramStep}
    {p p' : Program}
    (hrun : Trace.run (Program.step statsFromSlice role) steps p = some p') :
    p.shared.sent <+: p'.shared.sent :=
  Trace.run_invariant (P := fun q => p.shared.sent <+: q.shared.sent)
    (fun _ _ _ h hstep => h.trans (programStep_sent hstep)) hrun
    List.prefix_rfl

-- ============================================================= invariants

/-- Conditions on both programs and on what they put on the wire: a round
starts with what it is allowed to do, also if it starts with a datagram
that meets the far side's condition, and every action keeps the invariant
and sends only datagrams that meet its own, given what the run is known to
keep to. -/
structure System.Laws (statsFromSlice : List UInt8 → Option StatsPacket)
    (C I : Role → Endpoint → Prop) (ok : Role → Action → Prop)
    (wire : Role → Datagram → Prop) : Prop where
  round : ∀ role (round : Round) e, round.isReceive = false →
    round.enabled role e = true → I role e →
    ∀ a ∈ round.actions statsFromSlice role e, ok role a
  receive : ∀ (role : Role) d src e, wire role.peer d →
    Round.enabled role e (.receive d.linkId d.bytes src) = true → I role e →
    ∀ a ∈ Round.actions statsFromSlice role e
      (.receive d.linkId d.bytes src), ok role a
  exec : ∀ role r a e next e', C role e → ok role a → I role e →
    Endpoint.exec role r a e = some (next, e') →
    I role e' ∧ (∀ b ∈ next, ok role b) ∧ ∀ d ∈ a.sends role r, wire role d

/-- Both programs meet the conditions. -/
structure System.Lawful (I : Role → Endpoint → Prop)
    (ok : Role → Action → Prop) (wire : Role → Datagram → Prop) (s : System) :
    Prop where
  fine : ∀ role, Pool.Fine (I role) (ok role) (s.program role)
  wire : ∀ role, ∀ d ∈ (s.program role).shared.sent, wire role d

/-- A step of one program keeps the conditions if that program keeps
them. -/
private theorem lawful_set {I : Role → Endpoint → Prop}
    {ok : Role → Action → Prop} {wire : Role → Datagram → Prop} {s : System}
    (h : s.Lawful I ok wire) {role : Role} {p : Program}
    (hfine : Pool.Fine (I role) (ok role) p)
    (hwire : ∀ d ∈ p.shared.sent, wire role d) :
    (s.set role p).Lawful I ok wire := by
  constructor <;> intro role'
  · by_cases hr : role' = role
    · subst hr
      rwa [System.program_set_self]
    · rw [System.program_set_of_ne hr]
      exact h.fine role'
  · by_cases hr : role' = role
    · subst hr
      rwa [System.program_set_self]
    · rw [System.program_set_of_ne hr]
      exact h.wire role'

/-- What the laws say of a program's start of a round. -/
private theorem begin_lawful {I : Role → Endpoint → Prop}
    {ok : Role → Action → Prop} {wire : Role → Datagram → Prop} {s : System}
    (h : s.Lawful I ok wire) {role : Role} {round : Round} {p : Program}
    (hround : round.enabled role (s.program role).shared = true →
      ∀ a ∈ round.actions statsFromSlice role (s.program role).shared,
        ok role a)
    (hstep : Program.step statsFromSlice role (.begin round)
      (s.program role) = some p) : (s.set role p).Lawful I ok wire := by
  unfold Program.step at hstep
  dsimp only at hstep
  split at hstep
  case isFalse => cases hstep
  case isTrue henabled =>
    refine lawful_set h ((h.fine role).begin (hround henabled) hstep) ?_
    obtain ⟨-, rfl⟩ := Pool.begin_inv hstep
    exact h.wire role

/-- Programs that meet the conditions meet them after any run that keeps
to what is known. -/
theorem run_lawful {C I : Role → Endpoint → Prop}
    {ok : Role → Action → Prop} {wire : Role → Datagram → Prop}
    (laws : System.Laws statsFromSlice C I ok wire)
    {steps : List SystemStep} {s s' : System}
    (hknown : Trace.Along (System.step statsFromSlice)
      (fun _ s => ∀ role, C role (s.program role).shared) steps s)
    (hrun : Trace.run (System.step statsFromSlice) steps s = some s')
    (h : s.Lawful I ok wire) : s'.Lawful I ok wire := by
  refine Trace.run_along (P := System.Lawful I ok wire) ?_ hknown hrun h
  intro step s s' h hC hstep
  cases step with
  | begin role round =>
      unfold System.step at hstep
      dsimp only at hstep
      split at hstep
      case isTrue => cases hstep
      case isFalse hreceive =>
        obtain ⟨p, hp, rfl⟩ := Option.map_eq_some_iff.mp hstep
        exact begin_lawful h (fun henabled => laws.round role round _
          (Bool.eq_false_iff.mpr hreceive) henabled (h.fine role).shared) hp
  | perform role t reading =>
      obtain ⟨p, hp, rfl⟩ := Option.map_eq_some_iff.mp hstep
      obtain ⟨a, rest, next, e, hpending, hexec, rfl⟩ := Pool.perform_inv hp
      have ha : ok role a :=
        (h.fine role).pending t a (hpending ▸ List.mem_cons_self)
      obtain ⟨hI, hnext, hsends⟩ := laws.exec role reading a _ next e
        (hC role) ha (h.fine role).shared hexec
      refine lawful_set h ⟨hI, Pool.pending_update (h.fine role).pending
        fun b hb => ?_⟩ fun d hd => ?_
      · rcases List.mem_append.mp hb with hb | hb
        · exact hnext b hb
        · exact (h.fine role).pending t b
            (hpending ▸ List.mem_cons_of_mem a hb)
      · rw [(exec_outputs hexec).sent] at hd
        rcases List.mem_append.mp hd with hd | hd
        · exact h.wire role d hd
        · exact hsends d hd
  | deliver role i src =>
      obtain ⟨d, p, hd, hp, rfl⟩ := deliver_inv hstep
      exact begin_lawful h (fun henabled => laws.receive role d src _
        (h.wire role.peer d (List.mem_of_getElem? hd)) henabled
        (h.fine role).shared) hp

-- =================================================================== runs

/-- What a program does in a run is a run of it. -/
theorem run_program {steps : List SystemStep} {s s' : System}
    (hrun : Trace.run (System.step statsFromSlice) steps s = some s')
    (role : Role) :
    Trace.run (Program.step statsFromSlice role)
      (System.programSteps statsFromSlice role steps s) (s.program role)
      = some (s'.program role) := by
  induction steps generalizing s with
  | nil =>
      cases hrun
      rfl
  | cons step steps ih =>
      obtain ⟨s₁, hstep, hrest⟩ := Trace.run_cons_inv hrun
      unfold System.programSteps
      rw [Trace.record, hstep, Trace.run_append, step_program hstep role]
      exact ih hrest

/-- The two programs at their start, one by one. -/
theorem start_program {config : Role → Config}
    {linkBandwidths : Role → List UInt64} {now : Role → Nat → Nat}
    (role : Role) :
    (System.start config linkBandwidths now).program role
      = Program.start (config role) (linkBandwidths role) (now role) := by
  cases role <;> rfl

/-- What is seen of a program in a run of the system is what is seen of it
in its own run. -/
theorem events_start {config : Role → Config}
    {linkBandwidths : Role → List UInt64} {now : Role → Nat → Nat}
    (role : Role) (steps : List SystemStep) :
    System.events statsFromSlice role steps
        (System.start config linkBandwidths now)
      = Program.events statsFromSlice role
        (System.programSteps statsFromSlice role steps
          (System.start config linkBandwidths now))
        (Program.start (config role) (linkBandwidths role) (now role)) := by
  unfold System.events
  rw [start_program]

/-- A run of the system is a run of each program from its start. -/
theorem run_program_start {config : Role → Config}
    {linkBandwidths : Role → List UInt64} {now : Role → Nat → Nat}
    {steps : List SystemStep} {s : System}
    (hrun : Trace.run (System.step statsFromSlice) steps
      (System.start config linkBandwidths now) = some s) (role : Role) :
    Trace.run (Program.step statsFromSlice role)
      (System.programSteps statsFromSlice role steps
        (System.start config linkBandwidths now))
      (Program.start (config role) (linkBandwidths role) (now role))
      = some (s.program role) := by
  rw [← start_program]
  exact run_program hrun role

/-- A program takes at most one step where both take one. -/
private theorem programSteps_length_le_one (role : Role) (step : SystemStep)
    (s : System) : (step.programSteps role s).length ≤ 1 := by
  cases step with
  | begin r round =>
      unfold SystemStep.programSteps
      dsimp only
      split <;> simp
  | perform r t reading =>
      unfold SystemStep.programSteps
      dsimp only
      split <;> simp
  | deliver r i src =>
      unfold SystemStep.programSteps
      dsimp only
      split
      case isTrue => cases (s.program role.peer).shared.sent[i]? <;> simp
      case isFalse => simp

/-- What holds of a program in every state of a run holds in every state
of its own run. -/
theorem along_program {P : Program → Prop} {steps : List SystemStep}
    {s s' : System}
    (hrun : Trace.run (System.step statsFromSlice) steps s = some s')
    (role : Role)
    (halong : Trace.Along (System.step statsFromSlice)
      (fun _ s => P (s.program role)) steps s) :
    Trace.Along (Program.step statsFromSlice role) (fun _ p => P p)
      (System.programSteps statsFromSlice role steps s)
      (s.program role) := by
  induction steps generalizing s with
  | nil => trivial
  | cons step steps ih =>
      obtain ⟨s₁, hstep, hrest⟩ := Trace.run_cons_inv hrun
      have htail := ih hrest (halong.tail hstep)
      have hone := step_program hstep role
      have hlength : (step.programSteps role s).length ≤ 1 :=
        programSteps_length_le_one role step s
      unfold System.programSteps at htail ⊢
      rw [Trace.record, hstep]
      cases hsteps : step.programSteps role s with
      | nil =>
          rw [hsteps] at hone
          rwa [List.nil_append, show s.program role = s₁.program role
            from Option.some.inj hone]
      | cons pstep psteps =>
          rw [hsteps] at hone hlength
          cases List.eq_nil_of_length_eq_zero
            (Nat.le_zero.mp (Nat.le_of_succ_le_succ hlength))
          obtain ⟨p, hp, hnil⟩ := Trace.run_cons_inv hone
          cases hnil
          refine ⟨halong.head, ?_⟩
          rw [hp]
          exact htail

/-- A program takes no more steps than both. -/
theorem programSteps_length_le (role : Role) (steps : List SystemStep)
    (s : System) :
    (System.programSteps statsFromSlice role steps s).length
      ≤ steps.length :=
  Trace.record_length_le (programSteps_length_le_one role) steps s

/-- What is seen of a program is seen step by step. -/
theorem events_cons {step : SystemStep} {steps : List SystemStep}
    {s s₁ : System}
    (hstep : System.step statsFromSlice step s = some s₁) (role : Role) :
    System.events statsFromSlice role (step :: steps) s
      = Program.events statsFromSlice role (step.programSteps role s)
          (s.program role)
        ++ System.events statsFromSlice role steps s₁ := by
  unfold System.events System.programSteps Program.events
  rw [Trace.record, hstep]
  exact Trace.record_append _ (step_program hstep role) _

/-- What is seen of the rounds that start in a step. -/
private theorem events_rounds {β : Type*} {g : ProgramEvent → List β}
    (hg : ∀ r a e, g (.performed r a e) = []) {step : SystemStep}
    {s s' : System}
    (hstep : System.step statsFromSlice step s = some s') (role : Role) :
    (Program.events statsFromSlice role (step.programSteps role s)
        (s.program role)).flatMap g
      = (step.rounds role s).flatMap fun round => g (.began round) := by
  -- the events of one step of the program
  have hone : ∀ pstep : ProgramStep, (Program.events statsFromSlice role
      [pstep] (s.program role)).flatMap g
      = (pstep.events (s.program role)).flatMap g := by
    intro pstep
    unfold Program.events Trace.record
    rw [List.flatMap_append]
    cases Program.step statsFromSlice role pstep (s.program role) <;>
      exact List.append_nil _
  cases step with
  | begin r round =>
      unfold SystemStep.programSteps SystemStep.rounds
      dsimp only
      split
      case isTrue => exact hone _
      case isFalse => rfl
  | perform r t reading =>
      unfold SystemStep.programSteps SystemStep.rounds
      dsimp only
      split
      case isTrue =>
        rw [hone]
        unfold ProgramStep.events
        dsimp only
        split
        · rfl
        · rw [List.flatMap_singleton, hg]
          rfl
      case isFalse => rfl
  | deliver r i src =>
      obtain ⟨d, -, hd, -, -⟩ := deliver_inv hstep
      unfold SystemStep.programSteps SystemStep.rounds
      dsimp only
      split
      case isTrue hr =>
        subst hr
        rw [hd]
        exact hone _
      case isFalse => rfl

/-- A program reads the packets that it is given to read. -/
theorem run_reads {steps : List SystemStep} {s s' : System}
    (hrun : Trace.run (System.step statsFromSlice) steps s = some s')
    (role : Role) :
    (System.events statsFromSlice role steps s).flatMap ProgramEvent.read
      = steps.flatMap (SystemStep.reads role) := by
  induction steps generalizing s with
  | nil => rfl
  | cons step steps ih =>
      obtain ⟨s₁, hstep, hrest⟩ := Trace.run_cons_inv hrun
      rw [events_cons hstep role, List.flatMap_append, List.flatMap_cons,
        ih hrest, events_rounds (fun _ _ _ => rfl) hstep role]
      congr 1
      cases step with
      | begin r round =>
          unfold SystemStep.rounds
          dsimp only
          cases round with
          | readTun packet flowId =>
              unfold SystemStep.reads
              dsimp only
              split <;> rfl
          | _ => split <;> rfl
      | perform r t reading => rfl
      | deliver r i src =>
          unfold SystemStep.rounds
          dsimp only
          split
          case isTrue =>
            rw [List.flatMap_map]
            exact List.flatMap_eq_nil_iff.mpr fun _ _ => rfl
          case isFalse => rfl

/-- The datagrams that a program receives are those that the network
delivers from the far side's log. -/
theorem run_datagrams {steps : List SystemStep} {s s' : System}
    (hrun : Trace.run (System.step statsFromSlice) steps s = some s')
    (role : Role) :
    (System.events statsFromSlice role steps s).flatMap ProgramEvent.datagram
      = (steps.flatMap (SystemStep.delivers role)).flatMap fun i =>
          (s'.program role.peer).shared.sent[i]?.toList.map fun d =>
            (d.linkId, d.bytes) := by
  induction steps generalizing s with
  | nil => rfl
  | cons step steps ih =>
      obtain ⟨s₁, hstep, hrest⟩ := Trace.run_cons_inv hrun
      rw [events_cons hstep role, List.flatMap_append, List.flatMap_cons,
        List.flatMap_append, ih hrest,
        events_rounds (fun _ _ _ => rfl) hstep role]
      congr 1
      cases step with
      | begin r round =>
          unfold System.step at hstep
          dsimp only at hstep
          split at hstep
          case isTrue => cases hstep
          case isFalse hreceive =>
            unfold SystemStep.rounds
            dsimp only
            cases round with
            | receive linkId bytes src => exact absurd rfl hreceive
            | _ => split <;> rfl
      | perform r t reading => rfl
      | deliver r i src =>
          obtain ⟨d, p, hd, -, -⟩ := deliver_inv hstep
          unfold SystemStep.rounds SystemStep.delivers
          dsimp only
          split
          case isFalse => rfl
          case isTrue hr =>
            subst hr
            -- the log behind the run still has the datagram at its place
            have hlog : (s'.program r.peer).shared.sent[i]? = some d := by
              obtain ⟨hlt, hget⟩ := List.getElem?_eq_some_iff.mp hd
              have hgrows := programRun_sent (run_program hrun r.peer)
              rw [← hget, List.getElem?_eq_getElem
                (hlt.trans_le hgrows.length_le), hgrows.getElem hlt]
            rw [hd, List.flatMap_singleton, hlog]
            rfl

/-- What the datagrams of a run bring is read off the far side's log, if it
depends neither on where a datagram goes nor on who it comes from. -/
theorem brought_pick {β : Type*} {g : Round → List β}
    {h : Datagram → List β}
    (hreceive : ∀ (d : Datagram) src,
      g (.receive d.linkId d.bytes src) = h d)
    (hother : ∀ round, round.isReceive = false → g round = [])
    {steps : List SystemStep} {s s' : System}
    (hrun : Trace.run (System.step statsFromSlice) steps s = some s')
    (role : Role) :
    (System.events statsFromSlice role steps s).flatMap
        (ProgramEvent.brought g)
      = (Log.pick (s'.program role.peer).shared.sent
        (steps.flatMap (SystemStep.delivers role))).flatMap h := by
  have hevent : ∀ event : ProgramEvent, event.brought g
      = event.datagram.flatMap fun d =>
        h { linkId := d.1, dest := .server, bytes := d.2 } := by
    intro event
    cases event with
    | performed r a e => rfl
    | began round =>
        cases round with
        | receive l bytes src =>
            exact (hreceive { linkId := l, dest := .server, bytes } src).trans
              (List.append_nil _).symm
        | _ => exact hother _ rfl
  rw [List.flatMap_congr fun event _ => hevent event, ← List.flatMap_assoc,
    run_datagrams hrun role]
  generalize steps.flatMap (SystemStep.delivers role) = places
  unfold Log.pick
  rw [List.flatMap_assoc, List.flatMap_assoc]
  refine List.flatMap_congr fun i _ => ?_
  rw [List.flatMap_map]
  refine List.flatMap_congr fun d _ => ?_
  have hsrc : SocketAddr := ⟨0, 0⟩
  exact (hreceive { linkId := d.linkId, dest := .server, bytes := d.bytes }
    hsrc).symm.trans (hreceive d hsrc)

/-- A datagram that is delivered has been sent. -/
theorem delivers_sent {steps : List SystemStep} {s s' : System}
    (hrun : Trace.run (System.step statsFromSlice) steps s = some s')
    (role : Role) :
    ∀ i ∈ steps.flatMap (SystemStep.delivers role),
      i < (s'.program role.peer).shared.sent.length := by
  induction steps generalizing s with
  | nil => exact fun _ h => nomatch h
  | cons step steps ih =>
      obtain ⟨s₁, hstep, hrest⟩ := Trace.run_cons_inv hrun
      intro i hmem
      rcases List.mem_append.mp (List.flatMap_cons ▸ hmem) with hi | hi
      · cases step with
        | deliver r j src =>
            obtain ⟨d, p, hd, -, -⟩ := deliver_inv hstep
            unfold SystemStep.delivers at hi
            dsimp only at hi
            split at hi
            case isFalse => cases hi
            case isTrue hr =>
              subst hr
              cases List.mem_singleton.mp hi
              obtain ⟨hlt, -⟩ := List.getElem?_eq_some_iff.mp hd
              exact hlt.trans_le
                (programRun_sent (run_program hrun r.peer)).length_le
        | _ => cases hi
      · exact ih hrest i hi

end ChainLightning
