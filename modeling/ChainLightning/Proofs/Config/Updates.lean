/-
Concurrent changes of the configuration.

`set_parameter` writes back a whole configuration that it copied in an
earlier section, so what was written in between is gone from the store
(`both_updates_stored_iff`): of two calls on different parameters the
store has both values exactly when both are in the lineage of the last
write (Lib/Cell.lean), or a value was there from the start.

`update` sends behind its write section, in a step of its own. The store
is what the last writer wrote and the channel what the last sender sent
(`Told`), so they agree exactly when these are the same configuration
(`subscribers_agree_iff`).
-/
import ChainLightning.ConfigManager

namespace ChainLightning

open ConfigManager

-- ================================================================= steps

/-- What one step of a call does. -/
theorem manager_step_cases {calls : List ManagerCall} {i : Nat}
    {m m' : ConfigManager} (h : ConfigManager.step calls i m = some m') :
    (∃ c, calls[i]? = some (.update c) ∧ m.pc i = .start
        ∧ m' = m.update i c)
      ∨ (∃ path value, calls[i]? = some (.setParameter path value)
        ∧ m.pc i = .start
        ∧ m' = { m.setPc i .fetched with config := m.config.read i })
      ∨ (∃ path value copy l c result,
        calls[i]? = some (.setParameter path value) ∧ m.pc i = .fetched
        ∧ m.config.copies i = some (copy, l)
        ∧ copy.setParameter path value = (result, c)
        ∧ ((result = .ok () ∧ m' = m.update i c)
          ∨ ∃ e, result = .error e
            ∧ m' = m.setPc i (.returned (.error e))))
      ∨ (∃ c, m.pc i = .notify c
        ∧ m' = { m.setPc i (.returned (.ok ())) with
          watch := c, lastSender := some i }) := by
  unfold ConfigManager.step at h
  split at h
  case h_1 c hcall hpc =>
      cases h
      exact Or.inl ⟨c, hcall, hpc, rfl⟩
  case h_2 path value hcall hpc =>
      cases h
      exact Or.inr (Or.inl ⟨path, value, hcall, hpc, rfl⟩)
  case h_3 path value hcall hpc =>
      obtain ⟨⟨copy, l⟩, hcopy, hset⟩ := Option.map_eq_some_iff.mp h
      refine Or.inr (Or.inr (Or.inl ?_))
      dsimp only at hset
      split at hset
      case h_1 c hresult =>
          exact ⟨path, value, copy, l, c, _, hcall, hpc, hcopy, hresult,
            Or.inl ⟨rfl, hset.symm⟩⟩
      case h_2 e c hresult =>
          exact ⟨path, value, copy, l, c, _, hcall, hpc, hcopy, hresult,
            Or.inr ⟨e, rfl, hset.symm⟩⟩
  case h_4 call c hcall hpc =>
      cases h
      exact Or.inr (Or.inr (Or.inr ⟨c, hpc, rfl⟩))
  case h_5 => cases h

/-- `update` writes a valid configuration, and returns otherwise. -/
theorem update_cases (i : Nat) (c : Config) (m : ConfigManager) :
    (c.validate = .ok () ∧ m.update i c
        = { m.setPc i (.notify c) with config := m.config.write i c })
      ∨ ∃ e, m.update i c = m.setPc i (.returned (.error e)) := by
  unfold ConfigManager.update
  split
  case h_1 e _ => exact Or.inr ⟨e, rfl⟩
  case h_2 hvalid => exact Or.inl ⟨hvalid, rfl⟩

-- ======================================================= set_parameter

/-- What the numbered `set_parameter` calls do to a configuration. -/
def assignCall (sets : List (String × ParameterValue)) (i : Nat)
    (c : Config) : Option Config :=
  sets[i]?.bind fun set => c.assign set.1 set.2

/-- The calls. -/
def setCalls (sets : List (String × ParameterValue)) : List ManagerCall :=
  sets.map fun set => .setParameter set.1 set.2

/-- Store and copies are what they rest on. -/
theorem sound_step {sets : List (String × ParameterValue)} {init : Config}
    {i : Nat} {m m' : ConfigManager}
    (h : m.config.Sound (assignCall sets) init)
    (hstep : ConfigManager.step (setCalls sets) i m = some m') :
    m'.config.Sound (assignCall sets) init := by
  have hcalls : (setCalls sets)[i]?
      = sets[i]?.map fun set => .setParameter set.1 set.2 :=
    List.getElem?_map ..
  rcases manager_step_cases hstep with
    ⟨c, hcall, -, -⟩ | ⟨path, value, -, -, rfl⟩
      | ⟨path, value, copy, l, c, result, hcall, -, hcopy, hresult, hset⟩
      | ⟨c, -, rfl⟩
  · rw [hcalls] at hcall
    obtain ⟨set, -, hset⟩ := Option.map_eq_some_iff.mp hcall
    cases hset
  · exact h.read i
  · rcases hset with ⟨rfl, rfl⟩ | ⟨e, -, rfl⟩
    · rcases update_cases i c m with ⟨-, hupdate⟩ | ⟨e, hupdate⟩
      · rw [hupdate]
        refine h.write hcopy ?_
        rw [hcalls] at hcall
        obtain ⟨set, hset, heq⟩ := Option.map_eq_some_iff.mp hcall
        cases heq
        rw [assignCall, hset]
        exact (Config.setParameter_ok hresult).1
      · rw [hupdate]
        exact h
    · exact h
  · exact h

/-- No lost update, exactly. In any interleaving of `set_parameter`
calls, where two of them are on different parameters that no other call
touches, the store has both values exactly when each of the two calls is
in the lineage of the store, or its value was there from the start. -/
theorem both_updates_stored_iff {init : Config}
    {sets : List (String × ParameterValue)} {schedule : List Nat}
    {m : ConfigManager}
    (hrun : Trace.run (ConfigManager.step (setCalls sets)) schedule
      (ConfigManager.new init) = some m)
    {i j : Nat} {path other : String} {value value' : ParameterValue}
    (hi : sets[i]? = some (path, value))
    (hj : sets[j]? = some (other, value')) (hne : path ≠ other)
    (halone : ∀ k p v, sets[k]? = some (p, v) → k ≠ i → k ≠ j →
      p ≠ path ∧ p ≠ other) :
    (m.get.getParameter path = some value
        ∧ m.get.getParameter other = some value')
      ↔ (i ∈ m.config.lineage ∨ init.getParameter path = some value)
        ∧ (j ∈ m.config.lineage
          ∨ init.getParameter other = some value') := by
  have hsound : m.config.Sound (assignCall sets) init :=
    Trace.run_invariant
      (P := fun m => m.config.Sound (assignCall sets) init)
      (fun _ _ _ h hstep => sound_step h hstep) hrun Cell.sound_fresh
  -- one call alone sets a parameter
  have hpart : ∀ {k : Nat} {p : String} {v : ParameterValue},
      sets[k]? = some (p, v) →
      (∀ k' p' v', sets[k']? = some (p', v') → k' ≠ k → p' ≠ p) →
      (m.get.getParameter p = some v
        ↔ k ∈ m.config.lineage ∨ init.getParameter p = some v) := by
    intro k p v hk hother
    have hvalue : m.get.getParameter p
        = if k ∈ m.config.lineage then some v
          else init.getParameter p := by
      refine hsound.value.part ?_ ?_
      · intro a b hchange
        rw [assignCall, hk] at hchange
        exact Config.getParameter_assign hchange
      · intro k' a b hk' hchange
        obtain ⟨⟨p', v'⟩, hset, hassign⟩ :=
          Option.bind_eq_some_iff.mp hchange
        exact Config.getParameter_assign_ne hassign
          (hother k' p' v' hset hk').symm
    rw [hvalue]
    by_cases hmem : k ∈ m.config.lineage
    · simp [hmem]
    · simp [hmem]
  refine and_congr (hpart hi ?_) (hpart hj ?_)
  · intro k p v hk hki
    by_cases hkj : k = j
    · subst hkj
      rw [hj] at hk
      cases hk
      exact hne.symm
    · exact (halone k p v hk hki hkj).1
  · intro k p v hk hkj
    by_cases hki : k = i
    · subst hki
      rw [hi] at hk
      cases hk
      exact hne
    · exact (halone k p v hk hki hkj).2

/-- Two parameters that are set. -/
private def twoSets : List (String × ParameterValue) :=
  [("receiver.reorder_timeout_ms", .uint 70),
    ("link_scheduler.sync_interval_ms", .uint 20)]

/-- The manager behind a schedule of the two calls. -/
private def afterSets (schedule : List Nat) : Option ConfigManager :=
  Trace.run (ConfigManager.step (setCalls twoSets)) schedule
    (ConfigManager.new .default)

/-- One call behind the other: both values are stored. -/
theorem both_updates_stored_serial : ∃ m,
    afterSets [1, 1, 1, 0, 0, 0] = some m
      ∧ m.get.getParameter "receiver.reorder_timeout_ms" = some (.uint 70)
      ∧ m.get.getParameter "link_scheduler.sync_interval_ms"
        = some (.uint 20) := by
  have hlineage : (afterSets [1, 1, 1, 0, 0, 0]).map
      (fun m => m.config.lineage) = some [0, 1] := by
    decide +kernel
  obtain ⟨m, hrun, hrests⟩ := Option.map_eq_some_iff.mp hlineage
  have halone : ∀ k p v, twoSets[k]? = some (p, v) → k ≠ 0 → k ≠ 1 →
      p ≠ "receiver.reorder_timeout_ms"
        ∧ p ≠ "link_scheduler.sync_interval_ms" := by
    intro k p v hk h0 h1
    have hover : twoSets.length ≤ k := by
      simp only [twoSets, List.length_cons, List.length_nil]
      omega
    rw [List.getElem?_eq_none hover] at hk
    cases hk
  refine ⟨m, hrun, (both_updates_stored_iff hrun rfl rfl (by decide)
    halone).mpr ?_⟩
  rw [hrests]
  exact ⟨Or.inl (by decide), Or.inl (by decide)⟩

/-- Both calls copy, and then write: both return `Ok`, and the first
one's value is lost. -/
theorem update_lost : ∃ m, afterSets [0, 1, 0, 1, 0, 1] = some m
      ∧ (m.pc 0).isOk ∧ (m.pc 1).isOk
      ∧ m.get.getParameter "receiver.reorder_timeout_ms"
        ≠ some (.uint 70) := by
  have hlost : (afterSets [0, 1, 0, 1, 0, 1]).map
      (fun m => (m.pc 0).isOk && (m.pc 1).isOk
        && m.get.getParameter "receiver.reorder_timeout_ms"
          ≠ some (.uint 70)) = some true := by
    decide +kernel
  obtain ⟨m, hrun, htest⟩ := Option.map_eq_some_iff.mp hlost
  rw [Bool.and_eq_true, Bool.and_eq_true, decide_eq_true_iff] at htest
  exact ⟨m, hrun, htest.1.1, htest.1.2, htest.2⟩

-- ================================================================ update

/-- The calls. -/
def updateCalls (configs : List Config) : List ManagerCall :=
  configs.map .update

/-- What the store and the channel hold, and where the calls stand that
brought it there. -/
structure Told (configs : List Config) (init : Config) (m : ConfigManager) :
    Prop where
  unwritten : m.lastWriter = none → m.get = init
  written : ∀ i, m.lastWriter = some i →
    configs[i]? = some m.get ∧ (m.pc i).wrote
  unsent : m.lastSender = none → m.watch = init
  sent : ∀ i, m.lastSender = some i →
    configs[i]? = some m.watch ∧ (m.pc i).isOk
  notifying : ∀ i c, m.pc i = .notify c → configs[i]? = some c
  wrote : ∀ i, (m.pc i).wrote → m.lastWriter ≠ none
  told : ∀ i, (m.pc i).isOk → m.lastSender ≠ none

theorem told_new {configs : List Config} {init : Config} :
    Told configs init (ConfigManager.new init) where
  unwritten := fun _ => rfl
  written := fun _ h => by cases h
  unsent := fun _ => rfl
  sent := fun _ h => by cases h
  notifying := fun _ _ h => by cases h
  wrote := fun _ h => by cases h
  told := fun _ h => by cases h

private theorem wrote_of_isOk {pc : CallPc} (h : pc.isOk) : pc.wrote := by
  cases pc with
  | start => cases h
  | fetched => cases h
  | notify c => cases h
  | returned result => exact h

@[simp] theorem setPc_self (i : Nat) (pc : CallPc) (m : ConfigManager) :
    (m.setPc i pc).pc i = pc :=
  Function.update_self ..

theorem setPc_of_ne {i k : Nat} (h : k ≠ i) (pc : CallPc)
    (m : ConfigManager) : (m.setPc i pc).pc k = m.pc k :=
  Function.update_of_ne h ..

variable {configs : List Config} {init c : Config} {i : Nat}
  {m m' : ConfigManager}

/-- A call writes. -/
private theorem Told.write (h : Told configs init m)
    (hpc : m.pc i = .start) (hc : configs[i]? = some c) :
    Told configs init { m.setPc i (.notify c) with
      config := m.config.write i c } where
  unwritten := fun hnone => by cases hnone
  written := by
    intro k hk
    cases hk
    exact ⟨hc, by rw [setPc_self]; rfl⟩
  unsent := h.unsent
  sent := by
    intro k hk
    obtain ⟨hwatch, hok⟩ := h.sent k hk
    have hne : k ≠ i := by
      rintro rfl
      rw [hpc] at hok
      cases hok
    exact ⟨hwatch, by rw [setPc_of_ne hne]; exact hok⟩
  notifying := by
    intro k c' hk
    by_cases hne : k = i
    · subst hne
      rw [setPc_self] at hk
      cases hk
      exact hc
    · rw [setPc_of_ne hne] at hk
      exact h.notifying k c' hk
  wrote := fun _ _ hnone => by cases hnone
  told := by
    intro k hk
    by_cases hne : k = i
    · subst hne
      rw [setPc_self] at hk
      cases hk
    · rw [setPc_of_ne hne] at hk
      exact h.told k hk

/-- A call returns an error. -/
private theorem Told.refuse (h : Told configs init m)
    (hpc : m.pc i = .start) (e : ConfigError) :
    Told configs init (m.setPc i (.returned (.error e))) := by
  -- no fact is about a call that starts, or about one that failed
  have hkeep : ∀ k, (m.pc k).wrote →
      (m.setPc i (.returned (.error e))).pc k = m.pc k := by
    intro k hk
    by_cases hne : k = i
    · subst hne
      rw [hpc] at hk
      cases hk
    · exact setPc_of_ne hne ..
  have hback : ∀ k, ((m.setPc i (.returned (.error e))).pc k).wrote →
      (m.setPc i (.returned (.error e))).pc k = m.pc k := by
    intro k hk
    by_cases hne : k = i
    · subst hne
      rw [setPc_self] at hk
      cases hk
    · exact setPc_of_ne hne ..
  refine ⟨h.unwritten, ?_, h.unsent, ?_, ?_, ?_, ?_⟩
  · intro k hk
    obtain ⟨hget, hwrote⟩ := h.written k hk
    exact ⟨hget, by rw [hkeep k hwrote]; exact hwrote⟩
  · intro k hk
    obtain ⟨hwatch, hok⟩ := h.sent k hk
    exact ⟨hwatch, by rw [hkeep k (wrote_of_isOk hok)]; exact hok⟩
  · intro k c hk
    have hsame := hback k (by rw [hk]; rfl)
    exact h.notifying k c (hsame ▸ hk)
  · intro k hk
    exact h.wrote k (hback k hk ▸ hk)
  · intro k hk
    exact h.told k (hback k (wrote_of_isOk hk) ▸ hk)

/-- A call sends, and returns. -/
private theorem Told.send (h : Told configs init m)
    (hpc : m.pc i = .notify c) :
    Told configs init { m.setPc i (.returned (.ok ())) with
      watch := c, lastSender := some i } := by
  have hc := h.notifying i c hpc
  have hwriter := h.wrote i (by rw [hpc]; rfl)
  -- the call stays behind its write section, the others where they are
  have hmoved : ∀ k, k = i ∨ (m.setPc i (.returned (.ok ()))).pc k = m.pc k :=
    fun k => (Decidable.em (k = i)).imp_right fun hne => setPc_of_ne hne ..
  refine ⟨h.unwritten, ?_, ?_, ?_, ?_, ?_, ?_⟩
  · intro k hk
    obtain ⟨hget, hwrote⟩ := h.written k hk
    refine ⟨hget, ?_⟩
    rcases hmoved k with rfl | hsame
    · rw [setPc_self]
      rfl
    · rw [hsame]
      exact hwrote
  · intro hnone
    cases hnone
  · intro k hk
    cases hk
    exact ⟨hc, by rw [setPc_self]; rfl⟩
  · intro k c' hk
    rcases hmoved k with rfl | hsame
    · rw [setPc_self] at hk
      cases hk
    · exact h.notifying k c' (hsame ▸ hk)
  · intro k hk
    rcases hmoved k with rfl | hsame
    · exact hwriter
    · exact h.wrote k (hsame ▸ hk)
  · intro k _ hnone
    cases hnone

theorem Told.step (h : Told configs init m)
    (hstep : ConfigManager.step (updateCalls configs) i m = some m') :
    Told configs init m' := by
  have hcalls : (updateCalls configs)[i]? = configs[i]?.map .update :=
    List.getElem?_map ..
  have hset : ∀ {path : String} {value : ParameterValue},
      (updateCalls configs)[i]? ≠ some (.setParameter path value) := by
    intro path value hcall
    rw [hcalls] at hcall
    obtain ⟨c, -, heq⟩ := Option.map_eq_some_iff.mp hcall
    cases heq
  rcases manager_step_cases hstep with
    ⟨c, hcall, hpc, rfl⟩ | ⟨path, value, hcall, -⟩
      | ⟨path, value, -, -, -, -, hcall, -⟩ | ⟨c, hpc, rfl⟩
  · rcases update_cases i c m with ⟨-, hupdate⟩ | ⟨e, hupdate⟩
    · rw [hupdate]
      rw [hcalls] at hcall
      obtain ⟨c', hc, heq⟩ := Option.map_eq_some_iff.mp hcall
      cases heq
      exact h.write hpc hc
    · rw [hupdate]
      exact h.refuse hpc e
  · exact absurd hcall hset
  · exact absurd hcall hset
  · exact h.send hpc

/-- Subscribers and store, exactly. When all `update` calls of an
interleaving have returned, the channel holds the stored configuration
exactly when the call that wrote last and the one that sent last were
given the same one. -/
theorem subscribers_agree_iff {schedule : List Nat}
    (hrun : Trace.run (ConfigManager.step (updateCalls configs)) schedule
      (ConfigManager.new init) = some m)
    (hdone : ∀ i, i < configs.length → ∃ result, m.pc i = .returned result) :
    m.watch = m.get
      ↔ ∀ i j, m.lastWriter = some i → m.lastSender = some j →
        configs[i]? = configs[j]? := by
  have h : Told configs init m := Trace.run_invariant
    (P := Told configs init) (fun _ _ _ h hstep => h.step hstep) hrun
    told_new
  cases hwriter : m.lastWriter with
  | none =>
      have hsender : m.lastSender = none := by
        by_contra hsome
        obtain ⟨j, hj⟩ := Option.ne_none_iff_exists'.mp hsome
        exact h.wrote j (wrote_of_isOk (h.sent j hj).2) hwriter
      refine iff_of_true ?_ (fun i j hi => by cases hi)
      rw [h.unwritten hwriter, h.unsent hsender]
  | some i =>
      obtain ⟨hi, hwrote⟩ := h.written i hwriter
      have hlt : i < configs.length := (List.getElem?_eq_some_iff.mp hi).1
      obtain ⟨result, hreturned⟩ := hdone i hlt
      have hok : (m.pc i).isOk := by
        rw [hreturned] at hwrote ⊢
        exact hwrote
      obtain ⟨j, hj⟩ := Option.ne_none_iff_exists'.mp (h.told i hok)
      obtain ⟨hwatch, -⟩ := h.sent j hj
      constructor
      · intro hagree i' j' hi' hj'
        cases hi'
        rw [hj] at hj'
        cases hj'
        rw [hi, hwatch, hagree]
      · intro hsame
        have hequal := hsame i j rfl hj
        rw [hi, hwatch] at hequal
        exact (Option.some.inj hequal).symm

/-- Two configurations to install. -/
private def twoConfigs : List Config :=
  [{ Config.default with receiver.reorderTimeoutMs := 70 },
    { Config.default with receiver.reorderTimeoutMs := 90 }]

/-- The manager behind a schedule of the two calls. -/
private def afterUpdates (schedule : List Nat) : Option ConfigManager :=
  Trace.run (ConfigManager.step (updateCalls twoConfigs)) schedule
    (ConfigManager.new .default)

/-- Both calls of a run have returned `Ok`. -/
private theorem both_returned {m : ConfigManager} (h0 : (m.pc 0).isOk)
    (h1 : (m.pc 1).isOk) {i : Nat} (hi : i < twoConfigs.length) :
    ∃ result, m.pc i = .returned result := by
  have hall : ∀ pc : CallPc, pc.isOk → ∃ result, pc = .returned result := by
    intro pc hpc
    cases pc with
    | returned result => exact ⟨result, rfl⟩
    | start => cases hpc
    | fetched => cases hpc
    | notify c => cases hpc
  have hcases : i = 0 ∨ i = 1 := by
    simp [twoConfigs] at hi
    omega
  rcases hcases with rfl | rfl
  · exact hall _ h0
  · exact hall _ h1

/-- The calls write and send in one order. -/
theorem subscribers_agree_in_order : ∃ m,
    afterUpdates [0, 1, 0, 1] = some m ∧ m.watch = m.get := by
  have horder : (afterUpdates [0, 1, 0, 1]).map
      (fun m => ((m.pc 0).isOk && (m.pc 1).isOk,
        m.lastWriter, m.lastSender)) = some (true, some 1, some 1) := by
    decide +kernel
  obtain ⟨m, hrun, htest⟩ := Option.map_eq_some_iff.mp horder
  obtain ⟨hok, hlast⟩ := Prod.mk.inj htest
  obtain ⟨hwriter, hsender⟩ := Prod.mk.inj hlast
  rw [Bool.and_eq_true] at hok
  refine ⟨m, hrun, (subscribers_agree_iff hrun
    fun i hi => both_returned hok.1 hok.2 hi).mpr ?_⟩
  intro i j hi hj
  rw [hwriter] at hi
  rw [hsender] at hj
  cases hi
  cases hj
  rfl

/-- The second call writes behind the first, and sends before it: the
subscribers keep the first one's configuration. -/
theorem subscribers_stale : ∃ m, afterUpdates [0, 1, 1, 0] = some m
      ∧ (m.pc 0).isOk ∧ (m.pc 1).isOk ∧ m.watch ≠ m.get := by
  have hstale : (afterUpdates [0, 1, 1, 0]).map
      (fun m => (m.pc 0).isOk && (m.pc 1).isOk
        && m.watch.receiver.reorderTimeoutMs
          ≠ m.get.receiver.reorderTimeoutMs) = some true := by
    decide +kernel
  obtain ⟨m, hrun, htest⟩ := Option.map_eq_some_iff.mp hstale
  rw [Bool.and_eq_true, Bool.and_eq_true, decide_eq_true_iff] at htest
  refine ⟨m, hrun, htest.1.1, htest.1.2, fun hagree => htest.2 ?_⟩
  rw [hagree]

end ChainLightning
