/-
Exact proportional fairness of the round robin.

The weights of the links are a wheel (Lib/Wheel.lean), and the loop of
`weighted_select` finds the link at the cursor's place (`selectFrom_eq`):
its cumulative weights partition the residues. Two facts hold between
all calls (`Settled`): links are numbered by position, and the total is
the sum of the weights as `recalculate_total_weight` takes it. So as
many calls as the weights sum to are one turn of the wheel, and return
each link as often as its weight says (`round_exact`).
-/
import ChainLightning.Lib.Wheel
import ChainLightning.Proofs.Schedule.Withheld

namespace ChainLightning

open LinkScheduler

/-- A link's weight, as a number. -/
def LinkState.share (l : LinkState) : Nat := l.weight.toNat

/-- The sum of all weights. -/
def LinkScheduler.sumShares (s : LinkScheduler) : Nat :=
  (s.links.map LinkState.share).sum

-- ============================================================= invariant

/-- Between calls: links are numbered by position, and the total is up
to date. -/
structure Settled (s : LinkScheduler) : Prop where
  ids : s.links.map LinkState.id = List.range s.links.length
  total : s.totalWeight = sumWeights s.links

/-- The sum of the weights depends on the weights alone. -/
private theorem sumWeights_congr {links links' : List LinkState}
    (h : links'.map LinkState.weight = links.map LinkState.weight) :
    sumWeights links' = sumWeights links := by
  have hfold : ∀ links : List LinkState,
      sumWeights links
        = max ((links.map LinkState.weight).foldl (· + ·) 0) 1 := by
    intro links
    rw [sumWeights, List.foldl_map]
  rw [hfold, hfold, h]

/-- The ids of links that keep them keep their numbering. -/
private theorem ids_of_keep {links links' : List LinkState}
    (h : links'.map LinkState.id = links.map LinkState.id)
    (hids : links.map LinkState.id = List.range links.length) :
    links'.map LinkState.id = List.range links'.length := by
  rw [h, length_eq_of_ids h, hids]

theorem settled_new (config : LinkSchedulerConfig)
    (configuredBandwidths : List UInt64) (now : Nat) :
    Settled (LinkScheduler.new config configuredBandwidths now) where
  ids := (pushed_start config configuredBandwidths now).ids
  total := rfl

theorem giveWeights_ids (weights : List UInt32) (links : List LinkState) :
    (giveWeights weights links).map LinkState.id
      = links.map LinkState.id := by
  induction weights generalizing links with
  | nil => rfl
  | cons w weights ih =>
      cases links with
      | nil => rfl
      | cons l links =>
          rw [giveWeights, List.map_cons, List.map_cons, ih]

/-- An adjustment, due or not, keeps the total up to date. -/
private theorem maybeAdjustWeights_total {s : LinkScheduler} (now : Nat)
    (h : s.totalWeight = sumWeights s.links) :
    (s.maybeAdjustWeights now).totalWeight
      = sumWeights (s.maybeAdjustWeights now).links := by
  unfold maybeAdjustWeights
  split
  case isTrue => rfl
  case isFalse => exact h

/-- No call changes the links' ids. -/
theorem apply_ids (op : SchedulerOp) (s : LinkScheduler) :
    (op.apply s).links.map LinkState.id = s.links.map LinkState.id := by
  cases op with
  | updateLink linkId measuredBandwidthBps rttUs now =>
      exact updateLink_ids s linkId measuredBandwidthBps rttUs now
  | setWeights weights => exact giveWeights_ids weights s.links
  | setRateControlledWeights weights =>
      exact applyWeights_ids weights s.links
  | forceRecalculate =>
      show List.map LinkState.id (List.map _ _) = _
      rw [List.map_map]
      rfl
  | schedule chunkSize multiLink =>
      exact (schedule_effects s chunkSize multiLink).2.1

/-- Every call brings the total up to date, or changes no weight. -/
theorem Settled.apply {s : LinkScheduler} (h : Settled s)
    (op : SchedulerOp) : Settled (op.apply s) := by
  refine ⟨ids_of_keep (apply_ids op s) h.ids, ?_⟩
  cases op with
  | updateLink linkId measuredBandwidthBps rttUs now =>
      refine maybeAdjustWeights_total now ?_
      rw [h.total]
      refine (sumWeights_congr (map_modify_of_frame ?_ _ _)).symm
      exact fun l => (updateLink_frame l measuredBandwidthBps rttUs).2
  | schedule chunkSize multiLink =>
      have hweights := (schedule_effects s chunkSize multiLink).2.2
      show (s.schedule chunkSize multiLink).2.totalWeight
        = sumWeights (s.schedule chunkSize multiLink).2.links
      rw [sumWeights_congr hweights, ← h.total]
      cases multiLink with
      | true => rfl
      | false => rfl
  | setWeights _ | setRateControlledWeights _ | forceRecalculate => rfl

theorem after_length (ops : List SchedulerOp) (s : LinkScheduler) :
    (s.after ops).links.length = s.links.length := by
  induction ops generalizing s with
  | nil => rfl
  | cons op ops ih =>
      exact (ih (op.apply s)).trans (length_eq_of_ids (apply_ids op s))

theorem settled_after (config : LinkSchedulerConfig)
    (configuredBandwidths : List UInt64) (now : Nat)
    (ops : List SchedulerOp) :
    Settled ((LinkScheduler.new config configuredBandwidths now).after
      ops) := by
  suffices hall : ∀ s : LinkScheduler, Settled s → Settled (s.after ops) from
    hall _ (settled_new config configuredBandwidths now)
  induction ops with
  | nil => exact fun _ h => h
  | cons op ops ih => exact fun s h => ih _ (h.apply op)

-- ============================================================= selection

/-- A sum of weights that fits is what the machine adds up. -/
private theorem foldl_toNat {links : List LinkState} {sum : UInt32}
    (hfit : sum.toNat + (links.map LinkState.share).sum < 2 ^ 32) :
    (links.foldl (fun sum l => sum + l.weight) sum).toNat
      = sum.toNat + (links.map LinkState.share).sum := by
  induction links generalizing sum with
  | nil => rfl
  | cons l links ih =>
      rw [List.map_cons, List.sum_cons] at hfit ⊢
      have hsum : (sum + l.weight).toNat = sum.toNat + l.share := by
        rw [UInt32.toNat_add, Nat.mod_eq_of_lt]
        · rfl
        · show sum.toNat + l.share < 2 ^ 32
          omega
      rw [List.foldl_cons, ih (by omega), hsum, Nat.add_assoc]

private theorem sumWeights_toNat {s : LinkScheduler}
    (hpos : 1 ≤ s.sumShares) (hfit : s.sumShares < 2 ^ 32) :
    (sumWeights s.links).toNat = s.sumShares := by
  have hsum : (s.links.foldl
      (fun (sum : UInt32) l => sum + l.weight) 0).toNat = s.sumShares := by
    rw [foldl_toNat (by rw [UInt32.toNat_zero, Nat.zero_add]; exact hfit)]
    exact Nat.zero_add _
  rw [sumWeights, UInt32.toNat_max, hsum]
  exact Nat.max_eq_left hpos

/-- The loop of `weighted_select` finds the link at a place of the
wheel. -/
theorem selectFrom_eq {pos cumulative : UInt32} {links : List LinkState}
    (hpast : cumulative ≤ pos)
    (hfit : cumulative.toNat + (links.map LinkState.share).sum < 2 ^ 32) :
    selectFrom pos cumulative links
      = ((Wheel.places LinkState.share links)[pos.toNat
          - cumulative.toNat]?).map LinkState.id := by
  induction links generalizing cumulative with
  | nil => rfl
  | cons l links ih =>
      rw [List.map_cons, List.sum_cons] at hfit
      rw [selectFrom]
      by_cases hzero : l.weight = 0
      · have hshare : l.share = 0 := by
          rw [LinkState.share, hzero]
          rfl
        rw [if_pos hzero, ih hpast (by omega),
          Wheel.getElem?_places_past (by omega), hshare, Nat.sub_zero]
      · have hsum : (cumulative + l.weight).toNat
            = cumulative.toNat + l.share := by
          rw [UInt32.toNat_add, Nat.mod_eq_of_lt]
          · rfl
          · show cumulative.toNat + l.share < 2 ^ 32
            omega
        rw [if_neg hzero]
        rw [UInt32.le_iff_toNat_le] at hpast
        by_cases hhere : pos < cumulative + l.weight
        · have hplace : pos.toNat - cumulative.toNat < l.share := by
            rw [UInt32.lt_iff_toNat_lt, hsum] at hhere
            omega
          rw [if_pos hhere, Wheel.getElem?_places_here hplace]
          rfl
        · have hover : cumulative + l.weight ≤ pos :=
            UInt32.not_lt.mp hhere
          have hplace : l.share ≤ pos.toNat - cumulative.toNat := by
            rw [UInt32.le_iff_toNat_le, hsum] at hover
            omega
          rw [if_neg hhere, ih hover (by omega), hsum,
            Wheel.getElem?_places_past hplace, Nat.sub_sub]

/-- The wheel of a scheduler: link ids, repeated by weight. -/
def LinkScheduler.wheel (s : LinkScheduler) : List Nat :=
  (Wheel.places LinkState.share s.links).map LinkState.id

@[simp] theorem length_wheel (s : LinkScheduler) :
    s.wheel.length = s.sumShares := by
  rw [LinkScheduler.wheel, List.length_map, Wheel.length_places]
  rfl

/-- One selection: the wheel at the cursor behind its step. -/
theorem weightedSelect_eq {s : LinkScheduler} (h : Settled s)
    (hpos : 1 ≤ s.sumShares) (hfit : s.sumShares < 2 ^ 32)
    (hcursor : s.cursor.toNat + 1 < 2 ^ 64) :
    some s.weightedSelect.1 = Wheel.at? s.wheel (s.cursor.toNat + 1)
      ∧ s.weightedSelect.2.cursor.toNat = s.cursor.toNat + 1 := by
  have hstep : (s.cursor + 1).toNat = s.cursor.toNat + 1 := by
    rw [UInt64.toNat_add]
    exact Nat.mod_eq_of_lt hcursor
  refine ⟨?_, hstep⟩
  have hplace : ((s.cursor + 1) % s.totalWeight.toUInt64).toUInt32.toNat
      = (s.cursor.toNat + 1) % s.sumShares := by
    have hlt := Nat.mod_lt (s.cursor.toNat + 1) hpos
    rw [UInt64.toNat_toUInt32, UInt64.toNat_mod, UInt32.toNat_toUInt64,
      h.total, sumWeights_toNat hpos hfit, hstep]
    exact Nat.mod_eq_of_lt (by omega)
  have hselect : selectFrom
      ((s.cursor + 1) % s.totalWeight.toUInt64).toUInt32 0 s.links
        = Wheel.at? s.wheel (s.cursor.toNat + 1) := by
    rw [selectFrom_eq (UInt32.le_iff_toNat_le.mpr (Nat.zero_le _)) ?_,
      hplace, Wheel.at?, length_wheel, LinkScheduler.wheel,
      List.getElem?_map]
    · rfl
    · rw [UInt32.toNat_zero, Nat.zero_add]
      exact hfit
  have hsome : (Wheel.at? s.wheel (s.cursor.toNat + 1)).isSome := by
    simpa [Wheel.at?] using Nat.mod_lt _ hpos
  obtain ⟨linkId, hlink⟩ := Option.isSome_iff_exists.mp hsome
  unfold weightedSelect
  dsimp only
  rw [hselect, hlink]
  rfl

-- ================================================================= window

/-- A call that leaves the weights alone. -/
def KeepsWeights (op : SchedulerOp) (s : LinkScheduler) : Prop :=
  (op.apply s).links.map LinkState.weight = s.links.map LinkState.weight

instance (op : SchedulerOp) (s : LinkScheduler) :
    Decidable (KeepsWeights op s) :=
  inferInstanceAs (Decidable (_ = _))

/-- The wheel depends on ids and weights alone. -/
private theorem wheel_congr {s s' : LinkScheduler}
    (hids : s'.links.map LinkState.id = s.links.map LinkState.id)
    (hweights : s'.links.map LinkState.weight
      = s.links.map LinkState.weight) :
    s'.wheel = s.wheel := by
  unfold LinkScheduler.wheel
  generalize s.links = links at hids hweights ⊢
  generalize s'.links = links' at hids hweights ⊢
  induction links generalizing links' with
  | nil =>
      rw [List.map_nil, List.map_eq_nil_iff] at hids
      rw [hids]
  | cons l links ih =>
      cases links' with
      | nil => cases hids
      | cons l' links' =>
          rw [List.map_cons, List.map_cons] at hids hweights
          obtain ⟨hid, hids⟩ := List.cons.inj hids
          obtain ⟨hweight, hweights⟩ := List.cons.inj hweights
          have hshare : l'.share = l.share := congrArg UInt32.toNat hweight
          rw [Wheel.places_cons, Wheel.places_cons, List.map_append,
            List.map_append, List.map_replicate, List.map_replicate, hid,
            hshare, ih links' hids hweights]

/-- A call that leaves the weights alone leaves the wheel alone. -/
private theorem apply_wheel {s : LinkScheduler} {op : SchedulerOp}
    (h : Settled s) (hkeep : KeepsWeights op s) :
    (op.apply s).wheel = s.wheel := by
  have hlength : (op.apply s).links.length = s.links.length := by
    have hlen := congrArg List.length hkeep
    rwa [List.length_map, List.length_map] at hlen
  refine wheel_congr ?_ hkeep
  rw [(h.apply op).ids, h.ids, hlength]

/-- The `schedule` calls of a window without a weight change return what
the wheel shows from behind the cursor on. -/
theorem scheduled_eq {ops : List SchedulerOp} {s : LinkScheduler}
    (h : Settled s) (hpos : 1 ≤ s.sumShares) (hfit : s.sumShares < 2 ^ 32)
    (hkeep : Trace.Along (fun op s => some (op.apply s)) KeepsWeights ops s)
    (hcursor : s.cursor.toNat + (s.scheduled ops).length < 2 ^ 64) :
    (s.scheduled ops).map some
      = (List.range' (s.cursor.toNat + 1) (s.scheduled ops).length).map
        (Wheel.at? s.wheel) := by
  induction ops generalizing s with
  | nil => rfl
  | cons op ops ih =>
      have hwheel := apply_wheel h hkeep.head
      have hsum : (op.apply s).sumShares = s.sumShares := by
        rw [← length_wheel, hwheel, length_wheel]
      have hnext := ih (h.apply op) (by rwa [hsum]) (by rwa [hsum])
        (hkeep.tail rfl)
      rw [hwheel] at hnext
      -- a call that schedules nothing leaves the cursor alone
      have hquiet : (op.apply s).cursor = s.cursor →
          s.scheduled (op :: ops) = (op.apply s).scheduled ops →
          (s.scheduled (op :: ops)).map some
            = (List.range' (s.cursor.toNat + 1)
                (s.scheduled (op :: ops)).length).map
              (Wheel.at? s.wheel) := by
        intro hsame hlist
        rw [hlist] at hcursor ⊢
        rw [hsame] at hnext
        exact hnext hcursor
      cases op with
      | updateLink linkId measuredBandwidthBps rttUs now =>
          refine hquiet ?_ rfl
          show (maybeAdjustWeights now _).cursor = _
          unfold maybeAdjustWeights
          split <;> rfl
      | setWeights weights => exact hquiet rfl rfl
      | setRateControlledWeights weights => exact hquiet rfl rfl
      | forceRecalculate => exact hquiet rfl rfl
      | schedule chunkSize multiLink =>
          have hlist : s.scheduled (.schedule chunkSize multiLink :: ops)
              = (s.schedule chunkSize multiLink).1.linkId
                :: (s.schedule chunkSize multiLink).2.scheduled ops := rfl
          rw [hlist, List.length_cons] at hcursor ⊢
          obtain ⟨hpick, hmoved⟩ :=
            weightedSelect_eq h hpos hfit (by omega)
          have hcursor' : (s.schedule chunkSize multiLink).2.cursor.toNat
              = s.cursor.toNat + 1 := by
            rw [← hmoved]
            cases multiLink <;> rfl
          have hrest : (SchedulerOp.schedule chunkSize multiLink).apply s
              = (s.schedule chunkSize multiLink).2 := rfl
          rw [hrest, hcursor'] at hnext
          rw [List.map_cons, List.range'_succ, List.map_cons,
            hnext (by omega), (schedule_effects s chunkSize multiLink).1,
            hpick]

/-- Links numbered by position: one of each id. -/
private theorem filter_id {links : List LinkState}
    (hids : links.map LinkState.id = List.range links.length) (i : Nat) :
    links.filter (·.id = i) = links[i]?.toList := by
  have hcount : (links.filter (·.id = i)).length
      = (List.range links.length).count i := by
    rw [← hids, List.count, List.countP_map, List.countP_eq_length_filter]
    rfl
  by_cases hi : i < links.length
  · have hid : links[i].id = i := by
      have hget := congrArg (·[i]?) hids
      simpa [hi] using hget
    have hmem : links[i] ∈ links.filter (·.id = i) :=
      List.mem_filter.mpr ⟨List.getElem_mem hi, decide_eq_true hid⟩
    rw [List.count_eq_one_of_mem List.nodup_range (List.mem_range.mpr hi)]
      at hcount
    obtain ⟨l, hl⟩ := List.length_eq_one_iff.mp hcount
    rw [hl, List.mem_singleton] at hmem
    rw [hl, List.getElem?_eq_getElem hi, hmem]
    rfl
  · rw [List.count_eq_zero_of_not_mem (by simpa using hi)] at hcount
    rw [List.length_eq_zero_iff.mp hcount,
      List.getElem?_eq_none (Nat.le_of_not_lt hi)]
    rfl

/-- Exact proportional fairness. Whatever the scheduler went through and
wherever its cursor stands, as many `schedule` calls as the weights sum
to, without a weight change in between, return every link exactly as
often as its weight says. -/
theorem round_exact {config : LinkSchedulerConfig}
    {configuredBandwidths : List UInt64} {now : Nat}
    {before ops : List SchedulerOp} {cursor : UInt64} {s : LinkScheduler}
    (hs : s = { (LinkScheduler.new config configuredBandwidths now).after
      before with cursor })
    (hpos : 1 ≤ s.sumShares) (hfit : s.sumShares < 2 ^ 32)
    (hcursor : cursor.toNat + s.sumShares < 2 ^ 64)
    (hkeep : Trace.Along (fun op s => some (op.apply s)) KeepsWeights ops s)
    (hround : (s.scheduled ops).length = s.sumShares) (i : Nat) :
    (s.scheduled ops).count i
      = (s.links[i]?.map fun l => l.weight.toNat).getD 0 := by
  have hreached := settled_after config configuredBandwidths now before
  have h : Settled s := by
    rw [hs]
    exact ⟨hreached.ids, hreached.total⟩
  have hstart : s.cursor = cursor := by rw [hs]
  have hturn := scheduled_eq h hpos hfit hkeep
    (by rw [hround, hstart]; exact hcursor)
  rw [hround, ← length_wheel] at hturn
  have hperm : ((s.scheduled ops).map some).Perm (s.wheel.map some) := by
    rw [hturn]
    exact Wheel.turn_perm s.wheel (s.cursor.toNat + 1)
  have hcount : (s.scheduled ops).count i = s.wheel.count i := by
    have hsome := hperm.count_eq (some i)
    rwa [List.count_map_of_injective _ _ (Option.some_injective _),
      List.count_map_of_injective _ _ (Option.some_injective _)] at hsome
  rw [hcount, LinkScheduler.wheel, Wheel.count_places, filter_id h.ids]
  cases s.links[i]? with
  | none => rfl
  | some l => exact Nat.add_zero _

/-- One round over links of 2 and 3 Mbps, the slow one's weight set to
1 and the cursor set to 7; a measurement comes in between. -/
theorem round_exact_two_links :
    let s := { (LinkScheduler.new Config.default.linkScheduler
      [250000, 375000] 0).after
        [.schedule 1400 false, .setWeights [1]] with cursor := 7 }
    (s.scheduled [.schedule 1400 true, .updateLink 0 125000 0 5,
      .schedule 9000 false, .schedule 60 false, .schedule 1400 true]).count 1
        = 3 := by
  intro s
  let ops : List SchedulerOp := [.schedule 1400 true,
    .updateLink 0 125000 0 5, .schedule 9000 false, .schedule 60 false,
    .schedule 1400 true]
  have hround : (s.scheduled ops).length = s.sumShares := by decide +kernel
  have hcount := round_exact (s := s) rfl (by decide +kernel)
    (by decide +kernel) (by decide +kernel) (by decide +kernel) hround 1
  rw [hcount]
  decide +kernel

end ChainLightning
