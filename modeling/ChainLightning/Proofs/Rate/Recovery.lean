/-
Recovery of a link that went `Down`.

On a quiet link (nothing recorded, probes that report no packets, no
timeout) the only thing left to drive the state machine is what the
outage left behind: the stored losses and the accounts, which neither
the way through `Probing` nor the return to `Running` resets. From the
probe that finds the link `Down` on the accounts only wane, by the decay
of an evaluation, the scaling of accelerated recovery and the halving of
the fast track (`Ledger.Wanes`). So what they can still show is settled
by what they hold at that probe: an account fades below a bound if it
shows no greater loss however it wanes above the packet minimum, and a
stored loss that is not judged anew is within the bound
(`Ledger.Fades`). A loss four units below the bound is enough for that
(`Ledger.fades_of_margin`). A run that finds both accounts fading and,
once it is up, the link at a threshold that is not below the bound brings
the link back for good (`down_link_recovers`). Otherwise the old loss may
take the link down again (`recovered_link_downed_again`).
-/
import Mathlib.Logic.Relation
import ChainLightning.Lib.Share
import ChainLightning.Proofs.Rate.Directions

namespace ChainLightning

open Binary64 Machine RateState

-- =========================================================== old accounts

namespace Ledger

variable {cfg : RateControlConfig} {bound : Nat} {fast : Prop} {l : Ledger}

/-- What was sent and what of it arrived. -/
def account (l : Ledger) : Nat × Nat := (l.txAcc, l.rxAcc)

/-- The ledger with the counts of a cycle added, not judged yet. -/
def add (counts : Nat × Nat) (l : Ledger) : Ledger :=
  { l with txAcc := l.txAcc + counts.1, rxAcc := l.rxAcc + counts.2 }

/-- The lost part of an account, of 255. -/
def lostPart (a : Nat × Nat) : Nat := (a.1 - a.2) * 255 / a.1

/-- What a probe without packets may do to an account: an evaluation
takes off a sixteenth, accelerated recovery scales it, and the fast track
halves it. -/
inductive Wanes (cfg : RateControlConfig) (fast : Prop) :
    Nat × Nat → Nat × Nat → Prop
  | decay {t r : Nat} (hmin : cfg.lossMinPackets.toNat < t) :
      Wanes cfg fast (t, r) (t - t / 16, r - r / 16)
  | scale {t r : Nat}
      (hon : cfg.tapaEnabled = true ∧ cfg.tapaAcceleratedRecovery = true) :
      Wanes cfg fast (t, r) (scaled 64 cfg.tapaRecoveryDecay t,
        scaled 64 cfg.tapaRecoveryDecay r)
  | halve {t r : Nat} (hfast : fast) : Wanes cfg fast (t, r) (t / 2, r / 2)

/-- An old account shows no loss above the bound any more: it is judged
anew or was judged within the bound, and it is judged within the bound
however it wanes above the packet minimum. -/
def Fades (cfg : RateControlConfig) (fast : Prop) (bound : Nat)
    (l : Ledger) : Prop :=
  (cfg.lossMinPackets.toNat < l.txAcc ∨ l.loss ≤ bound)
    ∧ ∀ a, Relation.ReflTransGen (Wanes cfg fast) l.account a →
        cfg.lossMinPackets.toNat < a.1 → lostPart a ≤ bound

theorem Wanes.mono {fast' : Prop} (h : fast → fast') {a b : Nat × Nat}
    (hw : Wanes cfg fast a b) : Wanes cfg fast' a b := by
  cases hw with
  | decay hmin => exact Wanes.decay hmin
  | scale hon => exact Wanes.scale hon
  | halve hfast => exact Wanes.halve (h hfast)

/-- A probe makes an account wane from the counts it adds. -/
private theorem wanes_probed (counts : Nat × Nat) {light tracked : Bool}
    (hlight : light = true →
      cfg.tapaEnabled = true ∧ cfg.tapaAcceleratedRecovery = true)
    (htracked : tracked = true → fast) :
    Relation.ReflTransGen (Wanes cfg fast) (l.add counts).account
      (((l.settle cfg.lossMinPackets.toNat counts).accelerate
        cfg.tapaRecoveryDecay light).track tracked).account := by
  have hsettled : Relation.ReflTransGen (Wanes cfg fast)
      (l.add counts).account
      (l.settle cfg.lossMinPackets.toNat counts).account := by
    unfold account add settle decayed
    dsimp only
    by_cases hmin : cfg.lossMinPackets.toNat < l.txAcc + counts.1
    · simp only [if_pos hmin]
      exact Relation.ReflTransGen.single (Wanes.decay hmin)
    · simp only [if_neg hmin]
      exact Relation.ReflTransGen.refl
  have hscaled : Relation.ReflTransGen (Wanes cfg fast)
      (l.add counts).account
      ((l.settle cfg.lossMinPackets.toNat counts).accelerate
        cfg.tapaRecoveryDecay light).account := by
    cases light with
    | false => exact hsettled
    | true => exact hsettled.tail (Wanes.scale (hlight rfl))
  cases tracked with
  | false => exact hscaled
  | true => exact hscaled.tail (Wanes.halve (htracked rfl))

/-- A probe judges a fading account within the bound and leaves it
fading. The fast track is behind it. -/
theorem Fades.probed {counts : Nat × Nat}
    (h : (l.add counts).Fades cfg fast bound) {light tracked : Bool}
    (hlight : light = true →
      cfg.tapaEnabled = true ∧ cfg.tapaAcceleratedRecovery = true)
    (htracked : tracked = true → fast) {l' : Ledger}
    (hl' : l' = ((l.settle cfg.lossMinPackets.toNat counts).accelerate
      cfg.tapaRecoveryDecay light).track tracked) :
    l'.loss ≤ bound ∧ l'.Fades cfg False bound := by
  obtain ⟨hjudged, hfade⟩ := h
  have hwanes := wanes_probed (l := l) counts hlight htracked
  rw [← hl'] at hwanes
  have hloss : l'.loss ≤ bound := by
    rw [hl', track_loss, accelerate_loss]
    show lossOf _ (l.txAcc + counts.1) (l.rxAcc + counts.2) l.loss ≤ bound
    unfold lossOf
    split
    case isTrue hmin =>
        have hhere := hfade _ Relation.ReflTransGen.refl hmin
        exact hhere
    case isFalse hmin => exact hjudged.resolve_left hmin
  refine ⟨hloss, Or.inr hloss, fun a ha hmin => hfade a ?_ hmin⟩
  exact hwanes.trans
    (Relation.ReflTransGen.mono (fun _ _ hw => hw.mono False.elim) _ _ ha)

-- ============================================================= the margin

/-- An account that wanes stays within fifteen packets of its share. -/
private theorem wanes_behind {t r : Nat} (h0 : 0 ≤ cfg.tapaRecoveryDecay)
    (h4 : cfg.tapaRecoveryDecay ≤ 4 / 5) (ht : t ≤ 2 ^ 53)
    (hr : r ≤ 2 ^ 53) {a : Nat × Nat}
    (ha : Relation.ReflTransGen (Wanes cfg fast) (t, r) a) :
    a.2 ≤ 2 ^ 53 ∧ Share.Behind (15 : ℚ) a.1 a.2 t r := by
  induction ha with
  | refl => exact ⟨hr, Share.Behind.refl (by norm_num) t r⟩
  | tail _ hw ih =>
      obtain ⟨hsmall, hbehind⟩ := ih
      have htotal := hbehind.total
      cases hw with
      | decay _ =>
          exact ⟨(Nat.sub_le _ _).trans hsmall,
            (hbehind.shrink_left (k := 16) (by norm_num)).mono (by norm_num)⟩
      | scale _ =>
          have hone : cfg.tapaRecoveryDecay ≤ 1 := h4.trans (by norm_num)
          have htx := (scaled_near (w := 64) h0 hone (htotal.trans ht)
            (by omega)).1
          have hrx := (scaled_near (w := 64) h0 hone hsmall (by omega)).2
          have hscaled := hbehind.scale h0 zero_le_one zero_le_two
            (scaled_le 64 hone (htotal.trans ht)) htx hrx
          exact ⟨(scaled_le 64 hone hsmall).trans hsmall,
            hscaled.mono (by linarith)⟩
      | halve _ =>
          exact ⟨(Nat.div_le_self _ 2).trans hsmall,
            hbehind.halve_left.mono (by norm_num)⟩

/-- The loss of an account is below the bound by the fifteen packets that
rounding may cost it, taken at the packet minimum: at the default minimum
of a thousand packets, a loss four units below. -/
def Margin (cfg : RateControlConfig) (bound : Nat) (l : Ledger) : Prop :=
  (0 ≤ cfg.tapaRecoveryDecay ∧ cfg.tapaRecoveryDecay ≤ 4 / 5)
    ∧ (l.txAcc ≤ 2 ^ 53 ∧ l.rxAcc ≤ 2 ^ 53)
    ∧ (cfg.lossMinPackets.toNat < l.txAcc ∨ l.loss ≤ bound)
    ∧ 255 * (l.txAcc - l.rxAcc) * cfg.lossMinPackets.toNat
        + 255 * 15 * l.txAcc
      ≤ (bound + 1) * l.txAcc * cfg.lossMinPackets.toNat

instance (cfg : RateControlConfig) (bound : Nat) (l : Ledger) :
    Decidable (l.Margin cfg bound) :=
  inferInstanceAs (Decidable (_ ∧ _))

/-- An account with that margin fades. -/
theorem fades_of_margin (h : l.Margin cfg bound) :
    l.Fades cfg fast bound := by
  obtain ⟨⟨h0, h4⟩, ⟨ht, hr⟩, hjudged, hroom⟩ := h
  refine ⟨hjudged, fun a ha hmin => ?_⟩
  obtain ⟨-, hbehind⟩ := wanes_behind h0 h4 ht hr ha
  refine hbehind.missing_le (c := 255) hmin ?_ (by norm_num)
  exact_mod_cast hroom

end Ledger

-- =========================================================== one probe

namespace RateState

variable {cfg : RateControlConfig} {clk : Clock} {confidence : ℚ}
  {suppress : Bool} {probe : ProbePacket} {s s' : RateState} {bound : Nat}

/-- Both old accounts fade, with the counts that the next probe adds. -/
def OldFades (cfg : RateControlConfig) (confidence : ℚ) (bound : Nat)
    (s : RateState) : Prop :=
  (s.sendLedger.add (gated cfg confidence s.pendingTx, 0)).Fades cfg
      (s.PhantomDown cfg) bound
    ∧ (s.recvLedger.add (0, gated cfg confidence s.pendingRx)).Fades cfg
      (s.PhantomDown cfg) bound

/-- What a fading link is behind the probe that found it `Down`: its
losses are within the bound, its accounts fade, and nothing is left to
count. -/
structure Faded (cfg : RateControlConfig) (bound : Nat) (s : RateState) :
    Prop where
  settled : s.Settled
  send : s.sendLedger.Fades cfg False bound
  recv : s.recvLedger.Fades cfg False bound

/-- A gate lets nothing through when there is nothing. -/
private theorem gated_zero : gated cfg confidence 0 = 0 :=
  scaled_zero 64 _

/-- A quiet probe on a fading link leaves it faded, with the loss in
force within the bound. -/
private theorem quiet_faded {fast : Prop}
    (hsend : (s.sendLedger.add (gated cfg confidence s.pendingTx, 0)).Fades
      cfg fast bound)
    (hrecv : (s.recvLedger.add (0, gated cfg confidence s.pendingRx)).Fades
      cfg fast bound)
    (hfast : s.fastTracked cfg = true → fast)
    (hrx : probe.rxPackets = 0) (htx : probe.txPackets = 0)
    (h : s.processProbe cfg clk confidence suppress probe = some s') :
    s'.Faded cfg bound ∧ s'.loss.toNat ≤ bound := by
  obtain ⟨hs, hr, hworst, -, -⟩ := processProbe_accounts h
  have hlight : (s.noteArrival clk.instant confidence probe).recovers cfg
      = true → cfg.tapaEnabled = true
        ∧ cfg.tapaAcceleratedRecovery = true := by
    intro hon
    obtain ⟨htapa, haccel, -⟩ := of_decide_eq_true hon
    exact ⟨htapa, haccel⟩
  rw [sendCycle, hrx, UInt32.toNat_zero, gated_zero] at hs
  rw [recvCycle, htx, UInt32.toNat_zero, gated_zero] at hr
  obtain ⟨hsloss, hsfade⟩ := hsend.probed hlight hfast hs
  obtain ⟨hrloss, hrfade⟩ := hrecv.probed hlight hfast hr
  refine ⟨⟨(processProbe_frame h).2, hsfade, hrfade⟩, ?_⟩
  rw [hworst]
  exact Nat.max_le.mpr ⟨hsloss, hrloss⟩

/-- The probe that finds the link `Down`. -/
theorem down_probe_faded
    (hold : s.OldFades cfg confidence bound)
    (hrx : probe.rxPackets = 0) (htx : probe.txPackets = 0)
    (h : s.processProbe cfg clk confidence suppress probe = some s') :
    s'.Faded cfg bound := by
  have hfast : s.fastTracked cfg = true → s.PhantomDown cfg :=
    fun htracked => (of_decide_eq_true htracked).2
  exact (quiet_faded hold.1 hold.2 hfast hrx htx h).1

/-- Every quiet probe behind it. -/
theorem Faded.quiet (hfaded : s.Faded cfg bound) (hup : s.state ≠ .down)
    (hrx : probe.rxPackets = 0) (htx : probe.txPackets = 0)
    (h : s.processProbe cfg clk confidence suppress probe = some s') :
    s'.Faded cfg bound ∧ s'.loss.toNat ≤ bound := by
  obtain ⟨hsetTx, hsetRx⟩ := hfaded.settled
  have hpending : s.pendingTx = 0 ∧ s.pendingRx = 0 := by
    unfold pendingTx pendingRx
    rw [hsetTx, hsetRx]
    exact ⟨Nat.sub_self _, Nat.sub_self _⟩
  have hfast : s.fastTracked cfg = true → False :=
    fun htracked => hup (of_decide_eq_true htracked).1
  refine quiet_faded ?_ ?_ hfast hrx htx h
  · rw [hpending.1, gated_zero]
    exact hfaded.send
  · rw [hpending.2, gated_zero]
    exact hfaded.recv

/-- The loss that the old accounts may still show does not take the link
down. -/
def Withstands (cfg : RateControlConfig) (confidence : ℚ) (suppress : Bool)
    (bound : Nat) : Prop :=
  suppress = true ∨ bound ≤ downThresh cfg confidence

instance (cfg : RateControlConfig) (confidence : ℚ) (suppress : Bool)
    (bound : Nat) : Decidable (Withstands cfg confidence suppress bound) :=
  inferInstanceAs (Decidable (_ ∨ _))

/-- An active link whose loss is within a bound that it withstands stays
active. -/
theorem active_probe (hact : s.Active)
    (hhold : Withstands cfg confidence suppress bound)
    (h : s.processProbe cfg clk confidence suppress probe = some s')
    (hloss : s'.loss.toNat ≤ bound) : s'.Active := by
  obtain ⟨m, hm, ht⟩ := processProbe_inv h
  have hmact : m.Active := by
    unfold Active
    rw [hm.state]
    exact hact
  rcases transition_active hmact ht with
    ⟨state, hstay, rfl, -⟩ | ⟨hsup, hgt, rfl⟩
  · exact hstay
  · have hgt' : downThresh cfg confidence < bound :=
      Nat.lt_of_lt_of_le hgt hloss
    rcases hhold with hon | hle
    · exact absurd (hsup.symm.trans hon) Bool.false_ne_true
    · exact absurd hgt' (Nat.not_lt.mpr hle)

-- ============================================================ the way back

/-- How far a link is on its way back after `n` quiet probes: down
before the first, then probing with the probes counted (or fast-tracked
to the last count), and active at the latest when they reach the
configured count. -/
def Recovering (cfg : RateControlConfig) (bound n : Nat) (s : RateState) :
    Prop :=
  (n = 0 ∧ s.state = .down)
    ∨ (s.Faded cfg bound ∧ s.state = .probing
      ∧ ((n = 1 ∧ (s.recoveryCount = 1
          ∨ cfg.probeRecoveryCount.toNat ≤ s.recoveryCount + 1))
        ∨ (s.recoveryCount = n ∧ n < cfg.probeRecoveryCount.toNat)))
    ∨ (s.Faded cfg bound ∧ s.Active)

/-- One quiet probe is one step of the way back. -/
theorem recovering_probe {n : Nat} (hrec : Recovering cfg bound n s)
    (hrx : probe.rxPackets = 0) (htx : probe.txPackets = 0)
    (hold : s.state = .down → s.OldFades cfg confidence bound)
    (hhold : s.Active → Withstands cfg confidence suppress bound)
    (h : s.processProbe cfg clk confidence suppress probe = some s') :
    Recovering cfg bound (n + 1) s' := by
  rcases hrec with ⟨rfl, hst⟩ | ⟨hfaded, hst, hcount⟩ | ⟨hfaded, hact⟩
  · -- `Down`: whatever the counters say, the probe starts recovery
    have hfaded' := down_probe_faded (hold hst) hrx htx h
    obtain ⟨m, hm, ht⟩ := processProbe_inv h
    obtain ⟨f, count, rate, -, hc, -, rfl⟩ :=
      transition_down (hm.state.trans hst) ht
    refine Or.inr (Or.inl ⟨hfaded', rfl, Or.inl ⟨rfl, ?_⟩⟩)
    rcases hc with rfl | rfl
    · exact Or.inl rfl
    · exact Or.inr (Nat.le_add_of_sub_le (Nat.le_refl _))
  · have hup : s.state ≠ .down := by
      rw [hst]
      decide
    have hfaded' := (hfaded.quiet hup hrx htx h).1
    obtain ⟨m, hm, ht⟩ := processProbe_inv h
    have hcnt := hm.recoveryCount
    obtain ⟨rate, -, rfl⟩ := transition_probing (hm.state.trans hst) ht
    by_cases hge : m.recoveryCount + 1 ≥ cfg.probeRecoveryCount.toNat
    · exact Or.inr (Or.inr ⟨hfaded', Or.inl (if_pos hge)⟩)
    · refine Or.inr (Or.inl ⟨hfaded', if_neg hge, Or.inr ?_⟩)
      show m.recoveryCount + 1 = n + 1 ∧ n + 1 < _
      omega
  · have hup : s.state ≠ .down := by
      rcases hact with hst | hst
      · rw [hst]
        decide
      · rw [hst]
        decide
    obtain ⟨hfaded', hloss⟩ := hfaded.quiet hup hrx htx h
    exact Or.inr (Or.inr ⟨hfaded', active_probe hact (hhold hact) h hloss⟩)

/-- From the second probe and the configured count on, the way back is
over. -/
theorem Recovering.active {n : Nat} (h : Recovering cfg bound n s)
    (hn : max 2 cfg.probeRecoveryCount.toNat ≤ n) : s.Active := by
  rcases h with ⟨rfl, -⟩ | ⟨-, -, h⟩ | ⟨-, hact⟩
  · omega
  · omega
  · exact hact

/-- Moving a probe snapshot or nothing at all does not matter on the way
back. -/
theorem Recovering.congr {n : Nat} (h : Recovering cfg bound n s)
    (hstate : s'.state = s.state)
    (hcount : s'.recoveryCount = s.recoveryCount)
    (hset : s.Settled → s'.Settled)
    (hsend : s'.sendLedger = s.sendLedger)
    (hrecv : s'.recvLedger = s.recvLedger) : Recovering cfg bound n s' := by
  have hfaded : s.Faded cfg bound → s'.Faded cfg bound := fun hf =>
    ⟨hset hf.settled, hsend ▸ hf.send, hrecv ▸ hf.recv⟩
  unfold Recovering Active at h ⊢
  rw [hstate, hcount]
  rcases h with h | ⟨hf, h⟩ | ⟨hf, h⟩
  · exact Or.inl h
  · exact Or.inr (Or.inl ⟨hfaded hf, h⟩)
  · exact Or.inr (Or.inr ⟨hfaded hf, h⟩)

end RateState

-- ============================================================== quiet runs

/-- A quiet step for link `l`: no packet recorded on it, a probe for it
reports no packets, and no timeout fires on it. Anything may happen on
the other links, and probes may be built. -/
def Quiet (l : Nat) : RateOp → RateController → Prop
  | .recordTx linkId _, _ => linkId ≠ l
  | .recordRx linkId _, _ => linkId ≠ l
  | .buildProbes _, _ => True
  | .processProbe _ probe, _ =>
      probe.linkId.toNat = l → probe.rxPackets = 0 ∧ probe.txPackets = 0
  | .checkTimeouts now, rc => ∀ s ∈ rc.states[l]?,
      s.timedOut rc.config (now l) = false

instance (l : Nat) : ∀ op rc, Decidable (Quiet l op rc)
  | .recordTx _ _, _ => inferInstanceAs (Decidable (_ ≠ _))
  | .recordRx _ _, _ => inferInstanceAs (Decidable (_ ≠ _))
  | .buildProbes _, _ => isTrue trivial
  | .processProbe _ _, _ => inferInstanceAs (Decidable (_ → _))
  | .checkTimeouts _, _ => inferInstanceAs (Decidable (∀ s ∈ _, _))

/-- A probe that finds link `l` `Down` finds accounts that fade. -/
def OldLossFades (l bound : Nat) : RateOp → RateController → Prop
  | .processProbe _ probe, rc => probe.linkId.toNat = l →
      ∀ s ∈ rc.states[l]?, s.state = .down →
        ∀ confidence ∈ rc.calculateProbeConfidence l,
          s.OldFades rc.config confidence bound
  | _, _ => True

/-- A probe that finds link `l` `Running` or `Lossy` finds a loss of
`bound` tolerated. -/
def OldLossTolerated (l bound : Nat) : RateOp → RateController → Prop
  | .processProbe _ probe, rc => probe.linkId.toNat = l →
      ∀ s ∈ rc.states[l]?, s.Active →
        ∀ confidence ∈ rc.calculateProbeConfidence l,
          Withstands rc.config confidence rc.allLinksPhantomLoss bound
  | _, _ => True

instance (l bound : Nat) : ∀ op rc, Decidable (OldLossTolerated l bound op rc)
  | .processProbe _ _, _ => inferInstanceAs (Decidable (_ → _))
  | .recordTx _ _, _ | .recordRx _ _, _ | .buildProbes _, _
  | .checkTimeouts _, _ => isTrue trivial

/-- A probe that finds link `l` `Down` finds accounts with a margin. -/
def OldLossMargin (l bound : Nat) : RateOp → RateController → Prop
  | .processProbe _ probe, rc => probe.linkId.toNat = l →
      ∀ s ∈ rc.states[l]?, s.state = .down →
        ∀ confidence ∈ rc.calculateProbeConfidence l,
          (s.sendLedger.add (gated rc.config confidence s.pendingTx,
              0)).Margin rc.config bound
            ∧ (s.recvLedger.add (0, gated rc.config confidence
              s.pendingRx)).Margin rc.config bound
  | _, _ => True

instance (l bound : Nat) : ∀ op rc, Decidable (OldLossMargin l bound op rc)
  | .processProbe _ _, _ => inferInstanceAs (Decidable (_ → _))
  | .recordTx _ _, _ | .recordRx _ _, _ | .buildProbes _, _
  | .checkTimeouts _, _ => isTrue trivial

/-- Old accounts with a margin fade. -/
theorem OldLossMargin.fades {l bound : Nat} :
    ∀ (op : RateOp) (rc : RateController), OldLossMargin l bound op rc →
      OldLossFades l bound op rc
  | .processProbe _ _, _, h => fun hl s hs hdown confidence hc =>
      (h hl s hs hdown confidence hc).imp Ledger.fades_of_margin
        Ledger.fades_of_margin
  | .recordTx _ _, _, _ | .recordRx _ _, _, _ | .buildProbes _, _, _
  | .checkTimeouts _, _, _ => trivial

/-- One quiet step on the way back. -/
theorem recovering_step {rc : RateController} {l bound n : Nat} {op : RateOp}
    {s s' : RateState} (hs : rc.states[l]? = some s)
    (hrec : RateState.Recovering rc.config bound n s) (hquiet : Quiet l op rc)
    (hold : OldLossFades l bound op rc)
    (htol : OldLossTolerated l bound op rc)
    (h : op.linkStep rc l s = some s') :
    RateState.Recovering rc.config bound
      (n + if op.isProbeOf l then 1 else 0) s' := by
  cases op with
  | recordTx linkId bytes =>
      simp only [RateOp.linkStep, if_neg (show linkId ≠ l from hquiet)] at h
      cases h
      exact hrec
  | recordRx linkId bytes =>
      simp only [RateOp.linkStep, if_neg (show linkId ≠ l from hquiet)] at h
      cases h
      exact hrec
  | buildProbes now =>
      obtain ⟨⟨p, s₁⟩, hb, rfl⟩ := Option.map_eq_some_iff.mp h
      obtain ⟨-, -, -, -, -, rfl⟩ := RateState.buildProbe_inv hb
      exact hrec.congr rfl rfl id rfl rfl
  | processProbe clk probe =>
      by_cases hl : probe.linkId.toNat = l
      · simp only [RateOp.linkStep, if_pos hl] at h
        obtain ⟨confidence, hc, h⟩ := Option.bind_eq_some_iff.mp h
        obtain ⟨hrx, htx⟩ := hquiet hl
        have hprobe : RateOp.isProbeOf l (.processProbe clk probe) = true := by
          simp [RateOp.isProbeOf, hl]
        rw [if_pos hprobe]
        exact RateState.recovering_probe hrec hrx htx
          (fun hdown => hold hl s hs hdown confidence hc)
          (fun hact => htol hl s hs hact confidence hc) h
      · simp only [RateOp.linkStep, if_neg hl] at h
        cases h
        have hprobe : RateOp.isProbeOf l (.processProbe clk probe) = false := by
          simp [RateOp.isProbeOf, hl]
        rw [hprobe]
        exact hrec
  | checkTimeouts now =>
      simp only [RateOp.linkStep, RateState.checkTimeout, hquiet s hs] at h
      cases h
      exact hrec

/-- A quiet run on which the old loss fades follows the way back, one
probe at a time. -/
theorem recovering_run {l bound : Nat} :
    ∀ {ops : List RateOp} {rc rc' : RateController} {n : Nat}
      {s : RateState},
      Trace.run RateOp.apply ops rc = some rc' →
      Trace.Along RateOp.apply (Quiet l) ops rc →
      Trace.Along RateOp.apply (OldLossFades l bound) ops rc →
      Trace.Along RateOp.apply (OldLossTolerated l bound) ops rc →
      rc.states[l]? = some s → RateState.Recovering rc.config bound n s →
      ∃ s', rc'.states[l]? = some s'
        ∧ RateState.Recovering rc.config bound
          (n + ops.countP (RateOp.isProbeOf l)) s' := by
  intro ops
  induction ops with
  | nil =>
      intro rc rc' n s hrun _ _ _ hs hrec
      cases hrun
      exact ⟨s, hs, hrec⟩
  | cons op ops ih =>
      intro rc rc' n s hrun hquiet hold htol hs hrec
      obtain ⟨rc₁, hstep, hrun⟩ := Trace.run_cons_inv hrun
      obtain ⟨hcfg, -, hlink⟩ := apply_link hstep
      obtain ⟨s₁, hs₁, hget⟩ := hlink l s hs
      have hrec₁ :=
        recovering_step hs hrec hquiet.head hold.head htol.head hs₁
      rw [← hcfg] at hrec₁
      obtain ⟨s', hs', hrec'⟩ := ih hrun (hquiet.tail hstep)
        (hold.tail hstep) (htol.tail hstep) hget hrec₁
      refine ⟨s', hs', ?_⟩
      rw [hcfg] at hrec'
      rw [List.countP_cons, Nat.add_comm (ops.countP _), ← Nat.add_assoc]
      exact hrec'

/-- A `Down` link recovers and stays recovered on a quiet run, from any
state, reachable or not, if the accounts fade below a bound from the
probe on that finds it `Down` and every probe that finds it `Running` or
`Lossy` tolerates a loss of that bound. -/
theorem down_link_recovers {rc rc' : RateController} {l bound : Nat}
    {s : RateState} {ops : List RateOp}
    (hs : rc.states[l]? = some s) (hdown : s.state = .down)
    (hrun : Trace.run RateOp.apply ops rc = some rc')
    (hquiet : Trace.Along RateOp.apply (Quiet l) ops rc)
    (hold : Trace.Along RateOp.apply (OldLossFades l bound) ops rc)
    (htol : Trace.Along RateOp.apply (OldLossTolerated l bound) ops rc)
    (hk : max 2 rc.config.probeRecoveryCount.toNat
      ≤ ops.countP (RateOp.isProbeOf l)) :
    rc'.linkState l = .running ∨ rc'.linkState l = .lossy := by
  have hstart : RateState.Recovering rc.config bound 0 s :=
    Or.inl ⟨rfl, hdown⟩
  obtain ⟨s', hs', hrec⟩ := recovering_run hrun hquiet hold htol hs hstart
  rw [Nat.zero_add] at hrec
  unfold RateController.linkState
  rw [hs']
  exact hrec.active hk

/-- A probe for link 0 that reports `received` packets. -/
private def reportProbe (received : UInt32) : RateOp :=
  .processProbe ⟨0, 0⟩ (ProbePacket.mk 0 1 0 0 0 0 0 received 0 .running)

/-- A third of 1200 packets is lost before a timeout. The loss of 85 stays
on the link, which comes back with the third idle probe and is still
there, `Lossy` by the old loss, after three more. -/
theorem down_link_recovers_lossy :
    let before := List.replicate 1200 (.recordTx 0 100)
      ++ [reportProbe 800, .checkTimeouts fun _ => 6000000000]
    let ops := List.replicate 6 (reportProbe 0)
    ∃ rc rc' s, Trace.run RateOp.apply before
        (RateController.new .default [7500000] fun _ => 0) = some rc
      ∧ rc.states[0]? = some s ∧ s.state = .down ∧ s.sendLoss = 85
      ∧ Trace.run RateOp.apply ops rc = some rc'
      ∧ (rc'.linkState 0 = .running ∨ rc'.linkState 0 = .lossy) := by
  intro before ops
  let start := RateController.new .default [7500000] fun _ => 0
  have hbefore : ((Trace.run RateOp.apply before start).bind
      fun rc => rc.states[0]?).map (fun s => (s.state, s.sendLoss))
        = some (.down, 85) := by
    decide +kernel
  have hafter : ∀ rc ∈ Trace.run RateOp.apply before start,
      (Trace.run RateOp.apply ops rc).isSome
        ∧ rc.config.probeRecoveryCount = 3
        ∧ Trace.Along RateOp.apply (Quiet 0) ops rc
        ∧ Trace.Along RateOp.apply (OldLossMargin 0 191) ops rc
        ∧ Trace.Along RateOp.apply (OldLossTolerated 0 191) ops rc := by
    decide +kernel
  obtain ⟨s, hbind, hs⟩ := Option.map_eq_some_iff.mp hbefore
  obtain ⟨hdown, hloss⟩ := Prod.mk.inj hs
  obtain ⟨rc, hrc, hget⟩ := Option.bind_eq_some_iff.mp hbind
  obtain ⟨hsome, hcount, hquiet, hmargin, htol⟩ := hafter rc hrc
  obtain ⟨rc', hrun⟩ := Option.isSome_iff_exists.mp hsome
  refine ⟨rc, rc', s, hrc, hget, hdown, hloss, hrun, ?_⟩
  refine down_link_recovers hget hdown hrun hquiet
    (hmargin.imp OldLossMargin.fades) htol ?_
  rw [hcount]
  decide

/-- Loss from before the outage. Of 1001 packets none is received, which
takes the link down and leaves 939 in the sending account, below the
packet minimum. So the stored loss of 255 is never judged anew: the way
back succeeds with the third idle probe, and the fourth takes the link
down again by it. -/
theorem recovered_link_downed_again :
    ∃ (before ops : List RateOp) (rc rc' : RateController) (s : RateState),
      Trace.run RateOp.apply before
          (RateController.new .default [7500000] fun _ => 0) = some rc
        ∧ rc.states[0]? = some s ∧ s.state = .down
        ∧ Trace.run RateOp.apply ops rc = some rc'
        ∧ Trace.Along RateOp.apply (Quiet 0) ops rc
        ∧ max 2 RateControlConfig.default.probeRecoveryCount.toNat
          ≤ ops.countP (RateOp.isProbeOf 0)
        ∧ rc'.linkState 0 = .down := by
  let start := RateController.new .default [7500000] fun _ => 0
  let before := List.replicate 1001 (.recordTx 0 100) ++ [reportProbe 0]
  let ops := List.replicate 4 (reportProbe 0)
  have hdown : ((Trace.run RateOp.apply before start).bind
      fun rc => rc.states[0]?).map RateState.state = some .down := by
    decide +kernel
  have hagain : (Trace.run RateOp.apply (before ++ ops) start).map
      (fun rc => rc.linkState 0) = some .down := by
    decide +kernel
  obtain ⟨s, hbind, hs⟩ := Option.map_eq_some_iff.mp hdown
  obtain ⟨rc, hrc, hget⟩ := Option.bind_eq_some_iff.mp hbind
  obtain ⟨rc', hrun, hlink⟩ := Option.map_eq_some_iff.mp hagain
  rw [Trace.run_append, hrc] at hrun
  refine ⟨before, ops, rc, rc', s, hrc, hget, hs, hrun, ?_, by decide,
    hlink⟩
  refine Trace.Along.of_forall (fun op hop _ => ?_) rc
  rw [List.eq_of_mem_replicate hop]
  exact fun _ => ⟨rfl, rfl⟩

end ChainLightning
