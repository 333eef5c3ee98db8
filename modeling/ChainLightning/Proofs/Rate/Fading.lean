/-
Old loss fades.

A ledger whose cycles lose nothing keeps its deficit, and each judgement
moves it a sixteenth of the way toward 15: the two integer divisions of
the decay leave that much (`Ledger.settle_deficit`). A cycle below the
packet minimum moves nothing. So the distance above 15 shrinks by 15/16
with every judged cycle, however many others lie between them, and once
it is small the loss that is judged over more than a thousand packets
cannot exceed 4 (`Ledger.fades`).
-/
import Mathlib.Tactic.Linarith
import Mathlib.Tactic.NormNum
import Mathlib.Tactic.FieldSimp
import ChainLightning.Proofs.Rate.Directions

namespace ChainLightning

open Machine RateState

namespace Ledger

variable {minPackets : Nat}

/-- What was sent and did not arrive. -/
def deficit (l : Ledger) : Nat := l.txAcc - l.rxAcc

/-- The cycle brings the account above the packet minimum. -/
def Judges (minPackets : Nat) (c : Nat × Nat) (l : Ledger) : Prop :=
  l.txAcc + c.1 > minPackets

instance (minPackets : Nat) (c : Nat × Nat) (l : Ledger) :
    Decidable (Judges minPackets c l) :=
  inferInstanceAs (Decidable (_ > _))

/-- How many of the cycles do. -/
def judged (minPackets : Nat) : Ledger → List (Nat × Nat) → Nat
  | _, [] => 0
  | l, c :: counts =>
      (if l.Judges minPackets c then 1 else 0)
        + judged minPackets (l.settle minPackets c) counts

/-- A cycle that is not judged keeps the loss, -/
theorem settle_kept_loss {l : Ledger} {c : Nat × Nat}
    (hkept : ¬l.Judges minPackets c) :
    (l.settle minPackets c).loss = l.loss := if_neg hkept

/-- and, if it loses nothing, the deficit. -/
theorem settle_kept_deficit {l : Ledger} {c : Nat × Nat} (hc : c.2 = c.1)
    (hkept : ¬l.Judges minPackets c) :
    (l.settle minPackets c).deficit = l.deficit := by
  have hle : ¬l.txAcc + c.1 > minPackets := hkept
  unfold settle deficit decayed
  simp only [if_neg hle]
  omega

/-- So do any number of them. -/
theorem settleAll_kept_loss {counts : List (Nat × Nat)} {l : Ledger}
    (hnone : judged minPackets l counts = 0) :
    (settleAll minPackets l counts).loss = l.loss := by
  induction counts generalizing l with
  | nil => rfl
  | cons c counts ih =>
      rw [judged] at hnone
      have hkept : ¬l.Judges minPackets c := by
        intro hjudged
        rw [if_pos hjudged] at hnone
        omega
      have hrest : judged minPackets (l.settle minPackets c) counts = 0 := by
        omega
      exact (ih hrest).trans (settle_kept_loss hkept)

/-- A judged cycle that loses nothing moves the deficit toward 15. -/
theorem settle_deficit {l : Ledger} {c : Nat × Nat} (hc : c.2 = c.1)
    (hjudged : l.Judges minPackets c) :
    16 * (l.settle minPackets c).deficit ≤ 15 * (l.deficit + 1) := by
  have hgt : l.txAcc + c.1 > minPackets := hjudged
  unfold settle deficit decayed
  simp only [if_pos hgt]
  omega

/-- The same, as a distance above 15. -/
theorem settle_above {l : Ledger} {c : Nat × Nat} (hc : c.2 = c.1)
    (hjudged : l.Judges minPackets c) :
    ((l.settle minPackets c).deficit : ℚ) - 15
      ≤ 15 / 16 * ((l.deficit : ℚ) - 15) := by
  have hnat := settle_deficit hc hjudged
  have hcast : 16 * ((l.settle minPackets c).deficit : ℚ)
      ≤ 15 * ((l.deficit : ℚ) + 1) := by exact_mod_cast hnat
  linarith

/-- Over more than a thousand packets, a deficit of 19 is a loss of at most
5. -/
theorem settle_loss {l : Ledger} {c : Nat × Nat} (hc : c.2 = c.1)
    (hmin : 1000 ≤ minPackets) (hjudged : l.Judges minPackets c)
    (hsmall : l.deficit ≤ 19) : (l.settle minPackets c).loss ≤ 5 := by
  have hgt : l.txAcc + c.1 > minPackets := hjudged
  have hloss : (l.settle minPackets c).loss
      = (l.txAcc + c.1 - (l.rxAcc + c.2)) * 255 / (l.txAcc + c.1) :=
    if_pos hgt
  have hdeficit : l.txAcc + c.1 - (l.rxAcc + c.2) ≤ 19 := by
    unfold deficit at hsmall
    omega
  rw [hloss, ← Nat.lt_add_one_iff, Nat.div_lt_iff_lt_mul (by omega)]
  omega

/-- Cycles that lose nothing: the distance of the deficit above 15 shrinks
by 15/16 with each judged one, and where it has come down to 4 the loss
judged last is at most 5. -/
theorem fades (hmin : 1000 ≤ minPackets) :
    ∀ {counts : List (Nat × Nat)} (l : Ledger), (∀ c ∈ counts, c.2 = c.1) →
      ((settleAll minPackets l counts).deficit : ℚ) - 15
          ≤ (15 / 16) ^ judged minPackets l counts * ((l.deficit : ℚ) - 15)
        ∧ (0 < judged minPackets l counts →
          (15 / 16) ^ judged minPackets l counts * ((l.deficit : ℚ) - 15) ≤ 4 →
          (settleAll minPackets l counts).loss ≤ 5) := by
  intro counts
  induction counts with
  | nil =>
      intro l _
      refine ⟨?_, fun hpos => absurd hpos (Nat.lt_irrefl 0)⟩
      simp [settleAll, judged]
  | cons c counts ih =>
      intro l hexact
      have hc : c.2 = c.1 := hexact c List.mem_cons_self
      have hrest : ∀ c ∈ counts, c.2 = c.1 :=
        fun c' hc' => hexact c' (List.mem_cons_of_mem _ hc')
      obtain ⟨hfade, hloss⟩ := ih (l.settle minPackets c) hrest
      have hall : settleAll minPackets l (c :: counts)
          = settleAll minPackets (l.settle minPackets c) counts := rfl
      rw [hall, judged]
      generalize hk : judged minPackets (l.settle minPackets c) counts = k
        at hfade hloss ⊢
      have hpow : (0 : ℚ) ≤ (15 / 16) ^ k := by positivity
      by_cases hjudged : l.Judges minPackets c
      · have habove := settle_above hc hjudged
        have hstep : (15 / 16 : ℚ) ^ k
            * (((l.settle minPackets c).deficit : ℚ) - 15)
              ≤ (15 / 16) ^ (1 + k) * ((l.deficit : ℚ) - 15) := by
          calc (15 / 16 : ℚ) ^ k
                * (((l.settle minPackets c).deficit : ℚ) - 15)
              ≤ (15 / 16) ^ k * (15 / 16 * ((l.deficit : ℚ) - 15)) :=
                mul_le_mul_of_nonneg_left habove hpow
            _ = (15 / 16) ^ (1 + k) * ((l.deficit : ℚ) - 15) := by
                rw [pow_add]
                ring
        rw [if_pos hjudged]
        refine ⟨hfade.trans hstep, fun _ hsmall => ?_⟩
        rcases Nat.eq_zero_or_pos k with hzero | hpos
        · -- the loss judged now is the last one
          have hlast := settleAll_kept_loss (hk.trans hzero)
          have hdeficit : l.deficit ≤ 19 := by
            rw [hzero, Nat.add_zero, pow_one] at hsmall
            have hlt : (l.deficit : ℚ) < 20 := by linarith
            have hnat : l.deficit < 20 := by exact_mod_cast hlt
            omega
          rw [hlast]
          exact settle_loss hc hmin hjudged hdeficit
        · exact hloss hpos (hstep.trans hsmall)
      · have hdeficit := settle_kept_deficit hc hjudged
        rw [if_neg hjudged, Nat.zero_add, ← hdeficit]
        exact ⟨hfade, hloss⟩

/-- The same for the deficit itself: at most 15 and what has faded of the
old one. -/
theorem faded (hmin : 1000 ≤ minPackets) {counts : List (Nat × Nat)}
    (l : Ledger) (hexact : ∀ c ∈ counts, c.2 = c.1) :
    ((settleAll minPackets l counts).deficit : ℚ)
        ≤ 15 + l.deficit * (15 / 16) ^ judged minPackets l counts
      ∧ (0 < judged minPackets l counts →
        (l.deficit : ℚ) * (15 / 16) ^ judged minPackets l counts ≤ 4 →
        (settleAll minPackets l counts).loss ≤ 5) := by
  obtain ⟨hfade, hloss⟩ := fades hmin l hexact
  generalize judged minPackets l counts = k at hfade hloss ⊢
  have hpow : (0 : ℚ) ≤ (15 / 16) ^ k := by positivity
  have hsplit : (15 / 16 : ℚ) ^ k * ((l.deficit : ℚ) - 15)
      = l.deficit * (15 / 16) ^ k - 15 * (15 / 16) ^ k := by ring
  rw [hsplit] at hfade hloss
  exact ⟨by linarith, fun hpos hsmall => hloss hpos (by linarith)⟩

end Ledger

/-- A link of a reachable controller is sound. -/
theorem sound_reached {cfg : RateControlConfig} {maxRates : List Nat}
    {now : Nat → Nat} {ops : List RateOp} {rc : RateController}
    (hrun : Trace.run RateOp.apply ops (RateController.new cfg maxRates now)
      = some rc) {i : Nat} {s : RateState} (hs : rc.states[i]? = some s) :
    s.Sound := by
  refine reachable_link (P := fun _ s => s.Sound) ?_ ?_ hrun i s hs
  · exact fun i rate _ => sound_new i rate cfg.minRateFraction (now i)
  · exact fun rc op i s s' _ hsound hstep => (cyclesFrom_step hsound hstep).1

/-- Old loss fades. Without TAPA, over at least a thousand packets and with
a loss threshold of at least 5: from any reachable state of a link with a
deficit `D`, if each later probe reports as received what was recorded
sent since the one before, then after `k` judged cycles the deficit is at
most `15 + D * (15/16) ^ k`, and once `D * (15/16) ^ k` is at most 4 the
loss that was judged last is within the threshold. Likewise in the
receiving direction. -/
theorem old_loss_fades {cfg : RateControlConfig}
    (htapa : cfg.tapaEnabled = false)
    (hmin : 1000 ≤ cfg.lossMinPackets) (hthreshold : 5 ≤ cfg.lossThreshold)
    {maxRates : List Nat} {now : Nat → Nat} {i : Nat}
    {before after : List RateOp} {rc rc' : RateController}
    {s s' : RateState}
    (hbefore : Trace.run RateOp.apply before
      (RateController.new cfg maxRates now) = some rc)
    (hs : rc.states[i]? = some s)
    (hafter : Trace.run RateOp.apply after rc = some rc')
    (hs' : rc'.states[i]? = some s') :
    let later := cyclesFrom i s.pendingTx s.pendingRx after
    let kSend := s.sendLedger.judged cfg.lossMinPackets.toNat
      (later.map Cycle.sendCounts)
    let kRecv := s.recvLedger.judged cfg.lossMinPackets.toNat
      (later.map Cycle.recvCounts)
    ((∀ c ∈ later, c.probe.rxPackets.toNat = c.sent) →
      ((s'.sendTxAcc - s'.sendRxAcc : Nat) : ℚ)
          ≤ 15 + (s.sendTxAcc - s.sendRxAcc : Nat) * (15 / 16) ^ kSend
        ∧ (0 < kSend →
          ((s.sendTxAcc - s.sendRxAcc : Nat) : ℚ) * (15 / 16) ^ kSend ≤ 4 →
          s'.sendLoss ≤ cfg.lossThreshold))
    ∧ ((∀ c ∈ later, c.received = c.probe.txPackets.toNat) →
      ((s'.recvTxAcc - s'.recvRxAcc : Nat) : ℚ)
          ≤ 15 + (s.recvTxAcc - s.recvRxAcc : Nat) * (15 / 16) ^ kRecv
        ∧ (0 < kRecv →
          ((s.recvTxAcc - s.recvRxAcc : Nat) : ℚ) * (15 / 16) ^ kRecv ≤ 4 →
          s'.recvLoss ≤ cfg.lossThreshold)) := by
  intro later kSend kRecv
  have hconfig : rc.config = cfg := (run_config hbefore).1
  obtain ⟨t, ht, hsend, hrecv⟩ :=
    ledgers_run htapa hconfig hafter hs (sound_reached hbefore hs)
  obtain rfl : s' = t := Option.some.inj (hs'.symm.trans ht)
  have hmin' : 1000 ≤ cfg.lossMinPackets.toNat :=
    UInt64.le_iff_toNat_le.mp hmin
  have hwithin : ∀ {loss : UInt8}, loss.toNat ≤ 5 →
      loss ≤ cfg.lossThreshold := fun hle =>
    UInt8.le_iff_toNat_le.mpr (hle.trans (UInt8.le_iff_toNat_le.mp hthreshold))
  constructor
  · intro hexact
    have hcounts : ∀ c ∈ later.map Cycle.sendCounts, c.2 = c.1 :=
      List.forall_mem_map.mpr fun c hc => congrArg ungated (hexact c hc)
    obtain ⟨hdeficit, hloss⟩ := Ledger.faded hmin' s.sendLedger hcounts
    rw [← hsend] at hdeficit hloss
    exact ⟨hdeficit, fun hpos hsmall => hwithin (hloss hpos hsmall)⟩
  · intro hexact
    have hcounts : ∀ c ∈ later.map Cycle.recvCounts, c.2 = c.1 :=
      List.forall_mem_map.mpr fun c hc => congrArg ungated (hexact c hc)
    obtain ⟨hdeficit, hloss⟩ := Ledger.faded hmin' s.recvLedger hcounts
    rw [← hrecv] at hdeficit hloss
    exact ⟨hdeficit, fun hpos hsmall => hwithin (hloss hpos hsmall)⟩

/-- The defaults without TAPA. -/
private def untappedConfig : RateControlConfig :=
  { RateControlConfig.default with tapaEnabled := false }

/-- The remote sent 2000 packets, and none arrived. -/
private def allLostOps : List RateOp :=
  [.processProbe ⟨2000, 7⟩ (ProbePacket.mk 0 1 5 0 0 2000 0 0 0 .running)]

/-- Then nothing is sent, twice. -/
private def silentOps : List RateOp :=
  [.processProbe ⟨3000, 8⟩ (ProbePacket.mk 0 2 6 0 0 0 0 0 0 .running),
    .processProbe ⟨4000, 9⟩ (ProbePacket.mk 0 3 7 0 0 0 0 0 0 .running)]

/-- The law on this run, where both later cycles are judged. -/
theorem old_loss_fades_all_lost : ∃ rc rc' s s',
    Trace.run RateOp.apply allLostOps
        (RateController.new untappedConfig [7500000] fun _ => 0) = some rc
      ∧ Trace.run RateOp.apply silentOps rc = some rc'
      ∧ rc.states[0]? = some s ∧ rc'.states[0]? = some s'
      ∧ s.recvTxAcc - s.recvRxAcc = 1875
      ∧ ((s'.recvTxAcc - s'.recvRxAcc : Nat) : ℚ)
        ≤ 15 + 1875 * (15 / 16) ^ 2 := by
  obtain ⟨rc, rc', s, s', hbefore, hafter, hs, hs', htest⟩ :=
    run_twice (RateController.new untappedConfig [7500000] fun _ => 0)
      allLostOps silentOps 0
      (fun s _ => s.recvTxAcc = 1875 ∧ s.recvRxAcc = 0
        ∧ s.pendingTx = 0 ∧ s.pendingRx = 0 ∧ s.recvLoss = 255)
      (by decide +kernel)
  obtain ⟨htx, hrx, hpendingTx, hpendingRx, hloss⟩ := of_decide_eq_true htest
  have hfades := (old_loss_fades rfl (by decide) (by decide) hbefore hs hafter
    hs').2
  have hledger : s.recvLedger = ⟨1875, 0, 255⟩ := by
    unfold recvLedger
    rw [htx, hrx, hloss]
    rfl
  rw [hpendingTx, hpendingRx, hledger, htx, hrx] at hfades
  have hjudged : Ledger.judged untappedConfig.lossMinPackets.toNat
      ⟨1875, 0, 255⟩ ((cyclesFrom 0 0 0 silentOps).map Cycle.recvCounts)
      = 2 := by
    decide +kernel
  have hfaded := (hfades (by decide)).1
  rw [hjudged] at hfaded
  exact ⟨rc, rc', s, s', hbefore, hafter, hs, hs', by rw [htx, hrx], hfaded⟩

end ChainLightning
