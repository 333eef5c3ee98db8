/-
How much in flight the loss accounting bears.

Packets that the far side had not received when it built its probe are
counted as lost by the probe that reports on them, and credited only by
the next one. On a link that delivers everything once and in order the
sending direction is therefore behind by the packets outstanding; the
receiving direction is exact, because what the far side had sent has
arrived with its probe. TAPA adds to it: a delivery reported by a probe
that is processed at reduced confidence is credited in part, so some of
the outstanding packets that arrive then stay counted.

What the sending direction is behind by at most is its debt. A processed
probe charges what the gate counts of the packets that are newly
outstanding and takes off what it counts of those that arrived
(`charged`); a probe that judges the direction takes off a sixteenth, and
accelerated recovery a quarter (`left`). With the default configuration a link is judged from 1001
packets on and goes `Down` above 200/255. So the debt is borne as long as
it is less than 201/255 of the packets in the sending accumulator whenever
that is judged (`in_flight_never_downs`): 789 packets always are, and 790
can be too many (`in_flight_counted_as_loss`).
-/
import ChainLightning.Proofs.Link.Exact
import ChainLightning.Proofs.Rate.Arithmetic
import ChainLightning.Proofs.Rate.Directions

namespace ChainLightning

open Binary64 Machine Meter

-- ================================================================== the debt

/-- Packets that the receipt's probe does not report although they had
been sent when it was processed. -/
def Receipt.outstanding (c : Receipt) : Nat := c.sent - c.report.got

namespace RateState

/-- What the gate credits at least of `n` outstanding packets that
arrived: all of them at full confidence, and at a reduced one what it
counts of them less one for the rounding. -/
def arrived (confidence : ℚ) (n : Nat) : Nat :=
  if confidence < 1 then gated .default confidence n - 1 else n

/-- What the gate counts at most of `n` packets that are newly
outstanding: at a reduced confidence two more than it counts of them by
themselves. -/
def departed (confidence : ℚ) (n : Nat) : Nat :=
  if confidence < 1 then min n (gated .default confidence n + 2) else n

/-- The debt at a processed probe, `before` packets being outstanding at
the one before. It is no more than what is counted as sent. -/
def charged (before : Nat) (c : Receipt) (debt : Nat) (s : RateState) : Nat :=
  min (debt + departed c.confidence (c.outstanding - before)
      - arrived c.confidence (before - c.outstanding))
    (s.sentSum .default c.confidence)

/-- The debt that the probe leaves: less a sixteenth if the direction is
judged, and less a quarter if the link turns light. -/
def left (c : Receipt) (debt : Nat) (s : RateState) : Nat :=
  let kept := decayed RateControlConfig.default.lossMinPackets.toNat
    (s.sentSum .default c.confidence) debt
  if s.turnsLight c.confidence then kept - kept / 4 else kept

/-- A gap that a count of sent packets bears: if it is judged, then at
most 200 of 255. -/
def Borne (gap sent : Nat) : Prop := 1000 < sent → gap * 255 < 201 * sent

instance (gap sent : Nat) : Decidable (Borne gap sent) :=
  inferInstanceAs (Decidable (_ → _))

-- ============================================================= one probe

variable {clk : Clock} {suppress : Bool} {debt : Nat} {c : Receipt}
  {s s' : RateState}

/-- Two counts that balance up to what is outstanding before and after
still do when gated, up to what the gate counts of the difference. -/
theorem gated_balance {confidence : ℚ} (h0 : 0 ≤ confidence)
    (h1 : confidence ≤ 1) (hdouble : rnd confidence = confidence)
    {sent delivered before after : Nat} (hsent : sent < 2 ^ 26)
    (hfit : delivered < 2 ^ 32)
    (hbalance : sent + before = delivered + after) :
    gated .default confidence sent + arrived confidence (before - after)
      ≤ gated .default confidence delivered
        + departed confidence (after - before) := by
  have hgate : ∀ n, gated .default confidence n = scaled 64 confidence n :=
    fun _ => rfl
  unfold arrived departed
  simp only [hgate]
  by_cases hdim : confidence < 1
  · rw [if_pos hdim, if_pos hdim]
    rcases Nat.le_total before after with hmore | hfewer
    · obtain ⟨up, rfl⟩ := Nat.exists_eq_add_of_le hmore
      obtain rfl : sent = delivered + up := by omega
      have hup := scaled_add_le (w := 64) hdouble h0 h1
        (m := delivered) (n := up) (by omega) (by omega)
      have hgated := scaled_split (w := 64) h0 h1 (m := delivered) (n := up)
        (by omega) (by omega)
      rw [Nat.add_sub_cancel_left]
      have hnone : scaled 64 confidence (before - (before + up)) = 0 := by
        rw [Nat.sub_add_eq, Nat.sub_self, Nat.zero_sub, scaled_zero]
      omega
    · obtain ⟨down, rfl⟩ := Nat.exists_eq_add_of_le hfewer
      obtain rfl : delivered = sent + down := by omega
      have hdown := scaled_add (w := 64) h0 h1 (m := sent) (n := down)
        (by omega) (by omega)
      have hmono := scaled_mono 64 confidence (Nat.le_add_right sent down)
      rw [Nat.add_sub_cancel_left]
      omega
  · -- at full confidence everything counts in full
    obtain rfl : confidence = 1 := le_antisymm h1 (le_of_not_gt hdim)
    rw [if_neg hdim, if_neg hdim, scaled_one (by omega) (by omega),
      scaled_one (by omega) (by omega)]
    omega

/-- A direction behind by a gap it bears is not judged above 200 of
255. -/
theorem lossOf_le {txAcc rxAcc gap stored : Nat}
    (hgap : txAcc ≤ rxAcc + gap) (hborne : Borne gap txAcc)
    (hstored : stored ≤ 200) : lossOf 1000 txAcc rxAcc stored ≤ 200 := by
  unfold lossOf
  by_cases hmin : txAcc > 1000
  · rw [if_pos hmin]
    have hsmall := hborne hmin
    have hlt : (txAcc - rxAcc) * 255 < txAcc * 201 := by
      rw [Nat.mul_comm, Nat.mul_comm txAcc]
      omega
    exact Nat.le_of_lt_succ (Nat.div_lt_of_lt_mul hlt)
  · rw [if_neg hmin]
    exact hstored

/-- A link that bears a debt: active, behind by at most as many packets in
the sending direction, and exact in the receiving one. -/
structure Bearing (s : RateState) (debt : Nat) : Prop where
  active : s.Active
  sendLoss : s.sendLoss.toNat ≤ 200
  recvLoss : s.recvLoss.toNat ≤ 200
  send : s.sendTxAcc ≤ s.sendRxAcc + debt
  recv : s.recvTxAcc = s.recvRxAcc
  few : s.sendTxAcc ≤ 2 ^ 30

theorem Bearing.congr (h : s.Bearing debt) (hsame : s.SameLoss s') :
    s'.Bearing debt where
  active := by
    unfold Active
    rw [hsame.state]
    exact h.active
  sendLoss := by rw [hsame.sendLoss]; exact h.sendLoss
  recvLoss := by rw [hsame.recvLoss]; exact h.recvLoss
  send := by rw [hsame.sendTxAcc, hsame.sendRxAcc]; exact h.send
  recv := by rw [hsame.recvTxAcc, hsame.recvRxAcc]; exact h.recv
  few := by rw [hsame.sendTxAcc]; exact h.few

/-- The default threshold for `Down` is at least 200 at any
confidence. -/
theorem le_downThresh_default (confidence : ℚ) :
    200 ≤ downThresh .default confidence := by
  unfold downThresh
  split <;> decide

/-- A judged direction is behind by what is left of its gap, -/
theorem decayed_gap (minPackets txAcc : Nat) {t r gap : Nat}
    (h : t ≤ r + gap) : decayed minPackets txAcc t
      ≤ decayed minPackets txAcc r + decayed minPackets txAcc gap := by
  unfold decayed
  split
  case isTrue => omega
  case isFalse => exact h

/-- and one scaled by accelerated recovery by three quarters of it. -/
theorem scaled_gap {t r gap : Nat} (h : t ≤ r + gap) (ht : t ≤ 2 ^ 51) :
    scaled 64 (3 / 4) t ≤ scaled 64 (3 / 4) r + (gap - gap / 4) := by
  rcases Nat.le_total t r with hle | hle
  · exact (scaled_mono 64 _ hle).trans (Nat.le_add_right _ _)
  · rw [scaled_three_quarters ht (by omega),
      scaled_three_quarters (by omega) (by omega)]
    omega

/-- The accounts of an active link behind a probe, with the default
configuration. -/
private theorem probed_accounts (hactive : s.Active)
    (hp : s.processProbe .default clk c.confidence suppress c.report.probe
      = some s') :
    s'.sendLedger = (s.sendLedger.settle 1000
        (s.sendCycle .default c.confidence c.report.probe)).accelerate (3 / 4)
          (s.turnsLight c.confidence)
      ∧ s'.recvLedger = (s.recvLedger.settle 1000
        (s.recvCycle .default c.confidence c.report.probe)).accelerate (3 / 4)
          (s.turnsLight c.confidence) := by
  obtain ⟨hsend, hrecv, -, -, -⟩ := processProbe_accounts hp
  have hslow : s.fastTracked .default = false := by
    refine decide_eq_false fun hfast => ?_
    have hdown := hfast.1
    rcases hactive with hst | hst
    · rw [hst] at hdown
      cases hdown
    · rw [hst] at hdown
      cases hdown
  have hlight : (s.noteArrival clk.instant c.confidence
      c.report.probe).recovers .default = s.turnsLight c.confidence := by
    simp [recovers, turnsLight, noteArrival, RateControlConfig.default]
  have hdecay : RateControlConfig.default.tapaRecoveryDecay = 3 / 4 := by
    norm_num [RateControlConfig.default]
  rw [hlight, hslow, hdecay] at hsend hrecv
  exact ⟨hsend, hrecv⟩

/-- Accelerated recovery leaves an account even that was even. -/
private theorem accelerate_even {decay : ℚ} {light : Bool} {l : Ledger}
    (h : l.txAcc = l.rxAcc) :
    (l.accelerate decay light).txAcc = (l.accelerate decay light).rxAcc := by
  unfold Ledger.accelerate
  split
  · exact congrArg (scaled 64 decay) h
  · exact h

/-- What the sending direction is behind by, with the packets of the
cycle, is charged: the packets counted now and outstanding before are the
ones reported now and outstanding after. -/
theorem Bearing.gap {before : Nat} (h : s.Bearing debt)
    (h0 : 0 ≤ c.confidence) (h1 : c.confidence ≤ 1)
    (hdouble : rnd c.confidence = c.confidence) (hfew : s.pendingTx < 2 ^ 26)
    (hsend : s.pendingTx + before = c.report.rx + c.outstanding) :
    s.sentSum .default c.confidence
      ≤ s.deliveredSum .default c.confidence c.report.probe
        + s.charged before c debt := by
  have hfit : c.report.rx < 2 ^ 32 := UInt32.toNat_lt _
  have hbalance := gated_balance h0 h1 hdouble hfew hfit hsend
  have hold := h.send
  have hall : s.sentSum .default c.confidence
      ≤ s.deliveredSum .default c.confidence c.report.probe
        + (debt + departed c.confidence (c.outstanding - before)
          - arrived c.confidence (before - c.outstanding)) := by
    show s.sendTxAcc + gated .default c.confidence s.pendingTx
      ≤ s.sendRxAcc + gated .default c.confidence c.report.rx + _
    omega
  unfold charged
  omega

/-- All that the far side reports as sent has been received, so the
receiving direction stays even with the packets of the cycle. -/
theorem Bearing.even (h : s.Bearing debt) (hrecv : c.report.tx = s.pendingRx) :
    s.offeredSum .default c.confidence c.report.probe
      = s.receivedSum .default c.confidence := by
  show s.recvTxAcc + gated .default c.confidence c.report.tx = _
  rw [h.recv, hrecv]
  rfl

/-- A probe that finds the debt borne leaves the link active. -/
theorem Bearing.stays {gap : Nat} (h : s.Bearing debt)
    (hgap : s.sentSum .default c.confidence
      ≤ s.deliveredSum .default c.confidence c.report.probe + gap)
    (hexact : s.offeredSum .default c.confidence c.report.probe
      = s.receivedSum .default c.confidence)
    (hborne : Borne gap (s.sentSum .default c.confidence))
    (hp : s.processProbe .default clk c.confidence suppress c.report.probe
      = some s') :
    s'.Active ∧ s'.sendLoss.toNat ≤ 200 ∧ s'.recvLoss.toNat ≤ 200 := by
  obtain ⟨m, hm, ht⟩ := processProbe_inv hp
  have hmin : RateControlConfig.default.lossMinPackets.toNat = 1000 := rfl
  have hsendLoss : m.sendLoss.toNat ≤ 200 := by
    rw [hm.sendLoss, hmin]
    exact lossOf_le hgap hborne h.sendLoss
  have hrecvLoss : m.recvLoss.toNat ≤ 200 := by
    rw [hm.recvLoss, hmin, hexact]
    refine lossOf_le (Nat.le_add_right _ 0) ?_ h.recvLoss
    intro hjudged
    rw [Nat.zero_mul]
    exact Nat.mul_pos (by decide) (Nat.zero_lt_of_lt hjudged)
  have hloss : m.loss.toNat ≤ 200 := by
    rw [hm.loss, toNat_max]
    exact max_le hsendLoss hrecvLoss
  have hmact : m.Active := by
    unfold Active
    rw [hm.state]
    exact h.active
  rcases transition_active hmact ht with
    ⟨state, hstate, rfl, -⟩ | ⟨-, hdown, -⟩
  · exact ⟨hstate, hsendLoss, hrecvLoss⟩
  · have hthresh := le_downThresh_default c.confidence
    omega

/-- The sending account of a cycle stays within `2 ^ 30`. -/
private theorem Bearing.settled_few (h : s.Bearing debt)
    (h1 : c.confidence ≤ 1) (hfew : s.pendingTx < 2 ^ 26) :
    decayed 1000 (s.sentSum .default c.confidence)
      (s.sentSum .default c.confidence) ≤ 2 ^ 30 := by
  have hcount : s.sentSum .default c.confidence ≤ 2 ^ 30 + 2 ^ 26 := by
    have hgated := gated_le .default h1 (n := s.pendingTx) (by omega)
    have hold := h.few
    show s.sendTxAcc + gated .default c.confidence s.pendingTx ≤ _
    omega
  unfold decayed
  split
  · omega
  · omega

/-- One probe on a link that bears its debt. -/
theorem Bearing.processProbe {before : Nat} (h : s.Bearing debt)
    (h0 : 0 ≤ c.confidence) (h1 : c.confidence ≤ 1)
    (hdouble : rnd c.confidence = c.confidence) (hfew : s.pendingTx < 2 ^ 26)
    (hsend : s.pendingTx + before = c.report.rx + c.outstanding)
    (hrecv : c.report.tx = s.pendingRx)
    (hborne : Borne (s.charged before c debt)
      (s.sentSum .default c.confidence))
    (hp : s.processProbe .default clk c.confidence suppress c.report.probe
      = some s') : s'.Bearing (s.left c (s.charged before c debt)) := by
  have hgap := h.gap h0 h1 hdouble hfew hsend
  have hexact := h.even hrecv
  obtain ⟨hact, hsendLoss, hrecvLoss⟩ := h.stays hgap hexact hborne hp
  obtain ⟨hsendAcc, hrecvAcc⟩ := probed_accounts h.active hp
  have htx := congrArg Ledger.txAcc hsendAcc
  have hrx := congrArg Ledger.rxAcc hsendAcc
  have hsmall := h.settled_few h1 hfew
  refine ⟨hact, hsendLoss, hrecvLoss, ?_, ?_, ?_⟩
  · have hdecayed :=
      decayed_gap 1000 (s.sentSum .default c.confidence) hgap
    have hmin : RateControlConfig.default.lossMinPackets.toNat = 1000 := rfl
    show s'.sendLedger.txAcc ≤ s'.sendLedger.rxAcc + _
    rw [htx, hrx]
    unfold left Ledger.accelerate
    rw [hmin]
    cases s.turnsLight c.confidence with
    | false => exact hdecayed
    | true => exact scaled_gap hdecayed (hsmall.trans (by omega))
  · show s'.recvLedger.txAcc = s'.recvLedger.rxAcc
    rw [hrecvAcc]
    exact accelerate_even (congrArg (decayed 1000
      (s.offeredSum .default c.confidence c.report.probe)) hexact)
  · show s'.sendLedger.txAcc ≤ _
    rw [htx]
    unfold Ledger.accelerate
    split
    · exact (scaled_le_of_le 64 (le_refl _) _).trans hsmall
    · exact hsmall

/-- A fresh link owes nothing. -/
theorem bearing_new (i rate : Nat) (fraction : ℚ) (now : Nat) :
    (new i rate fraction now).Bearing 0 where
  active := Or.inl rfl
  sendLoss := by
    show (0 : UInt8).toNat ≤ 200
    decide
  recvLoss := by
    show (0 : UInt8).toNat ≤ 200
    decide
  send := Nat.le_refl 0
  recv := rfl
  few := Nat.zero_le _

end RateState

-- ============================================================== in order

/-- Everything is delivered once and in the order it was sent, and no
timeouts are checked. -/
def Event.inOrder : Event → Bool
  | .deliver _ i _ => i = 0
  | .lose _ _ => false
  | .duplicate _ _ => false
  | .call _ (.checkTimeouts _) => false
  | _ => true

/-- In particular probes are delivered exactly once. -/
theorem Event.probesExact_of_inOrder {e : Event} (h : e.inOrder = true)
    (net : Net) : e.probesExact net = true := by
  cases e with
  | deliver p i clk =>
      have hi : i = 0 := by simpa [Event.inOrder] using h
      simp [Event.probesExact, hi]
  | lose p i => cases h
  | duplicate p i => cases h
  | send p bytes => rfl
  | build p now => rfl
  | call p op => rfl

/-- The messages in flight, seen from a far side that has received `n`
packets: each probe was built when just the packets before it had been
sent, and the packets make up those sent. -/
def Stamped (sent : Nat) : Nat → List Msg → Prop
  | n, [] => n = sent
  | n, .data _ _ :: w => Stamped sent (n + 1) w
  | n, .probe r :: w => r.sent = n ∧ Stamped sent n w

theorem Stamped.snoc_data {sent n : Nat} {w : List Msg} (id bytes : Nat)
    (h : Stamped sent n w) :
    Stamped (sent + 1) n (w ++ [.data id bytes]) := by
  induction w generalizing n with
  | nil => exact congrArg (· + 1) h
  | cons m w ih =>
      cases m with
      | data id' bytes' => exact ih h
      | probe r => exact ⟨h.1, ih h.2⟩

theorem Stamped.snoc_probe {sent n : Nat} {w : List Msg} {r : Report}
    (hr : r.sent = sent) (h : Stamped sent n w) :
    Stamped sent n (w ++ [.probe r]) := by
  induction w generalizing n with
  | nil => exact ⟨hr.trans h.symm, h⟩
  | cons m w ih =>
      cases m with
      | data id' bytes' => exact ih h
      | probe r' => exact ⟨h.1, ih h.2⟩

/-- The wires are stamped, and every probe was processed when just what
the far side had sent at its build had been received. -/
structure Net.Stamps (net : Net) : Prop where
  wires : ∀ p, Stamped (net.node p).sent (net.node p.peer).received.length
    (net.node p).wire
  receipts : ∀ p, ∀ c ∈ (net.node p).processed, c.received = c.report.sent

/-- The first message of a wire and the rest. -/
private theorem wire_head {w : List Msg} {m : Msg} (h : w[0]? = some m) :
    w = m :: w.eraseIdx 0 := by
  cases w with
  | nil => cases h
  | cons m' w =>
      cases h
      rfl

theorem Net.Stamps.step {e : Event} {net net' : Net} (h : net.Stamps)
    (hok : e.inOrder = true) (heff : Effect net e net') : net'.Stamps := by
  cases heff with
  | @send p bytes rc =>
      refine ⟨fun q => ?_, fun q => ?_⟩
      · rcases Party.eq_or_peer p q with rfl | rfl
        · simpa using (h.wires q).snoc_data _ bytes
        · simpa using h.wires p.peer
      · rcases Party.eq_or_peer p q with rfl | rfl
        · simpa using h.receipts q
        · simpa using h.receipts p.peer
  | @build p now rc report hsent hreceived =>
      refine ⟨fun q => ?_, fun q => ?_⟩
      · rcases Party.eq_or_peer p q with rfl | rfl
        · simpa using (h.wires q).snoc_probe hsent
        · simpa using h.wires p.peer
      · rcases Party.eq_or_peer p q with rfl | rfl
        · simpa using h.receipts q
        · simpa using h.receipts p.peer
  | @data p i clk id bytes rc hm =>
      have hi : i = 0 := by simpa [Event.inOrder] using hok
      subst hi
      refine ⟨fun q => ?_, fun q => ?_⟩
      · rcases Party.eq_or_peer p q with rfl | rfl
        · have hw := h.wires q
          rw [wire_head hm] at hw
          simpa using (show Stamped _ (_ + 1) _ from hw)
        · simpa using h.wires p.peer
      · rcases Party.eq_or_peer p q with rfl | rfl
        · simpa using h.receipts q
        · simpa using h.receipts p.peer
  | @probe p i clk report rc confidence hm =>
      have hi : i = 0 := by simpa [Event.inOrder] using hok
      subst hi
      have hw := h.wires p
      rw [wire_head hm] at hw
      refine ⟨fun q => ?_, fun q => ?_⟩
      · rcases Party.eq_or_peer p q with rfl | rfl
        · simpa using hw.2
        · simpa using h.wires p.peer
      · rcases Party.eq_or_peer p q with rfl | rfl
        · simpa using h.receipts q
        · intro c hc
          simp only [Net.node_set_self] at hc
          rcases List.mem_append.mp hc with hc | hc
          · exact h.receipts p.peer c hc
          · rw [List.mem_singleton.mp hc]
            exact hw.1.symm
  | lose hm => cases hok
  | duplicate hm => cases hok
  | @call p op rc =>
      refine ⟨fun q => ?_, fun q => ?_⟩
      · rcases Party.eq_or_peer p q with rfl | rfl
        · simpa using h.wires q
        · simpa using h.wires p.peer
      · rcases Party.eq_or_peer p q with rfl | rfl
        · simpa using h.receipts q
        · simpa using h.receipts p.peer

/-- A confidence of the default configuration is a double in the unit
interval. -/
theorem confidence_mem {rc : RateController} {linkId : Nat}
    {confidence : ℚ} (hcfg : rc.config = .default)
    (h : rc.calculateProbeConfidence linkId = some confidence) :
    0 ≤ confidence ∧ confidence ≤ 1 ∧ rnd confidence = confidence := by
  unfold RateController.calculateProbeConfidence at h
  rw [hcfg] at h
  split at h
  case isTrue =>
      cases h
      exact ⟨zero_le_one, le_refl 1, rnd_one⟩
  case isFalse =>
      split at h
      case h_1 =>
          cases h
          exact ⟨zero_le_one, le_refl 1, rnd_one⟩
      case h_2 =>
          simp only [Option.bind_eq_bind, Option.bind_eq_some_iff] at h
          obtain ⟨interval, -, load, -, h⟩ := h
          cases h
          have hmin0 : 0 ≤ RateControlConfig.default.tapaMinConfidence := by
            decide +kernel
          have hmin1 : RateControlConfig.default.tapaMinConfidence ≤ 1 := by
            decide +kernel
          obtain ⟨h0, h1⟩ := RateState.loadConfidence_mem hmin0 hmin1 load
          exact ⟨h0, h1, RateState.rnd_loadConfidence (by decide +kernel) load⟩

-- ============================================================ debts of a run

/-- Both endpoints, and the debt of either one's sending direction. -/
structure Indebted where
  net : Net
  a : Nat
  b : Nat

namespace Indebted

/-- The debt of a party. -/
def debt (w : Indebted) : Party → Nat
  | .a => w.a
  | .b => w.b

/-- Nothing is owed at the start. -/
def start (setup : Setup) : Indebted := ⟨setup.start, 0, 0⟩

/-- The debt of a party behind an event that leads to `net'`: it changes
when a probe is processed, and with it filed. -/
def noted (link : UInt8) (net' : Net) (w : Indebted) (q : Party) : Nat :=
  let n := w.net.node q
  match (net'.node q).processed[n.processed.length]?,
    n.rc.states[link.toNat]? with
  | some c, some s =>
      s.left c (s.charged (reading Receipt.outstanding 0 n.processed) c
        (w.debt q))
  | _, _ => w.debt q

/-- One event, with the debts. -/
def step (link : UInt8) (e : Event) (w : Indebted) : Option Indebted := do
  let net ← Net.step link e w.net
  some ⟨net, w.noted link net .a, w.noted link net .b⟩

/-- A probe that is processed finds a debt that its receiver's sending
direction bears, and fewer than `2 ^ 26` packets sent since the last
one. -/
def light (link : UInt8) : Event → Indebted → Bool
  | .deliver p i _, w =>
      let n := w.net.node p.peer
      (((w.net.node p).wire[i]?.bind Msg.report?).bind (n.receipt link)).all
        fun c => n.rc.states[link.toNat]?.all fun s =>
          s.pendingTx < 2 ^ 26
            ∧ RateState.Borne
              (s.charged (reading Receipt.outstanding 0 n.processed) c
                (w.debt p.peer))
              (s.sentSum n.rc.config c.confidence)
  | _, _ => true

/-- The run with the debts is the run. -/
theorem run_net {link : UInt8} {events : List Event} {w : Indebted}
    {net : Net} (hrun : Trace.run (Net.step link) events w.net = some net) :
    ∃ a b, Trace.run (step link) events w = some ⟨net, a, b⟩ := by
  induction events generalizing w with
  | nil =>
      cases hrun
      exact ⟨w.a, w.b, rfl⟩
  | cons e events ih =>
      obtain ⟨net₁, hstep, hrun⟩ := Trace.run_cons_inv hrun
      obtain ⟨a, b, hrest⟩ := ih
        (w := ⟨net₁, w.noted link net₁ .a, w.noted link net₁ .b⟩) hrun
      refine ⟨a, b, ?_⟩
      rw [Trace.run_cons, step, hstep]
      exact hrest

/-- So is what holds along it. -/
theorem along_net {link : UInt8} {ok : Event → Net → Prop}
    {events : List Event} {w : Indebted}
    (h : Trace.Along (Net.step link) ok events w.net) :
    Trace.Along (step link) (fun e w => ok e w.net) events w := by
  induction events generalizing w with
  | nil => trivial
  | cons e events ih =>
      obtain ⟨hok, hrest⟩ := h
      refine ⟨hok, ?_⟩
      split
      case h_1 w' hstep =>
          obtain ⟨net, hnet, hsome⟩ := Option.bind_eq_some_iff.mp hstep
          cases hsome
          rw [hnet] at hrest
          exact ih hrest
      case h_2 => trivial

/-- The debts behind a step. -/
theorem step_inv {link : UInt8} {e : Event} {w w' : Indebted}
    (h : step link e w = some w') : Net.step link e w.net = some w'.net
      ∧ ∀ q, w'.debt q = w.noted link w'.net q := by
  obtain ⟨net, hstep, hsome⟩ := Option.bind_eq_some_iff.mp h
  cases hsome
  exact ⟨hstep, fun q => by cases q <;> rfl⟩

end Indebted

-- ============================================================== every event

namespace Net

variable {setup : Setup} {link : UInt8} {net net' : Net}

/-- The first probe in flight balances: the packets its receiver has sent
since the last probe, with what was outstanding then, are the ones it
reports with what is outstanding now; and the packets it says were sent
have been received. -/
theorem probe_balance (hcounted : net.Counted setup link)
    (hord : net.Ordered) (hcopies : net.NoCopies) (hstamps : net.Stamps)
    {p : Party} {r : Report} {s : RateState}
    (hm : (net.node p).wire[0]? = some (.probe r))
    (hs : (net.node p.peer).Counted (setup.config p.peer) link s)
    (hahead : s.lastLossTxPackets ≤ s.totalTxPackets) :
    s.totalTxPackets - s.lastLossTxPackets
        + reading Receipt.outstanding 0 (net.node p.peer).processed
      = r.rx + ((net.node p.peer).sent - r.got)
      ∧ r.tx = s.totalRxPackets - s.lastLossRxPackets := by
  obtain ⟨sp, hsp⟩ := hcounted.nodes p
  have hbuilt : (net.node p).built
      = (net.node p.peer).processed.map Receipt.report
        ++ r :: probesOf ((net.node p).wire.eraseIdx 0) := by
    rw [hord p, probesOf_eraseIdx_probe hm rfl]
  have hrx := hsp.gotMeter
  have htx := hsp.sentMeter
  rw [hbuilt] at hrx htx
  have hrx := telescopes_next hrx
  have htx := telescopes_next htx
  rw [reading_map] at hrx htx
  have hstamp := hstamps.wires p
  rw [wire_head hm] at hstamp
  -- what was outstanding at the last probe
  have hlast : ∀ c ∈ (net.node p.peer).processed,
      c.report.got ≤ c.sent := fun c hc =>
    (hcopies.filed p.peer c hc).length_le
  have hout : reading Receipt.outstanding 0 (net.node p.peer).processed
      = reading Receipt.sent 0 (net.node p.peer).processed
        - reading (fun c => c.report.got) 0 (net.node p.peer).processed :=
    reading_sub Receipt.sent (fun c => c.report.got) _
  have hle := reading_le hlast
  have hgot : r.got ≤ (net.node p.peer).sent :=
    (hcopies.built p r (hord.built_of_flying hm)).length_le
  have hreceived := reading_congr 0 (hstamps.receipts p.peer)
  have hcount := hs.tx
  have hcount' := hs.rx
  have hloss := hs.lossTx
  have hloss' := hs.lossRx
  have hsent : r.sent = (net.node p.peer).received.length := hstamp.1
  have hgot' : Report.got r = r.got := rfl
  refine ⟨?_, ?_⟩
  · omega
  · omega

end Net

namespace Indebted

variable {setup : Setup} {link : UInt8} {w w' : Indebted}

/-- Both controllers count, and their links bear their debts. -/
def Calm (setup : Setup) (link : UInt8) (w : Indebted) : Prop :=
  ∀ p, ∃ s, (w.net.node p).Counted (setup.config p) link s
    ∧ s.Bearing (w.debt p)

/-- Whatever happens in order keeps the links bearing their debts. -/
theorem Calm.step {e : Event} (h : w.Calm setup link)
    (hcfg : ∀ p, setup.config p = .default)
    (hcounted : w.net.Counted setup link) (hord : w.net.Ordered)
    (hcopies : w.net.NoCopies) (hstamps : w.net.Stamps)
    (hok : e.inOrder = true) (hfew : e.few w.net = true)
    (hlight : w.light link e = true)
    (hstep : step link e w = some w') : w'.Calm setup link := by
  obtain ⟨hnet, hdebts⟩ := step_inv hstep
  intro q
  obtain ⟨s, hs, hbear⟩ := h q
  obtain ⟨s', hs', hlink⟩ := hcounted.step_link hfew hnet hs
  refine ⟨s', hs', ?_⟩
  have hkept : (w'.net.node q).processed = (w.net.node q).processed →
      w'.debt q = w.debt q := by
    intro hrecords
    rw [hdebts]
    simp [noted, hrecords]
  cases hlink with
  | same hsame hrecords =>
      rw [hkept hrecords]
      exact hbear.congr hsame
  | timeout => cases hok
  | @probe i clk c suppress hwire hreceipt hprobe hrecords =>
      have hi : i = 0 := by simpa [Event.inOrder] using hok
      subst hi
      have hnoted : w'.debt q = s.left c (s.charged
          (reading Receipt.outstanding 0 (w.net.node q).processed) c
            (w.debt q)) := by
        rw [hdebts]
        simp [noted, hrecords, hs.here]
      have hboth : s.pendingTx < 2 ^ 26 ∧ RateState.Borne
          (s.charged (reading Receipt.outstanding 0
            (w.net.node q).processed) c (w.debt q))
          (s.sentSum (setup.config q) c.confidence) := by
        simpa [light, hwire, Msg.report?, hreceipt, hs.here, hs.config]
          using hlight
      obtain ⟨hpending, hborne⟩ := hboth
      obtain ⟨confidence, hconf, hc⟩ := Option.bind_eq_some_iff.mp hreceipt
      have hsame : confidence = c.confidence :=
        congrArg Receipt.confidence (Option.some.inj hc)
      have hsent : c.sent = (w.net.node q).sent :=
        (congrArg Receipt.sent (Option.some.inj hc)).symm
      obtain ⟨h0, h1, hdouble⟩ :=
        confidence_mem (by rw [hs.config, hcfg]) hconf
      rw [hsame] at h0 h1 hdouble
      obtain ⟨judged, hjudged, -⟩ := RateState.processProbe_inv hprobe
      obtain ⟨hsend, hrecv⟩ := Net.probe_balance hcounted hord hcopies
        hstamps hwire (by rwa [Party.peer_peer]) hjudged.ahead.1
      rw [Party.peer_peer] at hsend
      rw [hcfg] at hborne hprobe
      rw [hnoted]
      refine hbear.processProbe h0 h1 hdouble hpending ?_ hrecv hborne hprobe
      rw [Receipt.outstanding, hsent]
      exact hsend

end Indebted

-- =============================================================== the result

/-- Two controllers with the default configuration on a link that
delivers everything once and in order, without timeouts: neither takes
the link `Down`, as long as every probe is processed at a debt that the
sending direction bears. -/
theorem in_flight_never_downs {setup : Setup} {link : UInt8}
    (hcfg : ∀ p, setup.config p = .default)
    (hlink : ∀ p, link.toNat < (setup.maxRates p).length)
    {events : List Event} {net : Net}
    (hrun : Trace.run (Net.step link) events setup.start = some net)
    (horder : ∀ e ∈ events, e.inOrder = true)
    (hfew : Trace.Along (Net.step link) (fun e net => e.few net = true)
      events setup.start)
    (hlight : Trace.Along (Indebted.step link)
      (fun e w => w.light link e = true) events (Indebted.start setup))
    (p : Party) :
    (net.node p).rc.linkState link.toNat = .running
      ∨ (net.node p).rc.linkState link.toNat = .lossy := by
  have hin : Trace.Along (Indebted.step link)
      (fun e _ => e.inOrder = true) events (Indebted.start setup) :=
    Trace.Along.of_forall (fun e he _ => horder e he) (Indebted.start setup)
  obtain ⟨a, b, hwatched⟩ := Indebted.run_net (w := Indebted.start setup) hrun
  have hall : net.Counted setup link ∧ net.Ordered ∧ net.NoCopies
      ∧ net.Stamps ∧ (Indebted.mk net a b).Calm setup link := by
    refine Trace.run_along (P := fun w : Indebted => w.net.Counted setup link
      ∧ w.net.Ordered ∧ w.net.NoCopies ∧ w.net.Stamps ∧ w.Calm setup link)
      ?_ (hin.and ((Indebted.along_net hfew).and hlight)) hwatched ?_
    · rintro e w w' ⟨hcounted, hord, hcopies, hstamps, hcalm⟩
        ⟨hin, hfew, hlight⟩ hstep
      have hnet := (Indebted.step_inv hstep).1
      have heff := step_effect hnet
      have hexact := Event.probesExact_of_inOrder hin w.net
      exact ⟨hcounted.step hfew hnet, hord.step hexact heff,
        hcopies.step hord hexact heff, hstamps.step hin heff,
        hcalm.step hcfg hcounted hord hcopies hstamps hin hfew hlight
          hstep⟩
    · obtain ⟨hord, hcopies⟩ := Net.exact_start setup
      refine ⟨Net.counted_start hlink, hord, hcopies, ⟨?_, ?_⟩, ?_⟩
      · intro q
        change Stamped (setup.start.node q).sent
          (setup.start.node q.peer).received.length
          (setup.start.node q).wire
        rw [Setup.start_node, Setup.start_node]
        rfl
      · intro q c hc
        change c ∈ (setup.start.node q).processed at hc
        rw [Setup.start_node] at hc
        cases hc
      · intro q
        obtain ⟨s, hs, heq⟩ := Node.counted_new (setup.config q)
          (setup.now q) (hlink q)
        have hdebt : (Indebted.start setup).debt q = 0 := by cases q <;> rfl
        have hnode : (Indebted.start setup).net.node q = setup.start.node q :=
          rfl
        rw [hdebt, hnode, Setup.start_node]
        refine ⟨s, hs, ?_⟩
        rw [heq]
        exact RateState.bearing_new _ _ _ _
  obtain ⟨s, hs, hbear⟩ := hall.2.2.2.2 p
  have hhere : (net.node p).rc.states[link.toNat]? = some s := hs.here
  unfold RateController.linkState
  rw [hhere]
  exact hbear.active

/-- Both controllers with the default configuration on one link of 60
Mbps. -/
private def sixtyMbps : Setup where
  config _ := .default
  maxRates _ := [7500000]
  now _ _ := 0

private def probeNow (p : Party) : Event := .build p fun _ => 0

private def next (p : Party) : Event := .deliver p 0 ⟨0, 0⟩

/-- The same on one slow link, of 200 kbps. -/
private def slowLinkSetup : Setup where
  config _ := .default
  maxRates _ := [25000]
  now _ _ := 0

/-- Nine hundred packets, the last 50 of them in flight past a probe; then
150 more that are 27% of what the link carries in an interval, so that the
arrival of the 50 is reported at reduced confidence. -/
private def dimmedEvents : List Event :=
  (List.replicate 850 [.send .a 1, next .a]).flatten
    ++ List.replicate 50 (.send .a 1) ++ [probeNow .b, next .b, probeNow .a]
    ++ List.replicate 51 (next .a)
    ++ (List.replicate 150 [.send .a 9, next .a]).flatten
    ++ [probeNow .b, next .b]

/-- The second probe is judged, at a loss of 1 of 255. -/
theorem in_flight_never_downs_dimmed :
    ∃ net s, Trace.run (Net.step 0) dimmedEvents slowLinkSetup.start
        = some net
      ∧ (net.node .a).rc.states[0]? = some s ∧ s.sendLoss = 1
      ∧ ((net.node .a).rc.linkState 0 = .running
        ∨ (net.node .a).rc.linkState 0 = .lossy) := by
  have hstates : (Trace.run (Net.step 0) dimmedEvents
        slowLinkSetup.start).map (fun net =>
          (net.node .a).rc.states[0]?.map RateState.sendLoss)
      = some (some 1) := by
    decide +kernel
  obtain ⟨net, hrun, hread⟩ := Option.map_eq_some_iff.mp hstates
  obtain ⟨s, hs, hloss⟩ := Option.map_eq_some_iff.mp hread
  have hin : dimmedEvents.all Event.inOrder = true := by
    decide +kernel
  have hactive := in_flight_never_downs (by intro p; rfl)
    (by intro p; exact Nat.zero_lt_one) hrun (List.all_eq_true.mp hin)
    (by decide +kernel) (by decide +kernel) .a
  exact ⟨net, s, hrun, hs, hloss, hactive⟩

/-- A round that leaves packets counted: 50 small packets are in flight
past a probe processed at full confidence, and the probe that reports
their arrival is processed while one large packet keeps the confidence
at its minimum. A medium packet brings the confidence back up without
the accelerated recovery. -/
private def dimRound : List Event :=
  List.replicate 50 (.send .a 100) ++ [probeNow .b, next .b]
    ++ List.replicate 50 (next .a)
    ++ [probeNow .b, .send .a 7500000, next .b, next .a, probeNow .a, next .a]
    ++ [probeNow .b, .send .a 675000, next .b, next .a, probeNow .a, next .a]

/-- A thousand and one packets in flight when the far side builds its
probe. -/
private def burst : List Event :=
  List.replicate 1001 (.send .a 100) ++ [probeNow .b, next .b]

/-- Twenty dim rounds, and the probe of one more. -/
private def dimRounds : List Event :=
  (List.replicate 20 dimRound).flatten
    ++ List.replicate 50 (.send .a 100) ++ [probeNow .b, next .b]

private theorem burst_down :
    (Trace.run (Net.step 0) burst sixtyMbps.start).map
      (fun net => (net.node .a).rc.linkState 0) = some .down := by
  decide +kernel

private theorem dimRounds_down :
    (Trace.run (Net.step 0) dimRounds sixtyMbps.start).map
      (fun net => ((net.node .a).rc.linkState 0,
        (net.node .a).processed.all fun c => c.outstanding ≤ 50))
      = some (.down, true) := by
  decide +kernel

/-- Packets in flight are counted as loss. A thousand and one of them
when the far side builds its probe take the link down; and so do never
more than 50, when their arrivals are reported at reduced confidence. -/
theorem in_flight_counted_as_loss :
    (∃ (events : List Event) (net : Net),
      Trace.run (Net.step 0) events sixtyMbps.start = some net
        ∧ (∀ e ∈ events, e.inOrder = true)
        ∧ (net.node .a).rc.linkState 0 = .down)
    ∧ ∃ (events : List Event) (net : Net),
      Trace.run (Net.step 0) events sixtyMbps.start = some net
        ∧ (∀ e ∈ events, e.inOrder = true)
        ∧ (∀ c ∈ (net.node .a).processed, c.outstanding ≤ 50)
        ∧ (net.node .a).rc.linkState 0 = .down := by
  have hin : burst.all Event.inOrder = true
      ∧ dimRounds.all Event.inOrder = true := by
    decide +kernel
  obtain ⟨net, hrun, hdown⟩ := Option.map_eq_some_iff.mp burst_down
  obtain ⟨net', hrun', heq⟩ := Option.map_eq_some_iff.mp dimRounds_down
  simp only [Prod.mk.injEq] at heq
  refine ⟨⟨burst, net, hrun, List.all_eq_true.mp hin.1, hdown⟩,
    dimRounds, net', hrun', List.all_eq_true.mp hin.2, ?_, heq.1⟩
  intro c hc
  exact of_decide_eq_true (List.all_eq_true.mp heq.2 c hc)

end ChainLightning
