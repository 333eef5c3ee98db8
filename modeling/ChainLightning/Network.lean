/-
One link between two endpoints.

Each endpoint runs a rate controller; on one link they exchange data
packets and probes. The rate controllers are the source's (the calls are
those of RateController.lean); what stands around them here is the
network: for each endpoint the messages it has sent that are still in
flight, and the events that send, build, deliver, drop or duplicate one.
Sending a data packet and its `record_tx` are one event, as are
delivering it and its `record_rx`.

Data packets carry the number of packets sent before them, so the
packets sent so far are `0, ..., sent - 1`. A built probe is filed with
what its builder had sent and received at that moment, a processed one
with what its receiver had; these records are read by no event and serve
the statements only.

Which losses, duplicates and orders a statement allows is a condition on
the events of its runs, stated with the statement.
-/
import ChainLightning.RateController
import ChainLightning.Lib.Trace

namespace ChainLightning

/-- The two endpoints of a link. -/
inductive Party where
  | a
  | b
  deriving DecidableEq

/-- The endpoint on the far side. -/
def Party.peer : Party → Party
  | .a => .b
  | .b => .a

@[simp] theorem Party.peer_ne (p : Party) : p.peer ≠ p := by
  cases p <;> decide

@[simp] theorem Party.peer_peer (p : Party) : p.peer.peer = p := by
  cases p <;> rfl

/-- A built probe: its place among the probes of its builder, and what
the builder had sent and received when it built it. -/
structure Report where
  index : Nat
  probe : ProbePacket
  sent : Nat
  received : List Nat

/-- A processed probe: what its receiver had sent and received when it
processed it, and the confidence it was processed at. -/
structure Receipt where
  report : Report
  sent : Nat
  received : Nat
  confidence : ℚ

/-- A message in flight. -/
inductive Msg where
  | data (id bytes : Nat)
  | probe (report : Report)

/-- Whether a message is a data packet. -/
def Msg.isData : Msg → Bool
  | .data _ _ => true
  | .probe _ => false

/-- The probe that a message carries. -/
def Msg.report? : Msg → Option Report
  | .data _ _ => none
  | .probe report => some report

/-- An endpoint: its rate controller, its records, and the messages it
has sent that are in flight, oldest first. -/
structure Node where
  rc : RateController
  sent : Nat
  received : List Nat
  built : List Report
  processed : List Receipt
  wire : List Msg

namespace Node

/-- A fresh endpoint. -/
def new (rc : RateController) : Node where
  rc := rc
  sent := 0
  received := []
  built := []
  processed := []
  wire := []

/-- Send a data packet. -/
def send (link : UInt8) (bytes : Nat) (n : Node) : Option Node := do
  let rc ← n.rc.recordTx link.toNat bytes
  some { n with
    rc
    sent := n.sent + 1
    wire := n.wire ++ [.data n.sent bytes] }

/-- Build probes, and send this link's one. -/
def build (link : UInt8) (now : Nat → UInt64) (n : Node) : Option Node := do
  let (probes, rc) ← n.rc.buildProbes now
  let probe ← probes[link.toNat]?
  let report : Report := {
    index := n.built.length
    probe
    sent := n.sent
    received := n.received }
  some { n with
    rc
    built := n.built ++ [report]
    wire := n.wire ++ [.probe report] }

/-- The receipt for a probe that is processed now. -/
def receipt (link : UInt8) (report : Report) (n : Node) :
    Option Receipt := do
  let confidence ← n.rc.calculateProbeConfidence link.toNat
  some {
    report
    sent := n.sent
    received := n.received.length
    confidence }

/-- Receive a message. -/
def receive (link : UInt8) (clk : Clock) (m : Msg) (n : Node) :
    Option Node :=
  match m with
  | .data id bytes => do
      let rc ← n.rc.recordRx link.toNat bytes
      some { n with rc, received := id :: n.received }
  | .probe report => do
      let receipt ← n.receipt link report
      let rc ← n.rc.processProbe clk report.probe
      some { n with rc, processed := n.processed ++ [receipt] }

/-- Lose the message at a place of the wire. -/
def lose (i : Nat) (n : Node) : Node := { n with wire := n.wire.eraseIdx i }

@[simp] theorem lose_rc (i : Nat) (n : Node) : (n.lose i).rc = n.rc := rfl

@[simp] theorem lose_sent (i : Nat) (n : Node) :
    (n.lose i).sent = n.sent := rfl

@[simp] theorem lose_received (i : Nat) (n : Node) :
    (n.lose i).received = n.received := rfl

@[simp] theorem lose_built (i : Nat) (n : Node) :
    (n.lose i).built = n.built := rfl

@[simp] theorem lose_processed (i : Nat) (n : Node) :
    (n.lose i).processed = n.processed := rfl

@[simp] theorem lose_wire (i : Nat) (n : Node) :
    (n.lose i).wire = n.wire.eraseIdx i := rfl

/-- A call that leaves the link's counters alone. -/
def call (op : RateOp) (n : Node) : Option Node := do
  let rc ← op.apply n.rc
  some { n with rc }

end Node

/-- Both endpoints. -/
structure Net where
  a : Node
  b : Node

namespace Net

/-- The endpoint of a party. -/
def node (net : Net) : Party → Node
  | .a => net.a
  | .b => net.b

/-- Replace the endpoint of a party. -/
def set (net : Net) : Party → Node → Net
  | .a, n => { net with a := n }
  | .b, n => { net with b := n }

@[simp] theorem node_set_self (net : Net) (p : Party) (n : Node) :
    (net.set p n).node p = n := by
  cases p <;> rfl

@[simp] theorem node_set_peer (net : Net) (p : Party) (n : Node) :
    (net.set p n).node p.peer = net.node p.peer := by
  cases p <;> rfl

@[simp] theorem node_peer_set (net : Net) (p : Party) (n : Node) :
    (net.set p.peer n).node p = net.node p := by
  cases p <;> rfl

end Net

/-- A call that concerns other links, or the timeouts: nothing is
counted on this link and none of its probes is built or processed. -/
def RateOp.foreign (link : UInt8) : RateOp → Bool
  | .recordTx linkId _ => linkId ≠ link.toNat
  | .recordRx linkId _ => linkId ≠ link.toNat
  | .buildProbes _ => false
  | .processProbe _ probe => probe.linkId ≠ link
  | .checkTimeouts _ => true

/-- The events on a link. A message is named by its sender and its place
among the sender's messages in flight. -/
inductive Event where
  | send (p : Party) (bytes : Nat)
  | build (p : Party) (now : Nat → UInt64)
  | deliver (p : Party) (i : Nat) (clk : Clock)
  | lose (p : Party) (i : Nat)
  | duplicate (p : Party) (i : Nat)
  | call (p : Party) (op : RateOp)

/-- One event on a link. -/
def Net.step (link : UInt8) : Event → Net → Option Net
  | .send p bytes, net => do
      let n ← (net.node p).send link bytes
      some (net.set p n)
  | .build p now, net => do
      let n ← (net.node p).build link now
      some (net.set p n)
  | .deliver p i clk, net => do
      let m ← (net.node p).wire[i]?
      let n ← (net.node p.peer).receive link clk m
      some ((net.set p ((net.node p).lose i)).set p.peer n)
  | .lose p i, net => do
      let _ ← (net.node p).wire[i]?
      some (net.set p ((net.node p).lose i))
  | .duplicate p i, net => do
      let m ← (net.node p).wire[i]?
      let n := net.node p
      some (net.set p { n with wire := n.wire ++ [m] })
  | .call p op, net =>
      if op.foreign link then do
        let n ← (net.node p).call op
        some (net.set p n)
      else none

/-- How the two controllers are set up. -/
structure Setup where
  config : Party → RateControlConfig
  maxRates : Party → List Nat
  now : Party → Nat → Nat

/-- Both endpoints, fresh. -/
def Setup.start (setup : Setup) : Net where
  a := .new (.new (setup.config .a) (setup.maxRates .a) (setup.now .a))
  b := .new (.new (setup.config .b) (setup.maxRates .b) (setup.now .b))

theorem Setup.start_node (setup : Setup) (p : Party) :
    setup.start.node p
      = .new (.new (setup.config p) (setup.maxRates p) (setup.now p)) := by
  cases p <;> rfl

end ChainLightning
