import ChainLightning.Lib.Trace
import ChainLightning.Lib.Machine
import ChainLightning.Lib.Bytes
import ChainLightning.Lib.Double
import ChainLightning.Lib.Meter
import ChainLightning.Lib.Batcher
import ChainLightning.Lib.OrdMap
import ChainLightning.Lib.Pool
import ChainLightning.Lib.Cell
import ChainLightning.Lib.Toward
import ChainLightning.Lib.Wheel
import ChainLightning.Protocol
import ChainLightning.Config
import ChainLightning.ConfigManager
import ChainLightning.RateController
import ChainLightning.Network
import ChainLightning.Aggregator
import ChainLightning.Scheduler
import ChainLightning.Receiver
import ChainLightning.Stats
import ChainLightning.Testing
import ChainLightning.Endpoint
import ChainLightning.Proofs.Endpoint.Tasks
import ChainLightning.Proofs.Wire
import ChainLightning.Proofs.Rate.Link
import ChainLightning.Proofs.Rate.Stages
import ChainLightning.Proofs.Rate.Bounds
import ChainLightning.Proofs.Rate.Pacing
import ChainLightning.Proofs.Rate.Congestion
import ChainLightning.Proofs.Rate.Episode
import ChainLightning.Proofs.Rate.Cycles
import ChainLightning.Proofs.Rate.Directions
import ChainLightning.Proofs.Rate.Recovery
import ChainLightning.Proofs.Rate.Load
import ChainLightning.Proofs.Rate.Arithmetic
import ChainLightning.Proofs.Link.Counts
import ChainLightning.Proofs.Link.Credit
import ChainLightning.Proofs.Link.Exact
import ChainLightning.Proofs.Link.Phantom
import ChainLightning.Proofs.Link.Rtt
import ChainLightning.Proofs.Chunk.Feed
import ChainLightning.Proofs.Chunk.Delivery
import ChainLightning.Proofs.Chunk.Order
import ChainLightning.Proofs.Schedule.Withheld
import ChainLightning.Proofs.Schedule.Fairness
import ChainLightning.Proofs.Schedule.Addresses
import ChainLightning.Proofs.Receive.Ordered
import ChainLightning.Proofs.Receive.Reorder
import ChainLightning.Proofs.Receive.Blocking
import ChainLightning.Proofs.Endpoint.Malformed
import ChainLightning.Proofs.Endpoint.AckRtt
import ChainLightning.Proofs.Endpoint.Metering
import ChainLightning.Proofs.Config.Updates
import ChainLightning.Proofs.Testing.Phases
import ChainLightning.Proofs.Chunk.Sizes
import ChainLightning.Proofs.Chunk.Parse
import ChainLightning.Proofs.Chunk.Flows
import ChainLightning.Proofs.Receive.Immediate
import ChainLightning.Proofs.Receive.Accounted
import ChainLightning.Proofs.Receive.Footprint
import ChainLightning.Proofs.Rate.Fading
import ChainLightning.Proofs.Rate.Idle
import ChainLightning.Lib.Share
import ChainLightning.Proofs.Rate.Acceleration
import ChainLightning.Proofs.FlowId
import ChainLightning.Lib.Rank
import ChainLightning.Lib.Hysteresis
import ChainLightning.Classifier
import ChainLightning.Proofs.Testing.Winner
import ChainLightning.Proofs.Schedule.Arrival
import ChainLightning.Proofs.Config.Parameters
import ChainLightning.Proofs.Stats.Percentiles
import ChainLightning.Proofs.Classify.Modes
import ChainLightning.Lib.Window
import ChainLightning.Proofs.Classify.Estimate
import ChainLightning.Lib.Tally
import ChainLightning.Proofs.Endpoint.Outputs
import ChainLightning.Proofs.Tunnel.Uplink
import ChainLightning.Proofs.Tunnel.Datagrams
import ChainLightning.Proofs.Tunnel.Downlink
import ChainLightning.Proofs.Tunnel.Network
import ChainLightning.Lib.Pick
import ChainLightning.Proofs.Tunnel.EndToEnd
import ChainLightning.Proofs.Tunnel.Footprint
import ChainLightning.Proofs.Endpoint.Hands
import ChainLightning.Proofs.Tunnel.Dialogue
import ChainLightning.Proofs.Tunnel.Identity
import ChainLightning.Proofs.Endpoint.Roaming
import ChainLightning.Proofs.Endpoint.Counters
import ChainLightning.Proofs.Tunnel.Refinement
import ChainLightning.Proofs.Endpoint.Progress
import ChainLightning.Proofs.Rate.Defined
import ChainLightning.Proofs.Tunnel.Failures
import ChainLightning.Proofs.Tunnel.Steady
