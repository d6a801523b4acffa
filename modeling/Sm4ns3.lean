import Sm4ns3.Lib.Bytes
import Sm4ns3.Lib.Numeral
import Sm4ns3.Lib.Call
import Sm4ns3.Lib.Transition
import Sm4ns3.Lib.Simulation
import Sm4ns3.Lib.SelfDelimiting
import Sm4ns3.Lib.Arena
import Sm4ns3.Lib.Rounds
import Sm4ns3.Lib.Json.Value
import Sm4ns3.Lib.Json.Reader
import Sm4ns3.Lib.Json.Truncated
import Sm4ns3.Lib.Json.Scalar
import Sm4ns3.BundleVersion
import Sm4ns3.Message.Jsoncpp
import Sm4ns3.Message.Writer
import Sm4ns3.Message.Conglomerate
import Sm4ns3.Message.Serialize
import Sm4ns3.Verify.Cursor
import Sm4ns3.Verify.Headers
import Sm4ns3.Verify.BundleCodec
import Sm4ns3.Verify.BundleRoundTrip
import Sm4ns3.Message.Messages
import Sm4ns3.Agent
import Sm4ns3.Message.Handlers
import Sm4ns3.Network.Session
import Sm4ns3.Network.Connection
import Sm4ns3.Broker
import Sm4ns3.System
import Sm4ns3.Verify.BrokerSteps
import Sm4ns3.Verify.Decoder
import Sm4ns3.Verify.Narrowing
import Sm4ns3.Verify.Gating
import Sm4ns3.Verify.Outgoing
import Sm4ns3.Verify.Framing
import Sm4ns3.Verify.ReceiveLoop
import Sm4ns3.Network.Registration
import Sm4ns3.Testing.RrBaseline
import Sm4ns3.Verify.Makers
import Sm4ns3.Verify.Agents
import Sm4ns3.Verify.Registry
import Sm4ns3.Verify.Usable
import Sm4ns3.Verify.Routing
import Sm4ns3.Verify.Dispatch
import Sm4ns3.Verify.OpaqueRoundTrip
import Sm4ns3.Verify.Receivers
import Sm4ns3.Verify.Formats
import Sm4ns3.Verify.Handshake
import Sm4ns3.Verify.Trace
import Sm4ns3.Verify.Nodes
import Sm4ns3.Verify.TickBundle
import Sm4ns3.Verify.TickHandling
import Sm4ns3.Verify.Replay
import Sm4ns3.Verify.Multicasts
import Sm4ns3.Verify.Positions
import Sm4ns3.Verify.Faithful
import Sm4ns3.Verify.FanOut
import Sm4ns3.Verify.Locations
import Sm4ns3.Verify.NodeCreation
import Sm4ns3.Verify.Schedule
import Sm4ns3.Verify.Faults
import Sm4ns3.Verify.Divisors
import Sm4ns3.Verify.TraceLines
import Sm4ns3.Verify.Grouping
import Sm4ns3.Verify.Roles
import Sm4ns3.Verify.Packets
import Sm4ns3.Verify.SystemSteps
import Sm4ns3.Verify.SystemRuns
import Sm4ns3.Verify.LockStep
import Sm4ns3.Verify.Provenance
import Sm4ns3.Verify.AgentArena
import Sm4ns3.Verify.NullAgents
import Sm4ns3.Verify.Startup
import Sm4ns3.Verify.Networks
import Sm4ns3.Verify.ArenaRuns
import Sm4ns3.Verify.Progress
import Sm4ns3.Verify.ArenaReplay
