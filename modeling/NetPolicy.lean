import NetPolicy.Library.SeparatedText
import NetPolicy.Library.Containers
import NetPolicy.Library.Tables
import NetPolicy.Policy.Ipv4
import NetPolicy.Policy.Rule
import NetPolicy.Policy.Engine
import NetPolicy.Library.Runs
import NetPolicy.Library.Transitions
import NetPolicy.Policy.Coherence
import NetPolicy.Policy.Lookup
import NetPolicy.Policy.RuleKeys
import NetPolicy.Policy.LinearScan
import NetPolicy.Policy.CidrMasks
import NetPolicy.Policy.AddressSoundness
import NetPolicy.Policy.Provenance
import NetPolicy.Policy.Deletion
import NetPolicy.Library.Incremental
import NetPolicy.Library.RustText
import NetPolicy.Library.Json
import NetPolicy.Library.JsonObjects
import NetPolicy.Library.CheckedReads
import NetPolicy.Library.Loops
import NetPolicy.Http.BodyFraming
import NetPolicy.Http.ChunkedCoding
import NetPolicy.Http.HeaderParser
import NetPolicy.Http.RequestTargets
import NetPolicy.Http.FramingFields
import NetPolicy.Http.Http1Parser
import NetPolicy.Http.ParserLoops
import NetPolicy.Http.Pipelining
import NetPolicy.Http.Resynchronisation
import NetPolicy.Http.Connection
import NetPolicy.Http.Detection
import NetPolicy.Http.Http2Frames
import NetPolicy.Http.SegmentMemory
import NetPolicy.Http.Http2Requests
import NetPolicy.Flow.Packet
import NetPolicy.Flow.FlowEngine
import NetPolicy.Flow.PacketParsers
import NetPolicy.Flow.Connections
import NetPolicy.Flow.LifeCycle
import NetPolicy.Flow.Delivery
import NetPolicy.Daemon.ConnectionManager
import NetPolicy.Daemon.Store
import NetPolicy.Daemon.Control
import NetPolicy.Daemon.Rewrite
import NetPolicy.Daemon.Checksum
import NetPolicy.Daemon.Callback
import NetPolicy.Daemon.Run
import NetPolicy.Daemon.Freshness
import NetPolicy.Daemon.Reaping
import NetPolicy.Daemon.Mediation
import NetPolicy.Daemon.Inspections
import NetPolicy.Daemon.Retransmission
import NetPolicy.Daemon.HttpClauses
import NetPolicy.Daemon.Requests
import NetPolicy.Daemon.AddressLists
import NetPolicy.Daemon.Directions
import NetPolicy.Daemon.Versions
import NetPolicy.Daemon.AllOrNothing
import NetPolicy.Daemon.Replacement
import NetPolicy.Daemon.Ports
import NetPolicy.Daemon.Reset
import NetPolicy.Daemon.Isolation
import NetPolicy.Daemon.Verdicts
import NetPolicy.Daemon.LateBinding
import NetPolicy.Daemon.Batches
import NetPolicy.Daemon.EventLoop
import NetPolicy.Grpc.ControlDispatch
import NetPolicy.Grpc.EventService
import NetPolicy.Daemon.MatchMessages
import NetPolicy.Iptables.MangleTable
import NetPolicy.Iptables.Installation
import NetPolicy.Iptables.Interruptions
import NetPolicy.Conntrack.Objects
import NetPolicy.Conntrack.Session
import NetPolicy.Conntrack.MarkUpdates
import NetPolicy.Iptables.Traversal
import NetPolicy.Daemon.VerdictMarks
import NetPolicy.Daemon.PodNetworks
import NetPolicy.Daemon.MarkProtocol
import NetPolicy.Daemon.Rulebook
import NetPolicy.Daemon.Enforcement
import NetPolicy.Library.BinaryFormats
import NetPolicy.Library.DecimalNotation
import NetPolicy.Cjson.Items
import NetPolicy.Cjson.Parsing
import NetPolicy.Cjson.Strings
import NetPolicy.Cjson.RoundTrip
import NetPolicy.Cjson.Printing
import NetPolicy.Cjson.WholeNumbers
import NetPolicy.Daemon.Documents
