import StreamRelay.Run
import StreamRelay.StartCode
import StreamRelay.LinkedQueue
import StreamRelay.Stdio
import StreamRelay.Json
import StreamRelay.Capacity
import StreamRelay.Wire
import StreamRelay.Pace
import StreamRelay.BigEndian
import StreamRelay.LittleEndian
import StreamRelay.CText
import StreamRelay.Scanf
import StreamRelay.Arrival
import StreamRelay.Dict
import StreamRelay.Census
import StreamRelay.PyText
import StreamRelay.SlidingWindow
import StreamRelay.Checked
import StreamRelay.Buffer
import StreamRelay.Simd
import StreamRelay.Refcount
import StreamRelay.Phase
import StreamRelay.Narrowing
import StreamRelay.Relief
import StreamRelay.Reassembly
import StreamRelay.Retry
import StreamRelay.Since
import StreamRelay.Protocol
import StreamRelay.Tlv
import StreamRelay.Recorder.State
import StreamRelay.Recorder.AnnexB
import StreamRelay.Recorder.Mount
import StreamRelay.Recorder.Idr
import StreamRelay.Recorder.Segment
import StreamRelay.Recorder.Naming
import StreamRelay.Recorder.Process
import StreamRelay.Recorder.Effects
import StreamRelay.Recorder.Walk
import StreamRelay.Recorder.Custody
import StreamRelay.Recorder.Calls
import StreamRelay.Recorder.Ledger
import StreamRelay.Recorder.Ownership
import StreamRelay.Recorder.Publication
import StreamRelay.Recorder.FinalPaths
import StreamRelay.Recorder.Gate
import StreamRelay.Recorder.Session
import StreamRelay.Recorder.Content
import StreamRelay.Recorder.Recording
import StreamRelay.Recorder.Reparse
import StreamRelay.Recorder.Queue
import StreamRelay.Recorder.QueueInvariant
import StreamRelay.Recorder.QueueProgress
import StreamRelay.Recorder.Handover
import StreamRelay.Recorder.Schedule
import StreamRelay.Recorder.Requests
import StreamRelay.Recorder.Spacing
import StreamRelay.Recorder.Periodic
import StreamRelay.Recorder.Containment
import StreamRelay.Recorder.SegmentLength
import StreamRelay.Server.Decoder
import StreamRelay.Server.Stream
import StreamRelay.Server.Packet
import StreamRelay.Server.Sessions
import StreamRelay.Server.Coherence
import StreamRelay.Server.Streams
import StreamRelay.Server.Bridge
import StreamRelay.Server.Freshness
import StreamRelay.Server.Request
import StreamRelay.Server.Named
import StreamRelay.Server.Router
import StreamRelay.Server.RateLimit
import StreamRelay.Server.Single
import StreamRelay.Server.Watchdog
import StreamRelay.Server.Connections
import StreamRelay.Server.CudaDevice
import StreamRelay.Server.Vuyx
import StreamRelay.Server.Roi
import StreamRelay.Server.BgrFrames
import StreamRelay.Server.BridgeThread
import StreamRelay.Server.StressTest
import StreamRelay.Server.CudaAcquire
import StreamRelay.Server.DecoderDevices
import StreamRelay.Server.Fallback
import StreamRelay.Tap.Client
import StreamRelay.Tap.Slots
import StreamRelay.Tap.Moves
import StreamRelay.Tap.Table
import StreamRelay.Tap.Ledger
import StreamRelay.Tap.Isolation
import StreamRelay.Tap.Integrity
import StreamRelay.Tap.Recovery
import StreamRelay.Tap.Copies
import StreamRelay.Tap.IdrFlag
import StreamRelay.Tap.ParamSets
import StreamRelay.Server.Header
import StreamRelay.Server.Framing
import StreamRelay.Agent.TlvProtocol
import StreamRelay.Sender.TcpSender
import StreamRelay.Sender.Metadata
import StreamRelay.Sender.Frames
import StreamRelay.Sender.Grammar
import StreamRelay.Sender.Acceptance
import StreamRelay.Agent.Handshake
import StreamRelay.Agent.Ingest
import StreamRelay.Agent.Tap
import StreamRelay.Agent.Control
import StreamRelay.Agent.Datagrams
import StreamRelay.Worker.ControlSocket
import StreamRelay.Worker.Commands
import StreamRelay.Worker.InputCalls
import StreamRelay.Worker.DecodeUnit
import StreamRelay.Worker.IdrFrame
import StreamRelay.Link.OnDemand
import StreamRelay.Link.Gate
import StreamRelay.Link.Accounting
import StreamRelay.Link.IdleStop
import StreamRelay.Link.Signature
import StreamRelay.Link.Replay
import StreamRelay.Link.Rejection
import StreamRelay.TcpGate.TokenStore
import StreamRelay.TcpGate.Tokens
import StreamRelay.TcpGate.Gate
import StreamRelay.TcpGate.Accounting
import StreamRelay.WsBridge.Tokens
import StreamRelay.WsBridge.Server
import StreamRelay.WsBridge.BruteForce
import StreamRelay.WsBridge.IdleStop
import StreamRelay.WsBridge.IssueWindow
import StreamRelay.Transcode.Claims
import StreamRelay.Transcode.Batches
import StreamRelay.Transcode.Helper
import StreamRelay.Transcode.Jobs
import StreamRelay.Agent.Segments
import StreamRelay.Agent.AuthLine
import StreamRelay.Agent.PngFrames
import StreamRelay.Deploy.Prune
import StreamRelay.Deploy.Mlctl
import StreamRelay.Deploy.Workers
import StreamRelay.Deploy.ControlPlane
import StreamRelay.Deploy.Finder
import StreamRelay.Sender.History
import StreamRelay.Worker.Options
import StreamRelay.Worker.Session
import StreamRelay.Server.Reception
import StreamRelay.Server.Archive
import StreamRelay.Server.CtrlMap
