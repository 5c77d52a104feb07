import RoboTele.Runs.Machine
import RoboTele.Runs.Past
import RoboTele.Tables.Ordered
import RoboTele.Tables.Filling
import RoboTele.Tables.Median
import RoboTele.Tables.Parts
import RoboTele.Queues.ChunkQueue
import RoboTele.Queues.TwoLane
import RoboTele.Queues.LaneSchedule
import RoboTele.Queues.Slots
import RoboTele.Queues.Merge
import RoboTele.Queues.Strided
import RoboTele.Queues.TokenBucket
import RoboTele.Queues.WaitingLine
import RoboTele.Queues.WindowMin
import RoboTele.Queues.RoundRobin
import RoboTele.Queues.FrameLane
import RoboTele.Queues.VaryingBucket
import RoboTele.Queues.HeapQueue
import RoboTele.Bytes.BigEndian
import RoboTele.Bytes.Framing
import RoboTele.Bytes.Incremental
import RoboTele.Bytes.Format
import RoboTele.Bytes.FixedPoint
import RoboTele.Bytes.Tiling
import RoboTele.Bytes.Concatenation
import RoboTele.Bytes.FloatingPoint
import RoboTele.Core.Clock
import RoboTele.Core.Double
import RoboTele.Core.Safety
import RoboTele.Core.Timestamp
import RoboTele.Core.Datagram
import RoboTele.Core.ChannelC
import RoboTele.Core.Float
import RoboTele.Core.FloatArith
import RoboTele.Core.RobotProfile
import RoboTele.Core.ProfileHash
import RoboTele.Core.Profile
import RoboTele.Core.Interpolation
import RoboTele.Core.Quantization
import RoboTele.Core.Sizing
import RoboTele.Core.Layout
import RoboTele.Core.Video
import RoboTele.Core.ResumeInterlock
import RoboTele.Core.NalReassembler
import RoboTele.Core.NalRuns
import RoboTele.Core.Topic
import RoboTele.Core.TopicStream
import RoboTele.Core.TopicOutbox
import RoboTele.Core.TopicRuns
import RoboTele.Core.TopicOrder
import RoboTele.Core.TopicBacklog
import RoboTele.Core.TopicLatest
import RoboTele.Core.RateCap
import RoboTele.Core.Sensor
import RoboTele.Core.SensorFrames
import RoboTele.Core.FrameAssembler
import RoboTele.Core.FrameInvariant
import RoboTele.Core.FrameRuns
import RoboTele.Core.SensorDelivery
import RoboTele.Core.SensorDescriptor
import RoboTele.Core.SensorImages
import RoboTele.Core.ImageReading
import RoboTele.Core.ImagesRestored
import RoboTele.Core.SessionTables
import RoboTele.Core.Bulk
import RoboTele.Core.BulkInvariant
import RoboTele.Core.BulkRuns
import RoboTele.Core.BulkMemory
import RoboTele.Core.Recording
import RoboTele.Core.Retention
import RoboTele.Core.AnnexB
import RoboTele.Recording.Segment
import RoboTele.Recording.Writer
import RoboTele.Recording.RetentionOrder
import RoboTele.Recording.DiskBound
import RoboTele.Recording.Shutdown
import RoboTele.Simulator.Watchdog
import RoboTele.Simulator.Sizing
import RoboTele.Simulator.Scheduler
import RoboTele.Simulator.SchedulerOrder
import RoboTele.Simulator.Link
import RoboTele.Simulator.LinkRuns
import RoboTele.Zenoh.TopicLink
import RoboTele.Zenoh.TopicLinkRuns
import RoboTele.RobotEdge.SafetyTask
import RoboTele.RobotEdge.SafetyHistory
import RoboTele.RobotEdge.ChannelB
import RoboTele.RobotEdge.TeleopFields
import RoboTele.RobotEdge.AutonomyGoal
import RoboTele.RobotEdge.BridgeProtocol
import RoboTele.RobotEdge.Session
import RoboTele.RobotEdge.SessionSteps
import RoboTele.RobotEdge.SessionOrders
import RoboTele.RobotEdge.SessionRuns
import RoboTele.RobotEdge.EstopLink
import RoboTele.RobotEdge.Server
import RoboTele.RobotEdge.Rest
import RoboTele.RobotEdge.SitHold
import RoboTele.RobotEdge.Suspension
import RoboTele.RobotEdge.SessionHandler
import RoboTele.RobotEdge.Liveness
import RoboTele.RobotEdge.CommandOrder
import RoboTele.RobotEdge.SessionQueue
import RoboTele.RobotEdge.Handshake
import RoboTele.RobotEdge.MessageReads
import RoboTele.RobotEdge.VideoRx
import RoboTele.RobotEdge.VideoTaps
import RoboTele.RobotEdge.LossyQueue
import RoboTele.RobotEdge.LossySensors
import RoboTele.RobotEdge.LossyTurns
import RoboTele.RobotEdge.SensorSlices
import RoboTele.RobotEdge.LossyRate
import RoboTele.RobotEdge.LossyBudget
import RoboTele.RobotEdge.DeltaChain
import RoboTele.RobotEdge.ParameterSets
import RoboTele.RobotEdge.LossyDrain
import RoboTele.RobotEdge.VideoPipeline
import RoboTele.RobotEdge.BulkSender
import RoboTele.RobotEdge.BulkSending
import RoboTele.RobotEdge.BulkLink
import RoboTele.XgoBridge.Bridge
import RoboTele.XgoBridge.BridgeRuns
import RoboTele.RobotEdge.Supervisor
import RoboTele.RobotEdge.BridgeLatch
import RoboTele.RobotEdge.Respawn
import RoboTele.OperatorConsole.Client
import RoboTele.OperatorConsole.Observer
import RoboTele.OperatorConsole.DeltaGate
import RoboTele.OperatorConsole.Playback
import RoboTele.OperatorConsole.VideoSessions
import RoboTele.OperatorConsole.Gamepad
import RoboTele.OperatorConsole.GamepadLoss
import RoboTele.OperatorConsole.Keyboard
import RoboTele.OperatorConsole.ArmKeepOut
import RoboTele.OperatorConsole.SessionHandler
import RoboTele.OperatorConsole.SessionCache
import RoboTele.Queues.InOrderRelease
import RoboTele.Simulator.Driven
import RoboTele.Simulator.NaiveLink
import RoboTele.Simulator.NaiveLinkRuns
import RoboTele.Simulator.SafetyStateMachine
import RoboTele.Simulator.WatchdogTimer
import RoboTele.Recording.Replay
import RoboTele.Queues.BoundedChannel
import RoboTele.Zenoh.Forwarder
import RoboTele.Zenoh.ForwardEnd
import RoboTele.Zenoh.ForwardPair
import RoboTele.Zenoh.ForwardWay
import RoboTele.Zenoh.ForwardPairRuns
import RoboTele.Bytes.Words
import RoboTele.Zenoh.ForwardConfig
import RoboTele.Handshake.Console
import RoboTele.Handshake.RobotView
import RoboTele.Handshake.Link
import RoboTele.Handshake.LinkRuns
import RoboTele.OperatorConsole.VideoPath
import RoboTele.OperatorConsole.VideoResume
import RoboTele.OperatorConsole.SensorPath
