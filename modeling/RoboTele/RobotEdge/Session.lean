import RoboTele.RobotEdge.AutonomyGoal
import RoboTele.RobotEdge.BridgeProtocol
import RoboTele.RobotEdge.ChannelB
import RoboTele.RobotEdge.SafetyTask

/-!
# The robot-edge session

`Session` of `quic_server.rs` and the handlers its driving loop calls.  A
handler is a function from the session and its input to the session after it.

What a session does to the world, and the decisions its properties speak of,
go to `log`, oldest first.  An `Act.queued` is a `cmd_tx.send` to the bridge
supervisor, an `Act.arbitrated` is one call of `SafetyTask::tick` with the
inputs it arbitrated.  The other entries mark what a handler accepted.

Three things come from outside and are inputs of an event: the instants that
`Instant::now()` returns (`Clock`), what quiche answers to a write, and the
wall clock of a telemetry frame.  Recording, logging and the Zenoh sinks never
feed back and are left out, as are the video, sensor, bulk and topic queues and
their rate control, which no handler here reads.
-/

namespace RoboTele

/-- How far session setup has come. -/
inductive Phase where
  | awaitingHello
  | awaitingSessionAccept
  | operating
deriving DecidableEq

/-- What a benchmark session does with its datagrams. -/
inductive BenchMode where
  | echo
  | count
  | send
deriving DecidableEq

def benchEchoTickId : UInt32 := 0xEC40EC40

/-- What a benchmark session has counted. -/
structure BenchCounter where
  msgs : Nat
  bytes : Nat
  firstRx : Option Instant
  lastLog : Option Instant

/-- Logs the totals at most once a second, from the first reception on. -/
def BenchCounter.logBenchCounter (c : BenchCounter) (now : Instant) : BenchCounter :=
  match c.firstRx with
  | none => c
  | some _ =>
      if c.lastLog.any (fun t => decide (now.durationSince t < fromMillis 1000)) then c
      else { c with lastLog := some now }

/-- The camera settings that were last applied. -/
structure CameraControls where
  brightness : ℚ
  contrast : ℚ
  ev : ℚ
  shutterUs : UInt32
deriving DecidableEq

/-- How `Session::run` returns. -/
inductive Exit where
  /-- The connection is closed, by either side or by the idle timeout. -/
  | closed
  /-- A `?` in the loop returned an error. -/
  | error
  /-- SIGINT or SIGTERM. -/
  | shutdown
deriving DecidableEq

/-- An entry of the session's log. -/
inductive Act where
  /-- One `SafetyTask::tick`, with what it arbitrated. -/
  | arbitrated (inputs : ArbitrationInputs)
  /-- A command sent to the bridge supervisor's queue. -/
  | queued (cmd : BridgeCommand)
  | sentDatagram (data : Bytes)
  | sentStream (streamId : Nat) (data : Bytes)
  | appliedCamera (controls : CameraControls)
  | estopTriggered
  | estopCleared
  /-- A heartbeat datagram taken in the Operating phase. -/
  | heartbeatAccepted
  /-- A Command frame taken in the Operating phase. -/
  | commandAccepted (seq : UInt64)
  /-- A Command frame handed to `dispatch_teleop_command`. -/
  | dispatched (seq : UInt64)
  /-- The end of `on_tick`, with what it arbitrated. -/
  | tickDone (inputs : ArbitrationInputs)
deriving DecidableEq

/-- The robot's side of one session.  `log` is what it did, oldest first. -/
structure Session where
  taskClass : TaskClass
  /-- The encoded SESSION_DESCRIBE of this robot. -/
  describe : Bytes
  /-- Topic forwarding is on. -/
  forwarding : Bool
  cameraAttached : Bool
  bench : Option BenchMode
  phase : Phase
  safety : SafetyTask
  autonomyGoal : AutonomyGoal
  topicsNegotiated : Bool
  selectedSensors : Bytes
  channelBSeq : Nat
  estopSeq : UInt64
  helloSent : Bool
  sessionDescribeSent : Bool
  estopStreamPrimed : Bool
  lastReportedEstopLatched : Option Bool
  bridgeEstopActive : Bool
  tickCount : Nat
  latestTelemetry : Option TelemetryData
  triggerDedup : TriggerDedup
  cameraControlDedup : CameraControlDedup
  actionSettleUntil : Option Instant
  sitting : Bool
  benchCounter : BenchCounter
  /-- How `Session::run` returned, once it has. -/
  ended : Option Exit
  log : List Act

/-- The bridge is asked for telemetry at every so many ticks. -/
def telemetryQueryEveryNTicks : Nat := 50
def standActionId : UInt8 := 2
def sitActionId : UInt8 := 12
def actionSettleDuration : Nat := fromMillis 2500

/-- What the process fixes for every session it serves. -/
structure ServerArgs where
  taskClass : TaskClass
  watchdogThresholdMs : ℚ
  describe : Bytes
  forwarding : Bool
  cameraAttached : Bool
  bench : Option BenchMode

namespace Session

/-- The session built for a new connection. -/
def new (args : ServerArgs) (goal : AutonomyGoal) (now : Instant) : Session :=
  { taskClass := args.taskClass
    describe := args.describe
    forwarding := args.forwarding
    cameraAttached := args.cameraAttached
    bench := args.bench
    phase := .awaitingHello
    safety := .withWatchdogThresholdMs args.taskClass args.watchdogThresholdMs now
    autonomyGoal := goal
    topicsNegotiated := false
    selectedSensors := []
    channelBSeq := 0
    estopSeq := 0
    helloSent := false
    sessionDescribeSent := false
    estopStreamPrimed := false
    lastReportedEstopLatched := none
    bridgeEstopActive := false
    tickCount := 0
    latestTelemetry := none
    triggerDedup := { lastApplied := none }
    cameraControlDedup := { lastApplied := none }
    actionSettleUntil := none
    sitting := false
    benchCounter := { msgs := 0, bytes := 0, firstRx := none, lastLog := none }
    ended := none
    log := [] }

/-! ## Small operations -/

/-- Note what the session did. -/
def record (s : Session) (a : Act) : Session := { s with log := s.log ++ [a] }

/-- The next number of the robot's own frames. -/
def nextSeq (s : Session) : Session × Nat :=
  ({ s with channelBSeq := s.channelBSeq + 1 }, s.channelBSeq + 1)

/-- `next_seq` and a `cmd_tx.send` of the command that carries it. -/
def send (s : Session) (mk : Nat → BridgeCommand) : Session :=
  let (s, seq) := s.nextSeq
  s.record (.queued (mk seq))

/-- Set the operator's latch, and note it. -/
def triggerExplicitEstop (s : Session) : Session :=
  { s with safety := s.safety.triggerExplicitEstop }.record .estopTriggered

/-- Clear both latches, and note it. -/
def clearExplicitEstop (s : Session) (now : Instant) : Session :=
  { s with safety := s.safety.clearExplicitEstop now }.record .estopCleared

/-- What both E-Stop paths do with a decoded message. -/
def applyEstop (s : Session) (d : EstopDatagram) (now : Instant) : Session :=
  if d.latched then s.triggerExplicitEstop else s.clearExplicitEstop now

/-- Something was heard.  No round-trip time is measured. -/
def onChannelBActivity (s : Session) (now : Instant) : Session :=
  { s with safety := s.safety.onChannelBActivity none now }

/-- `self.safety.tick(Instant::now(), self.autonomy_goal.asserted())`. -/
def arbitrate (s : Session) (now goalNow : Instant) : Session × ControlSource :=
  let asserted := s.autonomyGoal.asserted goalNow
  let (safety, source) := s.safety.tick now asserted
  ({ s with safety }.record (.arbitrated (safety.inputs asserted)), source)

/-- What the robot says of itself. -/
def localHelloCapabilities (s : Session) : HelloCapabilities :=
  { protocolVersion := { major := 1, minor := 0 }
    capabilityBitmask := if s.forwarding then topicForwarding else 0
    supportedTaskClasses :=
      match s.taskClass with
      | .b => 1
      | .c => 2
      | .d => 4
      | .e => 8
    supportedQuantizationTiers := 2
    maxControlRateHz := 50 }

/-! ## Commands -/

/-- Move, turn and the three attitude axes of a command. -/
def sendBody (s : Session) (cmd : TeleopCommand) : Session :=
  s.send (.move cmd.vx cmd.vy)
    |>.send (.turn cmd.turn)
    |>.send (.attitude 'r' cmd.attitudeR)
    |>.send (.attitude 'p' cmd.attitudeP)
    |>.send (.attitude 'y' cmd.attitudeY)

/-- A stand or a sit is still being carried out. -/
def settling (s : Session) (now : Instant) : Bool :=
  s.actionSettleUntil.any (fun deadline => decide (now < deadline))

/-- A settle deadline that has passed is forgotten. -/
def expireSettle (s : Session) (now : Instant) : Session :=
  if s.actionSettleUntil.isSome && !s.settling now then { s with actionSettleUntil := none } else s

/-- A command that moves ends a sit. -/
def endSit (s : Session) (cmd : TeleopCommand) : Session :=
  if s.sitting && !cmd.isIdle then { s with sitting := false } else s

/-- The Full Teleoperation arm of `dispatch_teleop_command`. -/
def driveTeleop (s : Session) (cmd : TeleopCommand) (now : Instant) : Session :=
  let settling := s.settling now
  let s := (s.expireSettle now).endSit cmd
  let holdSit := s.sitting && cmd.isIdle
  let s := if !settling && !holdSit then s.sendBody cmd else s
  let s := if !settling then s.send (.arm cmd.armX cmd.armZ) else s
  s.send (.claw cmd.claw)

/-- Arbitrate, and then order what the command asks for, or a stop. -/
def dispatchTeleopCommand (s : Session) (cmd : TeleopCommand) (now goalNow settleNow : Instant) :
    Session × ControlSource :=
  let (s, source) := s.arbitrate now goalNow
  match source with
  | .fullTeleoperation => (s.driveTeleop cmd settleNow, source)
  | .eStop | .emergencySafeParking | .activeImpedanceHold => (s.send .stop, source)
  | .semiAutonomous => (s, source)

/-! ## Datagrams -/

/-- Another message of a benchmark. -/
def countBench (s : Session) (now : Instant) (bytes : Nat) : Session :=
  { s with
    benchCounter :=
      { s.benchCounter with
        firstRx := some (s.benchCounter.firstRx.getD now)
        msgs := s.benchCounter.msgs + 1
        bytes := s.benchCounter.bytes + bytes } }

/-- A command in a benchmark session, which is only counted or echoed. -/
def onBenchCommand (fb : FlatBuffers) (s : Session) (mode : BenchMode) (frame : ChannelBFrameData)
    (wireLen : Nat) (now : Instant) : Session :=
  match TeleopCommand.unpack frame.fields with
  | none => s
  | some _ =>
      match mode with
      | .echo =>
          let echo := { frame with
            tickId := benchEchoTickId, category := .telemetry, regionId := allRegions }
          s.record (.sentDatagram (tag datagramTagChannelB (encodeChannelBFrame fb echo)))
      | .count | .send => s.countBench now wireLen

/-- Any bytes in a benchmark session. -/
def onBenchRaw (s : Session) (mode : BenchMode) (data : Bytes) (clk : Clock) : Session :=
  let s := s.onChannelBActivity (clk.read 0)
  match mode with
  | .echo => s.record (.sentDatagram data)
  | .count | .send => s.countBench (clk.read 1) (data.length - 1)

/-- The watchdog, deadman and freshness updates of an accepted Command frame. -/
def acceptCommand (s : Session) (seq : UInt64) (now : Instant) : Session :=
  let s := s.onChannelBActivity now
  { s with safety := { s.safety with deadmanHeld := true, commandFresh := true } }.record
    (.commandAccepted seq)

/-- A Channel B frame in the Operating phase. -/
def onChannelBFrame (fb : FlatBuffers) (s : Session) (payload : Bytes) (clk : Clock) : Session :=
  let frame := decodeChannelBFrame fb payload
  if frame.category = .command then
    let s := s.acceptCommand frame.seq (clk.read 0)
    match s.bench with
    | some mode => s.onBenchCommand fb mode frame payload.length (clk.read 1)
    | none =>
        match TeleopCommand.unpack frame.fields with
        | some cmd =>
            ((s.record (.dispatched frame.seq)).dispatchTeleopCommand cmd
              (clk.read 1) (clk.read 2) (clk.read 3)).1
        | none => s
  else s

/-- A datagram, by its first byte. -/
def onDatagram (fb : FlatBuffers) (s : Session) (data : Bytes) (clk : Clock) : Session :=
  if data.head? = some estopDatagramMagic then
    match EstopDatagram.decode data with
    | some d => (s.applyEstop d (clk.read 0)).onChannelBActivity (clk.read 1)
    | none => s
  else if s.phase ≠ .operating then s
  else if data.head? = some datagramTagBenchRaw then
    match s.bench with
    | some mode => s.onBenchRaw mode data clk
    | none => s
  else
    match untag data with
    | none => s
    | some (tagByte, payload) =>
        if tagByte = datagramTagHeartbeat then
          (s.onChannelBActivity (clk.read 0)).record .heartbeatAccepted
        -- A forwarded topic sample is republished locally and touches nothing here.
        else if tagByte = datagramTagTopic then s
        else if tagByte ≠ datagramTagChannelB then s
        else s.onChannelBFrame fb payload clk

/-! ## Streams -/

/-- What `stream_send` answers. -/
inductive StreamWrite where
  | written (n : Nat)
  | done
  | error
deriving DecidableEq

/-- `send_session_describe`.  A short or failed write ends the session. -/
def sendSessionDescribe (s : Session) (write : StreamWrite) : Session :=
  if s.sessionDescribeSent then s
  else
    let s := s.record (.sentStream 1 s.describe)
    match write with
    | .written n => if n = s.describe.length then { s with sessionDescribeSent := true }
                    else { s with ended := some .error }
    | .done => s
    | .error => { s with ended := some .error }

/-- HELLO: negotiate and describe, or close. -/
def onHello (fb : FlatBuffers) (s : Session) (data : Bytes) (write : StreamWrite) : Session :=
  match negotiate s.localHelloCapabilities (decodeHello fb data) with
  | .ok negotiated =>
      { s with
        topicsNegotiated := negotiated.capabilityBitmask &&& topicForwarding != 0
        phase := .awaitingSessionAccept }.sendSessionDescribe write
  -- HELLO_INCOMPATIBLE closes the connection, which the loop sees later.
  | .error _ => s

/-- A trigger that was not seen yet, if the operator drives. -/
def onActionTrigger (s : Session) (trigger : ActionTrigger) (clk : Clock) : Session :=
  let (dedup, isNew) := s.triggerDedup.accept trigger
  let s := { s with triggerDedup := dedup }
  if !isNew then s
  else
    let (s, source) := s.arbitrate (clk.read 0) (clk.read 1)
    if source ≠ .fullTeleoperation then s
    else
      let s := s.send (.action trigger.actionId)
      let s :=
        if trigger.actionId = standActionId ∨ trigger.actionId = sitActionId then
          { s with actionSettleUntil := some (clk.read 2 + actionSettleDuration) }
        else s
      if trigger.actionId = sitActionId then { s with sitting := true }
      else if trigger.actionId = standActionId then { s with sitting := false }
      else s

/-- Settings that were not seen yet, if there is a camera. -/
def onCameraControl (s : Session) (control : CameraControl) : Session :=
  let (dedup, isNew) := s.cameraControlDedup.accept control
  let s := { s with cameraControlDedup := dedup }
  if !isNew || !s.cameraAttached then s
  else
    s.record (.appliedCamera
      { brightness := max (-1) (min control.brightness 1)
        contrast := max 0 (min control.contrast 2)
        ev := max (-4) (min control.ev 4)
        shutterUs := min control.shutterUs 100000 })

/-- What was read from a stream, by its id and the phase. -/
def onStreamData (fb : FlatBuffers) (s : Session) (streamId : Nat) (data : Bytes) (clk : Clock)
    (write : StreamWrite) : Session :=
  if streamId = 0 ∧ s.phase = .awaitingHello then s.onHello fb data write
  else if streamId = 1 ∧ s.phase = .awaitingSessionAccept then
    { s with
      selectedSensors := (decodeSessionAccept fb data).selectedSensors
      phase := .operating }
  else if streamId = estopStreamId then
    match EstopDatagram.decode data with
    | some d => s.applyEstop d (clk.read 0)
    | none => s
  else if streamId = actionTriggerStreamId ∧ s.phase = .operating then
    s.onActionTrigger (decodeActionTrigger fb data) clk
  else if streamId = cameraControlStreamId ∧ s.phase = .operating then
    s.onCameraControl (decodeCameraControl fb data)
  else s

/-! ## Ticks -/

/-- What a tick learns from quiche and the wall clock. -/
structure TickIo where
  established : Bool
  /-- `stream_send` on the E-Stop stream succeeds. -/
  estopStreamOk : Bool
  /-- `now_micros` of the telemetry frame. -/
  captureUs : UInt64

/-- The start of a tick: the tick is counted, and the bench counter logged. -/
def countTick (s : Session) (now : Instant) : Session :=
  { s with
    tickCount := s.tickCount + 1
    benchCounter :=
      if s.bench = some .count then s.benchCounter.logBenchCounter now else s.benchCounter }

/-- The E-Stop state to the operator: a datagram every tick, and the stream
when the state changed. -/
def reportEstop (s : Session) (latched : Bool) (io : TickIo) : Session :=
  let s :=
    if !s.estopStreamPrimed && io.established then { s with estopStreamPrimed := true } else s
  let s := { s with estopSeq := s.estopSeq + 1 }
  let d : EstopDatagram := { latched, seq := s.estopSeq }
  let s := s.record (.sentDatagram d.encode)
  if s.estopStreamPrimed && s.lastReportedEstopLatched != some latched then
    let s := s.record (.sentStream estopStreamId d.encode)
    if io.estopStreamOk then { s with lastReportedEstopLatched := some latched } else s
  else s

/-- The E-Stop state to the bridge: `Estop` every tick while latched, one
`EstopClear` on the way out. -/
def relayEstop (s : Session) (source : ControlSource) : Session :=
  if source = .eStop then { s with bridgeEstopActive := true }.send .estop
  else if s.bridgeEstopActive then { s with bridgeEstopActive := false }.send .estopClear
  else s

/-- The autonomy goal's velocity, when arbitration picked it. -/
def driveAutonomy (s : Session) (source : ControlSource) (goalNow : Instant) : Session :=
  if source = .semiAutonomous then
    let v := s.autonomyGoal.readVelocity goalNow
    s.send (.move v.vx v.vy) |>.send (.turn v.turn)
  else s

/-- Send the newest telemetry with the next number. -/
def sendTelemetry (fb : FlatBuffers) (s : Session) (captureUs : UInt64) : Session :=
  let fields := (s.latestTelemetry.map TelemetryData.pack).getD []
  let (s, seq) := s.nextSeq
  let frame : ChannelBFrameData :=
    { timestamp := captureUs, seq := UInt64.ofNat seq, tickId := 0
      category := .telemetry, regionId := allRegions, fields }
  s.record (.sentDatagram (tag datagramTagChannelB (encodeChannelBFrame fb frame)))

/-- Arbitrate, report, relay the latch, drive for autonomy, and ask for telemetry now and then. -/
def onTick (fb : FlatBuffers) (s : Session) (clk : Clock) (io : TickIo) : Session :=
  let (s, source) := (s.countTick (clk.read 0)).arbitrate (clk.read 0) (clk.read 1)
  let inputs := s.safety.inputs (s.autonomyGoal.asserted (clk.read 1))
  let s := s.reportEstop s.safety.isEstopped io
  let s := s.send .heartbeat
  let s := s.relayEstop source
  let s := s.driveAutonomy source (clk.read 2)
  let s := if s.tickCount % telemetryQueryEveryNTicks = 0 then s.send .query else s
  let s := if s.phase = .operating then s.sendTelemetry fb io.captureUs else s
  s.record (.tickDone inputs)

/-! ## Bridge events and the end of a session -/

/-- What the supervisor reports. -/
def onBridgeEvent (s : Session) (event : SupervisorEvent) : Session :=
  match event with
  | .fromBridge (.telemetry _ motors battery roll pitch yaw) =>
      { s with latestTelemetry := some { battery, roll, pitch, yaw, motors } }
  | .fromBridge _ => s
  | .processDied _ _ => s.triggerExplicitEstop
  | .gaveUp => s.triggerExplicitEstop

/-- SIGINT or SIGTERM: stop the robot and latch the bridge before closing. -/
def shutDown (s : Session) : Session := (s.send .stop).send .estop

/-- The session is over, in an orderly way or not. -/
def finish (s : Session) (exit : Exit) : Session :=
  match exit with
  | .shutdown => { s.shutDown with ended := some .shutdown }
  | .closed => { s with ended := some .closed }
  | .error => { s with ended := some .error }

/-- Send HELLO, once. -/
def sendHello (fb : FlatBuffers) (s : Session) (write : StreamWrite) : Session :=
  if s.helloSent then s
  else
    let s := s.record (.sentStream 0 (encodeHello fb s.localHelloCapabilities))
    match write with
    | .written _ | .done => { s with helloSent := true }
    | .error => s

/-! ## The driving loop -/

/-- One thing the driving loop reacts to. -/
inductive Event where
  /-- A received datagram. -/
  | datagram (data : Bytes) (clk : Clock)
  /-- One `stream_recv`. -/
  | streamData (streamId : Nat) (data : Bytes) (clk : Clock) (write : StreamWrite)
  | tick (clk : Clock) (io : TickIo)
  | bridgeEvent (event : SupervisorEvent)
  /-- The subscriber task writes a sample to the shared goal. -/
  | autonomySample (payload : Bytes) (now : Instant)
  /-- `after_recv` finds the connection established. -/
  | established (write : StreamWrite)
  /-- The loop returns. -/
  | exit (exit : Exit)

/-- Streams 2 mod 4 carry forwarded topics and go elsewhere. -/
def handle (fb : FlatBuffers) (s : Session) : Event → Session
  | .datagram data clk => s.onDatagram fb data clk
  | .streamData streamId data clk write =>
      if streamId % 4 = 2 then s else s.onStreamData fb streamId data clk write
  | .tick clk io => s.onTick fb clk io
  | .bridgeEvent event => s.onBridgeEvent event
  | .autonomySample payload now => { s with autonomyGoal := s.autonomyGoal.markSeen now payload }
  | .established write => s.sendHello fb write
  | .exit exit => s.finish exit

/-- One step of the loop.  An ended session takes no more steps. -/
def step (fb : FlatBuffers) (s : Session) (e : Event) : Session :=
  if s.ended.isSome then s else s.handle fb e

end Session

end RoboTele
