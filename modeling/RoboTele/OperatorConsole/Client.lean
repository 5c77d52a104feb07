import RoboTele.Core.ChannelC
import RoboTele.Core.Clock
import RoboTele.RobotEdge.ChannelB

/-!
# The operator console's client

`Client` of `quic_client.rs`: what its inputs do to the command it holds, and
what its tick sends.  Frames and commands have the byte layout of `robot-edge`'s
`channel_b.rs`, which the console's own copy must stay identical to.

What the client hands to quiche goes to `log`, oldest first, with a mark where a
reconnect starts a new session.  The HUD, recording, video, sensors and topics
read this state and never change it, and are left out.
-/

namespace RoboTele

/-! ## Ranges -/

def armXMin : Int := -80
def armXMax : Int := 155
def armZMin : Int := -95
def armZMax : Int := 155
def armClawNeutral : UInt8 := 128

def rollMax : ℚ := 20
def pitchMax : ℚ := 10
def yawMax : ℚ := 12

/-- `clamp`. -/
def clampTo {α : Type} [Max α] [Min α] (lo hi v : α) : α := max lo (min v hi)

/-- The least `x` at which the arm stays clear of the robot's front screen,
measured between `z = 0` and `z = 35`. -/
def minSafeArmX (armZ : Int) : Int :=
  let z := clampTo 0 35 armZ
  clampI16 (roundHalfAway (70 - 40 / 35 * (z : ℚ)))

/-- The camera settings that the operator has chosen. -/
structure CameraControlState where
  brightness : ℚ
  contrast : ℚ
  ev : ℚ
  shutterUs : Nat
deriving DecidableEq

def CameraControlState.default : CameraControlState :=
  { brightness := 0, contrast := 1, ev := 0, shutterUs := 0 }

/-- What the keyboard, the gamepad and the panel tell the client. -/
inductive TeleopInput where
  | move (vx vy : ℚ)
  | turn (turn : ℚ)
  | action (id : UInt8)
  | estop
  | estopClear
  /-- Resolved by what the robot last reported. -/
  | estopToggle
  | armNudge (dx dz : Int)
  | attitudeNudge (axis : Char) (delta : ℚ)
  | attitudeReset
  | neutralPose
  | cameraNudge (param : Char) (delta : ℚ)
  | cameraReset
  | clawNudge (delta : Int)
  | saveFrame
  | toggleRecording
  | quit

/-- The input rides in the next Command frame. -/
def TeleopInput.ridesCommand : TeleopInput → Bool
  | move _ _ | turn _ | armNudge _ _ | attitudeNudge _ _ | attitudeReset | neutralPose
  | clawNudge _ => true
  | _ => false

/-! ## The held command -/

namespace TeleopCommand

/-- What the client holds before any input. -/
def initial : TeleopCommand :=
  { vx := 0, vy := 0, turn := 0, attitudeR := 0, attitudeP := 0, attitudeY := 0
    armX := 0, armZ := 0, claw := armClawNeutral }

/-- The command with its velocity zeroed. -/
def halted (c : TeleopCommand) : TeleopCommand := { c with vx := 0, vy := 0, turn := 0 }

/-- The arm moved within its range, and kept clear of the screen. -/
def nudgeArm (c : TeleopCommand) (dx dz : Int) : TeleopCommand :=
  let x := clampTo armXMin armXMax (c.armX + dx)
  let z := clampTo armZMin armZMax (c.armZ + dz)
  { c with armX := min (max x (minSafeArmX z)) armXMax, armZ := z }

/-- Turn the body a little, within its limits. -/
def nudgeAttitude (c : TeleopCommand) (axis : Char) (delta : ℚ) : TeleopCommand :=
  match axis with
  | 'r' => { c with attitudeR := clampTo (-rollMax) rollMax (c.attitudeR + delta) }
  | 'p' => { c with attitudeP := clampTo (-pitchMax) pitchMax (c.attitudeP + delta) }
  | 'y' => { c with attitudeY := clampTo (-yawMax) yawMax (c.attitudeY + delta) }
  | _ => c

/-- The body upright. -/
def level (c : TeleopCommand) : TeleopCommand :=
  { c with attitudeR := 0, attitudeP := 0, attitudeY := 0 }

/-- Open or close the claw a little. -/
def nudgeClaw (c : TeleopCommand) (delta : Int) : TeleopCommand :=
  { c with claw := UInt8.ofNat (clampTo 0 255 ((c.claw.toNat : Int) + delta)).toNat }

@[simp] theorem isIdle_halted (c : TeleopCommand) : c.halted.isIdle = true := by
  simp [halted, isIdle]

end TeleopCommand

/-- Change one of the settings, within its limits. -/
def CameraControlState.nudge (c : CameraControlState) (param : Char) (delta : ℚ) :
    CameraControlState :=
  match param with
  | 'b' => { c with brightness := clampTo (-1) 1 (c.brightness + delta) }
  | 'c' => { c with contrast := clampTo 0 2 (c.contrast + delta) }
  | 'v' => { c with ev := clampTo (-4) 4 (c.ev + delta) }
  | 's' =>
      { c with
        shutterUs := (clampTo 0 100000 ((c.shutterUs : Int) + roundHalfAway delta)).toNat }
  | _ => c

/-! ## The client -/

/-- An entry of the client's log. -/
inductive Sent where
  /-- A Command frame. -/
  | command (timestamp seq : UInt64) (cmd : TeleopCommand)
  | heartbeat (seq : UInt64)
  /-- An E-Stop message, as a datagram and on the E-Stop stream. -/
  | estop (d : EstopDatagram)
  | actionTrigger (trigger : ActionTrigger)
  | cameraControl (controls : CameraControlState) (controlSeq : UInt64)
  /-- A reconnect: what follows is another session. -/
  | reconnected

/-- How far session setup has come. -/
inductive ClientPhase where
  | awaitingHello
  | awaitingSessionDescribe
  | operating
deriving DecidableEq

/-- The options of the command line that the client reads. -/
structure ClientArgs where
  moveStaleMs : Nat
  observer : Bool
  demoAction : Option UInt8

/-- The console's side of a session.  `log` is what it has sent. -/
structure Client where
  phase : ClientPhase
  observer : Bool
  moveStale : Nat
  estopped : Bool
  lastCommand : TeleopCommand
  /-- When an input last rode in a command. -/
  lastMoveInputAt : Option Instant
  demoAction : Option UInt8
  cameraControls : CameraControlState
  channelBSeq : UInt64
  estopSeq : UInt64
  nextTriggerSeq : UInt64
  nextCameraControlSeq : UInt64
  log : List Sent

namespace Client

/-- A client that was just started. -/
def new (args : ClientArgs) : Client :=
  { phase := .awaitingHello
    observer := args.observer
    moveStale := fromMillis args.moveStaleMs
    estopped := false
    lastCommand := .initial
    lastMoveInputAt := none
    demoAction := args.demoAction
    cameraControls := .default
    channelBSeq := 0
    estopSeq := 0
    nextTriggerSeq := 0
    nextCameraControlSeq := 0
    log := [] }

/-- Note what was sent. -/
def record (s : Client) (x : Sent) : Client := { s with log := s.log ++ [x] }

/-- One-shot actions zero the velocity the operator holds. -/
def sendActionTrigger (s : Client) (actionId : UInt8) : Client :=
  if s.phase ≠ .operating then s
  else
    let s := { s with lastCommand := s.lastCommand.halted, nextTriggerSeq := s.nextTriggerSeq + 1 }
    s.record (.actionTrigger { actionId, triggerSeq := s.nextTriggerSeq })

/-- Send all camera settings, once the session operates. -/
def sendCameraControl (s : Client) : Client :=
  if s.phase ≠ .operating then s
  else
    let s := { s with nextCameraControlSeq := s.nextCameraControlSeq + 1 }
    s.record (.cameraControl s.cameraControls s.nextCameraControlSeq)

/-- Ask for the latch to be set or cleared, with the next number. -/
def sendEstop (s : Client) (latched : Bool) : Client :=
  let s := { s with estopSeq := s.estopSeq + 1 }
  s.record (.estop { latched, seq := s.estopSeq })

/-! ### Inputs -/

/-- An input that rides in a command keeps it fresh. -/
def refreshMoveInput (s : Client) (input : TeleopInput) (now : Instant) : Client :=
  if input.ridesCommand then { s with lastMoveInputAt := some now } else s

/-- What an input changes or sends. -/
def onInput (s : Client) (input : TeleopInput) (clk : Clock) : Client :=
  let s := s.refreshMoveInput input (clk.read 0)
  match input with
  | .move vx vy => { s with lastCommand := { s.lastCommand with vx, vy } }
  | .turn turn => { s with lastCommand := { s.lastCommand with turn } }
  | .action id => s.sendActionTrigger id
  | .armNudge dx dz => { s with lastCommand := s.lastCommand.nudgeArm dx dz }
  | .attitudeNudge axis delta => { s with lastCommand := s.lastCommand.nudgeAttitude axis delta }
  | .attitudeReset => { s with lastCommand := s.lastCommand.level }
  | .neutralPose =>
      let cmd := { s.lastCommand with armX := 0, armZ := 0, claw := armClawNeutral }
      { s with lastCommand := cmd.level, lastMoveInputAt := some (clk.read 1) }
  | .cameraNudge param delta =>
      { s with cameraControls := s.cameraControls.nudge param delta }.sendCameraControl
  | .cameraReset => { s with cameraControls := .default }.sendCameraControl
  | .clawNudge delta => { s with lastCommand := s.lastCommand.nudgeClaw delta }
  | .estop => s.sendEstop true
  | .estopClear => s.sendEstop false
  | .estopToggle => s.sendEstop (!s.estopped)
  | .saveFrame | .toggleRecording | .quit => s

/-! ### Ticks -/

/-- No input has ridden in a command for `move_stale`. -/
def stale (s : Client) (now : Instant) : Bool :=
  s.lastMoveInputAt.all (fun t => decide (s.moveStale ≤ now.durationSince t))

/-- A velocity whose key went stale is zeroed. -/
def autoZero (s : Client) (now : Instant) : Client :=
  if s.lastMoveInputAt.isSome && s.stale now && !s.lastCommand.isIdle then
    { s with lastCommand := s.lastCommand.halted }
  else s

/-- The action of the command line, once. -/
def fireDemoAction (s : Client) : Client :=
  match s.demoAction with
  | some id => { s with demoAction := none }.sendActionTrigger id
  | none => s

/-- An observer that does not drive at the moment. -/
def observing (s : Client) (now : Instant) : Bool := s.observer && s.stale now

/-- A heartbeat with the next number. -/
def sendHeartbeat (s : Client) : Client :=
  { s with channelBSeq := s.channelBSeq + 1 }.record (.heartbeat (s.channelBSeq + 1))

/-- A Command frame with the next number. -/
def sendCommand (s : Client) (wallUs : UInt64) : Client :=
  { s with channelBSeq := s.channelBSeq + 1 }.record
    (.command wallUs (s.channelBSeq + 1) s.lastCommand)

/-- The two staleness checks read the clock one after the other. -/
def onTick (s : Client) (clk : Clock) (wallUs : UInt64) : Client :=
  if s.phase ≠ .operating then s
  else
    let s := (s.autoZero (clk.read 0)).fireDemoAction
    if s.observing (clk.read 1) then s.sendHeartbeat else s.sendCommand wallUs

/-! ### The client's run -/

/-- What the client's loop wakes up for. -/
inductive Event where
  | input (i : TeleopInput) (clk : Clock)
  | tick (clk : Clock) (wallUs : UInt64)
  /-- The robot reports its E-Stop state, on either path. -/
  | estopReport (latched : Bool)
  /-- HELLO negotiated. -/
  | helloNegotiated
  /-- SESSION_DESCRIBE received and answered. -/
  | sessionDescribed
  /-- The connection was lost and made anew. -/
  | reconnect

/-- What the client does when it wakes up. -/
def step (s : Client) : Event → Client
  | .input i clk => s.onInput i clk
  | .tick clk wallUs => s.onTick clk wallUs
  | .estopReport latched => { s with estopped := latched }
  | .helloNegotiated =>
      if s.phase = .awaitingHello then { s with phase := .awaitingSessionDescribe } else s
  | .sessionDescribed =>
      if s.phase = .awaitingSessionDescribe then { s with phase := .operating } else s
  | .reconnect => { s with phase := .awaitingHello }.record .reconnected

end Client

end RoboTele
