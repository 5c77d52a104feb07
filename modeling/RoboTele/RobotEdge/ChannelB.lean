import RoboTele.Core.ChannelC
import RoboTele.Core.Profile

/-!
# Channel B frames

`robot-edge`'s Channel B codec: the frame around the packed fields, the
operator's `TeleopCommand` (a velocity and attitude block, then a Cartesian
block), and the telemetry the robot sends back.
-/

namespace RoboTele

/-- What the fields of a frame are. -/
inductive ChannelBCategory where
  | command
  | telemetry
  | haptic
deriving DecidableEq

def toFbCategory : ChannelBCategory → UInt8
  | .command => 0
  | .telemetry => 1
  | .haptic => 2

/-- Any category byte but telemetry and haptic reads as a command. -/
def fromFbCategory (c : UInt8) : ChannelBCategory :=
  if c = 1 then .telemetry else if c = 2 then .haptic else .command

/-- A Channel B frame after its table was read. -/
structure ChannelBFrameData where
  timestamp : UInt64
  seq : UInt64
  tickId : UInt32
  category : ChannelBCategory
  regionId : UInt8
  fields : Bytes

def allRegions : UInt8 := 0xFF

/-- A frame as its sender writes it. -/
def encodeChannelBFrame (fb : FlatBuffers) (frame : ChannelBFrameData) : Bytes :=
  fb.finishChannelB
    { timestamp := frame.timestamp
      seq := frame.seq
      tickId := frame.tickId
      category := toFbCategory frame.category
      regionId := frame.regionId
      fields := some frame.fields }

/-- A frame as its receiver reads it. -/
def decodeChannelBFrame (fb : FlatBuffers) (buf : Bytes) : ChannelBFrameData :=
  let f := fb.channelBRoot buf
  { timestamp := f.timestamp
    seq := f.seq
    tickId := f.tickId
    category := fromFbCategory f.category
    regionId := f.regionId
    fields := f.fields.getD [] }

/-! ## Commands -/

/-- The operator's command for the whole robot. -/
structure TeleopCommand where
  vx : ℚ
  vy : ℚ
  turn : ℚ
  attitudeR : ℚ
  attitudeP : ℚ
  attitudeY : ℚ
  armX : Int
  armZ : Int
  claw : UInt8

def velocityAttitudeStandardLen : Nat := 12
def cartesianStandardLen : Nat := 8

/-- A cast of an `f32` to `i16`: toward zero, saturating. -/
def truncI16 (q : ℚ) : Int := clampI16 (if 0 ≤ q then ⌊q⌋ else -⌊-q⌋)

namespace TeleopCommand

/-- The part of the body. -/
def velocityAttitude (c : TeleopCommand) : VelocityAttitudeCommand :=
  { vx := c.vx, vy := c.vy, turn := c.turn
    roll := c.attitudeR, pitch := c.attitudeP, yaw := c.attitudeY }

/-- The part of the arm, which moves in a plane. -/
def arm (c : TeleopCommand) : CartesianCommand :=
  { x := c.armX, y := 0, z := c.armZ, gripper := c.claw }

/-- One part after the other. -/
def pack (c : TeleopCommand) : Bytes := c.velocityAttitude.packStandard ++ c.arm.packStandard

/-- Both parts, if their bytes are there. -/
def unpack (bytes : Bytes) : Option TeleopCommand := do
  let va ← VelocityAttitudeCommand.unpackStandard (bytes.take velocityAttitudeStandardLen)
  let arm ← CartesianCommand.unpackStandard
    ((bytes.drop velocityAttitudeStandardLen).take cartesianStandardLen)
  return {
    vx := va.vx, vy := va.vy, turn := va.turn
    attitudeR := va.roll, attitudeP := va.pitch, attitudeY := va.yaw
    armX := truncI16 arm.x, armZ := truncI16 arm.z, claw := arm.gripper }

/-- The command asks for no body velocity. -/
def isIdle (c : TeleopCommand) : Bool := decide (c.vx = 0 ∧ c.vy = 0 ∧ c.turn = 0)

end TeleopCommand

/-- Straight ahead at `vx`, all else zero. -/
def TeleopCommand.forward (vx : ℚ) : TeleopCommand :=
  { vx, vy := 0, turn := 0, attitudeR := 0, attitudeP := 0, attitudeY := 0
    armX := 0, armZ := 0, claw := 0 }

/-- The datagram in which the operator console sends a command. -/
def commandDatagram (fb : FlatBuffers) (timestamp seq : UInt64) (cmd : TeleopCommand) : Bytes :=
  tag datagramTagChannelB (encodeChannelBFrame fb
    { timestamp, seq, tickId := 0, category := .command, regionId := allRegions
      fields := cmd.pack })

/-- The datagram that feeds the robot's watchdog and carries no command. -/
def heartbeatDatagram (seq : UInt64) : Bytes :=
  tag datagramTagHeartbeat (BigEndian.encode 8 seq.toNat)

/-! ## Telemetry -/

/-- What the robot reports of itself. -/
structure TelemetryData where
  battery : UInt8
  roll : ℚ
  pitch : ℚ
  yaw : ℚ
  motors : List ℚ

/-- A hundredth of a degree a unit. -/
def packAngle (angle : ℚ) : Bytes := i16ToBeBytes (clampI16 (roundHalfAway (angle * 100)))

/-- The battery, the attitude and the motors' angles. -/
def TelemetryData.pack (t : TelemetryData) : Bytes :=
  t.battery :: ([t.roll, t.pitch, t.yaw].flatMap packAngle ++ t.motors.flatMap packAngle)

end RoboTele
