import RoboTele.Core.Clock
import RoboTele.Core.Datagram
import RoboTele.Core.Float

/-!
# The autonomy goal

Channel C's autonomy goal: a velocity and the time of the newest sample, shared
between the subscriber task and the control loop.  `asserted` reads the
sample's age, so a goal lapses by itself (`autonomyGoalTtl`).
-/

namespace RoboTele

/-- The lifetime of a sample, in milliseconds. -/
def autonomyGoalTtl : Nat := 500

def autonomyMaxVx : ℚ := 15
def autonomyMaxVy : ℚ := 12
def autonomyMaxTurn : ℚ := 60

/-- The velocity that autonomy asks for. -/
structure AutonomyVelocity where
  vx : ℚ
  vy : ℚ
  turn : ℚ
deriving DecidableEq

def AutonomyVelocity.default : AutonomyVelocity := { vx := 0, vy := 0, turn := 0 }

/-- `f32::clamp` to `-bound ..= bound`. -/
def clampAbs (bound v : ℚ) : ℚ := max (-bound) (min v bound)

/-- `vx, vy, turn` as big-endian singles, clamped.  Any other length, and any
value that is not finite, is zero velocity. -/
def decodeAutonomyVelocity (payload : Bytes) : AutonomyVelocity :=
  if payload.length ≠ 12 then .default
  else
    let f (i : Nat) := f32OfBits (BigEndian.decode ((payload.drop i).take 4))
    match f 0, f 4, f 8 with
    | some vx, some vy, some turn =>
        { vx := clampAbs autonomyMaxVx vx
          vy := clampAbs autonomyMaxVy vy
          turn := clampAbs autonomyMaxTurn turn }
    | _, _, _ => .default

/-- The goal the subscriber writes and the control loop reads. -/
structure AutonomyGoal where
  /-- Milliseconds since `epoch` of the newest sample, plus one.  Zero is
  "never". -/
  lastSeenMs : Nat
  velocity : AutonomyVelocity
  epoch : Instant

namespace AutonomyGoal

def new (now : Instant) : AutonomyGoal := { lastSeenMs := 0, velocity := .default, epoch := now }

/-- `as_millis() + 1` of the time since `epoch`. -/
def stampMs (g : AutonomyGoal) (now : Instant) : Nat := now.durationSince g.epoch / 1000000 + 1

/-- A sample of the goal arrives. -/
def markSeen (g : AutonomyGoal) (now : Instant) (payload : Bytes) : AutonomyGoal :=
  { g with velocity := decodeAutonomyVelocity payload, lastSeenMs := g.stampMs now }

/-- The newest sample is not too old. -/
def asserted (g : AutonomyGoal) (now : Instant) : Bool :=
  decide (g.lastSeenMs ≠ 0 ∧ g.stampMs now - g.lastSeenMs < autonomyGoalTtl)

/-- The newest velocity while the goal is fresh, else zero. -/
def readVelocity (g : AutonomyGoal) (now : Instant) : AutonomyVelocity :=
  if g.asserted now then g.velocity else .default

end AutonomyGoal

end RoboTele
