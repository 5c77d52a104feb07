import RoboTele.Core.Datagram
import Mathlib.Algebra.Order.Floor.Ring
import Mathlib.Data.Rat.Floor

/-!
# Command shapes at the Standard tier

`VelocityAttitudeCommand` and `CartesianCommand` at the tier every session
selects: one signed 16-bit big-endian integer a field.  Field values are exact
rationals where the source has `f32`.
-/

namespace RoboTele

/-- `f32::round`: to the nearest integer, halves away from zero. -/
def roundHalfAway (q : ℚ) : Int := if 0 ≤ q then ⌊q + 1 / 2⌋ else -⌊-q + 1 / 2⌋

/-- A cast to `i16`, which saturates. -/
def clampI16 (n : Int) : Int := max (-32768) (min n 32767)

/-- A signed 16-bit integer as two big-endian bytes. -/
def i16ToBeBytes (n : Int) : Bytes := BigEndian.encode 2 (n % 65536).toNat

/-- Two big-endian bytes as a signed 16-bit integer. -/
def i16FromBeBytes (bytes : Bytes) : Int :=
  let u := BigEndian.decode bytes
  if u < 32768 then u else (u : Int) - 65536

/-- Steps of a hundredth. -/
def continuousScaleStandard : ℚ := 100

/-- A scaled field of two bytes. -/
def packScaled (value scale : ℚ) : Bytes := i16ToBeBytes (clampI16 (roundHalfAway (value * scale)))

/-- A scaled field, if both of its bytes are there. -/
def unpackScaled (field : Bytes) (scale : ℚ) : Option ℚ :=
  if field.length = 2 then some (i16FromBeBytes field / scale) else none

/-- A byte in a field of two. -/
def packU8 (value : UInt8) : Bytes := i16ToBeBytes value.toNat

/-- The byte in a field of two, `as u8`. -/
def unpackU8 (field : Bytes) : Option UInt8 :=
  if field.length = 2 then some (UInt8.ofNat (i16FromBeBytes field % 256).toNat) else none

/-- The `i`-th two-byte field. -/
def fieldAt (bytes : Bytes) (i : Nat) : Bytes := (bytes.drop (2 * i)).take 2

/-- The velocity and the attitude of the body. -/
structure VelocityAttitudeCommand where
  vx : ℚ
  vy : ℚ
  turn : ℚ
  roll : ℚ
  pitch : ℚ
  yaw : ℚ

namespace VelocityAttitudeCommand

def packStandard (c : VelocityAttitudeCommand) : Bytes :=
  [c.vx, c.vy, c.turn, c.roll, c.pitch, c.yaw].flatMap (packScaled · continuousScaleStandard)

def unpackStandard (bytes : Bytes) : Option VelocityAttitudeCommand :=
  if bytes.length < 12 then none
  else do
    let scale := continuousScaleStandard
    let vx ← unpackScaled (fieldAt bytes 0) scale
    let vy ← unpackScaled (fieldAt bytes 1) scale
    let turn ← unpackScaled (fieldAt bytes 2) scale
    let roll ← unpackScaled (fieldAt bytes 3) scale
    let pitch ← unpackScaled (fieldAt bytes 4) scale
    let yaw ← unpackScaled (fieldAt bytes 5) scale
    return { vx, vy, turn, roll, pitch, yaw }

end VelocityAttitudeCommand

/-- The position of an arm's end, and its gripper. -/
structure CartesianCommand where
  x : ℚ
  y : ℚ
  z : ℚ
  gripper : UInt8

namespace CartesianCommand

def packStandard (c : CartesianCommand) : Bytes :=
  [c.x, c.y, c.z].flatMap (packScaled · 1) ++ packU8 c.gripper

def unpackStandard (bytes : Bytes) : Option CartesianCommand :=
  if bytes.length < 8 then none
  else do
    let x ← unpackScaled (fieldAt bytes 0) 1
    let y ← unpackScaled (fieldAt bytes 1) 1
    let z ← unpackScaled (fieldAt bytes 2) 1
    let gripper ← unpackU8 (fieldAt bytes 3)
    return { x, y, z, gripper }

end CartesianCommand

end RoboTele
