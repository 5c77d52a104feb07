import RoboTele.Core.Quantization
import RoboTele.RobotEdge.ChannelB

/-!
# The fields of a teleop command

A teleop command travels as the two command shapes at the Standard tier, one after the
other.  The arm's position and the claw are whole numbers, so they come back as they
were (`quantization_exact`).
-/

namespace RoboTele

open FixedPoint

/-! ## The Standard tier -/

namespace VelocityAttitudeCommand

def atStandard (c : VelocityAttitudeCommand) : VelocityAttitudeAt .standard where
  vx := c.vx
  vy := c.vy
  turn := c.turn
  roll := c.roll
  pitch := c.pitch
  yaw := c.yaw

def ofStandard (c : VelocityAttitudeAt .standard) : VelocityAttitudeCommand where
  vx := c.vx
  vy := c.vy
  turn := c.turn
  roll := c.roll
  pitch := c.pitch
  yaw := c.yaw

theorem packStandard_eq (c : VelocityAttitudeCommand) : c.packStandard = c.atStandard.pack := rfl

theorem unpackStandard_eq (bytes : Bytes) :
    unpackStandard bytes = (VelocityAttitudeAt.unpack .standard bytes).map ofStandard := by
  rw [unpackStandard, VelocityAttitudeAt.unpack,
    show 6 * QuantizationTier.standard.bytesPerField = 12 from rfl]
  split_ifs
  · rfl
  · simp only [Option.bind_eq_bind, Option.map_bind, Function.comp_def]
    rfl

end VelocityAttitudeCommand

namespace CartesianCommand

def atStandard (c : CartesianCommand) : CartesianAt .standard where
  x := c.x
  y := c.y
  z := c.z
  gripper := c.gripper

def ofStandard (c : CartesianAt .standard) : CartesianCommand where
  x := c.x
  y := c.y
  z := c.z
  gripper := c.gripper

theorem packStandard_eq (c : CartesianCommand) : c.packStandard = c.atStandard.pack := rfl

theorem unpackStandard_eq (bytes : Bytes) :
    unpackStandard bytes = (CartesianAt.unpack .standard bytes).map ofStandard := by
  rw [unpackStandard, CartesianAt.unpack,
    show 4 * QuantizationTier.standard.bytesPerField = 8 from rfl]
  split_ifs
  · rfl
  · simp only [Option.bind_eq_bind, Option.map_bind, Function.comp_def]
    rfl

end CartesianCommand

/-! ## The arm -/

namespace TeleopCommand

/-- The arm's position fits its fields. -/
def ArmFits (c : TeleopCommand) : Prop :=
  (-32768 ≤ c.armX ∧ c.armX ≤ 32767) ∧ -32768 ≤ c.armZ ∧ c.armZ ≤ 32767

instance (c : TeleopCommand) : Decidable c.ArmFits := inferInstanceAs (Decidable (_ ∧ _))

/-- A whole number in the range of a field comes back as it was. -/
theorem truncI16_recovered {n : Int} (hlo : -32768 ≤ n) (hhi : n ≤ 32767) :
    truncI16 (recovered .standard 1 (n : ℚ)) = n := by
  have hkeep : quantize roundHalfAway (-32768) 32767 (1 : ℚ) ((n : ℚ) / 1) = n :=
    quantize_div roundsNear_roundHalfAway one_pos hlo hhi
  have hrecovered : recovered .standard 1 (n : ℚ) = (n : ℚ) := by
    change (quantize roundHalfAway (-32768) 32767 (1 : ℚ) (n : ℚ) : ℚ) / 1 = n
    rw [div_one] at hkeep
    rw [hkeep, div_one]
  rw [hrecovered, truncI16, clampI16]
  have hfloor : (if (0 : ℚ) ≤ (n : ℚ) then ⌊(n : ℚ)⌋ else -⌊-(n : ℚ)⌋) = n := by
    split_ifs
    · exact Int.floor_intCast n
    · rw [← Int.cast_neg, Int.floor_intCast, neg_neg]
  rw [hfloor, min_eq_left hhi, max_eq_right hlo]

/-- Packing and unpacking keeps the arm's target and the claw. -/
theorem unpack_pack (c : TeleopCommand) (harm : c.ArmFits) :
    ∃ c', unpack c.pack = some c' ∧ c'.armX = c.armX ∧ c'.armZ = c.armZ ∧ c'.claw = c.claw := by
  have hva : c.velocityAttitude.packStandard.length = velocityAttitudeStandardLen :=
    c.velocityAttitude.atStandard.length_pack
  have harmLen : c.arm.packStandard.length = cartesianStandardLen := c.arm.atStandard.length_pack
  have hfirst : VelocityAttitudeCommand.unpackStandard (c.pack.take velocityAttitudeStandardLen) =
      some (.ofStandard c.velocityAttitude.atStandard.recovered) := by
    rw [pack, List.take_left' hva, VelocityAttitudeCommand.unpackStandard_eq,
      VelocityAttitudeCommand.packStandard_eq, VelocityAttitudeAt.unpack_pack]
    rfl
  have hsecond : CartesianCommand.unpackStandard
      ((c.pack.drop velocityAttitudeStandardLen).take cartesianStandardLen) =
        some (.ofStandard c.arm.atStandard.recovered) := by
    rw [pack, List.drop_left' hva, List.take_of_length_le harmLen.le,
      CartesianCommand.unpackStandard_eq, CartesianCommand.packStandard_eq, CartesianAt.unpack_pack]
    rfl
  rw [unpack, hfirst, hsecond]
  exact ⟨_, rfl, truncI16_recovered harm.1.1 harm.1.2, truncI16_recovered harm.2.1 harm.2.2, rfl⟩

end TeleopCommand

/-- At every tier both shapes come back as near as the fields allow, and a teleop
command's arm and claw come back as they were. -/
theorem quantization_exact :
    (∀ tier, TierExact tier) ∧
    ∀ c : TeleopCommand, c.ArmFits → ∃ c', TeleopCommand.unpack c.pack = some c' ∧
      c'.armX = c.armX ∧ c'.armZ = c.armZ ∧ c'.claw = c.claw :=
  ⟨tierExact, TeleopCommand.unpack_pack⟩

/-- A command that reaches out while the robot turns. -/
def reachingCommand : TeleopCommand where
  vx := 0
  vy := 0
  turn := 3 / 2
  attitudeR := 0
  attitudeP := 0
  attitudeY := 0
  armX := 310
  armZ := -45
  claw := 200

/-- The tier's exactness, with the arm stretched out. -/
theorem quantization_exact_reachingCommand :
    TierExact .compact ∧ ∃ c', TeleopCommand.unpack reachingCommand.pack = some c' ∧
      c'.armX = 310 ∧ c'.armZ = -45 ∧ c'.claw = 200 :=
  ⟨quantization_exact.1 .compact, quantization_exact.2 reachingCommand (by decide)⟩

end RoboTele
