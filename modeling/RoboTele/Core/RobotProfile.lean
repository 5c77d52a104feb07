import RoboTele.Core.Float

/-!
# Robot and camera descriptors

What SESSION_DESCRIBE says of the robot's joints, regions and base, and of its
cameras.  `profileHash` is the cache key of a profile: FNV-1a over its fields in
declaration order.  The region names are part of it, without their lengths.
-/

namespace RoboTele

/-- A joint, its limits and the region it belongs to. -/
structure JointDescriptor where
  minLimit : F32
  maxLimit : F32
  maxVelocity : F32
  hasTorqueSensing : Bool
  regionId : UInt8
deriving DecidableEq

/-- What a Channel B command means for a region. -/
inductive CommandShape where
  | kinematic
  | velocityAttitude
  | cartesianEndEffector
deriving DecidableEq

/-- The explicit discriminants. -/
def CommandShape.toU8 : CommandShape → UInt8
  | kinematic => 0
  | velocityAttitude => 1
  | cartesianEndEffector => 2

/-- A region of the body is a run of joints that are commanded in one shape. -/
structure BodyRegionDescriptor where
  regionId : UInt8
  name : String
  jointStart : UInt16
  jointCount : UInt16
  hasForceTorqueSensor : Bool
  commandShape : CommandShape
deriving DecidableEq

/-- How a camera's video is encoded. -/
inductive Codec where
  | h265
  | av1
  | h264
deriving DecidableEq

/-- A camera and the video it can give. -/
structure CameraDescriptor where
  cameraId : UInt8
  label : String
  codec : Codec
  resolutionW : UInt16
  resolutionH : UInt16
  maxFps : UInt8
  minBitrateKbps : UInt32
  maxBitrateKbps : UInt32
deriving DecidableEq

/-- What the robot stands on. -/
inductive BaseType where
  | stationary
  | wheeledStandard
  | wheeledHolonomic
  | bipedLegs
  | quadrupedLegs
  | other
deriving DecidableEq

/-- The explicit discriminants. -/
def BaseType.toU8 : BaseType → UInt8
  | stationary => 0
  | wheeledStandard => 1
  | wheeledHolonomic => 2
  | bipedLegs => 3
  | quadrupedLegs => 4
  | other => 5

/-- What the console has to know of a robot to command it. -/
structure RobotProfile where
  dofCount : UInt16
  joints : List JointDescriptor
  regions : List BodyRegionDescriptor
  baseType : BaseType
deriving DecidableEq

/-! ## The profile hash -/

/-- Where the hash starts. -/
def fnvOffsetBasis : UInt64 := 0xcbf29ce484222325

/-- What the hash is multiplied with. -/
def fnvPrime : UInt64 := 0x100000001b3

/-- The FNV-1a hash. -/
def fnv1a64 (data : List UInt8) : UInt64 :=
  data.foldl (fun hash b => (hash ^^^ b.toUInt64) * fnvPrime) fnvOffsetBasis

/-- A word, low byte first. -/
def u16ToLeBytes (n : UInt16) : List UInt8 := (BigEndian.encode 2 n.toNat).reverse

/-- A flag on the wire. -/
def boolToU8 (b : Bool) : UInt8 := if b then 1 else 0

/-- What is hashed of a joint. -/
def JointDescriptor.hashBytes (j : JointDescriptor) : List UInt8 :=
  j.minLimit.toLeBytes ++ j.maxLimit.toLeBytes ++ j.maxVelocity.toLeBytes ++
    [boolToU8 j.hasTorqueSensing, j.regionId]

/-- What is hashed of a region, with no length of its name. -/
def BodyRegionDescriptor.hashBytes (r : BodyRegionDescriptor) : List UInt8 :=
  [r.regionId] ++ r.name.toUTF8.data.toList ++ u16ToLeBytes r.jointStart ++
    u16ToLeBytes r.jointCount ++ [boolToU8 r.hasForceTorqueSensor, r.commandShape.toU8]

/-- What tells the console whether it knows the profile. -/
def RobotProfile.profileHash (p : RobotProfile) : UInt64 :=
  fnv1a64 (u16ToLeBytes p.dofCount ++ [p.baseType.toU8] ++
    p.joints.flatMap JointDescriptor.hashBytes ++ p.regions.flatMap BodyRegionDescriptor.hashBytes)

end RoboTele
