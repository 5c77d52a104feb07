import RoboTele.Bytes.Format
import RoboTele.Core.ChannelC
import RoboTele.Core.Float

/-!
# The tables of SESSION_DESCRIBE and SESSION_ACCEPT

The schema's tables as records.  A field that holds a string, a vector or a
table may be absent, a scalar may not.  The schema's enumerations are
types of their own, as in the generated code.

`SessionBuffers` adds what the builder writes and `get_root` reads of these two
messages to `FlatBuffers`.  `wireLayout` is one that returns what was written.
-/

namespace RoboTele

/-! ## Tables -/

/-- The schema's `Codec`. -/
inductive FbCodec where
  | h265
  | av1
  | h264
deriving DecidableEq

/-- The schema's `CommandShape`. -/
inductive FbCommandShape where
  | kinematic
  | velocityAttitude
  | cartesianEndEffector
deriving DecidableEq

/-- The schema's `BaseType`. -/
inductive FbBaseType where
  | stationary
  | wheeledStandard
  | wheeledHolonomic
  | bipedLegs
  | quadrupedLegs
  | other
deriving DecidableEq

/-- Which of a sensor's three encodings its table carries. -/
inductive SensorKind where
  | pointCloud
  | rangeImage
  | depth
deriving DecidableEq

/-- A joint on the wire. -/
structure FbJoint where
  minLimit : F32
  maxLimit : F32
  maxVelocity : F32
  hasTorqueSensing : Bool
  regionId : UInt8

/-- A region on the wire.  A string may be missing there. -/
structure FbBodyRegion where
  regionId : UInt8
  name : Option String
  jointStart : UInt16
  jointCount : UInt16
  hasForceTorqueSensor : Bool
  commandShape : FbCommandShape

/-- A profile on the wire.  Each vector may be missing there. -/
structure FbRobotProfile where
  dofCount : UInt16
  joints : Option (List FbJoint)
  regions : Option (List FbBodyRegion)
  baseType : FbBaseType

/-- A camera on the wire. -/
structure FbCamera where
  cameraId : UInt8
  label : Option String
  codec : FbCodec
  resolutionW : UInt16
  resolutionH : UInt16
  maxFps : UInt8
  minBitrateKbps : UInt32
  maxBitrateKbps : UInt32

/-- The encoding of a point cloud on the wire.  A `doppler_scale_mps` of zero stands for none. -/
structure PointEncoding where
  scaleM : F32
  intensity : Bool
  dopplerScaleMps : F32
  snr : Bool

/-- The encoding of a range image on the wire. -/
structure RangeImageEncoding where
  beams : UInt16
  columns : UInt16
  rangeScaleM : F32
  intensity : Bool
  beamElevationsRad : Option (List F32)

/-- The encoding of a depth image on the wire, intrinsics included. -/
structure DepthEncoding where
  width : UInt16
  height : UInt16
  segmentWidth : UInt16
  fx : F32
  fy : F32
  cx : F32
  cy : F32

/-- A sensor on the wire, with at most one of the encodings. -/
structure FbSensor where
  sensorId : UInt8
  label : Option String
  kind : SensorKind
  maxHz : UInt8
  maxBitrateKbps : UInt32
  mountPositionM : Option (List F32)
  mountOrientationXyzw : Option (List F32)
  points : Option PointEncoding
  rangeImage : Option RangeImageEncoding
  depth : Option DepthEncoding

/-- The fields of the SESSION_DESCRIBE table. -/
structure SessionDescribe where
  robotId : Option String
  profileHash : UInt64
  robotProfile : Option FbRobotProfile
  cameras : Option (List FbCamera)
  sensors : Option (List FbSensor)

/-- A tier for one category of fields. -/
structure FbFieldQuantization where
  category : UInt8
  tier : UInt8

/-- What the builder writes of a SESSION_ACCEPT. -/
structure SessionAcceptArgs where
  profileHash : UInt64
  cached : Bool
  selectedRegions : Option Bytes
  quantization : Option (List FbFieldQuantization)
  selectedCameras : Option Bytes
  selectedSensors : Option Bytes

/-- The fields of a SESSION_ACCEPT that the robot reads. -/
def SessionAcceptArgs.table (a : SessionAcceptArgs) : SessionAcceptTable :=
  { profileHash := a.profileHash
    cached := a.cached
    selectedRegions := a.selectedRegions
    selectedCameras := a.selectedCameras
    selectedSensors := a.selectedSensors }

/-- The FlatBuffers code for the two messages of session setup. -/
structure SessionBuffers extends FlatBuffers where
  sessionDescribeRoot : Bytes → SessionDescribe
  finishSessionDescribe : SessionDescribe → Bytes
  finishSessionAccept : SessionAcceptArgs → Bytes

/-- A finished table reads back with exactly the fields written. -/
structure SessionBuffers.Lawful (fb : SessionBuffers) : Prop where
  describe : ∀ t, fb.sessionDescribeRoot (fb.finishSessionDescribe t) = t
  accept : ∀ a, fb.sessionAcceptRoot (fb.finishSessionAccept a) = a.table

/-! ## A layout that meets the contract -/

namespace SessionBuffers

open Format

/-- The bits of an `f32`. -/
def f32 : Format F32 := word32.iso F32.bits F32.mk fun _ => rfl

/-- `Codec` is one byte. -/
def fbCodec : Format FbCodec :=
  byte.iso
    (fun | .h265 => 0 | .av1 => 1 | .h264 => 2)
    (fun b => if b = 1 then .av1 else if b = 2 then .h264 else .h265)
    fun c => by cases c <;> rfl

/-- `CommandShape` is one byte. -/
def fbCommandShape : Format FbCommandShape :=
  byte.iso
    (fun | .kinematic => 0 | .velocityAttitude => 1 | .cartesianEndEffector => 2)
    (fun b => if b = 1 then .velocityAttitude else if b = 2 then .cartesianEndEffector
      else .kinematic)
    fun c => by cases c <;> rfl

/-- `BaseType` is one byte. -/
def fbBaseType : Format FbBaseType :=
  byte.iso
    (fun | .stationary => 0 | .wheeledStandard => 1 | .wheeledHolonomic => 2 | .bipedLegs => 3
         | .quadrupedLegs => 4 | .other => 5)
    (fun b => if b = 1 then .wheeledStandard else if b = 2 then .wheeledHolonomic
      else if b = 3 then .bipedLegs else if b = 4 then .quadrupedLegs else if b = 5 then .other
      else .stationary)
    fun c => by cases c <;> rfl

/-- The kind is one byte. -/
def sensorKind : Format SensorKind :=
  byte.iso
    (fun | .pointCloud => 0 | .rangeImage => 1 | .depth => 2)
    (fun b => if b = 1 then .rangeImage else if b = 2 then .depth else .pointCloud)
    fun c => by cases c <;> rfl

/-- A joint, field by field. -/
def fbJoint : Format FbJoint :=
  (pair f32 (pair f32 (pair f32 (pair bool byte)))).iso
    (fun j => (j.minLimit, j.maxLimit, j.maxVelocity, j.hasTorqueSensing, j.regionId))
    (fun (minLimit, maxLimit, maxVelocity, hasTorqueSensing, regionId) =>
      { minLimit, maxLimit, maxVelocity, hasTorqueSensing, regionId })
    fun _ => rfl

/-- A region, field by field. -/
def fbBodyRegion : Format FbBodyRegion :=
  (pair byte (pair (option string) (pair word16 (pair word16 (pair bool fbCommandShape))))).iso
    (fun r => (r.regionId, r.name, r.jointStart, r.jointCount, r.hasForceTorqueSensor,
      r.commandShape))
    (fun (regionId, name, jointStart, jointCount, hasForceTorqueSensor, commandShape) =>
      { regionId, name, jointStart, jointCount, hasForceTorqueSensor, commandShape })
    fun _ => rfl

/-- A profile with its joints and regions. -/
def fbRobotProfile : Format FbRobotProfile :=
  (pair word16 (pair (option (list fbJoint)) (pair (option (list fbBodyRegion)) fbBaseType))).iso
    (fun p => (p.dofCount, p.joints, p.regions, p.baseType))
    (fun (dofCount, joints, regions, baseType) => { dofCount, joints, regions, baseType })
    fun _ => rfl

/-- A camera, field by field. -/
def fbCamera : Format FbCamera :=
  (pair byte (pair (option string) (pair fbCodec (pair word16 (pair word16 (pair byte
    (pair word32 word32))))))).iso
    (fun c => (c.cameraId, c.label, c.codec, c.resolutionW, c.resolutionH, c.maxFps,
      c.minBitrateKbps, c.maxBitrateKbps))
    (fun (cameraId, label, codec, resolutionW, resolutionH, maxFps, minBitrateKbps,
        maxBitrateKbps) =>
      { cameraId, label, codec, resolutionW, resolutionH, maxFps, minBitrateKbps, maxBitrateKbps })
    fun _ => rfl

/-- The encoding of a point cloud, field by field. -/
def pointEncoding : Format PointEncoding :=
  (pair f32 (pair bool (pair f32 bool))).iso
    (fun p => (p.scaleM, p.intensity, p.dopplerScaleMps, p.snr))
    (fun (scaleM, intensity, dopplerScaleMps, snr) => { scaleM, intensity, dopplerScaleMps, snr })
    fun _ => rfl

/-- The encoding of a range image with the elevations of its beams. -/
def rangeImageEncoding : Format RangeImageEncoding :=
  (pair word16 (pair word16 (pair f32 (pair bool (option (list f32)))))).iso
    (fun r => (r.beams, r.columns, r.rangeScaleM, r.intensity, r.beamElevationsRad))
    (fun (beams, columns, rangeScaleM, intensity, beamElevationsRad) =>
      { beams, columns, rangeScaleM, intensity, beamElevationsRad })
    fun _ => rfl

/-- The encoding of a depth image, field by field. -/
def depthEncoding : Format DepthEncoding :=
  (pair word16 (pair word16 (pair word16 (pair f32 (pair f32 (pair f32 f32)))))).iso
    (fun d => (d.width, d.height, d.segmentWidth, d.fx, d.fy, d.cx, d.cy))
    (fun (width, height, segmentWidth, fx, fy, cx, cy) =>
      { width, height, segmentWidth, fx, fy, cx, cy })
    fun _ => rfl

/-- A sensor with the encodings it has. -/
def fbSensor : Format FbSensor :=
  (pair byte (pair (option string) (pair sensorKind (pair byte (pair word32
    (pair (option (list f32)) (pair (option (list f32)) (pair (option pointEncoding)
      (pair (option rangeImageEncoding) (option depthEncoding)))))))))).iso
    (fun s => (s.sensorId, s.label, s.kind, s.maxHz, s.maxBitrateKbps, s.mountPositionM,
      s.mountOrientationXyzw, s.points, s.rangeImage, s.depth))
    (fun (sensorId, label, kind, maxHz, maxBitrateKbps, mountPositionM, mountOrientationXyzw,
        points, rangeImage, depth) =>
      { sensorId, label, kind, maxHz, maxBitrateKbps, mountPositionM, mountOrientationXyzw,
        points, rangeImage, depth })
    fun _ => rfl

/-- A whole SESSION_DESCRIBE. -/
def sessionDescribe : Format SessionDescribe :=
  (pair (option string) (pair word64 (pair (option fbRobotProfile)
    (pair (option (list fbCamera)) (option (list fbSensor)))))).iso
    (fun d => (d.robotId, d.profileHash, d.robotProfile, d.cameras, d.sensors))
    (fun (robotId, profileHash, robotProfile, cameras, sensors) =>
      { robotId, profileHash, robotProfile, cameras, sensors })
    fun _ => rfl

/-- A category and its tier. -/
def fieldQuantization : Format FbFieldQuantization :=
  (pair byte byte).iso (fun q => (q.category, q.tier)) (fun (category, tier) => { category, tier })
    fun _ => rfl

/-- A whole SESSION_ACCEPT. -/
def sessionAccept : Format SessionAcceptArgs :=
  (pair word64 (pair bool (pair (option (list byte)) (pair (option (list fieldQuantization))
    (pair (option (list byte)) (option (list byte))))))).iso
    (fun a => (a.profileHash, a.cached, a.selectedRegions, a.quantization, a.selectedCameras,
      a.selectedSensors))
    (fun (profileHash, cached, selectedRegions, quantization, selectedCameras, selectedSensors) =>
      { profileHash, cached, selectedRegions, quantization, selectedCameras, selectedSensors })
    fun _ => rfl

/-- The fields of a table one after the other, and nothing in a buffer that
holds no table. -/
def wireLayout : SessionBuffers where
  toFlatBuffers :=
    { FlatBuffers.fixedLayout with
      sessionAcceptRoot := fun b =>
        (sessionAccept.readD
          { profileHash := 0, cached := false, selectedRegions := none, quantization := none
            selectedCameras := none, selectedSensors := none } b).table }
  sessionDescribeRoot :=
    sessionDescribe.readD
      { robotId := none, profileHash := 0, robotProfile := none, cameras := none, sensors := none }
  finishSessionDescribe := sessionDescribe.write
  finishSessionAccept := sessionAccept.write

theorem wireLayout_lawful : wireLayout.Lawful where
  describe t := sessionDescribe.readD_write _ t
  accept a := congrArg SessionAcceptArgs.table (sessionAccept.readD_write _ a)

end SessionBuffers

end RoboTele
