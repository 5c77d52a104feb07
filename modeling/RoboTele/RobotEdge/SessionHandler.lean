import RoboTele.Core.RobotProfile
import RoboTele.Core.SensorDescriptor
import RoboTele.Core.SessionTables

/-!
# SESSION_DESCRIBE, as the robot writes it

The robot's half of the session handshake: its profile, cameras and sensors as
the tables of a SESSION_DESCRIBE.  Every string, vector and table is written.
Of a sensor's three encoding tables the one of its kind is.  The Doppler scale
is an option that the schema has no room for, and zero stands for none.
-/

namespace RoboTele

/-- A codec on the wire. -/
def toFbCodec : Codec → FbCodec
  | .h265 => .h265
  | .av1 => .av1
  | .h264 => .h264

/-- A command shape on the wire. -/
def toFbCommandShape : CommandShape → FbCommandShape
  | .kinematic => .kinematic
  | .velocityAttitude => .velocityAttitude
  | .cartesianEndEffector => .cartesianEndEffector

/-- A base on the wire. -/
def toFbBaseType : BaseType → FbBaseType
  | .stationary => .stationary
  | .wheeledStandard => .wheeledStandard
  | .wheeledHolonomic => .wheeledHolonomic
  | .bipedLegs => .bipedLegs
  | .quadrupedLegs => .quadrupedLegs
  | .other => .other

/-- A joint on the wire. -/
def encodeJoint (j : JointDescriptor) : FbJoint :=
  { minLimit := j.minLimit
    maxLimit := j.maxLimit
    maxVelocity := j.maxVelocity
    hasTorqueSensing := j.hasTorqueSensing
    regionId := j.regionId }

/-- A region on the wire. -/
def encodeRegion (r : BodyRegionDescriptor) : FbBodyRegion :=
  { regionId := r.regionId
    name := some r.name
    jointStart := r.jointStart
    jointCount := r.jointCount
    hasForceTorqueSensor := r.hasForceTorqueSensor
    commandShape := toFbCommandShape r.commandShape }

/-- A camera on the wire. -/
def encodeCamera (c : CameraDescriptor) : FbCamera :=
  { cameraId := c.cameraId
    label := some c.label
    codec := toFbCodec c.codec
    resolutionW := c.resolutionW
    resolutionH := c.resolutionH
    maxFps := c.maxFps
    minBitrateKbps := c.minBitrateKbps
    maxBitrateKbps := c.maxBitrateKbps }

/-- A sensor on the wire, with the one encoding it has. -/
def encodeSensor (s : SensorDescriptor) : FbSensor :=
  let args : FbSensor :=
    { sensorId := s.sensorId
      label := some s.label
      kind := .pointCloud
      maxHz := s.maxHz
      maxBitrateKbps := s.maxBitrateKbps
      mountPositionM := some s.mountPositionM.toList
      mountOrientationXyzw := some s.mountOrientationXyzw.toList
      points := none
      rangeImage := none
      depth := none }
  match s.encoding with
  | .points f =>
      { args with
        kind := .pointCloud
        points := some
          { scaleM := f.scaleM
            intensity := f.intensity
            dopplerScaleMps := f.dopplerScaleMps.getD .zero
            snr := f.snr } }
  | .rangeImage format beamElevationsRad =>
      { args with
        kind := .rangeImage
        rangeImage := some
          { beams := format.beams
            columns := format.columns
            rangeScaleM := format.rangeScaleM
            intensity := format.intensity
            beamElevationsRad := some beamElevationsRad } }
  | .depth format intrinsics =>
      { args with
        kind := .depth
        depth := some
          { width := format.width
            height := format.height
            segmentWidth := format.segmentWidth
            fx := intrinsics.fx
            fy := intrinsics.fy
            cx := intrinsics.cx
            cy := intrinsics.cy } }

/-- SESSION_DESCRIBE as the robot writes it. -/
def encodeSessionDescribe (fb : SessionBuffers) (robotId : String) (profile : RobotProfile)
    (cameras : List CameraDescriptor) (sensors : List SensorDescriptor) : Bytes :=
  fb.finishSessionDescribe
    { robotId := some robotId
      profileHash := profile.profileHash
      robotProfile := some
        { dofCount := profile.dofCount
          joints := some (profile.joints.map encodeJoint)
          regions := some (profile.regions.map encodeRegion)
          baseType := toFbBaseType profile.baseType }
      cameras := some (cameras.map encodeCamera)
      sensors := some (sensors.map encodeSensor) }

end RoboTele
