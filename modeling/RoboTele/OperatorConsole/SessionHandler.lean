import RoboTele.RobotEdge.SessionHandler

/-!
# The session handshake, as the operator console reads and answers it

`decodeSessionDescribe` reads what the robot wrote, and `encodeSessionAcceptFull`
answers with all of it.  The decoder lives in another program than the encoder,
and falls back where a field is absent or an enumeration has no arm of its own.
`describe_accept_roundTrip` says that nothing of a valid description is lost on
the way there, nor of its selection on the way back.
-/

namespace RoboTele

/-- What is not known is H.265. -/
def fromFbCodec : FbCodec → Codec
  | .av1 => .av1
  | .h264 => .h264
  | _ => .h265

/-- What is not known is kinematic. -/
def fromFbCommandShape : FbCommandShape → CommandShape
  | .velocityAttitude => .velocityAttitude
  | .cartesianEndEffector => .cartesianEndEffector
  | _ => .kinematic

/-- What is not known is another base. -/
def fromFbBaseType : FbBaseType → BaseType
  | .wheeledStandard => .wheeledStandard
  | .wheeledHolonomic => .wheeledHolonomic
  | .bipedLegs => .bipedLegs
  | .quadrupedLegs => .quadrupedLegs
  | .other => .other
  | _ => .stationary

/-- SESSION_DESCRIBE as the console understands it. -/
structure SessionDescribeInfo where
  robotId : String
  profileHash : UInt64
  profile : RobotProfile
  cameras : List CameraDescriptor
  /-- The descriptors that passed `validate`. -/
  sensors : List SensorDescriptor
deriving DecidableEq

/-! ## Decoding -/

/-- `Vec::try_into` an array: it must have the length. -/
def tryIntoArray {α : Type} (n : Nat) (l : List α) : Option (Vector α n) :=
  if h : l.length = n then some ⟨l.toArray, by simpa using h⟩ else none

/-- A joint of the wire. -/
def decodeJoint (j : FbJoint) : JointDescriptor :=
  { minLimit := j.minLimit
    maxLimit := j.maxLimit
    maxVelocity := j.maxVelocity
    hasTorqueSensing := j.hasTorqueSensing
    regionId := j.regionId }

/-- A region of the wire.  A missing name is empty. -/
def decodeRegion (r : FbBodyRegion) : BodyRegionDescriptor :=
  { regionId := r.regionId
    name := r.name.getD ""
    jointStart := r.jointStart
    jointCount := r.jointCount
    hasForceTorqueSensor := r.hasForceTorqueSensor
    commandShape := fromFbCommandShape r.commandShape }

/-- A camera of the wire.  A missing label is empty. -/
def decodeCamera (c : FbCamera) : CameraDescriptor :=
  { cameraId := c.cameraId
    label := c.label.getD ""
    codec := fromFbCodec c.codec
    resolutionW := c.resolutionW
    resolutionH := c.resolutionH
    maxFps := c.maxFps
    minBitrateKbps := c.minBitrateKbps
    maxBitrateKbps := c.maxBitrateKbps }

/-- The encoding of a sensor, if the table of its kind is there. -/
def decodeEncoding (s : FbSensor) : Option SensorEncoding :=
  match s.kind with
  | .pointCloud => s.points.map fun p =>
      .points
        { scaleM := p.scaleM
          intensity := p.intensity
          dopplerScaleMps := if p.dopplerScaleMps.nonzero then some p.dopplerScaleMps else none
          snr := p.snr }
  | .rangeImage => s.rangeImage.map fun r =>
      .rangeImage
        { beams := r.beams
          columns := r.columns
          rangeScaleM := r.rangeScaleM
          intensity := r.intensity }
        (r.beamElevationsRad.getD [])
  | .depth => s.depth.map fun d =>
      .depth
        { width := d.width, height := d.height, segmentWidth := d.segmentWidth }
        { fx := d.fx, fy := d.fy, cx := d.cx, cy := d.cy }

/-- `none` when the kind's encoding table is missing or the descriptor fails
validation. -/
def decodeSensor (s : FbSensor) : Option SensorDescriptor := do
  let encoding ← decodeEncoding s
  let descriptor : SensorDescriptor :=
    { sensorId := s.sensorId
      label := s.label.getD ""
      encoding
      maxHz := s.maxHz
      maxBitrateKbps := s.maxBitrateKbps
      mountPositionM :=
        (tryIntoArray 3 (s.mountPositionM.getD [])).getD #v[.zero, .zero, .zero]
      mountOrientationXyzw :=
        (tryIntoArray 4 (s.mountOrientationXyzw.getD [])).getD #v[.zero, .zero, .zero, .one] }
  match descriptor.validate with
  | .ok () => some descriptor
  | .error _ => none

/-- SESSION_DESCRIBE as the console reads it.  Without a profile it is an error. -/
def decodeSessionDescribe (fb : SessionBuffers) (buf : Bytes) :
    Except String SessionDescribeInfo :=
  let describe := fb.sessionDescribeRoot buf
  match describe.robotProfile with
  | none => .error "SESSION_DESCRIBE missing robot_profile"
  | some fbProfile =>
      .ok
        { robotId := describe.robotId.getD ""
          profileHash := describe.profileHash
          profile :=
            { dofCount := fbProfile.dofCount
              joints := (fbProfile.joints.map (·.map decodeJoint)).getD []
              regions := (fbProfile.regions.map (·.map decodeRegion)).getD []
              baseType := fromFbBaseType fbProfile.baseType }
          cameras := (describe.cameras.map (·.map decodeCamera)).getD []
          sensors := (describe.sensors.map (·.filterMap decodeSensor)).getD [] }

/-! ## Answering -/

/-- `QuantizationTier::Standard.bytes_per_field()`. -/
def standardBytesPerField : UInt8 := 2

/-- All regions, all cameras, all valid sensors, and the Standard tier for
commands, telemetry and haptics. -/
def encodeSessionAcceptFull (fb : SessionBuffers) (info : SessionDescribeInfo) (cached : Bool) :
    Bytes :=
  fb.finishSessionAccept
    { profileHash := info.profileHash
      cached
      selectedRegions := some (info.profile.regions.map (·.regionId))
      quantization := some
        ([0, 1, 2].map fun category => { category, tier := standardBytesPerField })
      selectedCameras := some (info.cameras.map (·.cameraId))
      selectedSensors := some (info.sensors.map (·.sensorId)) }

/-- Whatever the buffer holds, a sensor that is decoded is valid. -/
theorem validate_of_decodeSensor {t : FbSensor} {s : SensorDescriptor}
    (h : decodeSensor t = some s) : s.validate = .ok () := by
  rw [decodeSensor] at h
  obtain ⟨encoding, -, h⟩ := Option.bind_eq_some_iff.mp h
  dsimp only at h
  split at h
  · rename_i hvalid
    cases h
    exact hvalid
  · cases h

theorem validate_of_decodeSessionDescribe {fb : SessionBuffers} {buf : Bytes}
    {info : SessionDescribeInfo} (h : decodeSessionDescribe fb buf = .ok info) :
    ∀ s ∈ info.sensors, s.validate = .ok () := by
  rw [decodeSessionDescribe] at h
  cases hprofile : (fb.sessionDescribeRoot buf).robotProfile with
  | none => simp [hprofile] at h
  | some profile =>
      rw [hprofile] at h
      cases h
      intro s hs
      cases hsensors : (fb.sessionDescribeRoot buf).sensors with
      | none => simp [hsensors] at hs
      | some tables =>
          rw [hsensors, Option.map_some, Option.getD_some] at hs
          obtain ⟨t, -, ht⟩ := List.mem_filterMap.mp hs
          exact validate_of_decodeSensor ht

/-! ## Round trips -/

@[simp] theorem fromFbCodec_toFbCodec (c : Codec) : fromFbCodec (toFbCodec c) = c := by
  cases c <;> rfl

@[simp] theorem fromFbCommandShape_toFbCommandShape (c : CommandShape) :
    fromFbCommandShape (toFbCommandShape c) = c := by
  cases c <;> rfl

@[simp] theorem fromFbBaseType_toFbBaseType (t : BaseType) :
    fromFbBaseType (toFbBaseType t) = t := by
  cases t <;> rfl

@[simp] theorem decodeJoint_encodeJoint (j : JointDescriptor) :
    decodeJoint (encodeJoint j) = j := rfl

@[simp] theorem decodeRegion_encodeRegion (r : BodyRegionDescriptor) :
    decodeRegion (encodeRegion r) = r := by
  simp [decodeRegion, encodeRegion]

@[simp] theorem decodeCamera_encodeCamera (c : CameraDescriptor) :
    decodeCamera (encodeCamera c) = c := by
  simp [decodeCamera, encodeCamera]

@[simp] theorem tryIntoArray_toList {α : Type} {n : Nat} (v : Vector α n) :
    tryIntoArray n v.toList = some v := by
  rw [tryIntoArray, dif_pos v.length_toList]
  rfl

/-- The zero that stands for no Doppler scale is no valid scale. -/
theorem doppler_roundTrip {scale : Option F32} (h : ∀ v ∈ scale, v.positive = true) :
    (if (scale.getD .zero).nonzero then some (scale.getD .zero) else none) = scale := by
  cases scale with
  | none => rw [Option.getD_none, if_neg (by decide +kernel)]
  | some v => rw [Option.getD_some, if_pos (F32.nonzero_of_positive (h v rfl))]

theorem decodeEncoding_encodeSensor {s : SensorDescriptor} (h : s.validate = .ok ()) :
    decodeEncoding (encodeSensor s) = some s.encoding := by
  cases hencoding : s.encoding with
  | points f =>
      have hdoppler := doppler_roundTrip (s.positive_of_validate h hencoding)
      simp [decodeEncoding, encodeSensor, hencoding, hdoppler]
  | rangeImage format beamElevationsRad => simp [decodeEncoding, encodeSensor, hencoding]
  | depth format intrinsics => simp [decodeEncoding, encodeSensor, hencoding]

/-- A valid sensor is decoded as it was. -/
theorem decodeSensor_encodeSensor {s : SensorDescriptor} (h : s.validate = .ok ()) :
    decodeSensor (encodeSensor s) = some s := by
  have hencoding := decodeEncoding_encodeSensor h
  obtain ⟨sensorId, label, encoding, maxHz, maxBitrateKbps, position, orientation⟩ := s
  rw [decodeSensor, hencoding]
  cases encoding <;> simp [encodeSensor, h]

theorem filterMap_decodeSensor {sensors : List SensorDescriptor}
    (h : ∀ s ∈ sensors, s.validate = .ok ()) :
    (sensors.map encodeSensor).filterMap decodeSensor = sensors := by
  rw [List.filterMap_map]
  calc sensors.filterMap (decodeSensor ∘ encodeSensor) = sensors.filterMap some :=
        List.filterMap_congr fun s hs => decodeSensor_encodeSensor (h s hs)
    _ = sensors := List.filterMap_some

/-- A description is decoded as it was, with the hash of its profile. -/
theorem decode_encodeSessionDescribe {fb : SessionBuffers} (hfb : fb.Lawful) (robotId : String)
    (profile : RobotProfile) (cameras : List CameraDescriptor) {sensors : List SensorDescriptor}
    (h : ∀ s ∈ sensors, s.validate = .ok ()) :
    decodeSessionDescribe fb (encodeSessionDescribe fb robotId profile cameras sensors) =
      .ok { robotId, profileHash := profile.profileHash, profile, cameras, sensors } := by
  have hjoints : profile.joints.map (decodeJoint ∘ encodeJoint) = profile.joints := by
    simp [Function.comp_def]
  have hregions : profile.regions.map (decodeRegion ∘ encodeRegion) = profile.regions := by
    simp [Function.comp_def]
  have hcameras : cameras.map (decodeCamera ∘ encodeCamera) = cameras := by
    simp [Function.comp_def]
  rw [decodeSessionDescribe, encodeSessionDescribe, hfb.describe]
  simp only [Option.map_some, Option.getD_some, List.map_map, hjoints, hregions, hcameras,
    filterMap_decodeSensor h, fromFbBaseType_toFbBaseType]

/-- The answer to a description selects all of it. -/
theorem decode_encodeSessionAcceptFull {fb : SessionBuffers} (hfb : fb.Lawful)
    (info : SessionDescribeInfo) (cached : Bool) :
    decodeSessionAccept fb.toFlatBuffers (encodeSessionAcceptFull fb info cached) =
      { profileHash := info.profileHash
        cached
        selectedRegions := info.profile.regions.map (·.regionId)
        selectedCameras := info.cameras.map (·.cameraId)
        selectedSensors := info.sensors.map (·.sensorId) } := by
  rw [decodeSessionAccept, encodeSessionAcceptFull, hfb.accept]
  rfl

/-- The operator reads the robot's description as it was written, and the robot
reads the whole selection back. -/
theorem describe_accept_roundTrip (fb : SessionBuffers) (hfb : fb.Lawful) (robotId : String)
    (profile : RobotProfile) (cameras : List CameraDescriptor) (sensors : List SensorDescriptor)
    (hvalid : ∀ s ∈ sensors, s.validate = .ok ()) (cached : Bool) :
    ∃ info : SessionDescribeInfo,
      decodeSessionDescribe fb (encodeSessionDescribe fb robotId profile cameras sensors) =
        .ok info ∧
      info.robotId = robotId ∧ info.profile = profile ∧ info.cameras = cameras ∧
      info.sensors = sensors ∧ info.profileHash = info.profile.profileHash ∧
      let accept := decodeSessionAccept fb.toFlatBuffers (encodeSessionAcceptFull fb info cached)
      accept.profileHash = profile.profileHash ∧ accept.cached = cached ∧
        accept.selectedRegions = profile.regions.map (·.regionId) ∧
        accept.selectedCameras = cameras.map (·.cameraId) ∧
        accept.selectedSensors = sensors.map (·.sensorId) := by
  have hdecode := decode_encodeSessionDescribe hfb robotId profile cameras hvalid
  refine ⟨_, hdecode, rfl, rfl, rfl, rfl, by dsimp only, ?_⟩
  rw [decode_encodeSessionAcceptFull hfb]
  dsimp only
  exact ⟨rfl, rfl, rfl, rfl, rfl⟩

/-- An arm of one joint. -/
def armProfile : RobotProfile :=
  { dofCount := 1
    joints := [{ minLimit := ⟨0xC2B40000⟩, maxLimit := ⟨0x42B40000⟩, maxVelocity := ⟨0x44160000⟩,
                 hasTorqueSensing := false, regionId := 4 }]
    regions := [{ regionId := 4, name := "arm", jointStart := 0, jointCount := 1,
                  hasForceTorqueSensor := false, commandShape := .cartesianEndEffector }]
    baseType := .quadrupedLegs }

def frontCamera : CameraDescriptor :=
  { cameraId := 0, label := "front", codec := .h264, resolutionW := 640, resolutionH := 480
    maxFps := 30, minBitrateKbps := 500, maxBitrateKbps := 2000 }

/-- A sensor at the origin of the robot's frame. -/
def sensorAt (sensorId : UInt8) (label : String) (encoding : SensorEncoding) : SensorDescriptor :=
  { sensorId, label, encoding, maxHz := 10, maxBitrateKbps := 2000
    mountPositionM := #v[.zero, .zero, .zero]
    mountOrientationXyzw := #v[.zero, .zero, .zero, .one] }

/-- A point cloud, a radar with Doppler, a lidar of one beam and a depth camera. -/
def sampleSensors : List SensorDescriptor :=
  [sensorAt 1 "nav" (.points
      { scaleM := ⟨0x3C23D70A⟩, intensity := true, dopplerScaleMps := none, snr := false }),
    sensorAt 2 "radar" (.points
      { scaleM := ⟨0x3C23D70A⟩, intensity := false, dopplerScaleMps := some ⟨0x3C23D70A⟩
        snr := true }),
    sensorAt 3 "lidar" (.rangeImage
      { beams := 1, columns := 720, rangeScaleM := ⟨0x3B03126F⟩, intensity := true } [.zero]),
    sensorAt 4 "depth" (.depth { width := 320, height := 240, segmentWidth := 32 }
      { fx := ⟨0x43960000⟩, fy := ⟨0x43960000⟩, cx := .zero, cy := .zero })]

/-- A robot with an arm, a camera and four sensors. -/
theorem describe_accept_roundTrip_sample :
    ∃ info : SessionDescribeInfo,
      decodeSessionDescribe .wireLayout
          (encodeSessionDescribe .wireLayout "xgo_lite_v2" armProfile [frontCamera] sampleSensors) =
        .ok info ∧
      info.robotId = "xgo_lite_v2" ∧ info.profile = armProfile ∧ info.cameras = [frontCamera] ∧
      info.sensors = sampleSensors ∧ info.profileHash = info.profile.profileHash ∧
      let accept := decodeSessionAccept SessionBuffers.wireLayout.toFlatBuffers
        (encodeSessionAcceptFull .wireLayout info true)
      accept.profileHash = armProfile.profileHash ∧ accept.cached = true ∧
        accept.selectedRegions = armProfile.regions.map (·.regionId) ∧
        accept.selectedCameras = [frontCamera].map (·.cameraId) ∧
        accept.selectedSensors = sampleSensors.map (·.sensorId) :=
  describe_accept_roundTrip .wireLayout SessionBuffers.wireLayout_lawful "xgo_lite_v2" armProfile
    [frontCamera] sampleSensors (by decide +kernel) true

end RoboTele
