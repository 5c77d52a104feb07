import RoboTele.Core.Float
import RoboTele.Core.Sensor

/-!
# Sensor descriptors

What SESSION_DESCRIBE says of a sensor: how its frames are encoded, and where
it sits on the robot.  The operator gets descriptors off the network and checks
each with `validate` before it sizes a buffer by one.
-/

namespace RoboTele

/-- What a point of a point cloud carries besides its position. -/
structure PointFormat where
  scaleM : F32
  intensity : Bool
  /-- Metres per second a unit, if the radial velocity is carried. -/
  dopplerScaleMps : Option F32
  snr : Bool
deriving DecidableEq

/-- A range image is a column of beams at each step of a turn. -/
structure RangeImageFormat where
  beams : UInt16
  columns : UInt16
  rangeScaleM : F32
  intensity : Bool
deriving DecidableEq

/-- A depth image, in row segments of a width. -/
structure DepthFormat where
  width : UInt16
  height : UInt16
  segmentWidth : UInt16
deriving DecidableEq

/-- The camera constants of a depth image. -/
structure DepthIntrinsics where
  fx : F32
  fy : F32
  cx : F32
  cy : F32
deriving DecidableEq

/-- How the elements of a sensor's frames are encoded. -/
inductive SensorEncoding where
  | points (format : PointFormat)
  | rangeImage (format : RangeImageFormat) (beamElevationsRad : List F32)
  | depth (format : DepthFormat) (intrinsics : DepthIntrinsics)
deriving DecidableEq

/-- A sensor, what it sends and where it is mounted. -/
structure SensorDescriptor where
  sensorId : UInt8
  label : String
  encoding : SensorEncoding
  maxHz : UInt8
  maxBitrateKbps : UInt32
  /-- In the robot base frame, metres. -/
  mountPositionM : Vector F32 3
  /-- In the robot base frame, as a quaternion. -/
  mountOrientationXyzw : Vector F32 4
deriving DecidableEq

/-! ## Sizes -/

/-- The bytes of a point. -/
def PointFormat.elementSize (f : PointFormat) : Nat :=
  6 + f.intensity.toNat + (if f.dopplerScaleMps.isSome then 2 else 0) + f.snr.toNat

/-- The bytes of a column. -/
def RangeImageFormat.elementSize (f : RangeImageFormat) : Nat :=
  f.beams.toNat * (2 + f.intensity.toNat)

/-- The columns of a turn. -/
def RangeImageFormat.elementCount (f : RangeImageFormat) : Nat := f.columns.toNat

/-- `width.div_ceil(segment_width.max(1))`. -/
def DepthFormat.segmentsPerRow (f : DepthFormat) : Nat :=
  let sw := max f.segmentWidth.toNat 1
  (f.width.toNat + sw - 1) / sw

/-- The bytes of a row segment. -/
def DepthFormat.elementSize (f : DepthFormat) : Nat := f.segmentWidth.toNat * 2

/-- The row segments of an image. -/
def DepthFormat.elementCount (f : DepthFormat) : Nat := f.height.toNat * f.segmentsPerRow

/-- The bytes of an element, which is never split over two slices. -/
def SensorEncoding.elementSize : SensorEncoding → Nat
  | points f => f.elementSize
  | rangeImage format _ => format.elementSize
  | depth format _ => format.elementSize

/-- Elements in a frame, if all frames have as many. -/
def SensorEncoding.elementCount : SensorEncoding → Option Nat
  | points _ => none
  | rangeImage format _ => some format.elementCount
  | depth format _ => some format.elementCount

/-! ## Validation -/

/-- A slice fills a datagram, as a chunk of video does. -/
def defaultSlicePayload : Nat := maxChunkPayload

/-- The error as text. -/
def SliceError.message : SliceError → String
  | zeroElementSize => "element size must be non-zero"
  | elementTooLarge elementSize maxPayload =>
      s!"a {elementSize} B element doesn't fit a {maxPayload} B slice"
  | partialElement len elementSize => s!"{len} B isn't a whole number of {elementSize} B elements"
  | tooManySlices needed => s!"frame needs {needed} slices, over the u16 limit"

/-- The checks of one encoding, before its elements are sized. -/
def SensorEncoding.validate : SensorEncoding → Except String Unit
  | points f =>
      if !f.scaleM.positive || f.dopplerScaleMps.any (!·.positive) then
        .error "point scales must be positive"
      else .ok ()
  | rangeImage format beamElevationsRad =>
      if format.beams = 0 ∨ format.columns = 0 ∨ format.rangeScaleM.positive = false then
        .error "range image needs beams, columns and a positive range scale"
      else if beamElevationsRad.length ≠ format.beams.toNat then
        .error s!"{beamElevationsRad.length} beam elevations for {format.beams} beams"
      else .ok ()
  | depth format intrinsics =>
      if format.width = 0 ∨ format.height = 0 ∨ format.segmentWidth = 0 ∨
          format.width < format.segmentWidth then
        .error "depth needs a size and a segment width no wider than the image"
      else if !(intrinsics.fx.positive && intrinsics.fy.positive) then
        .error "depth focal lengths must be positive"
      else .ok ()

/-- Every element must fit a slice of the default size, and a full frame the
`u16` slice count. -/
def SensorDescriptor.validate (d : SensorDescriptor) : Except String Unit :=
  if d.maxHz = 0 then .error "max_hz is 0"
  else do
    d.encoding.validate
    let count := d.encoding.elementCount.getD 0
    match sliceCount count d.encoding.elementSize defaultSlicePayload with
    | .ok _ => .ok ()
    | .error e => .error e.message

/-- A valid point encoding has a positive Doppler scale, or none. -/
theorem SensorDescriptor.positive_of_validate {d : SensorDescriptor} (h : d.validate = .ok ())
    {f : PointFormat} (hf : d.encoding = .points f) :
    ∀ v ∈ f.dopplerScaleMps, v.positive = true := by
  rw [validate, hf] at h
  split_ifs at h
  rw [SensorEncoding.validate] at h
  split_ifs at h with hbad
  · cases h
  · simp only [Bool.or_eq_true, not_or, Bool.not_eq_true, Bool.not_eq_eq_eq_not] at hbad
    intro v hv
    rw [Option.mem_def] at hv
    simpa [hv] using hbad.2

end RoboTele
