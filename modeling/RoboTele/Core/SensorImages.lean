import RoboTele.Core.FloatArith
import RoboTele.Core.SensorDescriptor
import RoboTele.Core.SensorFrames
import RoboTele.Tables.Filling

/-!
# Sensor images

How the three kinds of sensor data become elements, and how a frame is read back.

An index out of bounds panics, so here it is `none`, and a function that can go out of
bounds returns an `Option`.  The two encoders return `None` for an image of the wrong
size besides, which is the inner `none`.
-/

namespace RoboTele

open Filling

/-! ## Deinterleaving with its bounds -/

namespace Deinterleaved

/-- `place`, with the range and the lengths that `copy_from_slice` checks. -/
def placeChecked (elementSize : Nat) (d : Deinterleaved) (idx : Nat) (element : Bytes) :
    Option Deinterleaved :=
  if (idx + 1) * elementSize ≤ d.bytes.length ∧ element.length = elementSize ∧
      idx < d.present.length then
    some (d.place elementSize idx element)
  else none

/-- The elements of a slice at their places, `none` if one is outside. -/
def placeSliceChecked (elementSize elementCount n k : Nat) (d : Deinterleaved) :
    Nat → List Bytes → Option Deinterleaved
  | _, [] => some d
  | j, element :: rest =>
      if elementCount ≤ k + j * n then some d
      else do
        let d ← d.placeChecked elementSize (k + j * n) element
        placeSliceChecked elementSize elementCount n k d (j + 1) rest

end Deinterleaved

/-- All elements at their places, `none` where the code panics. -/
def AssembledFrame.deinterleaveChecked (f : AssembledFrame) (elementSize elementCount : Nat) :
    Option Deinterleaved :=
  if elementSize = 0 then some (.blank elementSize elementCount)
  else
    f.slices.zipIdx.foldlM
      (fun d (slice, k) =>
        match slice with
        | none => some d
        | some slice =>
            d.placeSliceChecked elementSize elementCount f.slices.length k 0
              (chunksExact elementSize slice))
      (.blank elementSize elementCount)

/-- `u16::from_be_bytes`. -/
def u16FromBeBytes (hi lo : UInt8) : UInt16 := UInt16.ofNat (BigEndian.decode [hi, lo])

/-! ## Points -/

/-- A point in metres from the sensor. -/
structure Point where
  x : F32
  y : F32
  z : F32
  intensity : UInt8
  dopplerMps : F32
  snr : UInt8
deriving DecidableEq

namespace PointFormat

/-- `i16::from_be_bytes` of two bytes, as an `f32`. -/
def i16At (e : Bytes) (o : Nat) : Option F32 := do
  let hi ← e[o]?
  let lo ← e[o + 1]?
  let n := (u16FromBeBytes hi lo).toNat
  some (F32.ofInt (if n < 2 ^ 15 then n else n - 2 ^ 16))

/-- A byte that is not carried is zero. -/
def byteAt (carried : Bool) (e : Bytes) (o : Nat) : Option UInt8 :=
  if carried then e[o]? else some 0

/-- The radial velocity, zero if none is carried. -/
def dopplerAt (f : PointFormat) (e : Bytes) (o : Nat) : Option F32 :=
  match f.dopplerScaleMps with
  | none => some F32.zero
  | some scale => (i16At e o).map fun v => v.mul scale

/-- A point, `none` if the element is too short. -/
def decodePoint (f : PointFormat) (e : Bytes) : Option Point := do
  let x ← i16At e 0
  let y ← i16At e 2
  let z ← i16At e 4
  let intensity ← byteAt f.intensity e 6
  let o := 6 + f.intensity.toNat
  let dopplerMps ← f.dopplerAt e o
  let o := o + if f.dopplerScaleMps.isSome then 2 else 0
  let snr ← byteAt f.snr e o
  some
    { x := x.mul f.scaleM
      y := y.mul f.scaleM
      z := z.mul f.scaleM
      intensity
      dopplerMps
      snr }

/-- The whole points in the bytes. -/
def decode (f : PointFormat) (bytes : Bytes) : Option (List Point) :=
  (chunksExact f.elementSize bytes).mapM f.decodePoint

end PointFormat

/-! ## Range images -/

/-- Beam by beam.  A range of zero is no return. -/
structure RangeImage where
  beams : UInt16
  columns : UInt16
  rangesM : List F32
  intensity : List UInt8
  columnsPresent : List Bool
deriving DecidableEq

namespace RangeImageFormat

/-- How many ranges an image has. -/
def len (f : RangeImageFormat) : Nat := f.beams.toNat * f.columns.toNat

/-- A range in units of the scale, zero where it does not fit. -/
def quantum (f : RangeImageFormat) (range : F32) : UInt16 :=
  let q := (range.div f.rangeScaleM).round
  if q.value.any fun x => 0 < x ∧ x ≤ 65535 then q.toU16 else 0

/-- The bytes of column `c`: its ranges, and its intensities if they are carried. -/
def encodeColumn (f : RangeImageFormat) (rangesM : List F32) (intensity : Option (List UInt8))
    (c : Nat) : Option Bytes := do
  let ranges ← (List.range f.beams.toNat).mapM fun b =>
    (rangesM[b * f.columns.toNat + c]?).map fun range =>
      BigEndian.encode 2 (f.quantum range).toNat
  match f.intensity, intensity with
  | true, some intensity =>
      let values ← (List.range f.beams.toNat).mapM fun b => intensity[b * f.columns.toNat + c]?
      some (ranges.flatten ++ values)
  | _, _ => some ranges.flatten

/-- A range image, column by column.  It panics if the lengths do not fit. -/
def encode (f : RangeImageFormat) (rangesM : List F32) (intensity : Option (List UInt8)) :
    Option (Option Bytes) :=
  if rangesM.length ≠ f.len ∨
      (f.intensity = true ∧ intensity.map List.length ≠ some f.len) then
    some none
  else
    ((List.range f.columns.toNat).mapM (f.encodeColumn rangesM intensity)).map fun columns =>
      some columns.flatten

/-- A range in metres. -/
def metres (f : RangeImageFormat) (q : UInt16) : F32 := (F32.ofNat q.toNat).mul f.rangeScaleM

/-- Beam `b` of column `c`, from its element. -/
def placeBeam (f : RangeImageFormat) (c : Nat) (e : Bytes) (img : RangeImage) (b : Nat) :
    Option RangeImage := do
  let hi ← e[2 * b]?
  let lo ← e[2 * b + 1]?
  let rangesM ← setAt img.rangesM (b * f.columns.toNat + c) (f.metres (u16FromBeBytes hi lo))
  if f.intensity then
    let value ← e[2 * f.beams.toNat + b]?
    let intensity ← setAt img.intensity (b * f.columns.toNat + c) value
    some { img with rangesM, intensity }
  else some { img with rangesM }

/-- A column of a range image at its place. -/
def placeColumn (f : RangeImageFormat) (img : RangeImage) (p : Bytes × Nat) : Option RangeImage :=
  (List.range f.beams.toNat).foldlM (f.placeBeam p.2 p.1) img

/-- The columns that there are, at their places. -/
def decode (f : RangeImageFormat) (frame : Deinterleaved) : Option RangeImage :=
  ((chunksExact (max f.elementSize 1) frame.bytes).zipIdx.take f.columns.toNat).foldlM
    f.placeColumn
    { beams := f.beams
      columns := f.columns
      rangesM := List.replicate f.len F32.zero
      intensity := List.replicate f.len 0
      columnsPresent := frame.present }

end RangeImageFormat

/-! ## Depth maps -/

/-- Row by row.  Zero is no depth. -/
structure DepthImage where
  width : UInt16
  height : UInt16
  depthMm : List UInt16
deriving DecidableEq

namespace DepthFormat

/-- The pixels of a segment, zeros past the end of the row. -/
def encodeSegment (f : DepthFormat) (row : List UInt16) (seg : Nat) : Bytes :=
  (List.range' (seg * f.segmentWidth.toNat) f.segmentWidth.toNat).flatMap fun x =>
    BigEndian.encode 2 (row.getD x 0).toNat

/-- `chunks_exact` of the rows.  A width of zero panics. -/
def encode (f : DepthFormat) (depthMm : List UInt16) : Option (Option Bytes) :=
  let w := f.width.toNat
  if depthMm.length ≠ w * f.height.toNat ∨ f.segmentWidth = 0 then some none
  else if w = 0 then none
  else
    let rows := (List.range (depthMm.length / w)).map fun y => (depthMm.drop (y * w)).take w
    some (some (rows.flatMap fun row =>
      (List.range f.segmentsPerRow).flatMap (f.encodeSegment row)))

/-- Pixel `k` of element `i`.  Pixels past the end of the row are padding. -/
def placePixel (f : DepthFormat) (i : Nat) (depthMm : List UInt16) (p : Bytes × Nat) :
    Option (List UInt16) :=
  let x := i % f.segmentsPerRow * f.segmentWidth.toNat + p.2
  if x < f.width.toNat then do
    let hi ← p.1[0]?
    let lo ← p.1[1]?
    setAt depthMm (i / f.segmentsPerRow * f.width.toNat + x) (u16FromBeBytes hi lo)
  else some depthMm

/-- The pixels of element `i`.  Its row is `i / spr`, which panics for a row without
segments. -/
def placeSegment (f : DepthFormat) (depthMm : List UInt16) (p : Bytes × Nat) :
    Option (List UInt16) :=
  if f.segmentsPerRow = 0 then none
  else (chunksExact 2 p.1).zipIdx.foldlM (f.placePixel p.2) depthMm

/-- The row segments that there are, at their places. -/
def decode (f : DepthFormat) (frame : Deinterleaved) : Option DepthImage :=
  (((chunksExact (max f.elementSize 1) frame.bytes).zipIdx.take f.elementCount).foldlM
    f.placeSegment (List.replicate (f.width.toNat * f.height.toNat) 0)).map fun depthMm =>
      { width := f.width
        height := f.height
        depthMm }

end DepthFormat

/-! ## Any sensor -/

/-- A frame as the console shows it. -/
inductive SensorData where
  | points (points : List Point)
  | rangeImage (img : RangeImage)
  | depth (img : DepthImage)
deriving DecidableEq

/-- A frame by the encoding of its sensor. -/
def SensorEncoding.decode (e : SensorEncoding) (frame : AssembledFrame) : Option SensorData :=
  match e with
  | points f => (f.decode (frame.receivedElements f.elementSize)).map .points
  | rangeImage format _ => do
      let d ← frame.deinterleaveChecked format.elementSize format.elementCount
      (format.decode d).map .rangeImage
  | depth format _ => do
      let d ← frame.deinterleaveChecked format.elementSize format.elementCount
      (format.decode d).map .depth

end RoboTele
