import RoboTele.Core.Datagram
import RoboTele.Core.Video
import RoboTele.Queues.Slots

/-!
# Sensor slices

A sensor frame is a sequence of elements of one size.  It travels in `n` slices,
and slice `k` carries the elements `k`, `k + n`, `k + 2n` and so on.  A lost
slice thins the frame out and leaves no hole in it.

The reader gets a frame with a slot per slice.  `deinterleave` puts the elements
back in their order, with zeros for those whose slice is missing, and
`receivedElements` lists the ones that are there.
-/

namespace RoboTele

open Slots

/-! ## Headers -/

/-- Which part of which frame a slice is. -/
structure SliceHeader where
  sensorId : UInt8
  frameSeq : UInt32
  captureTimeUs : UInt64
  sliceIndex : UInt16
  sliceCount : UInt16
deriving DecidableEq

/-- Sensor, frame, time, index and count. -/
def sliceHeaderLen : Nat := 1 + 4 + 8 + 2 + 2

namespace SliceHeader

/-- `SliceHeader::encode`. -/
def encode (h : SliceHeader) : Bytes :=
  [h.sensorId] ++ BigEndian.encode 4 h.frameSeq.toNat ++
    BigEndian.encode 8 h.captureTimeUs.toNat ++ BigEndian.encode 2 h.sliceIndex.toNat ++
    BigEndian.encode 2 h.sliceCount.toNat

/-- The fields as they stand in the first bytes. -/
def read (bytes : Bytes) : SliceHeader where
  sensorId := bytes.getD 0 0
  frameSeq := UInt32.ofNat (BigEndian.decode ((bytes.drop 1).take 4))
  captureTimeUs := UInt64.ofNat (BigEndian.decode ((bytes.drop 5).take 8))
  sliceIndex := UInt16.ofNat (BigEndian.decode ((bytes.drop 13).take 2))
  sliceCount := UInt16.ofNat (BigEndian.decode ((bytes.drop 15).take 2))

/-- A slice without its tag, if its index is below its count. -/
def decode (bytes : Bytes) : Option (SliceHeader × Bytes) :=
  if bytes.length < sliceHeaderLen then none
  else if (read bytes).sliceIndex ≥ (read bytes).sliceCount then none
  else some (read bytes, bytes.drop sliceHeaderLen)

@[simp] theorem length_encode (h : SliceHeader) : h.encode.length = sliceHeaderLen := by
  simp [encode, sliceHeaderLen]

theorem read_encode (h : SliceHeader) (payload : Bytes) : read (h.encode ++ payload) = h := by
  have hseq : ((h.encode ++ payload).drop 1).take 4 = BigEndian.encode 4 h.frameSeq.toNat := by
    simp only [encode, List.append_assoc]
    rw [BigEndian.take_drop_encode (by simp)]
  have hcapture : ((h.encode ++ payload).drop 5).take 8 =
      BigEndian.encode 8 h.captureTimeUs.toNat := by
    have hsplit : h.encode ++ payload = ([h.sensorId] ++ BigEndian.encode 4 h.frameSeq.toNat) ++
        (BigEndian.encode 8 h.captureTimeUs.toNat ++ (BigEndian.encode 2 h.sliceIndex.toNat ++
          (BigEndian.encode 2 h.sliceCount.toNat ++ payload))) := by
      simp only [encode, List.append_assoc]
    rw [hsplit, BigEndian.take_drop_encode (by simp)]
  have hindex : ((h.encode ++ payload).drop 13).take 2 =
      BigEndian.encode 2 h.sliceIndex.toNat := by
    have hsplit : h.encode ++ payload = ([h.sensorId] ++ BigEndian.encode 4 h.frameSeq.toNat ++
        BigEndian.encode 8 h.captureTimeUs.toNat) ++ (BigEndian.encode 2 h.sliceIndex.toNat ++
          (BigEndian.encode 2 h.sliceCount.toNat ++ payload)) := by
      simp only [encode, List.append_assoc]
    rw [hsplit, BigEndian.take_drop_encode (by simp)]
  have hcount : ((h.encode ++ payload).drop 15).take 2 =
      BigEndian.encode 2 h.sliceCount.toNat := by
    rw [encode, List.append_assoc, BigEndian.take_drop_encode (by simp)]
  rw [read, hseq, hcapture, hindex, hcount, BigEndian.decode_encode_of_lt h.frameSeq.toNat_lt,
    BigEndian.decode_encode_of_lt h.captureTimeUs.toNat_lt,
    BigEndian.decode_encode_of_lt h.sliceIndex.toNat_lt,
    BigEndian.decode_encode_of_lt h.sliceCount.toNat_lt, UInt32.ofNat_toNat, UInt64.ofNat_toNat,
    UInt16.ofNat_toNat, UInt16.ofNat_toNat]
  rfl

/-- Decoding a header before a payload gives both back. -/
theorem decode_encode {h : SliceHeader} (hindex : h.sliceIndex < h.sliceCount) (payload : Bytes) :
    decode (h.encode ++ payload) = some (h, payload) := by
  have hlen : ¬ (h.encode ++ payload).length < sliceHeaderLen := by
    rw [List.length_append, length_encode]
    omega
  rw [decode, if_neg hlen, read_encode, if_neg (UInt16.not_le.mpr hindex),
    List.drop_left' h.length_encode]

/-- A decoded header indexes a slot of its frame. -/
theorem sliceIndex_lt_of_decode {bytes payload : Bytes} {h : SliceHeader}
    (hdecode : decode bytes = some (h, payload)) : h.sliceIndex < h.sliceCount := by
  rw [decode] at hdecode
  split_ifs at hdecode with hlen hindex
  obtain rfl := (Prod.mk.inj (Option.some.inj hdecode)).1
  exact UInt16.not_le.mp hindex

end SliceHeader

/-! ## Slicing -/

/-- Why a frame cannot be sliced. -/
inductive SliceError where
  | zeroElementSize
  | elementTooLarge (elementSize maxPayload : Nat)
  | partialElement (len elementSize : Nat)
  | tooManySlices (needed : Nat)
deriving DecidableEq

/-- How many slices a frame takes.  An empty frame still takes one. -/
def sliceCount (elementCount elementSize maxPayload : Nat) : Except SliceError UInt16 :=
  if elementSize = 0 then .error .zeroElementSize
  else if maxPayload / elementSize = 0 then .error (.elementTooLarge elementSize maxPayload)
  else
    let perSlice := maxPayload / elementSize
    let needed := max ((elementCount + perSlice - 1) / perSlice) 1
    if needed < 65536 then .ok (UInt16.ofNat needed) else .error (.tooManySlices needed)

/-- Element `i` of a byte string. -/
def elementAt (elementSize : Nat) (bytes : Bytes) (i : Nat) : Bytes :=
  (bytes.drop (i * elementSize)).take elementSize

/-- The whole elements of a byte string. -/
def chunksExact (elementSize : Nat) (bytes : Bytes) : List Bytes :=
  (List.range (bytes.length / elementSize)).map (elementAt elementSize bytes)

/-- The payloads of the slices.  Element `i` goes to the end of slice `i % n`. -/
def interleave (elements : Bytes) (elementSize maxPayload : Nat) :
    Except SliceError (List Bytes) :=
  if elementSize = 0 then .error .zeroElementSize
  else if elements.length % elementSize ≠ 0 then
    .error (.partialElement elements.length elementSize)
  else
    (sliceCount (elements.length / elementSize) elementSize maxPayload).map fun count =>
      (chunksExact elementSize elements).zipIdx.foldl
        (fun slices (element, i) => slices.modify (i % count.toNat) (· ++ element))
        (List.replicate count.toNat [])

/-- The header of slice `k` of a frame in `n` slices. -/
def sliceHeader (sensorId : UInt8) (frameSeq : UInt32) (captureTimeUs : UInt64) (n k : Nat) :
    SliceHeader where
  sensorId := sensorId
  frameSeq := frameSeq
  captureTimeUs := captureTimeUs
  sliceIndex := UInt16.ofNat k
  sliceCount := UInt16.ofNat n

/-- The datagrams of one frame. -/
def sliceFrame (sensorId : UInt8) (frameSeq : UInt32) (captureTimeUs : UInt64) (elements : Bytes)
    (elementSize maxPayload : Nat) : Except SliceError (List Bytes) :=
  (interleave elements elementSize maxPayload).map fun payloads =>
    payloads.zipIdx.map fun (payload, k) =>
      [datagramTagSensorSlice] ++
        (sliceHeader sensorId frameSeq captureTimeUs payloads.length k).encode ++ payload

/-! ## Frames as they are received -/

/-- A frame with a slot per slice. -/
structure AssembledFrame where
  sensorId : UInt8
  frameSeq : UInt32
  captureTimeUs : UInt64
  slices : List (Option Bytes)
deriving DecidableEq

/-- Elements in their order, and which of them were there. -/
structure Deinterleaved where
  bytes : Bytes
  present : List Bool
deriving DecidableEq

namespace Deinterleaved

/-- Nothing there. -/
def blank (elementSize elementCount : Nat) : Deinterleaved where
  bytes := List.replicate (elementCount * elementSize) 0
  present := List.replicate elementCount false

/-- Put one element in its place. -/
def place (elementSize : Nat) (d : Deinterleaved) (idx : Nat) (element : Bytes) :
    Deinterleaved where
  bytes := d.bytes.take (idx * elementSize) ++ element ++ d.bytes.drop ((idx + 1) * elementSize)
  present := d.present.set idx true

/-- Put the elements of slice `k` in their places, from its `j`-th one on.  The
first one past the end of the frame ends the slice. -/
def placeSlice (elementSize elementCount n k : Nat) (d : Deinterleaved) :
    Nat → List Bytes → Deinterleaved
  | _, [] => d
  | j, element :: rest =>
      if elementCount ≤ k + j * n then d
      else placeSlice elementSize elementCount n k (d.place elementSize (k + j * n) element)
        (j + 1) rest

end Deinterleaved

namespace AssembledFrame

/-- Every slice has come. -/
def isComplete (f : AssembledFrame) : Bool := full f.slices

/-- The elements in the order the sender had them. -/
def deinterleave (f : AssembledFrame) (elementSize elementCount : Nat) : Deinterleaved :=
  if elementSize = 0 then .blank elementSize elementCount
  else
    f.slices.zipIdx.foldl
      (fun d (slice, k) =>
        match slice with
        | none => d
        | some slice =>
            d.placeSlice elementSize elementCount f.slices.length k 0
              (chunksExact elementSize slice))
      (.blank elementSize elementCount)

/-- The elements that were received, slice by slice. -/
def receivedElements (f : AssembledFrame) (elementSize : Nat) : Bytes :=
  if elementSize = 0 then []
  else
    (f.slices.reduceOption.map fun slice =>
      slice.take (slice.length - slice.length % elementSize)).flatten

end AssembledFrame

end RoboTele
