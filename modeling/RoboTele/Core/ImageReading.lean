import RoboTele.Core.SensorImages
import Mathlib.Data.List.GetD

/-!
# Reading sensor images

Whatever the slots of a frame hold, decoding it stays within bounds, and a range image or
a depth map comes out with the size of its format (`decode_eq`).  Every beam of a column
and every pixel of a segment has its place in the image, and every place of the image
has its element: the range at `i` is that of beam `i / columns` in element `i % columns`,
and the pixel at `p` is the one at `p % w % sw` in element `p / w * spr + p % w / sw`.
-/

namespace RoboTele

open Filling

/-! ## Deinterleaving stays within bounds -/

namespace Deinterleaved

variable {size count n k : Nat}

/-- Room for `count` elements. -/
def Sized (size count : Nat) (d : Deinterleaved) : Prop :=
  d.bytes.length = count * size ∧ d.present.length = count

theorem placeChecked_eq {d : Deinterleaved} (h : d.Sized size count) {idx : Nat}
    (hidx : idx < count) {e : Bytes} (he : e.length = size) :
    d.placeChecked size idx e = some (d.place size idx e) ∧
      (d.place size idx e).Sized size count := by
  have hle : (idx + 1) * size ≤ d.bytes.length := h.1 ▸ Nat.mul_le_mul_right _ hidx
  refine ⟨if_pos ⟨hle, he, h.2.symm ▸ hidx⟩, length_place h.1 hidx he, ?_⟩
  exact List.length_set.trans h.2

theorem placeSliceChecked_eq :
    ∀ {es : List Bytes} {j : Nat} {d : Deinterleaved}, (∀ e ∈ es, e.length = size) →
      d.Sized size count →
        d.placeSliceChecked size count n k j es = some (d.placeSlice size count n k j es) ∧
          (d.placeSlice size count n k j es).Sized size count
  | [], _, _, _, h => ⟨rfl, h⟩
  | e :: es, j, d, hes, h => by
      rw [placeSliceChecked, placeSlice]
      split_ifs with hend
      · exact ⟨rfl, h⟩
      · obtain ⟨hplace, hsized⟩ := placeChecked_eq h (not_le.mp hend) (hes e List.mem_cons_self)
        rw [hplace]
        exact placeSliceChecked_eq (fun e' he' => hes e' (List.mem_cons_of_mem e he')) hsized

end Deinterleaved

/-- No index of `deinterleave` is out of bounds. -/
theorem AssembledFrame.deinterleaveChecked_eq (f : AssembledFrame) (size count : Nat) :
    f.deinterleaveChecked size count = some (f.deinterleave size count) := by
  rw [deinterleaveChecked, deinterleave]
  split_ifs with hsize
  · rfl
  · have hblank : (Deinterleaved.blank size count).Sized size count :=
      ⟨List.length_replicate, List.length_replicate⟩
    refine foldlM_eq_foldl (I := Deinterleaved.Sized size count) ?_ hblank
    rintro ⟨slice, k⟩ - d hd
    cases slice with
    | none => exact ⟨rfl, hd⟩
    | some slice =>
        refine Deinterleaved.placeSliceChecked_eq (fun e he => ?_) hd
        exact length_of_mem_chunksExact (Nat.pos_of_ne_zero hsize) he

/-- It has room for all its elements. -/
theorem AssembledFrame.length_deinterleave {size : Nat} (hsize : 0 < size) (f : AssembledFrame)
    (count : Nat) : (f.deinterleave size count).bytes.length = count * size ∧
      (f.deinterleave size count).present.length = count :=
  ⟨(f.shows_deinterleave hsize count).length, (f.shows_deinterleave hsize count).lengthPresent⟩

/-! ## Elements and their fields -/

/-- The elements of a byte string, with their numbers. -/
theorem mem_zipIdx_chunksExact {size count : Nat} {bytes : Bytes} (hsize : 0 < size)
    (hlen : bytes.length = count * size) {e : Bytes} {i : Nat} :
    (e, i) ∈ (chunksExact size bytes).zipIdx ↔ i < count ∧ e = elementAt size bytes i := by
  rw [List.mk_mem_zipIdx_iff_getElem?]
  constructor
  · intro hget
    have hlt := (List.getElem?_eq_some_iff.mp hget).1
    rw [length_chunksExact, hlen, Nat.mul_div_cancel _ hsize] at hlt
    rw [getElem?_chunksExact hsize hlen hlt] at hget
    exact ⟨hlt, (Option.some.inj hget).symm⟩
  · rintro ⟨hlt, rfl⟩
    exact getElem?_chunksExact hsize hlen hlt

/-- The elements that a decoder goes through. -/
theorem mem_elements {size count : Nat} {bytes : Bytes} (hsize : 0 < size)
    (hlen : bytes.length = count * size) {e : Bytes} {i : Nat} :
    (e, i) ∈ (chunksExact (max size 1) bytes).zipIdx.take count ↔
      i < count ∧ e = elementAt size bytes i := by
  have hcount : (chunksExact size bytes).zipIdx.length = count := by
    rw [List.length_zipIdx, length_chunksExact, hlen, Nat.mul_div_cancel _ hsize]
  rw [Nat.max_eq_left hsize, List.take_of_length_le hcount.le, mem_zipIdx_chunksExact hsize hlen]

theorem length_elementAt {size count i : Nat} {bytes : Bytes} (hlen : bytes.length = count * size)
    (hi : i < count) : (elementAt size bytes i).length = size := by
  have hle : (i + 1) * size ≤ count * size := Nat.mul_le_mul_right _ hi
  rw [Nat.succ_mul] at hle
  rw [elementAt, List.length_take, List.length_drop]
  omega

/-- The `k`-th number of an element. -/
def u16At (e : Bytes) (k : Nat) : UInt16 := UInt16.ofNat (BigEndian.decode (elementAt 2 e k))

theorem elementAt_two {e : Bytes} {k : Nat} (h : 2 * k + 1 < e.length) :
    elementAt 2 e k = [e[2 * k], e[2 * k + 1]] := by
  rw [elementAt, Nat.mul_comm, List.drop_eq_getElem_cons (by omega),
    List.drop_eq_getElem_cons (by omega)]
  rfl

/-- The two bytes of a number are there. -/
theorem exists_u16At {e : Bytes} {k : Nat} (h : 2 * k + 1 < e.length) :
    ∃ hi lo, e[2 * k]? = some hi ∧ e[2 * k + 1]? = some lo ∧ u16FromBeBytes hi lo = u16At e k := by
  refine ⟨e[2 * k], e[2 * k + 1], List.getElem?_eq_getElem _, List.getElem?_eq_getElem _, ?_⟩
  rw [u16At, elementAt_two h, u16FromBeBytes]

/-! ## Range images -/

namespace RangeImageFormat

variable {f : RangeImageFormat}

/-- The intensity of beam `b` in an element, zero if none is carried. -/
def valueAt (f : RangeImageFormat) (e : Bytes) (b : Nat) : UInt8 :=
  if f.intensity then e.getD (2 * f.beams.toNat + b) 0 else 0

/-- The image whose column `c` is read from `element c`. -/
def image (f : RangeImageFormat) (element : Nat → Bytes) (present : List Bool) : RangeImage where
  beams := f.beams
  columns := f.columns
  rangesM := (List.range f.len).map fun i =>
    f.metres (u16At (element (i % f.columns.toNat)) (i / f.columns.toNat))
  intensity := (List.range f.len).map fun i =>
    f.valueAt (element (i % f.columns.toNat)) (i / f.columns.toNat)
  columnsPresent := present

/-- The places that are done show the image.  Intensities that are not carried are zero from the
start. -/
structure Reads (f : RangeImageFormat) (element : Nat → Bytes) (present : List Bool)
    (done : Nat → Prop) (img : RangeImage) : Prop where
  beams : img.beams = f.beams
  columns : img.columns = f.columns
  present : img.columnsPresent = present
  ranges : Filled f.len
    (fun i => f.metres (u16At (element (i % f.columns.toNat)) (i / f.columns.toNat))) done
    img.rangesM
  values : Filled f.len
    (fun i => f.valueAt (element (i % f.columns.toNat)) (i / f.columns.toNat))
    (fun i => f.intensity = false ∨ done i) img.intensity

section

variable {element : Nat → Bytes} {present : List Bool} {done : Nat → Prop} {img : RangeImage}
variable {b c : Nat}

theorem Reads.eq_image (h : Reads f element present done img) (hall : ∀ i < f.len, done i) :
    img = f.image element present := by
  obtain ⟨beams, columns, rangesM, intensity, columnsPresent⟩ := img
  obtain ⟨rfl, rfl, rfl, hranges, hvalues⟩ := h
  rw [image, ← hranges.eq_map hall, ← hvalues.eq_map fun i hi => .inr (hall i hi)]

theorem reads_blank (f : RangeImageFormat) (element : Nat → Bytes) (present : List Bool) :
    Reads f element present (fun _ => False)
      { beams := f.beams
        columns := f.columns
        rangesM := List.replicate f.len F32.zero
        intensity := List.replicate f.len 0
        columnsPresent := present } := by
  refine ⟨rfl, rfl, rfl, filled_replicate _ _ _, ?_⟩
  cases hintensity : f.intensity with
  | true => simpa using filled_replicate f.len _ 0
  | false =>
      have hzero : ∀ e b, f.valueAt e b = 0 := fun e b => by
        rw [valueAt, hintensity, if_neg Bool.false_ne_true]
      simpa only [hzero] using filled_const f.len 0 _

/-- The number of a place in the image. -/
theorem place_mod (hc : c < f.columns.toNat) : (b * f.columns.toNat + c) % f.columns.toNat = c := by
  rw [Nat.mul_comm, Nat.mul_add_mod, Nat.mod_eq_of_lt hc]

theorem place_div (hc : c < f.columns.toNat) : (b * f.columns.toNat + c) / f.columns.toNat = b := by
  rw [Nat.mul_comm, Nat.mul_add_div (by omega), Nat.div_eq_of_lt hc, Nat.add_zero]

theorem place_lt (hb : b < f.beams.toNat) (hc : c < f.columns.toNat) :
    b * f.columns.toNat + c < f.len := by
  have hle : (b + 1) * f.columns.toNat ≤ f.len := Nat.mul_le_mul_right _ hb
  rw [Nat.succ_mul] at hle
  omega

/-- One beam of a column. -/
theorem Reads.placeBeam (h : Reads f element present done img) (hb : b < f.beams.toNat)
    (hc : c < f.columns.toNat) (he : (element c).length = f.elementSize) :
    ∃ img', f.placeBeam c (element c) img b = some img' ∧
      Reads f element present (fun i => done i ∨ i = b * f.columns.toNat + c) img' := by
  have hlen : 2 * f.beams.toNat + f.beams.toNat * f.intensity.toNat = (element c).length := by
    rw [he, elementSize]
    ring
  obtain ⟨hi, lo, hhi, hlo, hnumber⟩ :=
    exists_u16At (show 2 * b + 1 < (element c).length by omega)
  obtain ⟨rangesM, hset, hranges⟩ := h.ranges.setAt (place_lt hb hc)
  rw [place_mod hc, place_div hc] at hset
  rw [RangeImageFormat.placeBeam, hhi, hlo]
  simp only [Option.bind_eq_bind, Option.bind_some, hnumber, hset]
  cases hintensity : f.intensity with
  | false =>
      refine ⟨_, rfl, h.beams, h.columns, h.present, hranges, ?_⟩
      have hvalues := h.values
      rw [hintensity] at hvalues ⊢
      simpa using hvalues
  | true =>
      rw [hintensity, Bool.toNat_true, Nat.mul_one] at hlen
      have hvalue : (element c)[2 * f.beams.toNat + b]? = some (f.valueAt (element c) b) := by
        rw [valueAt, hintensity, if_pos rfl, List.getD_eq_getElem _ _ (by omega),
          List.getElem?_eq_getElem (by omega)]
      obtain ⟨intensity, hset', hvalues⟩ := h.values.setAt (place_lt hb hc)
      rw [place_mod hc, place_div hc] at hset'
      rw [hvalue]
      simp only [if_true, Option.bind_some, hset']
      refine ⟨_, rfl, h.beams, h.columns, h.present, hranges, ?_⟩
      simpa only [or_assoc] using hvalues

/-- All beams of a column. -/
theorem Reads.placeColumn (h : Reads f element present done img) (hc : c < f.columns.toNat)
    (he : (element c).length = f.elementSize) :
    ∃ img', f.placeColumn img (element c, c) = some img' ∧
      Reads f element present
        (fun i => done i ∨ ∃ b ∈ List.range f.beams.toNat, i = b * f.columns.toNat + c) img' := by
  refine exists_foldlM (fun b hb done img h => ?_) h
  exact h.placeBeam (List.mem_range.mp hb) hc he

end

/-- A frame with room for all columns is read without an index out of bounds. -/
theorem decode_eq (hsize : 0 < f.elementSize) {frame : Deinterleaved}
    (hlen : frame.bytes.length = f.columns.toNat * f.elementSize) :
    f.decode frame = some (f.image (elementAt f.elementSize frame.bytes) frame.present) := by
  have hround : ∀ p ∈ (chunksExact (max f.elementSize 1) frame.bytes).zipIdx.take f.columns.toNat,
      ∀ done img, Reads f (elementAt f.elementSize frame.bytes) frame.present done img →
        ∃ img', f.placeColumn img p = some img' ∧
          Reads f (elementAt f.elementSize frame.bytes) frame.present
            (fun i => done i ∨
              ∃ b ∈ List.range f.beams.toNat, i = b * f.columns.toNat + p.2) img' := by
    rintro ⟨e, c⟩ hp done img h
    obtain ⟨hc, rfl⟩ := (mem_elements hsize hlen).mp hp
    exact h.placeColumn hc (length_elementAt hlen hc)
  obtain ⟨img, hdecode, hreads⟩ := exists_foldlM hround (f.reads_blank _ _)
  rw [decode, hdecode]
  refine congrArg some (hreads.eq_image fun i hi => .inr ?_)
  have hcolumns : 0 < f.columns.toNat := Nat.pos_of_mul_pos_left (Nat.zero_lt_of_lt hi)
  have hc := Nat.mod_lt i hcolumns
  refine ⟨(_, i % f.columns.toNat), (mem_elements hsize hlen).mpr ⟨hc, rfl⟩, i / f.columns.toNat,
    List.mem_range.mpr ((Nat.div_lt_iff_lt_mul hcolumns).mpr hi), ?_⟩
  rw [Nat.mul_comm]
  exact (Nat.div_add_mod i _).symm

end RangeImageFormat

/-! ## Depth maps -/

namespace DepthFormat

variable {f : DepthFormat}

/-- The image whose segment `i` is read from `element i`. -/
def image (f : DepthFormat) (element : Nat → Bytes) : DepthImage where
  width := f.width
  height := f.height
  depthMm := (List.range (f.width.toNat * f.height.toNat)).map fun p =>
    u16At
      (element (p / f.width.toNat * f.segmentsPerRow +
        p % f.width.toNat / f.segmentWidth.toNat))
      (p % f.width.toNat % f.segmentWidth.toNat)

/-- The places that are done show the image. -/
def Reads (f : DepthFormat) (element : Nat → Bytes) : (Nat → Prop) → List UInt16 → Prop :=
  Filled (f.width.toNat * f.height.toNat) fun p =>
    u16At
      (element (p / f.width.toNat * f.segmentsPerRow +
        p % f.width.toNat / f.segmentWidth.toNat))
      (p % f.width.toNat % f.segmentWidth.toNat)

/-- Pixel `k` of element `i` has place `p`. -/
def Covers (f : DepthFormat) (i k p : Nat) : Prop :=
  i % f.segmentsPerRow * f.segmentWidth.toNat + k < f.width.toNat ∧
    p = i / f.segmentsPerRow * f.width.toNat +
      (i % f.segmentsPerRow * f.segmentWidth.toNat + k)

section

variable {element : Nat → Bytes} {done : Nat → Prop} {depthMm : List UInt16} {i k p : Nat}

/-- Where a pixel that has a place is read from. -/
theorem Covers.eq (h : f.Covers i k p) (hk : k < f.segmentWidth.toNat) :
    p / f.width.toNat * f.segmentsPerRow + p % f.width.toNat / f.segmentWidth.toNat = i ∧
      p % f.width.toNat % f.segmentWidth.toNat = k := by
  obtain ⟨hx, rfl⟩ := h
  have hw := Nat.zero_lt_of_lt hx
  have hsw := Nat.zero_lt_of_lt hk
  rw [Nat.mul_comm (i / f.segmentsPerRow) f.width.toNat, Nat.mul_add_div hw, Nat.mul_add_mod,
    Nat.div_eq_of_lt hx, Nat.mod_eq_of_lt hx, Nat.add_zero,
    Nat.mul_comm (i % f.segmentsPerRow) f.segmentWidth.toNat, Nat.mul_add_div hsw,
    Nat.mul_add_mod, Nat.div_eq_of_lt hk, Nat.mod_eq_of_lt hk, Nat.add_zero]
  exact ⟨Nat.div_add_mod' i _, rfl⟩

theorem Covers.lt (h : f.Covers i k p) (hi : i < f.elementCount) :
    p < f.width.toNat * f.height.toNat := by
  obtain ⟨hx, rfl⟩ := h
  have hspr : 0 < f.segmentsPerRow := Nat.pos_of_mul_pos_left (Nat.zero_lt_of_lt hi)
  have hy : i / f.segmentsPerRow < f.height.toNat := (Nat.div_lt_iff_lt_mul hspr).mpr hi
  have hle : (i / f.segmentsPerRow + 1) * f.width.toNat ≤ f.height.toNat * f.width.toNat :=
    Nat.mul_le_mul_right _ hy
  rw [Nat.succ_mul, Nat.mul_comm f.height.toNat] at hle
  omega

/-- Every place has its pixel. -/
theorem exists_covers (hsw : 0 < f.segmentWidth.toNat)
    (hp : p < f.width.toNat * f.height.toNat) :
    ∃ i k, i < f.elementCount ∧ k < f.segmentWidth.toNat ∧ f.Covers i k p := by
  have hw : 0 < f.width.toNat := Nat.pos_of_mul_pos_right (Nat.zero_lt_of_lt hp)
  have hx := Nat.mod_lt p hw
  have hseg : p % f.width.toNat / f.segmentWidth.toNat < f.segmentsPerRow := by
    have hle := Nat.div_mul_le_self (p % f.width.toNat) f.segmentWidth.toNat
    rw [segmentsPerRow, Nat.max_eq_left hsw]
    refine Nat.lt_of_succ_le ((Nat.le_div_iff_mul_le hsw).mpr ?_)
    rw [Nat.succ_mul]
    omega
  have hy : p / f.width.toNat < f.height.toNat :=
    (Nat.div_lt_iff_lt_mul hw).mpr (by rwa [Nat.mul_comm])
  have hspr := Nat.zero_lt_of_lt hseg
  refine ⟨p / f.width.toNat * f.segmentsPerRow + p % f.width.toNat / f.segmentWidth.toNat,
    p % f.width.toNat % f.segmentWidth.toNat, ?_, Nat.mod_lt _ hsw, ?_⟩
  · have hle : (p / f.width.toNat + 1) * f.segmentsPerRow ≤ f.elementCount :=
      Nat.mul_le_mul_right _ hy
    rw [Nat.succ_mul] at hle
    omega
  · rw [Covers, Nat.mul_comm (p / f.width.toNat) f.segmentsPerRow, Nat.mul_add_div hspr,
      Nat.mul_add_mod, Nat.div_eq_of_lt hseg, Nat.mod_eq_of_lt hseg, Nat.add_zero,
      Nat.div_add_mod', Nat.div_add_mod']
    exact ⟨hx, rfl⟩

/-- One pixel of a segment. -/
theorem Reads.placePixel (h : f.Reads element done depthMm) (hi : i < f.elementCount)
    (hk : k < f.segmentWidth.toNat) (he : (element i).length = f.elementSize) :
    ∃ depthMm', f.placePixel i depthMm (elementAt 2 (element i) k, k) = some depthMm' ∧
      f.Reads element (fun p => done p ∨ f.Covers i k p) depthMm' := by
  rw [DepthFormat.placePixel]
  by_cases hx : i % f.segmentsPerRow * f.segmentWidth.toNat + k < f.width.toNat
  · have hcovers : f.Covers i k _ := ⟨hx, rfl⟩
    obtain ⟨depthMm', hset, hreads⟩ := Filled.setAt h (hcovers.lt hi)
    rw [(hcovers.eq hk).1, (hcovers.eq hk).2] at hset
    have hlen : 2 * k + 1 < (element i).length := by
      rw [he, elementSize]
      omega
    refine ⟨depthMm', ?_, ?_⟩
    · rw [u16At, elementAt_two hlen] at hset
      rw [elementAt_two hlen]
      exact (if_pos hx).trans hset
    · refine ⟨hreads.length, fun p hp hdone => hreads.get p hp (hdone.imp_right fun h => h.2)⟩
  · refine ⟨depthMm, if_neg hx, h.length, fun p hp hdone => ?_⟩
    exact h.get p hp (hdone.resolve_right fun hcovers => hx hcovers.1)

/-- All pixels of a segment. -/
theorem Reads.placeSegment (h : f.Reads element done depthMm) (hi : i < f.elementCount)
    (he : (element i).length = f.elementSize) :
    ∃ depthMm', f.placeSegment depthMm (element i, i) = some depthMm' ∧
      f.Reads element
        (fun p => done p ∨ ∃ px ∈ (chunksExact 2 (element i)).zipIdx, f.Covers i px.2 p)
        depthMm' := by
  have hspr : 0 < f.segmentsPerRow := Nat.pos_of_mul_pos_left (Nat.zero_lt_of_lt hi)
  rw [DepthFormat.placeSegment, if_neg hspr.ne']
  refine exists_foldlM ?_ h
  rintro ⟨px, k⟩ hpx done depthMm h
  obtain ⟨hk, rfl⟩ := (mem_zipIdx_chunksExact two_pos he).mp hpx
  exact h.placePixel hi hk he

end

/-- A frame with room for all segments is read without an index out of bounds. -/
theorem decode_eq (hsize : 0 < f.elementSize) {frame : Deinterleaved}
    (hlen : frame.bytes.length = f.elementCount * f.elementSize) :
    f.decode frame = some (f.image (elementAt f.elementSize frame.bytes)) := by
  have hsw : 0 < f.segmentWidth.toNat := Nat.pos_of_mul_pos_right hsize
  have hround : ∀ e ∈ (chunksExact (max f.elementSize 1) frame.bytes).zipIdx.take f.elementCount,
      ∀ done depthMm, f.Reads (elementAt f.elementSize frame.bytes) done depthMm →
        ∃ depthMm', f.placeSegment depthMm e = some depthMm' ∧
          f.Reads (elementAt f.elementSize frame.bytes)
            (fun p => done p ∨ ∃ px ∈ (chunksExact 2 e.1).zipIdx, f.Covers e.2 px.2 p)
            depthMm' := by
    rintro ⟨e, i⟩ he done depthMm h
    obtain ⟨hi, rfl⟩ := (mem_elements hsize hlen).mp he
    exact h.placeSegment hi (length_elementAt hlen hi)
  obtain ⟨depthMm, hdecode, hreads⟩ := exists_foldlM hround (filled_replicate _ _ 0)
  rw [decode, hdecode]
  have himage := hreads.eq_map fun p hp => .inr ?_
  · rw [himage]
    rfl
  · obtain ⟨i, k, hi, hk, hcovers⟩ := exists_covers hsw hp
    exact ⟨(_, i), (mem_elements hsize hlen).mpr ⟨hi, rfl⟩, (_, k),
      (mem_zipIdx_chunksExact two_pos (length_elementAt hlen hi)).mpr ⟨hk, rfl⟩, hcovers⟩

end DepthFormat

/-! ## Points -/

namespace PointFormat

theorem exists_i16At {e : Bytes} {o : Nat} (h : o + 1 < e.length) : ∃ v, i16At e o = some v := by
  rw [i16At, List.getElem?_eq_getElem (by omega), List.getElem?_eq_getElem h]
  exact ⟨_, rfl⟩

theorem exists_byteAt {carried : Bool} {e : Bytes} {o : Nat} (h : o + carried.toNat ≤ e.length) :
    ∃ v, byteAt carried e o = some v := by
  cases carried with
  | false => exact ⟨0, rfl⟩
  | true => exact ⟨_, List.getElem?_eq_getElem (show o < e.length from h)⟩

theorem exists_dopplerAt (f : PointFormat) {e : Bytes} {o : Nat}
    (h : o + (if f.dopplerScaleMps.isSome then 2 else 0) ≤ e.length) :
    ∃ v, f.dopplerAt e o = some v := by
  rw [dopplerAt]
  cases hscale : f.dopplerScaleMps with
  | none => exact ⟨_, rfl⟩
  | some scale =>
      rw [hscale, Option.isSome_some, if_pos rfl] at h
      obtain ⟨v, hv⟩ := exists_i16At (show o + 1 < e.length by omega)
      rw [hv]
      exact ⟨_, rfl⟩

/-- An element holds all the fields of its point. -/
theorem exists_decodePoint (f : PointFormat) {e : Bytes} (he : e.length = f.elementSize) :
    ∃ p, f.decodePoint e = some p := by
  rw [elementSize] at he
  obtain ⟨x, hx⟩ := exists_i16At (show 0 + 1 < e.length by omega)
  obtain ⟨y, hy⟩ := exists_i16At (show 2 + 1 < e.length by omega)
  obtain ⟨z, hz⟩ := exists_i16At (show 4 + 1 < e.length by omega)
  obtain ⟨intensity, hintensity⟩ := exists_byteAt (show 6 + f.intensity.toNat ≤ e.length by omega)
  obtain ⟨dopplerMps, hdoppler⟩ := f.exists_dopplerAt
    (show 6 + f.intensity.toNat + (if f.dopplerScaleMps.isSome then 2 else 0) ≤ e.length by omega)
  obtain ⟨snr, hsnr⟩ := exists_byteAt (show 6 + f.intensity.toNat +
    (if f.dopplerScaleMps.isSome then 2 else 0) + f.snr.toNat ≤ e.length by omega)
  rw [decodePoint, hx, hy, hz, hintensity]
  simp only [Option.bind_eq_bind, Option.bind_some, hdoppler, hsnr]
  exact ⟨_, rfl⟩

/-- Points are read without an index out of bounds. -/
theorem exists_decode (f : PointFormat) (bytes : Bytes) : ∃ ps, f.decode bytes = some ps := by
  have hsize : 0 < f.elementSize := by
    rw [elementSize]
    omega
  have hpoint : ∀ e ∈ chunksExact f.elementSize bytes,
      f.decodePoint e = some ((f.decodePoint e).getD ⟨.zero, .zero, .zero, 0, .zero, 0⟩) := by
    intro e he
    obtain ⟨p, hp⟩ := f.exists_decodePoint (length_of_mem_chunksExact hsize he)
    rw [hp]
    rfl
  exact ⟨_, mapM_eq_map hpoint⟩

end PointFormat

end RoboTele
