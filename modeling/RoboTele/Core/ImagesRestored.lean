import RoboTele.Core.ImageReading
import RoboTele.Core.SensorDelivery

/-!
# Sensor images over a link that loses slices

A valid descriptor's images can be encoded and sliced, and whichever slices arrive, the
image comes back at every place whose element is in one of them, and zero at the others
(`imagesRestored`).  Ranges come back as multiples of the scale: as the quantum nearest
to the range, and as zero where that does not fit.

A decoder reads `image` off the elements of a frame (`decode_eq`), so it is enough to
know each element: it is the one the encoder wrote, or zeros.
-/

namespace RoboTele

open FrameAssembler Slots

/-! ## Elements of an encoded frame -/

/-- The elements of a byte string made of `n` of them. -/
theorem elementAt_flatten {size n i : Nat} (hsize : 0 < size) {g : Nat → Bytes}
    (hg : ∀ i < n, (g i).length = size) (hi : i < n) :
    elementAt size ((List.range n).map g).flatten i = g i := by
  have hall : ∀ e ∈ (List.range n).map g, e.length = size := by
    intro e he
    obtain ⟨i, hi, rfl⟩ := List.mem_map.mp he
    exact hg i (List.mem_range.mp hi)
  have hlen : ((List.range n).map g).flatten.length = n * size := by
    rw [length_flatten_of_length hall, List.length_map, List.length_range]
  have hget := getElem?_chunksExact hsize hlen hi
  rw [chunksExact_flatten hsize hall, List.getElem?_map, List.getElem?_range hi] at hget
  exact (Option.some.inj hget).symm

theorem length_flatten_range {size n : Nat} {g : Nat → Bytes} (hg : ∀ i < n, (g i).length = size) :
    ((List.range n).map g).flatten.length = n * size := by
  rw [length_flatten_of_length, List.length_map, List.length_range]
  intro e he
  obtain ⟨i, hi, rfl⟩ := List.mem_map.mp he
  exact hg i (List.mem_range.mp hi)

theorem u16_decode_encode (q : UInt16) :
    UInt16.ofNat (BigEndian.decode (BigEndian.encode 2 q.toNat)) = q := by
  rw [BigEndian.decode_encode_of_lt q.toNat_lt, UInt16.ofNat_toNat]

/-- The numbers of an element that starts with `n` of them. -/
theorem u16At_flatten {n k : Nat} (q : Nat → UInt16) (hk : k < n) (rest : Bytes) :
    u16At (((List.range n).map fun k => BigEndian.encode 2 (q k).toNat).flatten ++ rest) k =
      q k := by
  have hlen : ∀ k < n, (BigEndian.encode 2 (q k).toNat).length = 2 := fun k _ =>
    BigEndian.length_encode _ _
  have hle : (k + 1) * 2 ≤ n * 2 := Nat.mul_le_mul_right _ hk
  rw [u16At, elementAt_append_left (by rwa [length_flatten_range hlen]),
    elementAt_flatten two_pos hlen hk, u16_decode_encode]

/-- Zeros read as zero. -/
theorem u16At_zeros (size k : Nat) : u16At (List.replicate size 0) k = 0 := by
  have hzeros : ∀ n, BigEndian.decode (List.replicate n 0) = 0 := by
    intro n
    induction n with
    | zero => rfl
    | succ n ih =>
        rw [List.replicate_succ, BigEndian.decode, ih]
        simp
  rw [u16At, elementAt, List.drop_replicate, List.take_replicate, hzeros]
  rfl

/-! ## Slicing and receiving -/

/-- Larger payloads do not need more slices. -/
theorem sliceCount_mono {count size maxPayload maxPayload' : Nat} {c : UInt16}
    (h : sliceCount count size maxPayload = .ok c) (hle : maxPayload ≤ maxPayload') :
    ∃ c', sliceCount count size maxPayload' = .ok c' := by
  rw [sliceCount] at h ⊢
  dsimp only at h ⊢
  split_ifs at h with hsize hper hneeded
  have hdiv : maxPayload / size ≤ maxPayload' / size := Nat.div_le_div_right hle
  have hpos : 0 < maxPayload / size := Nat.pos_of_ne_zero hper
  have hceil : (count + maxPayload' / size - 1) / (maxPayload' / size) ≤
      (count + maxPayload / size - 1) / (maxPayload / size) := by
    have hcount : count ≤
        (count + maxPayload / size - 1) / (maxPayload / size) * (maxPayload / size) := by
      have hlt := Nat.lt_div_mul_add hpos (a := count + maxPayload / size - 1)
      omega
    have hcount' := hcount.trans (Nat.mul_le_mul_left _ hdiv)
    refine Nat.le_of_lt_succ ((Nat.div_lt_iff_lt_mul (hpos.trans_le hdiv)).mpr ?_)
    rw [Nat.succ_mul]
    omega
  have hneeded' : max ((count + maxPayload' / size - 1) / (maxPayload' / size)) 1 < 65536 :=
    (max_le_max_right 1 hceil).trans_lt hneeded
  exact ⟨_, by rw [if_neg hsize, if_neg (hpos.trans_le hdiv).ne', if_pos hneeded']⟩

/-- A full frame of a valid descriptor can be sliced. -/
theorem exists_sliceFrame {count size maxPayload : Nat} {c : UInt16} {elements : Bytes}
    (hcount : sliceCount count size defaultSlicePayload = .ok c)
    (hpayload : defaultSlicePayload ≤ maxPayload) (hlen : elements.length = count * size)
    (sensorId : UInt8) (frameSeq : UInt32) (captureTimeUs : UInt64) :
    ∃ ds, sliceFrame sensorId frameSeq captureTimeUs elements size maxPayload = .ok ds := by
  obtain ⟨c', hc'⟩ := sliceCount_mono hcount hpayload
  have hsize : size ≠ 0 := by
    rintro rfl
    rw [sliceCount, if_pos rfl] at hcount
    cases hcount
  have hdiv : elements.length / size = count := by
    rw [hlen, Nat.mul_div_cancel _ (Nat.pos_of_ne_zero hsize)]
  have hmod : ¬ elements.length % size ≠ 0 := by
    rw [hlen, Nat.mul_mod_left]
    exact not_not.mpr rfl
  rw [sliceFrame, interleave, if_neg hsize, if_neg hmod, hdiv, hc']
  exact ⟨_, rfl⟩

/-- The frame with the slices of some of the datagrams. -/
structure AssembledFrame.Received (f : AssembledFrame) (ds : List Bytes) (got : Nat → Bool) :
    Prop where
  length : f.slices.length = ds.length
  slots : ∀ k, slot f.slices k =
    if got k then (ds[k]?.bind Slice.ofDatagram).map Slice.payload else none

/-- The elements that such a frame shows. -/
theorem AssembledFrame.Received.shows {f : AssembledFrame} {ds : List Bytes} {got : Nat → Bool}
    (h : f.Received ds got) {sensorId : UInt8} {frameSeq : UInt32} {captureTimeUs : UInt64}
    {elements : Bytes} {size maxPayload : Nat}
    (hframe : sliceFrame sensorId frameSeq captureTimeUs elements size maxPayload = .ok ds) :
    (f.deinterleave size (elements.length / size)).Shows size (elements.length / size) fun i =>
      if got (i % ds.length) then some (elementAt size elements i) else none := by
  obtain ⟨n, payloads, hsliced, hds⟩ := sliceFrame_ok hframe
  rw [hds.length]
  have hslots : ∀ k, slot f.slices k = if got k = true then payloads[k]? else none := by
    intro k
    rw [h.slots]
    refine if_congr Iff.rfl ?_ rfl
    by_cases hk : k < n
    · obtain ⟨d, payload, hd, hpayload, hof⟩ := hds.slice k hsliced.lt hk
      rw [hd, hpayload, Option.bind_some, hof]
      rfl
    · rw [List.getElem?_eq_none (by rw [hds.length]; omega),
        List.getElem?_eq_none (by rw [hds.lengthPayloads]; omega)]
      rfl
  exact (hsliced.restores (h.length.trans hds.length) hslots).shown

/-- What an element of such a frame reads as. -/
theorem AssembledFrame.Received.elementAt_eq {f : AssembledFrame} {ds : List Bytes}
    {got : Nat → Bool} (h : f.Received ds got) {sensorId : UInt8} {frameSeq : UInt32}
    {captureTimeUs : UInt64} {size count maxPayload : Nat} (hsize : 0 < size) {g : Nat → Bytes}
    (hg : ∀ i < count, (g i).length = size)
    (hframe : sliceFrame sensorId frameSeq captureTimeUs ((List.range count).map g).flatten size
      maxPayload = .ok ds) {i : Nat} (hi : i < count) :
    elementAt size (f.deinterleave size count).bytes i =
        (if got (i % ds.length) then g i else List.replicate size 0) ∧
      (f.deinterleave size count).present[i]? = some (got (i % ds.length)) := by
  have hshows := h.shows hframe
  rw [length_flatten_range hg, Nat.mul_div_cancel _ hsize] at hshows
  rw [hshows.element i hi, hshows.present i hi, elementAt_flatten hsize hg hi]
  cases got (i % ds.length) <;> exact ⟨rfl, rfl⟩

/-! ## Range images -/

namespace RangeImageFormat

variable {f : RangeImageFormat} {rangesM : List F32} {intensity : Option (List UInt8)} {b c : Nat}

/-- The images that `encode` takes. -/
structure Matches (f : RangeImageFormat) (rangesM : List F32) (intensity : Option (List UInt8)) :
    Prop where
  ranges : rangesM.length = f.len
  values : f.intensity = true → (intensity.getD []).length = f.len ∧ intensity.isSome

/-- The intensity at a place, zero if none is carried. -/
def valueOf (f : RangeImageFormat) (intensity : Option (List UInt8)) (i : Nat) : UInt8 :=
  if f.intensity then (intensity.getD []).getD i 0 else 0

/-- The bytes of column `c`. -/
def column (f : RangeImageFormat) (rangesM : List F32) (intensity : Option (List UInt8))
    (c : Nat) : Bytes :=
  ((List.range f.beams.toNat).map fun b =>
      BigEndian.encode 2
        (f.quantum (rangesM.getD (b * f.columns.toNat + c) F32.zero)).toNat).flatten ++
  if f.intensity then
    (List.range f.beams.toNat).map fun b => f.valueOf intensity (b * f.columns.toNat + c)
  else []

/-- An image of the right size encodes column by column. -/
theorem encodeColumn_eq (h : f.Matches rangesM intensity) (hc : c < f.columns.toNat) :
    f.encodeColumn rangesM intensity c = some (f.column rangesM intensity c) := by
  have hranges : ((List.range f.beams.toNat).mapM fun b =>
      (rangesM[b * f.columns.toNat + c]?).map fun range =>
        BigEndian.encode 2 (f.quantum range).toNat) =
      some ((List.range f.beams.toNat).map fun b => BigEndian.encode 2
        (f.quantum (rangesM.getD (b * f.columns.toNat + c) F32.zero)).toNat) := by
    refine Filling.mapM_eq_map fun b hb => ?_
    have hlt : b * f.columns.toNat + c < rangesM.length :=
      h.ranges.symm ▸ place_lt (List.mem_range.mp hb) hc
    rw [List.getElem?_eq_getElem hlt, List.getD_eq_getElem _ _ hlt]
    rfl
  rw [encodeColumn, hranges, column]
  cases hintensity : f.intensity with
  | false =>
      rw [if_neg Bool.false_ne_true, List.append_nil]
      rfl
  | true =>
      obtain ⟨hlen, hsome⟩ := h.values hintensity
      obtain ⟨values, rfl⟩ := Option.isSome_iff_exists.mp hsome
      rw [Option.getD_some] at hlen
      have hvalues : ((List.range f.beams.toNat).mapM fun b =>
          values[b * f.columns.toNat + c]?) =
          some ((List.range f.beams.toNat).map fun b =>
            f.valueOf (some values) (b * f.columns.toNat + c)) := by
        refine Filling.mapM_eq_map fun b hb => ?_
        have hlt : b * f.columns.toNat + c < values.length :=
          hlen.symm ▸ place_lt (List.mem_range.mp hb) hc
        rw [valueOf, if_pos hintensity, Option.getD_some, List.getElem?_eq_getElem hlt,
          List.getD_eq_getElem _ _ hlt]
      rw [if_pos rfl]
      simp only [Option.bind_eq_bind, Option.bind_some, hvalues]

/-- An image of the format's size is encoded. -/
theorem encode_eq (h : f.Matches rangesM intensity) :
    f.encode rangesM intensity =
      some (some ((List.range f.columns.toNat).map (f.column rangesM intensity)).flatten) := by
  have hmatches : ¬ (rangesM.length ≠ f.len ∨
      (f.intensity = true ∧ intensity.map List.length ≠ some f.len)) := by
    rintro (hranges | ⟨hintensity, hvalues⟩)
    · exact hranges h.ranges
    · obtain ⟨hlen, hsome⟩ := h.values hintensity
      obtain ⟨values, rfl⟩ := Option.isSome_iff_exists.mp hsome
      exact hvalues (congrArg some hlen)
  rw [encode, if_neg hmatches, Filling.mapM_eq_map fun c hc =>
    encodeColumn_eq h (List.mem_range.mp hc)]
  rfl

theorem length_ranges (f : RangeImageFormat) (q : Nat → UInt16) :
    ((List.range f.beams.toNat).map fun b => BigEndian.encode 2 (q b).toNat).flatten.length =
      f.beams.toNat * 2 :=
  length_flatten_range fun _ _ => BigEndian.length_encode _ _

theorem length_column (f : RangeImageFormat) (rangesM : List F32)
    (intensity : Option (List UInt8)) (c : Nat) :
    (f.column rangesM intensity c).length = f.elementSize := by
  rw [column, List.length_append, length_ranges, elementSize]
  cases f.intensity with
  | false => simp
  | true =>
      simp
      omega

/-- A beam's range is read back from its column. -/
theorem u16At_column (hb : b < f.beams.toNat) :
    u16At (f.column rangesM intensity c) b =
      f.quantum (rangesM.getD (b * f.columns.toNat + c) F32.zero) :=
  u16At_flatten (fun b => f.quantum (rangesM.getD (b * f.columns.toNat + c) F32.zero)) hb _

/-- So is its value, with or without intensity. -/
theorem valueAt_column (hb : b < f.beams.toNat) :
    f.valueAt (f.column rangesM intensity c) b =
      f.valueOf intensity (b * f.columns.toNat + c) := by
  rw [valueAt, column]
  cases hintensity : f.intensity with
  | false => rw [if_neg Bool.false_ne_true, valueOf, hintensity, if_neg Bool.false_ne_true]
  | true =>
      rw [if_pos rfl, if_pos rfl, List.getD_append_right _ _ _ _ (by rw [length_ranges]; omega),
        length_ranges, show 2 * f.beams.toNat + b - f.beams.toNat * 2 = b by omega,
        List.getD_eq_getElem _ _ (by simpa using hb), List.getElem_map, List.getElem_range]

theorem valueAt_zeros (f : RangeImageFormat) (size b : Nat) :
    f.valueAt (List.replicate size 0) b = 0 := by
  have hzero : ∀ i, (List.replicate size (0 : UInt8)).getD i 0 = 0 := by
    intro i
    rw [List.getD_eq_getElem?_getD, List.getElem?_replicate]
    split_ifs <;> rfl
  rw [valueAt, hzero, ite_self]

/-- A range of zero units is `0.0`. -/
theorem metres_zero (h : f.rangeScaleM.positive = true) : f.metres 0 = F32.zero :=
  F32.zero_mul_of_positive h

/-- The image has the size of the format. -/
structure HasSize (f : RangeImageFormat) (img : RangeImage) : Prop where
  beams : img.beams = f.beams
  columns : img.columns = f.columns
  ranges : img.rangesM.length = f.len
  values : img.intensity.length = f.len
  present : img.columnsPresent.length = f.columns.toNat

/-- What comes back of an image whose columns are in `n` slices. -/
structure Restored (f : RangeImageFormat) (n : Nat) (got : Nat → Bool) (rangesM : List F32)
    (intensity : Option (List UInt8)) (img : RangeImage) : Prop where
  size : f.HasSize img
  range : ∀ b < f.beams.toNat, ∀ c < f.columns.toNat,
    img.rangesM[b * f.columns.toNat + c]? = some
      (if got (c % n) then
        f.metres (f.quantum (rangesM.getD (b * f.columns.toNat + c) F32.zero))
      else F32.zero)
  value : ∀ b < f.beams.toNat, ∀ c < f.columns.toNat,
    img.intensity[b * f.columns.toNat + c]? = some
      (if got (c % n) then f.valueOf intensity (b * f.columns.toNat + c) else 0)
  present : ∀ c < f.columns.toNat, img.columnsPresent[c]? = some (got (c % n))

theorem hasSize_image {element : Nat → Bytes} {present : List Bool}
    (hpresent : present.length = f.columns.toNat) : f.HasSize (f.image element present) :=
  ⟨rfl, rfl, by simp [image], by simp [image], hpresent⟩

/-- The image at a beam and a column. -/
theorem image_get (hb : b < f.beams.toNat) (hc : c < f.columns.toNat) (element : Nat → Bytes)
    (present : List Bool) :
    (f.image element present).rangesM[b * f.columns.toNat + c]? =
        some (f.metres (u16At (element c) b)) ∧
      (f.image element present).intensity[b * f.columns.toNat + c]? =
        some (f.valueAt (element c) b) := by
  rw [image, List.getElem?_map, List.getElem?_map, List.getElem?_range (place_lt hb hc),
    Option.map_some, Option.map_some, place_mod hc, place_div hc]
  exact ⟨rfl, rfl⟩

variable {ds : List Bytes} {got : Nat → Bool} {frame : AssembledFrame} {sensorId : UInt8}
variable {frameSeq : UInt32} {captureTimeUs : UInt64} {maxPayload : Nat}

theorem restored_of_received (hsize : 0 < f.elementSize) (hscale : f.rangeScaleM.positive = true)
    (hframe : sliceFrame sensorId frameSeq captureTimeUs
      ((List.range f.columns.toNat).map (f.column rangesM intensity)).flatten f.elementSize
      maxPayload = .ok ds) (hreceived : frame.Received ds got) :
    f.Restored ds.length got rangesM intensity
      (f.image (elementAt f.elementSize (frame.deinterleave f.elementSize f.elementCount).bytes)
        (frame.deinterleave f.elementSize f.elementCount).present) := by
  have helement : ∀ c < f.columns.toNat, _ := fun c hc =>
    hreceived.elementAt_eq hsize (fun c _ => f.length_column rangesM intensity c) hframe hc
  refine ⟨hasSize_image (frame.length_deinterleave hsize _).2, ?_, ?_,
    fun c hc => (helement c hc).2⟩
  · intro b hb c hc
    rw [(image_get hb hc _ _).1, elementCount, (helement c hc).1]
    split_ifs
    · rw [u16At_column hb]
    · rw [u16At_zeros, metres_zero hscale]
  · intro b hb c hc
    rw [(image_get hb hc _ _).2, elementCount, (helement c hc).1]
    split_ifs
    · rw [valueAt_column hb]
    · rw [valueAt_zeros]

end RangeImageFormat

/-! ## Depth maps -/

namespace DepthFormat

variable {f : DepthFormat} {depthMm : List UInt16} {i x y : Nat}

/-- The bytes of segment `i`. -/
def segment (f : DepthFormat) (depthMm : List UInt16) (i : Nat) : Bytes :=
  f.encodeSegment
    ((depthMm.drop (i / f.segmentsPerRow * f.width.toNat)).take f.width.toNat)
    (i % f.segmentsPerRow)

/-- A list of lists of one length, as one list. -/
theorem flatMap_range {α : Type*} (n m : Nat) (g : Nat → Nat → α) :
    ((List.range n).flatMap fun y => (List.range m).map (g y)) =
      (List.range (n * m)).map fun i => g (i / m) (i % m) := by
  induction n with
  | zero => simp
  | succ n ih =>
      rw [List.range_succ, List.flatMap_append, ih, Nat.succ_mul, List.range_add, List.map_append,
        List.flatMap_singleton, List.map_map]
      refine congrArg (_ ++ ·) (List.map_congr_left fun x hx => ?_)
      have hx := List.mem_range.mp hx
      have hm := Nat.zero_lt_of_lt hx
      rw [Function.comp_apply, Nat.mul_comm, Nat.mul_add_div hm, Nat.mul_add_mod,
        Nat.div_eq_of_lt hx, Nat.mod_eq_of_lt hx, Nat.add_zero]

theorem encode_eq (hw : 0 < f.width.toNat) (hsw : f.segmentWidth ≠ 0)
    (h : depthMm.length = f.width.toNat * f.height.toNat) :
    f.encode depthMm =
      some (some ((List.range f.elementCount).map (f.segment depthMm)).flatten) := by
  have hmatches : ¬ (depthMm.length ≠ f.width.toNat * f.height.toNat ∨ f.segmentWidth = 0) := by
    rintro (hlen | hzero)
    · exact hlen h
    · exact hsw hzero
  have hrows : depthMm.length / f.width.toNat = f.height.toNat := by
    rw [h, Nat.mul_div_cancel_left _ hw]
  have hsegments := flatMap_range f.height.toNat f.segmentsPerRow fun y seg =>
    f.encodeSegment ((depthMm.drop (y * f.width.toNat)).take f.width.toNat) seg
  rw [encode]
  dsimp only
  rw [if_neg hmatches, if_neg hw.ne', hrows, List.flatMap_map]
  refine congrArg (some ∘ some) (Eq.trans ?_ (congrArg List.flatten hsegments))
  rw [List.flatten_eq_flatMap, List.flatMap_assoc]
  simp only [List.flatMap_map, id_eq]

theorem length_segment (f : DepthFormat) (depthMm : List UInt16) (i : Nat) :
    (f.segment depthMm i).length = f.elementSize := by
  rw [segment, encodeSegment, List.length_flatMap]
  simp [elementSize]

/-- Pixel `k` of a segment. -/
theorem u16At_segment {k : Nat} (hk : k < f.segmentWidth.toNat) (i : Nat) :
    u16At (f.segment depthMm i) k =
      ((depthMm.drop (i / f.segmentsPerRow * f.width.toNat)).take f.width.toNat).getD
        (i % f.segmentsPerRow * f.segmentWidth.toNat + k) 0 := by
  have hflatten := u16At_flatten (fun k =>
    ((depthMm.drop (i / f.segmentsPerRow * f.width.toNat)).take f.width.toNat).getD
      (i % f.segmentsPerRow * f.segmentWidth.toNat + k) 0) hk []
  rw [List.append_nil] at hflatten
  rw [segment, encodeSegment, List.range'_eq_map_range, List.flatMap_map, List.flatMap_def]
  exact hflatten

/-- The pixel that a place of the image shows is the one the map has there. -/
theorem Covers.u16At_segment {i k p : Nat} (h : f.Covers i k p) (hk : k < f.segmentWidth.toNat) :
    u16At (f.segment depthMm i) k = depthMm.getD p 0 := by
  obtain ⟨hx, rfl⟩ := h
  rw [DepthFormat.u16At_segment hk, List.getD_eq_getElem?_getD, List.getElem?_take_of_lt hx,
    List.getElem?_drop, List.getD_eq_getElem?_getD]

/-- The image has the size of the format. -/
structure HasSize (f : DepthFormat) (img : DepthImage) : Prop where
  width : img.width = f.width
  height : img.height = f.height
  depthMm : img.depthMm.length = f.width.toNat * f.height.toNat

/-- What comes back of a map whose segments are in `n` slices. -/
structure Restored (f : DepthFormat) (n : Nat) (got : Nat → Bool) (depthMm : List UInt16)
    (img : DepthImage) : Prop where
  size : f.HasSize img
  depth : ∀ y < f.height.toNat, ∀ x < f.width.toNat,
    img.depthMm[y * f.width.toNat + x]? = some
      (if got ((y * f.segmentsPerRow + x / f.segmentWidth.toNat) % n) then
        depthMm.getD (y * f.width.toNat + x) 0
      else 0)

theorem hasSize_image (f : DepthFormat) (element : Nat → Bytes) :
    f.HasSize (f.image element) :=
  ⟨rfl, rfl, by simp [image]⟩

variable {ds : List Bytes} {got : Nat → Bool} {frame : AssembledFrame} {sensorId : UInt8}
variable {frameSeq : UInt32} {captureTimeUs : UInt64} {maxPayload : Nat}

theorem restored_of_received (hsize : 0 < f.elementSize)
    (hframe : sliceFrame sensorId frameSeq captureTimeUs
      ((List.range f.elementCount).map (f.segment depthMm)).flatten f.elementSize
      maxPayload = .ok ds) (hreceived : frame.Received ds got) :
    f.Restored ds.length got depthMm
      (f.image
        (elementAt f.elementSize (frame.deinterleave f.elementSize f.elementCount).bytes)) := by
  have hsw : 0 < f.segmentWidth.toNat := Nat.pos_of_mul_pos_right hsize
  refine ⟨f.hasSize_image _, fun y hy x hx => ?_⟩
  have hp : y * f.width.toNat + x < f.width.toNat * f.height.toNat := by
    have hle : (y + 1) * f.width.toNat ≤ f.height.toNat * f.width.toNat :=
      Nat.mul_le_mul_right _ hy
    rw [Nat.succ_mul, Nat.mul_comm f.height.toNat] at hle
    omega
  have hw := Nat.zero_lt_of_lt hx
  obtain ⟨i, k, hi, hk, hcovers⟩ := exists_covers hsw hp
  have hplace := hcovers.eq hk
  have hdiv : (y * f.width.toNat + x) / f.width.toNat = y := by
    rw [Nat.mul_comm, Nat.mul_add_div hw, Nat.div_eq_of_lt hx, Nat.add_zero]
  have hmod : (y * f.width.toNat + x) % f.width.toNat = x := by
    rw [Nat.mul_comm, Nat.mul_add_mod, Nat.mod_eq_of_lt hx]
  have helement := hreceived.elementAt_eq hsize (fun i _ => f.length_segment depthMm i) hframe hi
  rw [image, List.getElem?_map, List.getElem?_range hp, Option.map_some, hplace.1, hplace.2,
    helement.1]
  rw [hdiv, hmod] at hplace
  rw [hplace.1]
  split_ifs
  · rw [hcovers.u16At_segment hk]
  · rw [u16At_zeros]

end DepthFormat

/-! ## Valid descriptors -/

/-- What `validate` checks. -/
theorem SensorDescriptor.validate_ok {d : SensorDescriptor} (h : d.validate = .ok ()) :
    d.encoding.validate = .ok () ∧
      ∃ c, sliceCount (d.encoding.elementCount.getD 0) d.encoding.elementSize
        defaultSlicePayload = .ok c := by
  rw [validate] at h
  split_ifs at h
  cases hencoding : d.encoding.validate with
  | error e =>
      rw [hencoding] at h
      cases h
  | ok u =>
      refine ⟨rfl, ?_⟩
      cases hcount : sliceCount (d.encoding.elementCount.getD 0) d.encoding.elementSize
          defaultSlicePayload with
      | ok c => exact ⟨c, rfl⟩
      | error e =>
          simp only [hencoding, hcount] at h
          cases h

theorem size_pos_of_sliceCount {count size maxPayload : Nat} {c : UInt16}
    (h : sliceCount count size maxPayload = .ok c) : 0 < size := by
  refine Nat.pos_of_ne_zero ?_
  rintro rfl
  rw [sliceCount, if_pos rfl] at h
  cases h

namespace SensorEncoding

/-- Images of the right size are encoded and sliced, and come back as far as their slices
were received.  The quantum of a range is the whole number nearest to the quotient. -/
def ImagesRestored : SensorEncoding → Prop
  | .points _ => True
  | .rangeImage f elevations =>
      (∀ range, (f.quantum range).toNat =
        match (range.div f.rangeScaleM).value with
        | none => 0
        | some x => if 1 ≤ ⌊x + 1 / 2⌋₊ ∧ ⌊x + 1 / 2⌋₊ ≤ 65535 then ⌊x + 1 / 2⌋₊ else 0) ∧
      f.metres 0 = F32.zero ∧
      ∀ rangesM intensity, f.Matches rangesM intensity →
        ∃ elements, f.encode rangesM intensity = some (some elements) ∧
          ∀ sensorId frameSeq captureTimeUs maxPayload, defaultSlicePayload ≤ maxPayload →
            ∃ ds, sliceFrame sensorId frameSeq captureTimeUs elements f.elementSize maxPayload =
                .ok ds ∧
              ∀ got (frame : AssembledFrame), frame.Received ds got →
                ∃ img, decode (.rangeImage f elevations) frame = some (.rangeImage img) ∧
                  f.Restored ds.length got rangesM intensity img
  | .depth f intrinsics =>
      ∀ depthMm : List UInt16, depthMm.length = f.width.toNat * f.height.toNat →
        ∃ elements, f.encode depthMm = some (some elements) ∧
          ∀ sensorId frameSeq captureTimeUs maxPayload, defaultSlicePayload ≤ maxPayload →
            ∃ ds, sliceFrame sensorId frameSeq captureTimeUs elements f.elementSize maxPayload =
                .ok ds ∧
              ∀ got (frame : AssembledFrame), frame.Received ds got →
                ∃ img, decode (.depth f intrinsics) frame = some (.depth img) ∧
                  f.Restored ds.length got depthMm img

/-- Whatever a frame holds, it is decoded to data of the right size. -/
def DecodesAll : SensorEncoding → Prop
  | .points f => ∀ frame, ∃ ps, decode (.points f) frame = some (.points ps)
  | .rangeImage f elevations => ∀ frame, ∃ img,
      decode (.rangeImage f elevations) frame = some (.rangeImage img) ∧ f.HasSize img
  | .depth f intrinsics => ∀ frame, ∃ img,
      decode (.depth f intrinsics) frame = some (.depth img) ∧ f.HasSize img

/-- An assembled frame of a range image decodes. -/
theorem decode_rangeImage {f : RangeImageFormat} (hsize : 0 < f.elementSize)
    (elevations : List F32) (frame : AssembledFrame) :
    decode (.rangeImage f elevations) frame = some (.rangeImage
      (f.image (elementAt f.elementSize (frame.deinterleave f.elementSize f.elementCount).bytes)
        (frame.deinterleave f.elementSize f.elementCount).present)) := by
  have hlen : (frame.deinterleave f.elementSize f.elementCount).bytes.length =
      f.columns.toNat * f.elementSize := (frame.length_deinterleave hsize _).1
  rw [decode, frame.deinterleaveChecked_eq]
  simp only [Option.bind_eq_bind, Option.bind_some]
  rw [RangeImageFormat.decode_eq hsize hlen]
  rfl

/-- So does one of a depth image. -/
theorem decode_depth {f : DepthFormat} (hsize : 0 < f.elementSize)
    (intrinsics : DepthIntrinsics) (frame : AssembledFrame) :
    decode (.depth f intrinsics) frame = some (.depth
      (f.image (elementAt f.elementSize
        (frame.deinterleave f.elementSize f.elementCount).bytes))) := by
  rw [decode, frame.deinterleaveChecked_eq]
  simp only [Option.bind_eq_bind, Option.bind_some]
  rw [DepthFormat.decode_eq hsize (frame.length_deinterleave hsize _).1]
  rfl

/-- Whatever was assembled decodes, in full or in part. -/
theorem decodesAll {e : SensorEncoding} (hsize : 0 < e.elementSize) : e.DecodesAll := by
  cases e with
  | points f =>
      intro frame
      obtain ⟨ps, hps⟩ := f.exists_decode (frame.receivedElements f.elementSize)
      exact ⟨ps, by rw [decode, hps, Option.map_some]⟩
  | rangeImage f elevations =>
      intro frame
      refine ⟨_, decode_rangeImage hsize elevations frame, ?_⟩
      exact RangeImageFormat.hasSize_image (frame.length_deinterleave hsize _).2
  | depth f intrinsics =>
      intro frame
      exact ⟨_, decode_depth hsize intrinsics frame, f.hasSize_image _⟩

/-- A range image is restored up to what is missing. -/
theorem imagesRestored_rangeImage {f : RangeImageFormat} {elevations : List F32} {c : UInt16}
    (hvalid : (rangeImage f elevations).validate = .ok ())
    (hcount : sliceCount f.elementCount f.elementSize defaultSlicePayload = .ok c) :
    (rangeImage f elevations).ImagesRestored := by
  have hsize := size_pos_of_sliceCount hcount
  have hscale : f.rangeScaleM.positive = true := by
    rw [validate] at hvalid
    split_ifs at hvalid with hbad
    simp only [not_or, Bool.not_eq_false] at hbad
    exact hbad.2.2
  refine ⟨fun range => F32.whole_eq _, RangeImageFormat.metres_zero hscale, ?_⟩
  intro rangesM intensity hmatches
  refine ⟨_, RangeImageFormat.encode_eq hmatches, ?_⟩
  intro sensorId frameSeq captureTimeUs maxPayload hpayload
  have hlen := length_flatten_range fun c (_ : c < f.columns.toNat) =>
    f.length_column rangesM intensity c
  obtain ⟨ds, hframe⟩ := exists_sliceFrame hcount hpayload hlen sensorId frameSeq captureTimeUs
  refine ⟨ds, hframe, fun got frame hreceived => ?_⟩
  exact ⟨_, decode_rangeImage hsize elevations frame,
    RangeImageFormat.restored_of_received hsize hscale hframe hreceived⟩

/-- So is a depth image. -/
theorem imagesRestored_depth {f : DepthFormat} {intrinsics : DepthIntrinsics} {c : UInt16}
    (hvalid : (depth f intrinsics).validate = .ok ())
    (hcount : sliceCount f.elementCount f.elementSize defaultSlicePayload = .ok c) :
    (depth f intrinsics).ImagesRestored := by
  have hsize := size_pos_of_sliceCount hcount
  rw [validate] at hvalid
  split_ifs at hvalid with hbad
  simp only [not_or] at hbad
  intro depthMm hdepth
  have hw : 0 < f.width.toNat := Nat.pos_of_ne_zero fun hzero =>
    hbad.1 (UInt16.toNat_inj.mp hzero)
  refine ⟨_, DepthFormat.encode_eq hw hbad.2.2.1 hdepth, ?_⟩
  intro sensorId frameSeq captureTimeUs maxPayload hpayload
  have hlen := length_flatten_range fun i (_ : i < f.elementCount) => f.length_segment depthMm i
  obtain ⟨ds, hframe⟩ := exists_sliceFrame hcount hpayload hlen sensorId frameSeq captureTimeUs
  refine ⟨ds, hframe, fun got frame hreceived => ?_⟩
  exact ⟨_, decode_depth hsize intrinsics frame,
    DepthFormat.restored_of_received hsize hframe hreceived⟩

end SensorEncoding

/-- Of a valid descriptor every image comes back as far as its slices were received, and
every frame is decoded within bounds. -/
theorem SensorDescriptor.imagesRestored (d : SensorDescriptor) (h : d.validate = .ok ()) :
    d.encoding.ImagesRestored ∧ d.encoding.DecodesAll := by
  obtain ⟨hvalid, c, hcount⟩ := validate_ok h
  refine ⟨?_, SensorEncoding.decodesAll (size_pos_of_sliceCount hcount)⟩
  cases hencoding : d.encoding with
  | points f => trivial
  | rangeImage f elevations =>
      rw [hencoding] at hvalid hcount
      exact SensorEncoding.imagesRestored_rangeImage hvalid hcount
  | depth f intrinsics =>
      rw [hencoding] at hvalid hcount
      exact SensorEncoding.imagesRestored_depth hvalid hcount

/-- A lidar of two beams in centimetres. -/
def twoBeams : SensorDescriptor where
  sensorId := 3
  label := "lidar"
  encoding :=
    .rangeImage
      { beams := 2
        columns := 360
        rangeScaleM := ⟨0x3C23D70A⟩
        intensity := true } [F32.zero, F32.one]
  maxHz := 10
  maxBitrateKbps := 2000
  mountPositionM := Vector.replicate 3 F32.zero
  mountOrientationXyzw := (Vector.replicate 3 F32.zero).push F32.one

/-- A sensor of two beams with intensity. -/
theorem imagesRestored_twoBeams :
    twoBeams.encoding.ImagesRestored ∧ twoBeams.encoding.DecodesAll :=
  twoBeams.imagesRestored (by decide +kernel)

end RoboTele
