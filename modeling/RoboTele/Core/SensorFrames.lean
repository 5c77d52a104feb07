import RoboTele.Core.Sensor
import RoboTele.Queues.Strided

/-!
# Frames taken apart and put together

`interleave` deals the elements of a frame out to its slices (`interleave_ok`).
`Shows` says what a `Deinterleaved` shows: for each place the element that is
there, if any.  `deinterleave` shows the elements of the slots that are filled
(`shows_deinterleave`), whatever the slots hold.  Where they hold slices of one
frame, these are the elements of the frame (`Restores`).
-/

namespace RoboTele

open Slots Strided

/-! ## Elements -/

theorem length_chunksExact (size : Nat) (bytes : Bytes) :
    (chunksExact size bytes).length = bytes.length / size := by
  rw [chunksExact, List.length_map, List.length_range]

theorem length_of_mem_chunksExact {size : Nat} (hsize : 0 < size) {bytes element : Bytes}
    (h : element ∈ chunksExact size bytes) : element.length = size := by
  obtain ⟨i, hi, rfl⟩ := List.mem_map.mp h
  have hle : (i + 1) * size ≤ bytes.length :=
    (Nat.mul_le_mul_right _ (List.mem_range.mp hi)).trans (Nat.div_mul_le_self _ _)
  rw [Nat.succ_mul] at hle
  rw [elementAt, List.length_take, List.length_drop]
  omega

/-- The chunks of a buffer are its elements. -/
theorem getElem?_chunksExact {size count i : Nat} (hsize : 0 < size) {bytes : Bytes}
    (hlen : bytes.length = count * size) (hi : i < count) :
    (chunksExact size bytes)[i]? = some (elementAt size bytes i) := by
  rw [chunksExact, hlen, Nat.mul_div_cancel _ hsize, List.getElem?_map, List.getElem?_range hi]
  rfl

theorem length_flatten_of_length {size : Nat} :
    ∀ {es : List Bytes}, (∀ e ∈ es, e.length = size) → es.flatten.length = es.length * size
  | [], _ => (Nat.zero_mul _).symm
  | e :: es, h => by
      rw [List.flatten_cons, List.length_append, h e List.mem_cons_self,
        length_flatten_of_length fun e he => h e (List.mem_cons_of_mem _ he), List.length_cons,
        Nat.succ_mul, Nat.add_comm]

/-- The elements of a buffer do not depend on what follows. -/
theorem elementAt_append_left {size i : Nat} {A : Bytes} (h : (i + 1) * size ≤ A.length)
    (B : Bytes) : elementAt size (A ++ B) i = elementAt size A i := by
  rw [Nat.succ_mul] at h
  rw [elementAt, elementAt, List.drop_append_of_le_length (by omega), List.take_append_of_le_length]
  rw [List.length_drop]
  omega

/-- Behind whole elements the next ones follow. -/
theorem elementAt_append_right {size a : Nat} {A : Bytes} (h : A.length = a * size) (B : Bytes)
    (i : Nat) : elementAt size (A ++ B) (a + i) = elementAt size B i := by
  rw [elementAt, elementAt, Nat.add_mul, ← h, List.drop_length_add_append]

/-- The elements of a byte string made of elements. -/
theorem chunksExact_flatten {size : Nat} (hsize : 0 < size) :
    ∀ {es : List Bytes}, (∀ e ∈ es, e.length = size) → chunksExact size es.flatten = es
  | [], _ => by simp [chunksExact]
  | e :: es, h => by
      have he := h e List.mem_cons_self
      have hes : ∀ e ∈ es, e.length = size := fun e he => h e (List.mem_cons_of_mem _ he)
      have ih := chunksExact_flatten hsize hes
      have hlen : (e :: es).flatten.length / size = es.length + 1 := by
        rw [length_flatten_of_length h, List.length_cons, Nat.mul_div_cancel _ hsize]
      have hrest : es.flatten.length / size = es.length := by
        rw [length_flatten_of_length hes, Nat.mul_div_cancel _ hsize]
      rw [chunksExact, hrest] at ih
      rw [chunksExact, hlen, List.range_succ_eq_map, List.map_cons, List.map_map]
      congr 1
      · rw [elementAt, Nat.zero_mul, List.drop_zero, List.flatten_cons, List.take_left' he]
      · refine Eq.trans (List.map_congr_left ?_) ih
        intro i _
        rw [Function.comp_apply, List.flatten_cons, Nat.succ_eq_one_add]
        exact elementAt_append_right (he.trans (Nat.one_mul _).symm) _ i

/-! ## Putting elements in their places -/

namespace Deinterleaved

/-- The element shown at a place, zeros where there is none. -/
def shown (size : Nat) (element : Option Bytes) : Bytes := element.getD (List.replicate size 0)

/-- Place `i` of the frame shows `g i`. -/
structure Shows (size count : Nat) (d : Deinterleaved) (g : Nat → Option Bytes) : Prop where
  length : d.bytes.length = count * size
  lengthPresent : d.present.length = count
  element : ∀ i < count, elementAt size d.bytes i = shown size (g i)
  present : ∀ i < count, d.present[i]? = some (g i).isSome

section

variable {size count n k : Nat} {d : Deinterleaved} {g g' : Nat → Option Bytes}

theorem Shows.congr (h : Shows size count d g) (hg : ∀ i < count, g i = g' i) :
    Shows size count d g' where
  length := h.length
  lengthPresent := h.lengthPresent
  element i hi := hg i hi ▸ h.element i hi
  present i hi := hg i hi ▸ h.present i hi

/-- A blank image shows nothing. -/
theorem shows_blank (size count : Nat) : Shows size count (blank size count) fun _ => none where
  length := List.length_replicate
  lengthPresent := List.length_replicate
  element i hi := by
    have hle : (i + 1) * size ≤ count * size := Nat.mul_le_mul_right _ hi
    rw [Nat.succ_mul] at hle
    rw [elementAt, blank, List.drop_replicate, List.take_replicate, shown, Option.getD_none,
      Nat.min_eq_left (by omega)]
  present i hi := by
    rw [blank, List.getElem?_replicate, if_pos hi]
    rfl

/-- A placed element is at its index, and nothing else moves. -/
theorem elementAt_place {idx i : Nat} {e : Bytes} (hlen : d.bytes.length = count * size)
    (hidx : idx < count) (he : e.length = size) :
    elementAt size (d.place size idx e).bytes i =
      if i = idx then e else elementAt size d.bytes i := by
  have hle : (idx + 1) * size ≤ d.bytes.length := hlen ▸ Nat.mul_le_mul_right _ hidx
  have htake : (d.bytes.take (idx * size)).length = idx * size := by
    rw [List.length_take]
    rw [Nat.succ_mul] at hle
    omega
  have hboth : (d.bytes.take (idx * size) ++ e).length = (idx + 1) * size := by
    rw [List.length_append, htake, he, Nat.succ_mul]
  rw [place]
  rcases Nat.lt_trichotomy i idx with hlt | rfl | hgt
  · have hleft : (i + 1) * size ≤ idx * size := Nat.mul_le_mul_right _ hlt
    rw [if_neg (Nat.ne_of_lt hlt), List.append_assoc, elementAt_append_left (htake.symm ▸ hleft)]
    conv_rhs => rw [← List.take_append_drop (idx * size) d.bytes]
    rw [elementAt_append_left (htake.symm ▸ hleft)]
  · rw [if_pos rfl, elementAt_append_left (Nat.le_of_eq hboth.symm)]
    have hright := elementAt_append_right htake e 0
    rw [Nat.add_zero] at hright
    rw [hright, elementAt, Nat.zero_mul, List.drop_zero, List.take_of_length_le (Nat.le_of_eq he)]
  · obtain ⟨t, rfl⟩ := Nat.exists_eq_add_of_le (Nat.succ_le_of_lt hgt)
    rw [if_neg (Nat.ne_of_gt hgt), elementAt_append_right hboth]
    conv_rhs => rw [← List.take_append_drop ((idx + 1) * size) d.bytes]
    rw [elementAt_append_right]
    rw [List.length_take, Nat.min_eq_left hle]

/-- The image keeps its length. -/
theorem length_place {idx : Nat} {e : Bytes} (hlen : d.bytes.length = count * size)
    (hidx : idx < count) (he : e.length = size) :
    (d.place size idx e).bytes.length = count * size := by
  have hle : (idx + 1) * size ≤ count * size := Nat.mul_le_mul_right _ hidx
  rw [Nat.succ_mul] at hle
  rw [place, List.length_append, List.length_append, List.length_take, List.length_drop, he, hlen,
    Nat.succ_mul]
  omega

/-- One element in its place. -/
theorem Shows.place (h : Shows size count d g) {idx : Nat} (hidx : idx < count) {e : Bytes}
    (he : e.length = size) :
    Shows size count (d.place size idx e) fun i => if i = idx then some e else g i where
  length := length_place h.length hidx he
  lengthPresent := List.length_set.trans h.lengthPresent
  element i hi := by
    rw [elementAt_place h.length hidx he]
    split_ifs with heq
    · rfl
    · exact h.element i hi
  present i hi := by
    simp only [Deinterleaved.place]
    by_cases heq : i = idx
    · subst heq
      rw [if_pos rfl, List.getElem?_set_self (h.lengthPresent.symm ▸ hi)]
      rfl
    · rw [if_neg heq, List.getElem?_set_ne (Ne.symm heq)]
      exact h.present i hi

/-- The elements of slice `k` go to the places that are `k` modulo `n`. -/
theorem Shows.placeSlice (hk : k < n) :
    ∀ {es : List Bytes} {j : Nat} {d : Deinterleaved} {g : Nat → Option Bytes},
      (∀ e ∈ es, e.length = size) → Shows size count d g →
      Shows size count (d.placeSlice size count n k j es) fun i =>
        (if i % n = k ∧ j ≤ i / n then es[i / n - j]? else none).or (g i)
  | [], j, d, g, _, h => by
      rw [Deinterleaved.placeSlice]
      refine h.congr fun i _ => ?_
      simp
  | e :: es, j, d, g, hes, h => by
      have hn : 0 < n := Nat.zero_lt_of_lt hk
      rw [Deinterleaved.placeSlice]
      split_ifs with hend
      · -- the places of this slice from its `j`-th element on are past the end
        refine h.congr fun i hi => ?_
        rw [if_neg, Option.none_or]
        rintro ⟨hmod, hdiv⟩
        have hmul : j * n ≤ i / n * n := Nat.mul_le_mul_right _ hdiv
        have hsum := Nat.mod_add_div' i n
        omega
      · have hidx : k + j * n < count := Nat.not_le.mp hend
        refine (Shows.placeSlice hk (fun e he => hes e (List.mem_cons_of_mem _ he))
          (h.place hidx (hes e List.mem_cons_self))).congr fun i _ => ?_
        by_cases heq : i = k + j * n
        · have hmod : i % n = k := by
            rw [heq, Nat.add_mul_mod_self_right, Nat.mod_eq_of_lt hk]
          have hdiv : i / n = j := by
            rw [heq, Nat.add_mul_div_right _ _ hn, Nat.div_eq_of_lt hk, Nat.zero_add]
          rw [if_neg (by omega), Option.none_or, if_pos heq, if_pos ⟨hmod, hdiv.ge⟩, hdiv,
            Nat.sub_self, List.getElem?_cons_zero, Option.some_or]
        · rw [if_neg heq]
          by_cases hplace : i % n = k ∧ j ≤ i / n
          · have hlt : j < i / n := by
              refine Nat.lt_of_le_of_ne hplace.2 ?_
              intro hj
              exact heq (by rw [hj, ← hplace.1, Nat.mod_add_div'])
            have hsub : i / n - j = i / n - (j + 1) + 1 := by omega
            rw [if_pos ⟨hplace.1, hlt⟩, if_pos hplace, hsub, List.getElem?_cons_succ]
          · rw [if_neg hplace, if_neg]
            exact fun h => hplace ⟨h.1, Nat.le_of_succ_le h.2⟩

/-- The slots of a frame, from the first one on. -/
theorem shows_slots (hsize : 0 < size) {s : List (Option Bytes)} (hs : s.length ≤ n) :
    Shows size count
      (s.zipIdx.foldl
        (fun d (slice, k) =>
          match slice with
          | none => d
          | some slice => d.placeSlice size count n k 0 (chunksExact size slice))
        (blank size count))
      fun i => (slot s (i % n)).bind fun slice => (chunksExact size slice)[i / n]? := by
  induction s using List.reverseRecOn with
  | nil => exact shows_blank size count
  | append_singleton s o ih =>
      rw [List.length_append, List.length_singleton] at hs
      have hprev := ih (Nat.le_of_succ_le hs)
      rw [List.zipIdx_append, List.foldl_append, Nat.zero_add]
      cases o with
      | none =>
          refine hprev.congr fun i _ => ?_
          rw [slot_concat]
          split_ifs with hi
          · rw [hi, slot_of_le le_rfl]
          · rfl
      | some slice =>
          refine (hprev.placeSlice hs fun e => length_of_mem_chunksExact hsize).congr fun i _ => ?_
          rw [slot_concat]
          by_cases hi : i % n = s.length
          · rw [if_pos ⟨hi, Nat.zero_le _⟩, if_pos hi, hi, slot_of_le le_rfl]
            exact Option.or_none
          · rw [if_neg fun h => hi h.1, if_neg hi]
            exact Option.none_or

end

end Deinterleaved

namespace AssembledFrame

/-- Each slice shows every n-th element. -/
theorem shows_deinterleave {size : Nat} (hsize : 0 < size) (f : AssembledFrame) (count : Nat) :
    (f.deinterleave size count).Shows size count fun i =>
      (slot f.slices (i % f.slices.length)).bind fun slice =>
        (chunksExact size slice)[i / f.slices.length]? := by
  rw [deinterleave, if_neg (Nat.ne_of_gt hsize)]
  exact Deinterleaved.shows_slots hsize le_rfl

end AssembledFrame

/-! ## Slicing a frame -/

/-- The payloads are those of a frame of `count` elements in `n` slices. -/
structure Sliced (size maxPayload count n : Nat) (elements : Bytes) (payloads : List Bytes) :
    Prop where
  size_pos : 0 < size
  length : elements.length = count * size
  pos : 0 < n
  lt : n < 65536
  payloads_eq : payloads =
    (List.range n).map fun k => (strided n k (chunksExact size elements)).flatten
  bound : ∀ p ∈ payloads, p.length ≤ maxPayload

section

variable {size maxPayload count n : Nat} {elements : Bytes} {payloads : List Bytes}

/-- As few slices as the payload allows, and at least one. -/
theorem sliceCount_ok {c : UInt16} (h : sliceCount count size maxPayload = .ok c) :
    0 < maxPayload / size ∧
      c.toNat = max ((count + maxPayload / size - 1) / (maxPayload / size)) 1 := by
  rw [sliceCount] at h
  simp only at h
  split_ifs at h with hsize hper hneeded
  refine ⟨Nat.pos_of_ne_zero hper, ?_⟩
  rw [← Except.ok.inj h]
  exact UInt16.toNat_ofNat_of_lt hneeded

/-- Enough slices that none is over the limit. -/
theorem length_strided_le {per k : Nat} (hper : 0 < per) (hk : k < n)
    (hn : n = max ((count + per - 1) / per) 1) {l : List Bytes} (hl : l.length = count) :
    (strided n k l).length ≤ per := by
  have hcount : count ≤ per * n := by
    have hceil : (count + per - 1) / per ≤ n := hn ▸ Nat.le_max_left _ _
    have hlt : count + per - 1 < (n + 1) * per :=
      (Nat.div_lt_iff_lt_mul hper).mp (Nat.lt_succ_of_le hceil)
    rw [Nat.succ_mul, Nat.mul_comm] at hlt
    omega
  rw [length_strided hk, hl]
  refine Nat.le_of_lt_succ ((Nat.div_lt_iff_lt_mul (by omega)).mpr ?_)
  rw [Nat.succ_mul]
  omega

/-- The slices take the elements in turn. -/
theorem interleave_ok (h : interleave elements size maxPayload = .ok payloads) :
    ∃ n, Sliced size maxPayload (elements.length / size) n elements payloads := by
  rw [interleave] at h
  split_ifs at h with hsize hpart
  have hpos : 0 < size := Nat.pos_of_ne_zero hsize
  cases hcount : sliceCount (elements.length / size) size maxPayload with
  | error e =>
      rw [hcount] at h
      exact absurd h (by simp [Except.map])
  | ok c =>
      rw [hcount] at h
      obtain ⟨hper, hc⟩ := sliceCount_ok hcount
      have hpayloads : payloads = (List.range c.toNat).map fun k =>
          (strided c.toNat k (chunksExact size elements)).flatten := by
        rw [← deal_eq]
        exact (Except.ok.inj h).symm
      refine ⟨c.toNat, hpos, ?_, ?_, c.toNat_lt, hpayloads, ?_⟩
      · exact (Nat.div_mul_cancel (Nat.dvd_of_mod_eq_zero (not_not.mp hpart))).symm
      · exact hc ▸ Nat.lt_of_lt_of_le Nat.zero_lt_one (Nat.le_max_right _ _)
      · intro p hp
        rw [hpayloads] at hp
        obtain ⟨k, hk, rfl⟩ := List.mem_map.mp hp
        rw [length_flatten_of_length fun e he =>
          length_of_mem_chunksExact hpos (mem_of_mem_strided he)]
        refine (Nat.mul_le_mul_right _ ?_).trans (Nat.div_mul_le_self maxPayload size)
        exact length_strided_le hper (List.mem_range.mp hk) hc (length_chunksExact _ _)

/-! ## Putting a frame together -/

/-- The frame shows the elements whose slices are there, and lists the elements
of these slices. -/
structure Restores (size n : Nat) (elements : Bytes) (got : Nat → Prop) [DecidablePred got]
    (f : AssembledFrame) : Prop where
  shown : (f.deinterleave size (elements.length / size)).Shows size (elements.length / size)
    fun i => if got (i % n) then some (elementAt size elements i) else none
  received : f.receivedElements size =
    (((List.range n).filter got).flatMap fun k => strided n k (chunksExact size elements)).flatten

/-- A slice holds every n-th element. -/
theorem Sliced.getElem?_payloads (h : Sliced size maxPayload count n elements payloads) {k : Nat}
    (hk : k < n) :
    payloads[k]? = some (strided n k (chunksExact size elements)).flatten := by
  rw [h.payloads_eq, List.getElem?_map, List.getElem?_range hk]
  rfl

theorem Sliced.chunksExact_payload (h : Sliced size maxPayload count n elements payloads)
    (k : Nat) : chunksExact size (strided n k (chunksExact size elements)).flatten =
      strided n k (chunksExact size elements) :=
  chunksExact_flatten h.size_pos fun _ he =>
    length_of_mem_chunksExact h.size_pos (mem_of_mem_strided he)

/-- A frame whose slots hold some of the slices. -/
theorem Sliced.restores (h : Sliced size maxPayload count n elements payloads) {got : Nat → Prop}
    [DecidablePred got] {f : AssembledFrame} (hlen : f.slices.length = n)
    (hslots : ∀ k, slot f.slices k = if got k then payloads[k]? else none) :
    Restores size n elements got f where
  shown := by
    have hcount : elements.length / size = count := by
      rw [h.length, Nat.mul_div_cancel _ h.size_pos]
    rw [hcount]
    refine (f.shows_deinterleave h.size_pos count).congr fun i hi => ?_
    have hmod := Nat.mod_lt i h.pos
    rw [hlen, hslots, h.getElem?_payloads hmod]
    split_ifs with hgot
    · rw [Option.bind_some, h.chunksExact_payload, getElem?_strided hmod, Nat.mod_add_div',
        getElem?_chunksExact h.size_pos h.length hi]
    · rfl
  received := by
    have hslices : f.slices = (List.range n).map fun k =>
        if got k then some (strided n k (chunksExact size elements)).flatten else none := by
      rw [← hlen]
      conv_lhs => rw [← map_slot_range f.slices]
      refine List.map_congr_left fun k hk => ?_
      rw [hslots, hlen, h.getElem?_payloads (hlen ▸ List.mem_range.mp hk)]
    rw [AssembledFrame.receivedElements, if_neg (Nat.ne_of_gt h.size_pos), hslices,
      reduceOption_map_ite, List.map_map, List.flatMap_def, List.flatten_flatten, List.map_map]
    congr 1
    refine List.map_congr_left fun k _ => ?_
    rw [Function.comp_apply, Function.comp_apply, length_flatten_of_length fun e he =>
      length_of_mem_chunksExact h.size_pos (mem_of_mem_strided he), Nat.mul_mod_left, Nat.sub_zero,
      List.take_of_length_le]
    rw [length_flatten_of_length fun e he =>
      length_of_mem_chunksExact h.size_pos (mem_of_mem_strided he)]

end

end RoboTele
