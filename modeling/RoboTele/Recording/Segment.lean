import RoboTele.Core.Recording
import RoboTele.Core.Retention
import Mathlib.Data.List.Nodup
import Mathlib.Data.List.Sort

/-!
# Segment files

A category has a directory of its own, and a segment is a file in it that is named by
the capture time of its first record, in twenty digits.  So the names in
lexicographic order are the capture times in order (`segmentName_lt_segmentName`),
which is all that tells an old segment from a new one.

`files` lists the directory in the order in which its files were created.
-/

namespace RoboTele

/-! ## Names -/

/-- The last `width` decimal digits. -/
def decimal : Nat → Nat → Bytes
  | 0, _ => []
  | width + 1, n => UInt8.ofNat (48 + n / 10 ^ width % 10) :: decimal width n

/-- `{start_capture_us:020}.rec`, where twenty digits hold every `u64`. -/
def segmentName (startCaptureUs : UInt64) : Bytes :=
  decimal 20 startCaptureUs.toNat ++ [46, 114, 101, 99]

/-- Numbers of one width are ordered as their digits. -/
theorem decimal_append_lt (suffix : Bytes) : ∀ (width : Nat) {a b : Nat},
    a % 10 ^ width < b % 10 ^ width → decimal width a ++ suffix < decimal width b ++ suffix
  | 0, a, b, h => by
      rw [pow_zero, Nat.mod_one, Nat.mod_one] at h
      exact absurd h (Nat.lt_irrefl 0)
  | width + 1, a, b, h => by
      have hdigit : ∀ n, n % 10 < 10 := fun n => Nat.mod_lt n (by decide)
      have ha := hdigit (a / 10 ^ width)
      have hb := hdigit (b / 10 ^ width)
      have hlow := Nat.mod_lt b (show 0 < 10 ^ width by positivity)
      rw [Nat.mod_pow_succ, Nat.mod_pow_succ] at h
      rw [decimal, decimal, List.cons_append, List.cons_append, List.cons_lt_cons_iff]
      rcases Nat.lt_trichotomy (a / 10 ^ width % 10) (b / 10 ^ width % 10) with hlt | heq | hgt
      · left
        rw [UInt8.lt_iff_toNat_lt, UInt8.toNat_ofNat_of_lt' (by norm_num; omega),
          UInt8.toNat_ofNat_of_lt' (by norm_num; omega)]
        omega
      · refine .inr ⟨by rw [heq], decimal_append_lt suffix width ?_⟩
        rw [heq] at h
        exact Nat.lt_of_add_lt_add_right h
      · -- a higher digit outweighs all the lower ones
        have hle := Nat.mul_le_mul_left (10 ^ width) (Nat.succ_le_of_lt hgt)
        rw [Nat.mul_succ] at hle
        omega

/-- Later segments have greater names. -/
theorem segmentName_lt_segmentName {a b : UInt64} (h : a < b) : segmentName a < segmentName b := by
  refine decimal_append_lt _ 20 ?_
  have ha := a.toNat_lt
  have hb := b.toNat_lt
  rw [Nat.mod_eq_of_lt (by omega), Nat.mod_eq_of_lt (by omega)]
  exact UInt64.lt_iff_toNat_lt.mp h

/-! ## The directory -/

/-- A file in the directory of a category. -/
structure SegmentFile where
  name : Bytes
  size : Nat
deriving DecidableEq

namespace SegmentFile

/-- What retention is told of a file. -/
def segmentMeta (f : SegmentFile) : SegmentMeta where
  sizeBytes := f.size

end SegmentFile

/-- What the file operations answer while one record is taken up.  `metadata` is
`none` for an entry that cannot be read, and `writeFails` tells how many bytes of a
failed write landed in the file all the same. -/
structure FileIo where
  readDir : Bool
  metadata : SegmentFile → Option SegmentMeta
  removeFile : Bytes → Bool
  createFile : Bool
  writeFails : Option Nat

/-- Every operation does what it is for. -/
def FileIo.ok : FileIo where
  readDir := true
  metadata f := some f.segmentMeta
  removeFile _ := true
  createFile := true
  writeFails := none

/-- Every operation succeeds. -/
structure FileIo.Succeeds (io : FileIo) : Prop where
  readDir : io.readDir = true
  metadata : ∀ f, io.metadata f = some f.segmentMeta
  removeFile : ∀ name, io.removeFile name = true
  createFile : io.createFile = true
  writeFails : io.writeFails = none

/-- Every file operation of it succeeds. -/
theorem FileIo.ok_succeeds : FileIo.ok.Succeeds := ⟨rfl, fun _ => rfl, fun _ => rfl, rfl, rfl⟩

/-- The names of the segments, in the order of their creation. -/
def names (files : List SegmentFile) : List Bytes := files.map SegmentFile.name

/-- In the order of their names. -/
def byName (files : List SegmentFile) : List SegmentFile :=
  files.insertionSort fun a b => a.name ≤ b.name

/-- The segments in the order of their names.  An entry that cannot be read is left
out. -/
def listSegments (io : FileIo) (files : List SegmentFile) : Option (List (Bytes × SegmentMeta)) :=
  if io.readDir then
    some ((files.filterMap fun f => (io.metadata f).map (f.name, ·)).insertionSort
      fun a b => a.1 ≤ b.1)
  else none

/-- Delete the file of that name. -/
def removeFile (io : FileIo) (files : List SegmentFile) (name : Bytes) : List SegmentFile :=
  if io.removeFile name then files.filter fun f => f.name ≠ name else files

/-- Open the file of that name to append to it.  It is created if it is not there. -/
def openFile (files : List SegmentFile) (name : Bytes) : List SegmentFile :=
  if name ∈ names files then files else files ++ [{ name, size := 0 }]

/-- Append `n` bytes to the file of that name. -/
def appendTo (files : List SegmentFile) (name : Bytes) (n : Nat) : List SegmentFile :=
  files.map fun f => if f.name = name then { f with size := f.size + n } else f

section

variable {io : FileIo} {files : List SegmentFile}

theorem byName_perm (files : List SegmentFile) : (byName files).Perm files :=
  List.perm_insertionSort _ _

/-- Names that ascend are in order already. -/
theorem byName_of_ascending (h : (names files).Pairwise (· < ·)) : byName files = files := by
  rw [names, List.pairwise_map] at h
  exact (h.imp fun hlt => Std.le_of_lt hlt).insertionSort_eq

theorem nodup_of_ascending (h : (names files).Pairwise (· < ·)) : (names files).Nodup :=
  h.imp fun hlt => Std.ne_of_lt hlt

/-- Sorting repeats no name. -/
theorem names_byName_nodup (h : (names files).Nodup) : (names (byName files)).Nodup :=
  ((byName_perm files).map _).nodup_iff.mpr h

/-- A directory that can be read lists its files by name. -/
theorem listSegments_eq {sizes : SegmentFile → SegmentMeta} (hdir : io.readDir = true)
    (hmeta : ∀ f ∈ files, io.metadata f = some (sizes f)) :
    listSegments io files = some ((byName files).map fun f => (f.name, sizes f)) := by
  have hall : files.filterMap (fun f => (io.metadata f).map (f.name, ·)) =
      files.map fun f => (f.name, sizes f) := by
    rw [← List.filterMap_eq_map]
    refine List.filterMap_congr fun f hf => ?_
    rw [hmeta f hf]
    rfl
  rw [listSegments, if_pos hdir, hall, byName, List.map_insertionSort
    (fun a b : SegmentFile => a.name ≤ b.name) (fun a b : Bytes × SegmentMeta => a.1 ≤ b.1)]
  intro a _ b _
  exact Iff.rfl

@[simp] theorem names_appendTo (files : List SegmentFile) (name : Bytes) (n : Nat) :
    names (appendTo files name n) = names files := by
  rw [names, names, appendTo, List.map_map]
  refine List.map_congr_left fun f _ => ?_
  simp only [Function.comp_apply]
  split <;> rfl

/-- A file that is there is opened. -/
theorem openFile_of_mem {name : Bytes} (h : name ∈ names files) : openFile files name = files :=
  if_pos h

/-- One that is not is made. -/
theorem openFile_of_notMem {name : Bytes} (h : name ∉ names files) :
    openFile files name = files ++ [{ name, size := 0 }] :=
  if_neg h

/-- Without the first files there are the other ones. -/
theorem filter_drop (count : Nat) (h : (names files).Nodup) :
    files.filter (fun f => f.name ∉ names (files.take count)) = files.drop count := by
  have hsplit : names files = names (files.take count) ++ names (files.drop count) := by
    rw [names, names, names, ← List.map_append, List.take_append_drop]
  rw [hsplit] at h
  conv_lhs => rw [← List.take_append_drop count files]
  rw [List.filter_append, List.take_append_drop, List.filter_eq_nil_iff.mpr, List.nil_append,
    List.filter_eq_self.mpr]
  · intro f hf
    have hdisjoint := List.disjoint_of_nodup_append h
    exact decide_eq_true fun hmem => hdisjoint hmem (List.mem_map_of_mem hf)
  · intro f hf
    have hmem : f.name ∈ names (files.take count) := List.mem_map_of_mem hf
    simp [hmem]

end

end RoboTele
