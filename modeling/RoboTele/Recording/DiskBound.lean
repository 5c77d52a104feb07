import RoboTele.Recording.Writer

/-!
# What a category takes on the disk

Room is made only when a segment is started, for the payload of its first record alone,
and the newest of the segments that are there stays whatever its size.  A segment may
outgrow its limit by one record.

With `segmentBound` for the largest segment that this allows, the segments that were
closed stay within the budget or are one alone, and the open one adds at most one
segment (`diskUsage_le`).
-/

namespace RoboTele

open Runs

/-- The bytes of all segments. -/
def diskUsage (files : List SegmentFile) : Nat :=
  totalBytes (files.map SegmentFile.segmentMeta)

/-- The longest of the records as they are written. -/
def largestRecord (turns : List Turn) : Nat :=
  (turns.map fun t => t.framed.length).foldr max 0

/-- A segment is closed at its limit, which its last record may cross. -/
def segmentBound (config : CategoryConfig) (turns : List Turn) : Nat :=
  config.maxSegmentBytes + largestRecord turns

/-- The file operations succeed, and a segment that is started has a name of its
own. -/
def WritesNew (config : CategoryConfig) (w : Writer) (t : Turn) : Prop :=
  t.io.Succeeds ∧
    (w.needsRotate config t.now = true → segmentName t.record.captureUs ∉ names w.files)

/-- No segment is larger than `bound`.  Next to the open one, which is the newest,
there are no more than the budget or one segment allows. -/
structure WithinBound (config : CategoryConfig) (bound : Nat) (w : Writer) : Prop where
  names_nodup : (names w.files).Nodup
  size_le : ∀ f ∈ w.files, f.size ≤ bound
  of_open : ∀ seg, w.segment = some seg →
    ∃ closed, w.files = closed ++ [{ name := seg.name, size := seg.sizeBytes }] ∧
      diskUsage closed ≤ max config.maxTotalBytes bound

section

variable {config : CategoryConfig} {files : List SegmentFile} {bound : Nat} {w : Writer} {t : Turn}

/-- Two sets of files use what each of them uses. -/
theorem diskUsage_append (files more : List SegmentFile) :
    diskUsage (files ++ more) = diskUsage files + diskUsage more := by
  rw [diskUsage, diskUsage, diskUsage, totalBytes, totalBytes, totalBytes, List.map_append,
    List.map_append, List.sum_append]

theorem diskUsage_singleton (f : SegmentFile) : diskUsage [f] = f.size := rfl

/-- Their order does not matter. -/
theorem diskUsage_perm {files' : List SegmentFile} (h : files.Perm files') :
    diskUsage files = diskUsage files' :=
  ((h.map _).map _).sum_eq

/-- No record is larger than the largest one. -/
theorem le_largestRecord : ∀ {turns : List Turn}, ∀ t ∈ turns, t.framed.length ≤ largestRecord turns
  | t :: turns, t', ht' => by
      rw [largestRecord, List.map_cons, List.foldr_cons]
      rcases List.mem_cons.mp ht' with rfl | ht'
      · exact le_max_left _ _
      · exact (le_largestRecord t' ht').trans (le_max_right _ _)

/-- One segment is no larger than `bound`. -/
theorem diskUsage_le_of_length (hsize : ∀ f ∈ files, f.size ≤ bound) (h : files.length ≤ 1) :
    diskUsage files ≤ bound := by
  match files, h with
  | [], _ => exact Nat.zero_le _
  | [f], _ => exact hsize f List.mem_cons_self

/-- Retention leaves what fits the budget, or one segment. -/
theorem diskUsage_enforceRetention {io : FileIo} (hio : io.Succeeds)
    (hnames : (names files).Nodup) (hsize : ∀ f ∈ files, f.size ≤ bound)
    (incomingBytes budgetBytes : Nat) :
    (enforceRetention io files incomingBytes budgetBytes).Sublist files ∧
      diskUsage (enforceRetention io files incomingBytes budgetBytes) ≤ max budgetBytes bound := by
  obtain ⟨count, hkept, -, hroom⟩ := enforceRetention_eq SegmentFile.segmentMeta hio.readDir
    (fun f _ => hio.metadata f) (fun f _ => hio.removeFile f.name) incomingBytes budgetBytes
  have hperm : (enforceRetention io files incomingBytes budgetBytes).Perm
      ((byName files).drop count) := by
    rw [hkept, ← filter_drop count (names_byName_nodup hnames)]
    exact ((byName_perm files).filter _).symm
  refine ⟨hkept ▸ List.filter_sublist, ?_⟩
  rw [diskUsage_perm hperm]
  rcases hroom with hone | hfits
  · refine (diskUsage_le_of_length (fun f hf => ?_) ?_).trans (le_max_right _ _)
    · exact hsize f ((byName_perm files).mem_iff.mp (List.mem_of_mem_drop hf))
    · rw [List.length_drop, (byName_perm files).length_eq]
      omega
  · exact (Nat.le_of_add_right_le hfits).trans (le_max_left _ _)

/-- Appending to the newest file. -/
theorem appendTo_concat {closed : List SegmentFile} {name : Bytes} (h : name ∉ names closed)
    (size n : Nat) :
    appendTo (closed ++ [SegmentFile.mk name size]) name n =
      closed ++ [SegmentFile.mk name (size + n)] := by
  have hclosed : appendTo closed name n = closed := by
    rw [appendTo]
    refine (List.map_congr_left fun f hf => if_neg ?_).trans (List.map_id closed)
    rintro rfl
    exact h (List.mem_map_of_mem hf)
  rw [appendTo, List.map_append, List.map_singleton, if_pos rfl]
  exact congrArg (· ++ _) hclosed

/-- Writing a record to a segment with room for it. -/
theorem WithinBound.append (hw : WithinBound config bound w) (hio : t.io.Succeeds)
    (hroom : ∀ seg, w.segment = some seg → seg.sizeBytes + t.framed.length ≤ bound) :
    WithinBound config bound (w.append t) := by
  rw [Writer.append]
  cases hseg : w.segment with
  | none => exact hw
  | some seg =>
      obtain ⟨closed, hfiles, hclosed⟩ := hw.of_open seg hseg
      have hnames := hw.names_nodup
      rw [hfiles, names, List.map_append, List.map_singleton] at hnames
      have hnew : seg.name ∉ names closed := by
        intro hmem
        exact List.disjoint_of_nodup_append hnames hmem (List.mem_singleton_self _)
      rw [hio.writeFails]
      dsimp only
      rw [hfiles, appendTo_concat hnew]
      refine ⟨?_, ?_, ?_⟩
      · rwa [names, List.map_append, List.map_singleton]
      · intro f hf
        rcases List.mem_append.mp hf with hf | hf
        · exact hw.size_le f (hfiles ▸ List.mem_append_left _ hf)
        · obtain rfl := List.mem_singleton.mp hf
          exact hroom seg hseg
      · rintro _ ⟨⟩
        exact ⟨closed, rfl, hclosed⟩

/-- Closing the open segment and starting the next one. -/
theorem WithinBound.create (hw : WithinBound config bound w) (hio : t.io.Succeeds)
    (hrotate : w.needsRotate config t.now = true)
    (hnew : segmentName t.record.captureUs ∉ names w.files) :
    WithinBound config bound (Writer.create (w.retained config t) t) := by
  have hkept := diskUsage_enforceRetention hio hw.names_nodup hw.size_le
    t.record.payload.length config.maxTotalBytes
  rw [Writer.retained, if_pos hrotate, Writer.create, if_pos hio.createFile]
  have hnew' := mt (fun hmem => (hkept.1.map _).subset hmem) hnew
  rw [openFile_of_notMem hnew']
  refine ⟨?_, ?_, ?_⟩
  · rw [names, List.map_append, List.map_singleton, List.nodup_append]
    refine ⟨hw.names_nodup.sublist (hkept.1.map _), List.nodup_singleton _, ?_⟩
    intro name hname new hname'
    obtain rfl := List.mem_singleton.mp hname'
    rintro rfl
    exact hnew' hname
  · intro f hf
    rcases List.mem_append.mp hf with hf | hf
    · exact hw.size_le f (hkept.1.subset hf)
    · obtain rfl := List.mem_singleton.mp hf
      exact Nat.zero_le _
  · rintro _ ⟨⟩
    exact ⟨_, rfl, hkept.2⟩

/-- One record keeps within the bound, and after it a segment is open. -/
theorem WithinBound.writeRecord (hw : WithinBound config bound w) (ht : WritesNew config w t)
    (hbound : config.maxSegmentBytes + t.framed.length ≤ bound) :
    WithinBound config bound (w.writeRecord config t) := by
  rw [Writer.writeRecord]
  split_ifs with hrotate
  · refine (hw.create ht.1 hrotate (ht.2 hrotate)).append ht.1 ?_
    rw [Writer.create, if_pos ht.1.createFile]
    rintro _ ⟨⟩
    dsimp only
    omega
  · refine hw.append ht.1 fun seg hseg => ?_
    rw [Writer.needsRotate, hseg] at hrotate
    have hlt := size_lt_of_shouldRotate (eq_false_of_ne_true hrotate)
    dsimp only at hlt
    omega

/-- A written record leaves a segment open. -/
theorem isSome_writeRecord (ht : WritesNew config w t) :
    (w.writeRecord config t).segment.isSome = true := by
  have happend : ∀ {w : Writer}, w.segment.isSome = true →
      (w.append t).segment.isSome = true := by
    intro w hw
    obtain ⟨seg, hseg⟩ := Option.isSome_iff_exists.mp hw
    rw [Writer.append, hseg, ht.1.writeFails]
    rfl
  rw [Writer.writeRecord]
  split_ifs with hrotate
  · refine happend ?_
    rw [Writer.create, if_pos ht.1.createFile]
    rfl
  · refine happend ?_
    cases hseg : w.segment with
    | none => exact absurd (by rw [Writer.needsRotate, hseg]) hrotate
    | some seg => rfl

/-- The open segment may exceed the bound, by its own. -/
theorem WithinBound.total_le (hw : WithinBound config bound w)
    (hopen : w.segment.isSome = true) :
    diskUsage w.files ≤ max config.maxTotalBytes bound + bound := by
  obtain ⟨seg, hseg⟩ := Option.isSome_iff_exists.mp hopen
  obtain ⟨closed, hfiles, hclosed⟩ := hw.of_open seg hseg
  have hsize := hw.size_le { name := seg.name, size := seg.sizeBytes } (by simp [hfiles])
  rw [hfiles, diskUsage_append, diskUsage_singleton]
  exact Nat.add_le_add hclosed hsize

end

/-- From the first rotation on the segments take at most the budget, or one segment
where that is more, and one segment. -/
theorem diskUsage_le (config : CategoryConfig) (files : List SegmentFile) (turns : List Turn)
    (hnames : (names files).Nodup) (hsize : ∀ f ∈ files, f.size ≤ segmentBound config turns)
    (h : Along (Writer.writeRecord config) (WritesNew config) (Writer.start files) turns) :
    ∀ taken later, turns = taken ++ later → taken ≠ [] →
      diskUsage (exec (Writer.writeRecord config) (Writer.start files) taken).files ≤
        max config.maxTotalBytes (segmentBound config turns) + segmentBound config turns := by
  intro taken later hturns htaken
  obtain ⟨before, t, rfl⟩ := (List.eq_nil_or_concat' taken).resolve_left htaken
  have hle : ∀ t' ∈ before ++ [t], config.maxSegmentBytes + t'.framed.length ≤
      segmentBound config turns :=
    fun t' ht' => Nat.add_le_add_left (le_largestRecord t' (hturns ▸ List.mem_append_left _ ht')) _
  rw [hturns, along_append, along_concat] at h
  have hstart : WithinBound config (segmentBound config turns) (Writer.start files) :=
    ⟨hnames, hsize, fun _ h => by cases h⟩
  have hbefore := exec_inv_along (fun w t hw ht => WithinBound.writeRecord hw ht.1 ht.2) before
    hstart (along_and_forall before h.1.1 fun t' ht' => hle t' (List.mem_append_left _ ht'))
  rw [exec_concat]
  exact (hbefore.writeRecord h.1.2 (hle t (by simp))).total_le (isSome_writeRecord h.1.2)

/-- A segment of 40 bytes is there already, and each record starts a segment. -/
theorem diskUsage_le_tenBytesAt :
    diskUsage (exec (Writer.writeRecord roomForOne)
        (Writer.start [{ name := segmentName 500, size := 40 }])
        [tenBytesAt 1000, tenBytesAt 2000, tenBytesAt 3000]).files ≤ 86 :=
  diskUsage_le roomForOne [{ name := segmentName 500, size := 40 }]
    [tenBytesAt 1000, tenBytesAt 2000, tenBytesAt 3000] (by decide) (by decide)
    ⟨⟨FileIo.ok_succeeds, by decide⟩, ⟨FileIo.ok_succeeds, by decide⟩,
      ⟨FileIo.ok_succeeds, by decide⟩, trivial⟩ _ [] rfl (by decide)

end RoboTele
