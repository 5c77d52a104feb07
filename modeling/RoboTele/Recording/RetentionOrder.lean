import RoboTele.Recording.Writer

/-!
# Deleting the oldest segments first

Retention is to delete the segments in the order of their creation, never the newest
one.  It goes by their names, and these come from the wall clock, which may be set
back.  A segment that is started then sorts before older ones and is deleted before
them, even when it is the newest (`not_oldestFirst_setBack`).

`ClockAhead` says that no segment is started behind one that is there.  In a run whose
steps all meet it the names ascend, and the oldest segments go first
(`oldestFirst_of_clockAhead`).
-/

namespace RoboTele

open Runs

/-- What was deleted is older than all that is kept, and the newest is kept. -/
def OldestFirst (files kept : List SegmentFile) : Prop :=
  kept <:+ files ∧ (files ≠ [] → kept ≠ [])

instance (files kept : List SegmentFile) : Decidable (OldestFirst files kept) :=
  inferInstanceAs (Decidable (_ ∧ _))

/-- Where the listed segments are beyond the budget, every segment is listed, and none
outlives its deletion. -/
def RetentionAnswers (io : FileIo) (files : List SegmentFile) (incomingBytes budgetBytes : Nat) :
    Prop :=
  ∀ existing, listSegments io files = some existing →
    budgetBytes < totalBytes (existing.map Prod.snd) + incomingBytes →
    ∀ f ∈ files, (io.metadata f).isSome ∧ io.removeFile f.name = true

/-- If the record starts a segment, its capture time is not behind the name of one
that is there. -/
def ClockAhead (config : CategoryConfig) (w : Writer) (t : Turn) : Prop :=
  w.needsRotate config t.now = true →
    RetentionAnswers t.io w.files t.record.payload.length config.maxTotalBytes ∧
    (t.io.createFile = true →
      ∀ f ∈ w.files, ∃ c ≤ t.record.captureUs, f.name = segmentName c)

/-- The names ascend in the order of creation. -/
def Ascending (files : List SegmentFile) : Prop := (names files).Pairwise (· < ·)

instance (files : List SegmentFile) : Decidable (Ascending files) :=
  inferInstanceAs (Decidable (List.Pairwise _ _))

section

variable {config : CategoryConfig} {files : List SegmentFile} {w : Writer} {t : Turn}

theorem oldestFirst_refl (files : List SegmentFile) : OldestFirst files files :=
  ⟨List.suffix_refl files, id⟩

/-- What is kept was there. -/
theorem OldestFirst.subset {kept : List SegmentFile} (h : OldestFirst files kept) :
    kept ⊆ files :=
  h.1.subset

/-- The newest of ascending files ascend. -/
theorem Ascending.of_suffix {kept : List SegmentFile} (h : Ascending files)
    (hkept : kept <:+ files) : Ascending kept :=
  h.sublist (hkept.sublist.map _)

/-- Under the budget nothing is deleted. -/
theorem enforceRetention_of_le {io : FileIo} {existing : List (Bytes × SegmentMeta)}
    {incomingBytes budgetBytes : Nat} (hlist : listSegments io files = some existing)
    (h : totalBytes (existing.map Prod.snd) + incomingBytes ≤ budgetBytes) :
    enforceRetention io files incomingBytes budgetBytes = files := by
  rw [enforceRetention, hlist]
  dsimp only
  rw [segmentsToDeleteForBudget_of_le h, List.foldl_nil]

/-- With names that ascend, retention deletes the oldest segments first. -/
theorem enforceRetention_oldestFirst {io : FileIo} {incomingBytes budgetBytes : Nat}
    (hfiles : Ascending files) (hio : RetentionAnswers io files incomingBytes budgetBytes) :
    OldestFirst files (enforceRetention io files incomingBytes budgetBytes) := by
  cases hlist : listSegments io files with
  | none =>
      rw [enforceRetention, hlist]
      exact oldestFirst_refl files
  | some existing =>
      rcases Nat.lt_or_ge budgetBytes (totalBytes (existing.map Prod.snd) + incomingBytes)
        with hlt | hle
      · have hanswers := hio existing hlist hlt
        have hdir : io.readDir = true := by
          rw [listSegments] at hlist
          split at hlist
          · assumption
          · cases hlist
        have hmeta : ∀ f ∈ files, io.metadata f = some ((io.metadata f).getD ⟨0⟩) := by
          intro f hf
          obtain ⟨size, hsize⟩ := Option.isSome_iff_exists.mp (hanswers f hf).1
          rw [hsize, Option.getD_some]
        obtain ⟨count, hkept, hcount, -⟩ := enforceRetention_eq _ hdir hmeta
          (fun f hf => (hanswers f hf).2) incomingBytes budgetBytes
        rw [byName_of_ascending hfiles, filter_drop count (nodup_of_ascending hfiles)] at hkept
        rw [hkept]
        refine ⟨List.drop_suffix count files, fun hne hnil => ?_⟩
        have hlength := List.length_pos_iff.mpr hne
        have hle := List.drop_eq_nil_iff.mp hnil
        omega
      · rw [enforceRetention_of_le hlist hle]
        exact oldestFirst_refl files

/-- While the clock runs ahead, the oldest files go first. -/
theorem retained_oldestFirst (hw : Ascending w.files) (h : ClockAhead config w t) :
    OldestFirst w.files (w.retained config t) := by
  rw [Writer.retained]
  split_ifs with hrotate
  · exact enforceRetention_oldestFirst hw (h hrotate).1
  · exact oldestFirst_refl _

/-- A segment that is started behind no other one is the last by name. -/
theorem ascending_openFile {captureUs : UInt64} (h : Ascending files)
    (hahead : ∀ f ∈ files, ∃ c ≤ captureUs, f.name = segmentName c) :
    Ascending (openFile files (segmentName captureUs)) := by
  by_cases hmem : segmentName captureUs ∈ names files
  · rwa [openFile_of_mem hmem]
  · rw [openFile_of_notMem hmem, Ascending, names, List.map_append, List.pairwise_append]
    refine ⟨h, List.pairwise_singleton _ _, ?_⟩
    intro name hname new hnew
    obtain ⟨f, hf, rfl⟩ := List.mem_map.mp hname
    obtain rfl := List.mem_singleton.mp hnew
    obtain ⟨c, hc, hfc⟩ := hahead f hf
    rw [hfc]
    refine segmentName_lt_segmentName (UInt64.lt_of_le_of_ne hc ?_)
    rintro rfl
    exact hmem (hfc ▸ List.mem_map_of_mem hf)

/-- Appending leaves the names alone. -/
theorem names_append (w : Writer) (t : Turn) : names (w.append t).files = names w.files := by
  rw [Writer.append]
  split
  · rfl
  · split <;> exact names_appendTo _ _ _

/-- A step that meets the condition keeps the names ascending. -/
theorem ascending_writeRecord (hw : Ascending w.files) (h : ClockAhead config w t) :
    Ascending (w.writeRecord config t).files := by
  have hkept := retained_oldestFirst hw h
  rw [Writer.writeRecord]
  split_ifs with hrotate
  · rw [Ascending, names_append, Writer.create]
    split_ifs with hcreate
    · exact ascending_openFile (hw.of_suffix hkept.1)
        fun f hf => (h hrotate).2 hcreate f (hkept.subset hf)
    · exact hw.of_suffix hkept.1
  · rwa [Ascending, names_append]

end

/-- As long as the wall clock is not behind the segments, retention deletes the oldest
ones first. -/
theorem oldestFirst_of_clockAhead (config : CategoryConfig) (files : List SegmentFile)
    (turns : List Turn) (hfiles : Ascending files)
    (h : Along (Writer.writeRecord config) (ClockAhead config) (Writer.start files) turns) :
    Along (Writer.writeRecord config) (fun w t => OldestFirst w.files (w.retained config t))
      (Writer.start files) turns :=
  along_of_inv (I := fun w => Ascending w.files) (fun _ _ => ascending_writeRecord)
    (fun _ _ => retained_oldestFirst) turns hfiles h

/-- A record that is not older than any file's time is ahead of them. -/
theorem clockAhead_tenBytesAt {w : Writer} {captureUs : UInt64} (earlier : List UInt64)
    (h : ∀ f ∈ w.files, ∃ c ∈ earlier, c ≤ captureUs ∧ f.name = segmentName c) :
    ClockAhead roomForOne w (tenBytesAt captureUs) := by
  refine fun _ => ⟨fun _ _ _ f _ => ⟨rfl, rfl⟩, fun _ f hf => ?_⟩
  obtain ⟨c, -, hc, hname⟩ := h f hf
  exact ⟨c, hc, hname⟩

/-- Three records with growing times. -/
theorem oldestFirst_upwards :
    Along (Writer.writeRecord roomForOne)
      (fun w t => OldestFirst w.files (w.retained roomForOne t)) (Writer.start [])
      [tenBytesAt 1000, tenBytesAt 2000, tenBytesAt 3000] :=
  oldestFirst_of_clockAhead roomForOne [] _ (by decide)
    ⟨clockAhead_tenBytesAt [] (by decide), clockAhead_tenBytesAt [1000] (by decide),
      clockAhead_tenBytesAt [1000, 2000] (by decide), trivial⟩

/-- The clock is set back between the first record and the second.  The third record
makes retention delete the newest segment and keep the oldest one. -/
theorem not_oldestFirst_setBack :
    ¬ ∀ (config : CategoryConfig) (files : List SegmentFile) (turns : List Turn),
      Ascending files →
        Along (Writer.writeRecord config) (fun w t => OldestFirst w.files (w.retained config t))
          (Writer.start files) turns := by
  intro h
  have hrun := h roomForOne [] [tenBytesAt 2000, tenBytesAt 1000, tenBytesAt 3000] (by decide)
  exact absurd hrun (by decide)

end RoboTele
