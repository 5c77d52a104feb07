import RoboTele.Recording.DiskBound
import RoboTele.Recording.RetentionOrder
import RoboTele.Recording.Shutdown
import Mathlib.Logic.Function.Basic

/-!
# Reading a recording back

`Writer` counts bytes.  `Disk` has the bytes: what every segment holds besides what the writer
knows of it.  A replay reads the segments in the order of their names and takes the records off
each of them.

As long as the disk does what it should and the wall clock is not behind the segments, a replay
returns the records that were written, in order, without those of the segments that retention
deleted, and these are the first ones.  A crash cuts off the newest segment, and only records of
that one are missing then (`replay_exact`).  So what is read back stands together in the list of
the records that were pushed and that no full ring lost (`recording_exact`).
-/

namespace RoboTele

open Runs

/-- The record as it is read back. -/
def Record.entry (r : Record) : RecordHeader × Bytes :=
  ({ captureUs := r.captureUs, controlSource := r.controlSource }, r.payload)

/-- The record of a turn, as it is read back. -/
def Turn.entry (t : Turn) : RecordHeader × Bytes := t.record.entry

/-- The bytes of the record that reach the file. -/
def Turn.landed (t : Turn) : Bytes :=
  match t.io.writeFails with
  | none => t.framed
  | some landed => t.framed.take landed

/-- All that `decode_records` yields. -/
def decodeRecords (buf : Bytes) : List (RecordHeader × Bytes) :=
  (RecordIter.recordFrames.drainAll buf).1

/-- The writer with the segment that the record goes to. -/
def Writer.opened (config : CategoryConfig) (w : Writer) (t : Turn) : Writer :=
  if w.needsRotate config t.now then create (w.retained config t) t else w

/-- The directory of a category, and what its files hold. -/
structure Disk where
  writer : Writer
  contents : Bytes → Bytes

namespace Disk

/-- A new directory. -/
def empty : Disk where
  writer := .start []
  contents _ := []

/-- Without the segments that make room for the record. -/
def retain (config : CategoryConfig) (d : Disk) (t : Turn) : Disk where
  writer := d.writer.opened config t
  contents name :=
    if (names (d.writer.retained config t)).contains name then d.contents name else []

/-- The record at the end of the open segment. -/
def append (d : Disk) (t : Turn) : Disk where
  writer := d.writer.append t
  contents :=
    match d.writer.segment with
    | some seg => Function.update d.contents seg.name (d.contents seg.name ++ t.landed)
    | none => d.contents

/-- Take up one record. -/
def writeRecord (config : CategoryConfig) (d : Disk) (t : Turn) : Disk :=
  (d.retain config t).append t

/-- What was not flushed is lost: the first `n` bytes of the open segment are left. -/
def crash (n : Nat) (d : Disk) : Disk :=
  match d.writer.segment with
  | some seg =>
      { d with contents := Function.update d.contents seg.name ((d.contents seg.name).take n) }
  | none => d

/-- The records of all segments, in the order of the segments' names. -/
def readBack (d : Disk) : List (RecordHeader × Bytes) :=
  (byName d.writer.files).flatMap fun f => decodeRecords (d.contents f.name)

end Disk

/-- The disk does what it should, and the wall clock is not behind the segments. -/
def KeepsUp (config : CategoryConfig) (w : Writer) (t : Turn) : Prop :=
  t.io.Succeeds ∧ ClockAhead config w t

section

variable {config : CategoryConfig} {w : Writer} {t : Turn}

/-- The writer of the disk is the writer. -/
theorem Disk.writer_writeRecord (config : CategoryConfig) (d : Disk) (t : Turn) :
    (d.writeRecord config t).writer = d.writer.writeRecord config t := by
  rw [Disk.writeRecord, Disk.append, Disk.retain, Writer.opened, Writer.writeRecord]
  split <;> rfl

/-! ## One segment -/

theorem length_encodeRecords (records : List (RecordHeader × Bytes)) :
    (encodeRecords records).length =
      (records.map fun r => (encodeRecord r.1 r.2).length).sum := by
  rw [encodeRecords, List.length_flatten, List.map_map]
  rfl

/-- A segment cut off anywhere yields the records that are whole in it. -/
theorem decodeRecords_take {records : List (RecordHeader × Bytes)}
    (hshort : ∀ r ∈ records, r.2.length < 2 ^ 32) (n : Nat) :
    decodeRecords ((encodeRecords records).take n) = wholeWithin records n := by
  obtain ⟨left, hleft⟩ := RecordIter.recordFrames_framed.drainAll_frames records
    ((encodeRecords records).take n) hshort (List.take_prefix _ _)
  rw [decodeRecords, hleft, List.map_id, wholeWithin, List.length_take]
  rcases Nat.le_total n (encodeRecords records).length with hle | hle
  · rw [Nat.min_eq_left hle]
  · have hsum := length_encodeRecords records
    rw [Nat.min_eq_right hle, Framing.complete_of_sum_le _ hsum.ge,
      Framing.complete_of_sum_le _ (hsum ▸ hle)]

/-- Encoded records decode to themselves. -/
theorem decodeRecords_encodeRecords {records : List (RecordHeader × Bytes)}
    (hshort : ∀ r ∈ records, r.2.length < 2 ^ 32) :
    decodeRecords (encodeRecords records) = records := by
  have htake := decodeRecords_take hshort (encodeRecords records).length
  rwa [List.take_length, wholeWithin,
    Framing.complete_of_sum_le _ (length_encodeRecords records).ge] at htake

theorem encodeRecords_concat (records : List (RecordHeader × Bytes)) (r : RecordHeader × Bytes) :
    encodeRecords (records ++ [r]) = encodeRecords records ++ encodeRecord r.1 r.2 := by
  rw [encodeRecords, encodeRecords, List.map_append, List.flatten_append, List.map_singleton,
    List.flatten_singleton]

/-! ## What a disk holds -/

/-- A segment and the records that were written to it. -/
abbrev Held := Bytes × List (RecordHeader × Bytes)

/-- The file of a segment that holds these records. -/
def Held.file (s : Held) : SegmentFile where
  name := s.1
  size := (encodeRecords s.2).length

/-- The segments of the disk are these, the last one of them is open, and sizes count what is
held. -/
structure Disk.Holds (segs : List Held) (d : Disk) : Prop where
  files : d.writer.files = segs.map Held.file
  contents : ∀ s ∈ segs, d.contents s.1 = encodeRecords s.2
  ascending : Ascending d.writer.files
  isOpen : ∀ seg, d.writer.segment = some seg → ∃ s, segs.getLast? = some s ∧ s.1 = seg.name

/-- The records that segments hold. -/
def heldRecords (segs : List Held) : List (RecordHeader × Bytes) := segs.flatMap Prod.snd

/-- A new segment adds its records. -/
theorem heldRecords_concat (segs : List Held) (s : Held) :
    heldRecords (segs ++ [s]) = heldRecords segs ++ s.2 := by
  rw [heldRecords, heldRecords, List.flatMap_append, List.flatMap_singleton]

namespace Disk

variable {d : Disk} {segs : List Held}

theorem holds_empty : Holds [] empty where
  files := rfl
  contents _ hs := absurd hs List.not_mem_nil
  ascending := List.Pairwise.nil
  isOpen _ hseg := by cases hseg

/-- Of segments in the order of their names, the last one is at or behind a name that none of
them is before. -/
theorem getLast?_of_mem {captureUs : UInt64} {kept : List Held}
    (hascending : Ascending (kept.map Held.file))
    (hahead : ∀ f ∈ kept.map Held.file, ∃ c ≤ captureUs, f.name = segmentName c)
    (hmem : segmentName captureUs ∈ names (kept.map Held.file)) :
    ∃ s, kept.getLast? = some s ∧ s.1 = segmentName captureUs := by
  obtain ⟨init, s, rfl⟩ : ∃ init s, kept = init ++ [s] := by
    rcases List.eq_nil_or_concat' kept with rfl | h
    · exact absurd hmem List.not_mem_nil
    · exact h
  refine ⟨s, List.getLast?_concat .., ?_⟩
  rw [names, List.map_append, List.map_append, List.map_singleton, List.map_singleton] at hmem
  rcases List.mem_append.mp hmem with hmem | hmem
  · -- an earlier one would be before the last, whose name is not later
    rw [Ascending, names, List.map_append, List.map_append, List.pairwise_append] at hascending
    have hlt := hascending.2.2 _ hmem s.1 List.mem_cons_self
    obtain ⟨c, hc, hname⟩ := hahead s.file (List.mem_map_of_mem (List.mem_append_right _
      List.mem_cons_self))
    have hname' : s.1 = segmentName c := hname
    by_cases heq : c = captureUs
    · rw [hname', heq]
    · have hgt := segmentName_lt_segmentName (UInt64.lt_of_le_of_ne hc heq)
      rw [← hname'] at hgt
      exact absurd (List.lt_trans hgt hlt) (List.lt_irrefl _)
  · exact (List.mem_singleton.mp hmem).symm

/-- Segments that are still there hold what they held. -/
theorem contents_retain {files : List SegmentFile} {kept : List Held}
    (hfiles : files = kept.map Held.file)
    (hcontents : ∀ s ∈ kept, d.contents s.1 = encodeRecords s.2) :
    ∀ s ∈ kept,
      (if (names files).contains s.1 then d.contents s.1 else []) = encodeRecords s.2 := by
  intro s hs
  have hmem : s.1 ∈ names files := by
    rw [hfiles, names, List.map_map]
    exact List.mem_map_of_mem (f := SegmentFile.name ∘ Held.file) hs
  rw [if_pos (List.contains_iff_mem.mpr hmem)]
  exact hcontents s hs

/-- The record finds an open segment, and what retention deleted held the first records. -/
theorem Holds.retain (h : d.Holds segs) (ht : KeepsUp config d.writer t) :
    ∃ lost kept, heldRecords segs = lost ++ heldRecords kept ∧ Holds kept (d.retain config t) ∧
      ∃ seg, (d.retain config t).writer.segment = some seg := by
  cases hrotate : d.writer.needsRotate config t.now with
  | false =>
      have hsame : (d.retain config t).writer = d.writer := by
        rw [Disk.retain, Writer.opened, if_neg (by rw [hrotate]; exact Bool.false_ne_true)]
      have hkept : d.writer.retained config t = d.writer.files := by
        rw [Writer.retained, if_neg (by rw [hrotate]; exact Bool.false_ne_true)]
      refine ⟨[], segs, rfl, ⟨hsame ▸ h.files, ?_, hsame ▸ h.ascending, hsame ▸ h.isOpen⟩, ?_⟩
      · rw [Disk.retain, hkept]
        exact contents_retain h.files h.contents
      · rw [hsame]
        cases hsegment : d.writer.segment with
        | none =>
            rw [Writer.needsRotate, hsegment] at hrotate
            cases hrotate
        | some seg => exact ⟨seg, rfl⟩
  | true =>
      have holdest := retained_oldestFirst h.ascending ht.2
      obtain ⟨front, hfront⟩ := holdest.1
      rw [h.files] at hfront
      obtain ⟨gone, kept, rfl, -, hkept⟩ := List.map_eq_append_iff.mp hfront.symm
      have hcontents := fun s hs => h.contents s (List.mem_append_right gone hs)
      have hascending : Ascending (kept.map Held.file) :=
        hkept ▸ h.ascending.of_suffix holdest.1
      have hahead : ∀ f ∈ kept.map Held.file,
          ∃ c ≤ t.record.captureUs, f.name = segmentName c := fun f hf =>
        (ht.2 hrotate).2 ht.1.createFile f (holdest.subset (hkept ▸ hf))
      have hopened : d.writer.opened config t =
          { segment := some
              { name := segmentName t.record.captureUs, sizeBytes := 0, openedAt := t.openedAt }
            files := openFile (kept.map Held.file) (segmentName t.record.captureUs) } := by
        rw [Writer.opened, if_pos hrotate, Writer.create, if_pos ht.1.createFile, hkept]
      refine ⟨heldRecords gone, ?_⟩
      by_cases hmem : segmentName t.record.captureUs ∈ names (kept.map Held.file)
      · rw [openFile_of_mem hmem] at hopened
        refine ⟨kept, List.flatMap_append, ⟨?_, ?_, ?_, ?_⟩, _, congrArg Writer.segment hopened⟩
        · rw [Disk.retain, hopened]
        · exact contents_retain hkept.symm hcontents
        · rw [Disk.retain, hopened]
          exact hascending
        · rw [Disk.retain, hopened]
          rintro seg ⟨⟩
          exact getLast?_of_mem hascending hahead hmem
      · have hascending' := ascending_openFile hascending hahead
        rw [openFile_of_notMem hmem] at hopened hascending'
        refine ⟨kept ++ [(segmentName t.record.captureUs, [])], ?_, ⟨?_, ?_, ?_, ?_⟩, _,
          congrArg Writer.segment hopened⟩
        · rw [heldRecords_concat, List.append_nil]
          exact List.flatMap_append
        · rw [Disk.retain, hopened, List.map_append]
          rfl
        · refine List.forall_mem_append.mpr ⟨contents_retain hkept.symm hcontents, ?_⟩
          refine List.forall_mem_singleton.mpr (if_neg ?_)
          rw [← hkept]
          exact fun hcontains => hmem (List.contains_iff_mem.mp hcontains)
        · rw [Disk.retain, hopened]
          exact hascending'
        · rw [Disk.retain, hopened]
          rintro seg ⟨⟩
          exact ⟨_, List.getLast?_concat .., rfl⟩

/-- The record is at the end of the newest segment. -/
theorem Holds.append (h : d.Holds segs) (hio : t.io.writeFails = none) {seg : OpenSegment}
    (hseg : d.writer.segment = some seg) :
    ∃ segs', heldRecords segs' = heldRecords segs ++ [t.entry] ∧ Holds segs' (d.append t) := by
  obtain ⟨s, hlast, hname⟩ := h.isOpen seg hseg
  obtain ⟨closed, rfl⟩ := List.getLast?_eq_some_iff.mp hlast
  obtain ⟨name, records⟩ := s
  obtain rfl : name = seg.name := hname
  have hfiles := h.files
  rw [List.map_append, List.map_singleton] at hfiles
  have hnew : seg.name ∉ names (closed.map Held.file) := by
    have hnodup := nodup_of_ascending h.ascending
    rw [hfiles, names, List.map_append, List.map_singleton] at hnodup
    exact fun hmem => List.disjoint_of_nodup_append hnodup hmem List.mem_cons_self
  have hwriter : (d.writer.append t).files =
      (closed ++ [(seg.name, records ++ [t.entry])]).map Held.file := by
    rw [Writer.append, hseg, hio]
    dsimp only
    rw [hfiles, Held.file, appendTo_concat hnew, List.map_append, List.map_singleton, Held.file,
      encodeRecords_concat, List.length_append]
    rfl
  refine ⟨closed ++ [(seg.name, records ++ [t.entry])], ?_, hwriter, ?_, ?_, ?_⟩
  · rw [heldRecords_concat, heldRecords_concat, List.append_assoc]
  · have hcontents : (d.append t).contents =
        Function.update d.contents seg.name (d.contents seg.name ++ t.landed) := by
      rw [Disk.append, hseg]
    rw [hcontents]
    refine List.forall_mem_append.mpr ⟨fun s hs => ?_, List.forall_mem_singleton.mpr ?_⟩
    · have hne : s.1 ≠ seg.name := by
        rintro heq
        refine hnew (heq ▸ ?_)
        rw [names, List.map_map]
        exact List.mem_map_of_mem (f := SegmentFile.name ∘ Held.file) hs
      rw [Function.update_of_ne hne]
      exact h.contents s (List.mem_append_left _ hs)
    · rw [Function.update_self, h.contents _ (List.mem_append_right _ List.mem_cons_self),
        encodeRecords_concat, Turn.landed, hio]
      rfl
  · have hascending := h.ascending
    rw [Ascending] at hascending ⊢
    rwa [Disk.append, names_append]
  · rw [Disk.append, Writer.append, hseg, hio]
    rintro seg' ⟨⟩
    exact ⟨_, List.getLast?_concat .., rfl⟩

/-! ## Runs -/

/-- The disk holds the last ones of these records, and the newest of them. -/
def Keeps (past : List (RecordHeader × Bytes)) (d : Disk) : Prop :=
  ∃ lost segs, past = lost ++ heldRecords segs ∧ Holds segs d ∧
    (past ≠ [] → heldRecords segs ≠ [] ∧ d.writer.segment ≠ none)

/-- A record that is written is held in the newest segment. -/
theorem Keeps.writeRecord {past : List (RecordHeader × Bytes)} (h : Keeps past d)
    (ht : KeepsUp config d.writer t) : Keeps (past ++ [t.entry]) (d.writeRecord config t) := by
  obtain ⟨lost, segs, rfl, hholds, -⟩ := h
  obtain ⟨gone, kept, hgone, hretained, seg, hseg⟩ := hholds.retain ht
  obtain ⟨segs', hsegs', happended⟩ := hretained.append ht.1.writeFails hseg
  refine ⟨lost ++ gone, segs', ?_, happended, fun _ => ⟨?_, ?_⟩⟩
  · rw [hsegs', hgone, List.append_assoc, List.append_assoc, List.append_assoc]
  · rw [hsegs']
    exact List.append_ne_nil_of_right_ne_nil _ (List.cons_ne_nil _ _)
  · rw [Disk.writeRecord, Disk.append, Writer.append, hseg, ht.1.writeFails]
    exact Option.some_ne_none _

/-- A run of writes keeps what is held. -/
theorem Keeps.exec : ∀ {past : List (RecordHeader × Bytes)} {d : Disk} (turns : List Turn),
    Keeps past d →
    Along (Disk.writeRecord config) (fun d t => KeepsUp config d.writer t) d turns →
    Keeps (past ++ turns.map Turn.entry) (Runs.exec (Disk.writeRecord config) d turns)
  | past, d, [], h, _ => by
      rw [List.map_nil, List.append_nil]
      exact h
  | past, d, t :: turns, h, halong => by
      have hrest := Keeps.exec turns (h.writeRecord halong.1) halong.2
      rwa [List.append_assoc] at hrest

/-- Reading back decodes the segments in the order of their names. -/
theorem readBack_of_files {files : List SegmentFile} (hfiles : d.writer.files = files)
    (hascending : Ascending files) :
    d.readBack = files.flatMap fun f => decodeRecords (d.contents f.name) := by
  rw [readBack, hfiles, byName_of_ascending hascending]

/-- What the segments hold is read back in order. -/
theorem Holds.readBack (h : d.Holds segs)
    (hshort : ∀ r ∈ heldRecords segs, r.2.length < 2 ^ 32) :
    d.readBack = heldRecords segs := by
  rw [readBack_of_files rfl h.ascending, h.files, List.flatMap_map, heldRecords]
  refine List.flatMap_congr fun s hs => ?_
  change decodeRecords (d.contents s.1) = s.2
  rw [h.contents s hs]
  exact decodeRecords_encodeRecords fun r hr => hshort r (List.mem_flatMap_of_mem hs hr)

/-- A crash takes records off the open segment only. -/
theorem Holds.readBack_crash (h : d.Holds segs)
    (hshort : ∀ r ∈ heldRecords segs, r.2.length < 2 ^ 32) {seg : OpenSegment}
    (hseg : d.writer.segment = some seg) (n : Nat) :
    ∃ before newest, heldRecords segs = before ++ newest ∧
      d.contents seg.name = encodeRecords newest ∧
      (d.crash n).readBack = before ++ wholeWithin newest n := by
  obtain ⟨s, hlast, hname⟩ := h.isOpen seg hseg
  obtain ⟨closed, rfl⟩ := List.getLast?_eq_some_iff.mp hlast
  obtain ⟨name, newest⟩ := s
  obtain rfl : name = seg.name := hname
  have hnewest := h.contents _ (List.mem_append_right closed List.mem_cons_self)
  have hcrash : d.crash n =
      { d with
        contents := Function.update d.contents seg.name ((d.contents seg.name).take n) } := by
    rw [crash, hseg]
  rw [heldRecords_concat] at hshort ⊢
  refine ⟨heldRecords closed, newest, rfl, hnewest, ?_⟩
  have hfiles := h.files
  rw [List.map_append, List.map_singleton] at hfiles
  have hnodup := nodup_of_ascending h.ascending
  rw [hfiles, names, List.map_append, List.map_singleton] at hnodup
  have hfiles' : (d.crash n).writer.files = d.writer.files := by rw [hcrash]
  rw [readBack_of_files hfiles' h.ascending, hcrash, hfiles, List.flatMap_append,
    List.flatMap_singleton, List.flatMap_map, heldRecords]
  refine congrArg₂ _ (List.flatMap_congr fun s hs => ?_) ?_
  · have hne : s.1 ≠ seg.name := by
      rintro heq
      refine List.disjoint_of_nodup_append hnodup ?_ (List.mem_singleton_self _)
      have hmem := List.mem_map_of_mem (f := SegmentFile.name ∘ Held.file) hs
      rw [List.map_map]
      exact heq ▸ hmem
    change decodeRecords (Function.update d.contents seg.name _ s.1) = s.2
    rw [Function.update_of_ne hne, h.contents s (List.mem_append_left _ hs)]
    exact decodeRecords_encodeRecords fun r hr =>
      hshort r (List.mem_append_left _ (List.mem_flatMap_of_mem hs hr))
  · change decodeRecords (Function.update d.contents seg.name _ seg.name) = _
    rw [Function.update_self, hnewest]
    exact decodeRecords_take (fun r hr => hshort r (List.mem_append_right _ hr)) n

end Disk

/-- What is promised of a replay. -/
structure Disk.ReplaysWritten (written : List (RecordHeader × Bytes)) (d : Disk) : Prop where
  /-- The records that are missing were written before all that are read back. -/
  inOrder : d.readBack <:+ written
  newest : written ≠ [] → d.readBack ≠ []
  /-- A crash leaves the records that are whole in the newest segment, and all before them. -/
  crash : ∀ seg, d.writer.segment = some seg → ∀ n, ∃ before newest,
    d.readBack = before ++ newest ∧ d.contents seg.name = encodeRecords newest ∧
      (d.crash n).readBack = before ++ wholeWithin newest n

/-- A replay returns the records that were written, in order, without those of the segments that
were deleted first. -/
theorem replay_exact (config : CategoryConfig) (turns : List Turn)
    (hshort : ∀ t ∈ turns, t.record.payload.length < 2 ^ 32)
    (h : Along (Disk.writeRecord config) (fun d t => KeepsUp config d.writer t) .empty turns) :
    (exec (Disk.writeRecord config) .empty turns).ReplaysWritten (turns.map Turn.entry) := by
  have hkeeps : Disk.Keeps [] .empty := ⟨[], [], rfl, Disk.holds_empty, fun hne => absurd rfl hne⟩
  obtain ⟨lost, segs, hwritten, hholds, hnewest⟩ := hkeeps.exec turns h
  rw [List.nil_append] at hwritten hnewest
  have hshort' : ∀ r ∈ heldRecords segs, r.2.length < 2 ^ 32 := by
    intro r hr
    have hmem : r ∈ turns.map Turn.entry := hwritten ▸ List.mem_append_right lost hr
    obtain ⟨t, ht, rfl⟩ := List.mem_map.mp hmem
    exact hshort t ht
  have hread := hholds.readBack hshort'
  refine ⟨?_, fun hne => hread ▸ (hnewest hne).1, fun seg hseg n => ?_⟩
  · rw [hread, hwritten]
    exact List.suffix_append _ _
  · rw [hread]
    exact hholds.readBack_crash hshort' hseg n

/-- What is promised of a recording, from the ring to the replay. -/
structure CategoryRun.ReadBack (s : CategoryRun) (d : Disk) : Prop where
  /-- What is read back stands together among the records that no full ring lost. -/
  together : d.readBack <:+: s.survivors.map fun e => e.record.entry
  inOrder : s.survivors.Sublist s.pushed
  /-- A record that a full ring lost is counted. -/
  counted : (∀ e ∈ s.pushed, e ∈ s.survivors ∨ e ∈ s.evicted) ∧
    s.state.dropped = s.evicted.length
  replays : d.ReplaysWritten (s.written.map fun e => e.record.entry)

/-- Whatever the threads do, a replay of what the writer has written returns pushed records only,
each of them once and in the order of the pushes. -/
theorem recording_exact (config : CategoryConfig) (capacity : Nat)
    (events : List CategoryRun.Event) (turns : List Turn)
    (hturns : turns.map Turn.record =
      (exec CategoryRun.step (.start capacity) events).written.map Enqueued.record)
    (hshort : ∀ t ∈ turns, t.record.payload.length < 2 ^ 32)
    (h : Along (Writer.writeRecord config) (KeepsUp config) (.start []) turns) :
    (exec CategoryRun.step (.start capacity) events).ReadBack
      (exec (Disk.writeRecord config) .empty turns) := by
  have hconsistent := exec_inv (I := CategoryRun.Consistent) (fun _ e hs => hs.step e) events
    (CategoryRun.consistent_start capacity)
  have hentries : turns.map Turn.entry =
      (exec CategoryRun.step (.start capacity) events).written.map fun e => e.record.entry := by
    have hmap := congrArg (List.map Record.entry) hturns
    rwa [List.map_map, List.map_map] at hmap
  have hreplays := replay_exact config turns hshort
    ((along_comap (Disk.writer_writeRecord config) turns).mpr h)
  rw [hentries] at hreplays
  refine ⟨?_, List.filter_sublist, ⟨fun e he => ?_, hconsistent.dropped_eq⟩, hreplays⟩
  · rw [hconsistent.survivors_eq, List.map_append, List.map_append]
    exact hreplays.inOrder.isInfix.trans
      ((List.prefix_append _ _).trans (List.prefix_append _ _)).isInfix
  · by_cases hevicted : e ∈ (exec CategoryRun.step (.start capacity) events).evicted
    · exact .inr hevicted
    · exact .inl (List.mem_filter.mpr ⟨he, decide_eq_true hevicted⟩)

/-- The events of two records that are pushed and written. -/
def twoWritten : List CategoryRun.Event :=
  [.push (tenBytesAt 1000).record, .push (tenBytesAt 2000).record, .writer, .writer, .writer,
    .writer]

/-- Two records, and room for one segment. -/
theorem recording_exact_twoWritten :
    (exec CategoryRun.step (.start 64) twoWritten).ReadBack
      (exec (Disk.writeRecord roomForOne) .empty [tenBytesAt 1000, tenBytesAt 2000]) :=
  recording_exact roomForOne 64 twoWritten _ (by decide) (by decide)
    ⟨⟨FileIo.ok_succeeds, clockAhead_tenBytesAt [] (by decide)⟩,
      ⟨FileIo.ok_succeeds, clockAhead_tenBytesAt [1000] (by decide)⟩, trivial⟩

end

end RoboTele
