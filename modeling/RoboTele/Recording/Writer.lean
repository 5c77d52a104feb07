import RoboTele.Recording.Segment
import RoboTele.Runs.Machine

/-!
# The writer of a category

The writer's thread takes up one record at a time.  A segment that is full, or has
been open for too long, is closed.  Old segments are then deleted until the rest fits
the budget, and the next segment is started.

Sizes count what was written, whether or not it was flushed yet.  The sizes that a
listing reports are what `FileIo` answers.
-/

namespace RoboTele

/-- One record, with this endpoint's wall clock at its capture. -/
structure Record where
  captureUs : UInt64
  controlSource : UInt8
  payload : Bytes
deriving DecidableEq

/-- What the writer reads of a category's configuration. -/
structure CategoryConfig where
  maxSegmentBytes : Nat
  maxSegmentDuration : Nat
  maxTotalBytes : Nat
deriving DecidableEq

/-- The segment being appended to, with the name of its file. -/
structure OpenSegment where
  name : Bytes
  sizeBytes : Nat
  openedAt : Instant
deriving DecidableEq

/-- A record, with the clock when the writer takes it up and when it starts a segment,
and what the file operations answer meanwhile. -/
structure Turn where
  record : Record
  now : Instant
  openedAt : Instant
  io : FileIo

namespace Turn

/-- The record as it is written. -/
def framed (t : Turn) : Bytes :=
  encodeRecord { captureUs := t.record.captureUs, controlSource := t.record.controlSource }
    t.record.payload

end Turn

/-- Delete the segment at that place of the listing. -/
def deleteAt (io : FileIo) (existing : List (Bytes × SegmentMeta)) (files : List SegmentFile)
    (idx : Nat) : List SegmentFile :=
  match existing[idx]? with
  | some entry => removeFile io files entry.1
  | none => files

/-- Delete the segments that the budget has no room for. -/
def enforceRetention (io : FileIo) (files : List SegmentFile) (incomingBytes budgetBytes : Nat) :
    List SegmentFile :=
  match listSegments io files with
  | none => files
  | some existing =>
      (segmentsToDeleteForBudget (existing.map Prod.snd) incomingBytes budgetBytes).foldl
        (deleteAt io existing) files

/-- The open segment, and the files that are there. -/
structure Writer where
  segment : Option OpenSegment
  files : List SegmentFile
deriving DecidableEq

namespace Writer

/-- A writer that starts in a directory with these segments. -/
def start (files : List SegmentFile) : Writer where
  segment := none
  files

/-- There is no open segment, or it is full. -/
def needsRotate (config : CategoryConfig) (w : Writer) (now : Instant) : Bool :=
  match w.segment with
  | some seg => shouldRotate seg.sizeBytes seg.openedAt now
      { maxSegmentBytes := config.maxSegmentBytes
        maxSegmentDuration := config.maxSegmentDuration }
  | none => true

/-- The segments that are there once room was made for the record. -/
def retained (config : CategoryConfig) (w : Writer) (t : Turn) : List SegmentFile :=
  if w.needsRotate config t.now then
    enforceRetention t.io w.files t.record.payload.length config.maxTotalBytes
  else w.files

/-- Start the segment that the record is the first of. -/
def create (files : List SegmentFile) (t : Turn) : Writer :=
  if t.io.createFile then
    { segment := some
        { name := segmentName t.record.captureUs
          sizeBytes := 0
          openedAt := t.openedAt }
      files := openFile files (segmentName t.record.captureUs) }
  else { segment := none, files }

/-- Append the record to the open segment.  A write that fails does not count. -/
def append (w : Writer) (t : Turn) : Writer :=
  match w.segment with
  | none => w
  | some seg =>
      match t.io.writeFails with
      | none =>
          { segment := some { seg with sizeBytes := seg.sizeBytes + t.framed.length }
            files := appendTo w.files seg.name t.framed.length }
      | some landed => { w with files := appendTo w.files seg.name landed }

/-- Take up one record. -/
def writeRecord (config : CategoryConfig) (w : Writer) (t : Turn) : Writer :=
  if w.needsRotate config t.now then append (create (w.retained config t) t) t
  else w.append t

end Writer

/-- A record of ten bytes, taken up while the disk does what it should. -/
def tenBytesAt (captureUs : UInt64) : Turn where
  record :=
    { captureUs
      controlSource := 0xff
      payload := List.replicate 10 0 }
  now := 0
  openedAt := 0
  io := .ok

/-- A segment is full with its first record, and there is room for one of them. -/
def roomForOne : CategoryConfig where
  maxSegmentBytes := 20
  maxSegmentDuration := 3600000000000
  maxTotalBytes := 30

/-! ## Retention -/

section

variable {io : FileIo} {files : List SegmentFile}

/-- The first segments of a listing, deleted one after the other. -/
theorem foldl_deleteAt {sorted : List SegmentFile}
    (hremove : ∀ f ∈ sorted, io.removeFile f.name = true) (sizes : SegmentFile → SegmentMeta) :
    ∀ count, count ≤ sorted.length →
      (List.range count).foldl (deleteAt io (sorted.map fun f => (f.name, sizes f))) files =
        files.filter fun f => f.name ∉ names (sorted.take count)
  | 0, _ => by simp [names]
  | count + 1, hcount => by
      have hat : sorted[count]? = some sorted[count] := List.getElem?_eq_getElem hcount
      rw [List.range_succ, List.foldl_append, foldl_deleteAt hremove sizes count (by omega),
        List.foldl_cons, List.foldl_nil, deleteAt, List.getElem?_map, hat, Option.map_some]
      simp only [removeFile, hremove _ (List.getElem_mem hcount), if_true]
      rw [List.filter_filter]
      refine List.filter_congr fun f _ => ?_
      rw [List.take_add_one, hat, Option.toList_some, names, names, List.map_append]
      simp only [List.map_cons, List.map_nil, List.mem_append, List.mem_singleton, not_or,
        Bool.decide_and, Bool.and_comm, ne_eq]

/-- Retention deletes the first segments by name, never the last one, and what is
left fits unless it is the last one alone. -/
theorem enforceRetention_eq (sizes : SegmentFile → SegmentMeta) (hdir : io.readDir = true)
    (hmeta : ∀ f ∈ files, io.metadata f = some (sizes f))
    (hremove : ∀ f ∈ files, io.removeFile f.name = true) (incomingBytes budgetBytes : Nat) :
    ∃ count, enforceRetention io files incomingBytes budgetBytes =
        files.filter (fun f => f.name ∉ names ((byName files).take count)) ∧
      (count = 0 ∨ count < files.length) ∧
      (files.length ≤ count + 1 ∨
        totalBytes (((byName files).drop count).map sizes) + incomingBytes ≤ budgetBytes) := by
  have hlength : (byName files).length = files.length := (byName_perm files).length_eq
  obtain ⟨count, hdelete, hlt, hroom⟩ := segmentsToDeleteForBudget_eq
    (((byName files).map fun f => (f.name, sizes f)).map Prod.snd) incomingBytes budgetBytes
  have hsizes : ((byName files).map fun f => (f.name, sizes f)).map Prod.snd =
      (byName files).map sizes := List.map_map
  rw [hsizes, List.length_map] at hlt hroom
  refine ⟨count, ?_, hlength ▸ hlt, ?_⟩
  · rw [enforceRetention, listSegments_eq hdir hmeta]
    dsimp only
    rw [hdelete, foldl_deleteAt
      (fun f hf => hremove f ((byName_perm files).mem_iff.mp hf)) sizes count (by omega)]
  · rwa [← List.map_drop, hlength] at hroom

end

end RoboTele
