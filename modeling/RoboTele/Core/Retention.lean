import RoboTele.Core.Clock
import Mathlib.Data.List.Basic

/-!
# When a segment is full, and which ones to delete

A category's log is split into segments.  The segments that go to make room are the
first ones of the list, as few as it takes, and never the last one.
-/

namespace RoboTele

/-- When a segment is full: by its size or its age. -/
structure RotationThresholds where
  maxSegmentBytes : Nat
  maxSegmentDuration : Nat
deriving DecidableEq

/-- The open segment is to be closed. -/
def shouldRotate (currentSize : Nat) (openedAt now : Instant) (thresholds : RotationThresholds) :
    Bool :=
  decide (thresholds.maxSegmentBytes ≤ currentSize) ||
    decide (thresholds.maxSegmentDuration ≤ now.durationSince openedAt)

/-- What retention looks at in a segment. -/
structure SegmentMeta where
  sizeBytes : Nat
deriving DecidableEq

/-- The bytes of some segments. -/
def totalBytes (existing : List SegmentMeta) : Nat := (existing.map SegmentMeta.sizeBytes).sum

/-- The loop over the segments from the `i`-th on, of `len`. -/
def segmentsToDeleteFrom (len budgetBytes : Nat) : Nat → Nat → List SegmentMeta → List Nat
  | _, _, [] => []
  | i, total, seg :: rest =>
      if i + 1 = len then []
      else if total ≤ budgetBytes then []
      else i :: segmentsToDeleteFrom len budgetBytes (i + 1) (total - seg.sizeBytes) rest

/-- The segments to delete.  The sizes are those of files on one disk, so that
their sum stays below `2 ^ 64`. -/
def segmentsToDeleteForBudget (existing : List SegmentMeta) (incomingBytes budgetBytes : Nat) :
    List Nat :=
  segmentsToDeleteFrom existing.length budgetBytes 0 (totalBytes existing + incomingBytes) existing

@[simp] theorem totalBytes_nil : totalBytes [] = 0 := rfl

@[simp] theorem totalBytes_cons (seg : SegmentMeta) (rest : List SegmentMeta) :
    totalBytes (seg :: rest) = seg.sizeBytes + totalBytes rest :=
  List.sum_cons

theorem size_lt_of_shouldRotate {currentSize : Nat} {openedAt now : Instant}
    {thresholds : RotationThresholds}
    (h : shouldRotate currentSize openedAt now thresholds = false) :
    currentSize < thresholds.maxSegmentBytes := by
  rw [shouldRotate, Bool.or_eq_false_iff, decide_eq_false_iff_not] at h
  exact Nat.not_le.mp h.1

theorem segmentsToDeleteFrom_eq (len incomingBytes budgetBytes : Nat) :
    ∀ (rest : List SegmentMeta) (i : Nat), i + rest.length = len →
      ∃ count, segmentsToDeleteFrom len budgetBytes i (totalBytes rest + incomingBytes) rest =
          List.range' i count ∧
        (count = 0 ∨ count < rest.length) ∧
        (rest.length ≤ count + 1 ∨ totalBytes (rest.drop count) + incomingBytes ≤ budgetBytes)
  | [], _, _ => ⟨0, rfl, .inl rfl, .inl (Nat.zero_le _)⟩
  | seg :: rest, i, hi => by
      rw [List.length_cons] at hi
      rw [segmentsToDeleteFrom]
      split_ifs with hlast hfits
      · exact ⟨0, rfl, .inl rfl, .inl (by rw [List.length_cons]; omega)⟩
      · exact ⟨0, rfl, .inl rfl, .inr hfits⟩
      · obtain ⟨count, heq, hlt, hroom⟩ :=
          segmentsToDeleteFrom_eq len incomingBytes budgetBytes rest (i + 1) (by omega)
        have hpos : 0 < rest.length := by omega
        have htotal : totalBytes (seg :: rest) + incomingBytes - seg.sizeBytes =
            totalBytes rest + incomingBytes := by
          rw [totalBytes_cons]
          omega
        refine ⟨count + 1, ?_, .inr ?_, ?_⟩
        · rw [htotal, heq, List.range'_succ]
        · rw [List.length_cons]
          omega
        · rw [List.length_cons, List.drop_succ_cons]
          exact hroom.imp Nat.succ_le_succ id

/-- Nothing goes while all of them fit. -/
theorem segmentsToDeleteForBudget_of_le {existing : List SegmentMeta}
    {incomingBytes budgetBytes : Nat} (h : totalBytes existing + incomingBytes ≤ budgetBytes) :
    segmentsToDeleteForBudget existing incomingBytes budgetBytes = [] := by
  cases existing with
  | nil => rfl
  | cons seg rest =>
      rw [segmentsToDeleteForBudget, segmentsToDeleteFrom, if_pos h, ite_self]

/-- The first segments go, never the last one, and what is left fits unless it is
the last one alone. -/
theorem segmentsToDeleteForBudget_eq (existing : List SegmentMeta)
    (incomingBytes budgetBytes : Nat) :
    ∃ count, segmentsToDeleteForBudget existing incomingBytes budgetBytes = List.range count ∧
      (count = 0 ∨ count < existing.length) ∧
      (existing.length ≤ count + 1 ∨
        totalBytes (existing.drop count) + incomingBytes ≤ budgetBytes) := by
  obtain ⟨count, heq, hlt, hroom⟩ :=
    segmentsToDeleteFrom_eq existing.length incomingBytes budgetBytes existing 0 (Nat.zero_add _)
  exact ⟨count, by rw [segmentsToDeleteForBudget, heq, List.range_eq_range'], hlt, hroom⟩

end RoboTele
