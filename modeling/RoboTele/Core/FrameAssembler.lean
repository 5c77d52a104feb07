import RoboTele.Core.Sensor
import RoboTele.Tables.Ordered

/-!
# The frame assembler

The assembler keeps a pending frame per sequence number.  A slice opens its
frame or joins it.  A frame is emitted when its last slice arrives, when its
deadline has passed, or when it is the oldest of more than `maxPending`.
Emitting a frame drops every older one, and from then on slices for it or for
an older one are late.

The source takes an entry out that it expects to be there, in two places, and
indexes the slots of an entry in a third.  `onSlice` and `poll` are `none` where
it would panic.
-/

namespace RoboTele

open Slots Tables

/-- How frames ended, and what became of the slices that did not help. -/
structure AssemblyStats where
  framesComplete : Nat
  framesPartial : Nat
  framesSuperseded : Nat
  slicesLate : Nat
  slicesDuplicate : Nat
  slicesInconsistent : Nat
deriving DecidableEq

/-- Nothing is counted yet. -/
def AssemblyStats.zero : AssemblyStats where
  framesComplete := 0
  framesPartial := 0
  framesSuperseded := 0
  slicesLate := 0
  slicesDuplicate := 0
  slicesInconsistent := 0

/-- A frame with slices missing, and when its first slice came. -/
structure FrameAssembler.Pending where
  frame : AssembledFrame
  firstSeenUs : Nat
deriving DecidableEq

/-- The frames of one sensor that are not whole yet, and the last one given out. -/
structure FrameAssembler where
  deadlineUs : Nat
  maxPending : Nat
  pending : AList fun _ : UInt32 => FrameAssembler.Pending
  lastEmitted : Option UInt32
  stats : AssemblyStats

namespace FrameAssembler

/-- A frame without slices, as the first slice opens it. -/
def Pending.opened (header : SliceHeader) (nowUs : Nat) : Pending where
  frame :=
    { sensorId := header.sensorId
      frameSeq := header.frameSeq
      captureTimeUs := header.captureTimeUs
      slices := List.replicate header.sliceCount.toNat none }
  firstSeenUs := nowUs

/-- The frame with one more slice. -/
def Pending.store (p : Pending) (idx : Nat) (payload : Bytes) : Pending :=
  { p with frame := { p.frame with slices := fill p.frame.slices idx payload } }

/-- Nothing is pending. -/
def new (deadlineUs maxPending : Nat) : FrameAssembler where
  deadlineUs := deadlineUs
  maxPending := max maxPending 1
  pending := ∅
  lastEmitted := none
  stats := .zero

/-! ## Emitting -/

/-- A frame was given out. -/
def countEmitted (stats : AssemblyStats) (frame : AssembledFrame) : AssemblyStats :=
  if frame.isComplete then { stats with framesComplete := stats.framesComplete + 1 }
  else { stats with framesPartial := stats.framesPartial + 1 }

/-- Frames were overtaken by one that was given out. -/
def countSuperseded (stats : AssemblyStats) (n : Nat) : AssemblyStats :=
  { stats with framesSuperseded := stats.framesSuperseded + n }

/-- The frames older than `seq` that are left once it is taken out. -/
def older (a : FrameAssembler) (seq : UInt32) : List UInt32 :=
  (ascending (a.pending.erase seq)).filter (· < seq)

/-- The assembler once `frame` is emitted for `seq`. -/
def advance (a : FrameAssembler) (seq : UInt32) (frame : AssembledFrame) : FrameAssembler :=
  { a with
    pending := eraseAll (a.pending.erase seq) (a.older seq)
    lastEmitted := some seq
    stats := countSuperseded (countEmitted a.stats frame) (a.older seq).length }

/-- Give a frame out, and forget the older ones. -/
def emit (a : FrameAssembler) (seq : UInt32) : Option (FrameAssembler × AssembledFrame) :=
  match a.pending.lookup seq with
  | none => none
  | some entry => some (a.advance seq entry.frame, entry.frame)

/-- Emit these, but for those that an earlier one of them superseded. -/
def emitAll (a : FrameAssembler) : List UInt32 → Option (FrameAssembler × List AssembledFrame)
  | [] => some (a, [])
  | seq :: seqs =>
      if seq ∈ a.pending then
        (a.emit seq).bind fun (a, frame) =>
          (emitAll a seqs).map fun (a, frames) => (a, frame :: frames)
      else a.emitAll seqs

/-! ## Calls -/

/-- The frame was emitted or superseded. -/
def IsLate (a : FrameAssembler) (seq : UInt32) : Prop := ∃ last ∈ a.lastEmitted, seq ≤ last

instance (a : FrameAssembler) (seq : UInt32) : Decidable (a.IsLate seq) :=
  inferInstanceAs (Decidable (∃ last ∈ a.lastEmitted, seq ≤ last))

/-- The entry of a header's frame, opened if it is not there. -/
def entry (a : FrameAssembler) (header : SliceHeader) (nowUs : Nat) : Pending :=
  (a.pending.lookup header.frameSeq).getD (.opened header nowUs)

/-- Keep a frame for later slices. -/
def put (a : FrameAssembler) (seq : UInt32) (p : Pending) : FrameAssembler :=
  { a with pending := a.pending.insert seq p }

/-- What is ready once a slice of the frame `seq` is stored. -/
def ready (a : FrameAssembler) (seq : UInt32) (frame : AssembledFrame) :
    Option (FrameAssembler × List AssembledFrame) :=
  if frame.isComplete then (a.emit seq).map fun (a, frame) => (a, [frame])
  else if a.maxPending < a.pending.keys.length then
    ((ascending a.pending).head?.bind a.emit).map fun (a, frame) => (a, [frame])
  else some (a, [])

/-- Feed one slice, with the frames it makes ready. -/
def onSlice (a : FrameAssembler) (header : SliceHeader) (payload : Bytes) (nowUs : Nat) :
    Option (FrameAssembler × List AssembledFrame) :=
  if a.IsLate header.frameSeq then
    some ({ a with stats := { a.stats with slicesLate := a.stats.slicesLate + 1 } }, [])
  else
    let entry := a.entry header nowUs
    let a := a.put header.frameSeq entry
    let idx := header.sliceIndex.toNat
    if entry.frame.slices.length ≠ header.sliceCount.toNat then
      some ({ a with
        stats := { a.stats with slicesInconsistent := a.stats.slicesInconsistent + 1 } }, [])
    else if entry.frame.slices.length ≤ idx then none
    else if (slot entry.frame.slices idx).isSome then
      some ({ a with
        stats := { a.stats with slicesDuplicate := a.stats.slicesDuplicate + 1 } }, [])
    else
      let entry := entry.store idx payload
      (a.put header.frameSeq entry).ready header.frameSeq entry.frame

/-- The deadline of the frame has passed. -/
def Expired (a : FrameAssembler) (nowUs : Nat) (seq : UInt32) : Prop :=
  ∃ p ∈ a.pending.lookup seq, a.deadlineUs ≤ nowUs - p.firstSeenUs

instance (a : FrameAssembler) (nowUs : Nat) (seq : UInt32) : Decidable (a.Expired nowUs seq) :=
  inferInstanceAs (Decidable (∃ p ∈ a.pending.lookup seq, a.deadlineUs ≤ nowUs - p.firstSeenUs))

/-- Emit every frame whose deadline has passed. -/
def poll (a : FrameAssembler) (nowUs : Nat) : Option (FrameAssembler × List AssembledFrame) :=
  a.emitAll ((ascending a.pending).filter (a.Expired nowUs))

/-! ## What emitting leaves -/

/-- The older frames that are pending. -/
theorem mem_older {a : FrameAssembler} {seq k : UInt32} :
    k ∈ a.older seq ↔ k ∈ a.pending ∧ k < seq := by
  rw [older, List.mem_filter, decide_eq_true_iff, mem_ascending, AList.mem_erase]
  constructor
  · rintro ⟨⟨-, hk⟩, hlt⟩
    exact ⟨hk, hlt⟩
  · rintro ⟨hk, hlt⟩
    exact ⟨⟨hlt.ne, hk⟩, hlt⟩

/-- Only the newer frames are left. -/
theorem lookup_advance (a : FrameAssembler) (seq : UInt32) (frame : AssembledFrame) (k : UInt32) :
    (a.advance seq frame).pending.lookup k = if k ≤ seq then none else a.pending.lookup k := by
  simp only [advance, lookup_eraseAll, mem_older]
  by_cases hk : k ≤ seq
  · rw [if_pos hk]
    rcases hk.eq_or_lt with rfl | hlt
    · simp
    · split_ifs with hmem
      · rfl
      · rw [AList.lookup_erase_ne hlt.ne, AList.lookup_eq_none]
        exact fun h => hmem ⟨h, hlt⟩
  · have hlt := not_le.mp hk
    rw [if_neg hk, if_neg fun h => hk h.2.le, AList.lookup_erase_ne hlt.ne']

/-- Past an emitted frame, only newer ones stay pending. -/
theorem mem_advance {a : FrameAssembler} {seq : UInt32} {frame : AssembledFrame} {k : UInt32} :
    k ∈ (a.advance seq frame).pending ↔ k ∈ a.pending ∧ seq < k := by
  rw [← AList.lookup_isSome, ← AList.lookup_isSome, lookup_advance]
  split_ifs with hk
  · simp [not_lt.mpr hk]
  · simp [not_le.mp hk]

/-- The frames that are gone are the emitted one and the superseded ones. -/
theorem length_keys_advance {a : FrameAssembler} {seq : UInt32} (hseq : seq ∈ a.pending)
    (frame : AssembledFrame) :
    (a.advance seq frame).pending.keys.length + (a.older seq).length + 1 =
      a.pending.keys.length := by
  have hnodup : (a.older seq).Nodup := (nodup_ascending _).filter _
  have hmem : ∀ k ∈ a.older seq, k ∈ a.pending.erase seq := by
    intro k hk
    obtain ⟨hk, hlt⟩ := mem_older.mp hk
    exact AList.mem_erase.mpr ⟨hlt.ne, hk⟩
  have herase := length_keys_erase hseq
  have heraseAll := length_keys_eraseAll hnodup hmem
  simp only [advance]
  omega

@[simp] theorem lastEmitted_advance (a : FrameAssembler) (seq : UInt32) (frame : AssembledFrame) :
    (a.advance seq frame).lastEmitted = some seq := rfl

@[simp] theorem maxPending_advance (a : FrameAssembler) (seq : UInt32) (frame : AssembledFrame) :
    (a.advance seq frame).maxPending = a.maxPending := rfl

/-- A pending frame can be emitted. -/
theorem emit_of_lookup {a : FrameAssembler} {seq : UInt32} {p : Pending}
    (h : a.pending.lookup seq = some p) : a.emit seq = some (a.advance seq p.frame, p.frame) := by
  rw [emit, h]

/-! ## The four ways a slice goes -/

/-- What becomes of a slice. -/
inductive Verdict where
  | stored | late | duplicate | inconsistent
deriving DecidableEq

/-- A header as it is received indexes a slot of its frame. -/
structure Slice where
  header : SliceHeader
  payload : Bytes
  inRange : header.sliceIndex < header.sliceCount

namespace Slice

/-- The frame that a slice belongs to. -/
def seq (s : Slice) : UInt32 := s.header.frameSeq

/-- A slice's place in its frame. -/
def idx (s : Slice) : Nat := s.header.sliceIndex.toNat

/-- How many slices its frame has. -/
def count (s : Slice) : Nat := s.header.sliceCount.toNat

theorem idx_lt_count (s : Slice) : s.idx < s.count := UInt16.lt_iff_toNat_lt.mp s.inRange

end Slice

/-- What becomes of this slice. -/
def verdict (a : FrameAssembler) (s : Slice) : Verdict :=
  if a.IsLate s.seq then .late
  else
    match a.pending.lookup s.seq with
    | none => .stored
    | some p =>
        if p.frame.slices.length ≠ s.count then .inconsistent
        else if (slot p.frame.slices s.idx).isSome then .duplicate
        else .stored

/-- The frame opened by this slice. -/
def opens (a : FrameAssembler) (s : Slice) : Option UInt32 :=
  if a.IsLate s.seq ∨ s.seq ∈ a.pending then none else some s.seq

end FrameAssembler

end RoboTele
