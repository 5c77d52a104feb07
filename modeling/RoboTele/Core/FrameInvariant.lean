import RoboTele.Core.FrameAssembler
import Mathlib.Data.List.Nodup

/-!
# What the frame assembler keeps

`Collects` says what a frame holds: the first payload received for each of its
slots, under the header of its first slice.  `Base` says it of every pending
frame, and relates the pending frames to what was received, opened and emitted.
Emitting a frame keeps `Base` (`Base.advance`), at whatever point of a call it
happens.  `Settled` is what holds besides between calls.

`onSlice_cases` says what a slice does by its verdict.
-/

namespace RoboTele

open Slots Tables

namespace FrameAssembler

/-! ## What a frame holds -/

/-- A slice with the number of its slot. -/
def numbered (s : Slice) : Nat × Bytes := (s.idx, s.payload)

/-- The slices of a frame: those with its number and its slice count. -/
def slicesOf (received : List Slice) (f : AssembledFrame) : List Slice :=
  received.filter fun s => s.seq = f.frameSeq ∧ s.count = f.slices.length

/-- The frame has the header of the first slice received for it, and in each slot
the first payload received for that slot. -/
structure Collects (received : List Slice) (f : AssembledFrame) : Prop where
  first : ∃ s, received.find? (fun s => s.seq = f.frameSeq) = some s ∧
    f.sensorId = s.header.sensorId ∧ f.captureTimeUs = s.header.captureTimeUs ∧
    f.slices.length = s.count
  slots : ∀ i, slot f.slices i = firstAt ((slicesOf received f).map numbered) i

section

variable {received : List Slice} {f : AssembledFrame} {s : Slice}

/-- The first slice of its kind stays the first. -/
theorem find?_concat {p : Slice → Bool} {t : Slice} (h : received.find? p = some t) (s : Slice) :
    (received ++ [s]).find? p = some t := by
  rw [List.find?_append, h, Option.some_or]

/-- A slice that is not of the frame. -/
theorem Collects.concat_of_not (h : Collects received f)
    (hs : ¬ (s.seq = f.frameSeq ∧ s.count = f.slices.length)) :
    Collects (received ++ [s]) f where
  first := by
    obtain ⟨t, hfind, ht⟩ := h.first
    exact ⟨t, find?_concat hfind s, ht⟩
  slots i := by
    rw [slicesOf, List.filter_append, List.filter_singleton, decide_eq_false hs]
    simpa [slicesOf] using h.slots i

/-- A slice of the frame. -/
theorem Collects.store (h : Collects received f) (hseq : s.seq = f.frameSeq)
    (hcount : s.count = f.slices.length) :
    Collects (received ++ [s]) { f with slices := fill f.slices s.idx s.payload } where
  first := by
    obtain ⟨t, hfind, hsensor, hcapture, hlen⟩ := h.first
    exact ⟨t, find?_concat hfind s, hsensor, hcapture, (length_fill _ _ _).trans hlen⟩
  slots i := by
    have hidx : s.idx < f.slices.length := hcount ▸ s.idx_lt_count
    simp only [slicesOf, length_fill]
    rw [List.filter_append, List.filter_singleton, decide_eq_true ⟨hseq, hcount⟩, slot_fill hidx,
      h.slots i]
    simp only [slicesOf, cond_true, List.map_append, List.map_singleton, numbered, firstAt_concat]

/-- A slice whose slot is filled. -/
theorem Collects.concat_of_filled (h : Collects received f) (hseq : s.seq = f.frameSeq)
    (hcount : s.count = f.slices.length) (hfilled : (slot f.slices s.idx).isSome) :
    Collects (received ++ [s]) f := by
  have hstore := h.store hseq hcount
  rwa [fill, if_pos hfilled] at hstore

theorem slot_replicate_none (n i : Nat) :
    slot (List.replicate n (none : Option Bytes)) i = none := by
  rw [slot, List.getElem?_replicate]
  split_ifs <;> rfl

/-- The first slice of a frame. -/
theorem Collects.opened (hnew : ∀ t ∈ received, t.seq ≠ f.frameSeq) (hseq : s.seq = f.frameSeq)
    (hsensor : f.sensorId = s.header.sensorId) (hcapture : f.captureTimeUs = s.header.captureTimeUs)
    (hslices : f.slices = fill (List.replicate s.count none) s.idx s.payload) :
    Collects (received ++ [s]) f := by
  have hlen : f.slices.length = s.count := by
    rw [hslices, length_fill, List.length_replicate]
  refine ⟨⟨s, ?_, hsensor, hcapture, hlen⟩, ?_⟩
  · have hnone : received.find? (fun t => t.seq = f.frameSeq) = none := by
      rw [List.find?_eq_none]
      intro t ht
      simpa using hnew t ht
    rw [List.find?_append, hnone, Option.none_or]
    simp [hseq]
  · intro i
    have hnil : slicesOf received f = [] := by
      rw [slicesOf, List.filter_eq_nil_iff]
      intro t ht h
      exact hnew t ht (of_decide_eq_true h).1
    have hslots : slicesOf (received ++ [s]) f = [s] := by
      rw [slicesOf, List.filter_append, ← slicesOf, hnil, List.nil_append, List.filter_singleton,
        decide_eq_true ⟨hseq, hlen.symm⟩]
      rfl
    have hidx : s.idx < (List.replicate s.count (none : Option Bytes)).length := by
      rw [List.length_replicate]
      exact s.idx_lt_count
    rw [hslots, hslices, slot_fill hidx, slot_replicate_none, Option.none_or, List.map_singleton,
      numbered]
    exact (firstAt_concat [] _ _ _).symm

/-- A frame holds the payload of a slice. -/
theorem Collects.exists_slot (h : Collects received f) : ∃ i, (slot f.slices i).isSome := by
  obtain ⟨s, hfind, -, -, hlen⟩ := h.first
  refine ⟨s.idx, ?_⟩
  rw [h.slots, firstAt_isSome_iff]
  refine ⟨numbered s, List.mem_map_of_mem (List.mem_filter.mpr ⟨?_, ?_⟩), rfl⟩
  · exact List.mem_of_find?_eq_some hfind
  · have hseq : s.seq = f.frameSeq := by simpa using List.find?_some hfind
    exact decide_eq_true ⟨hseq, hlen.symm⟩

end

/-! ## The invariant -/

/-- How the pending frames stand to what was received, opened and emitted. -/
structure Base (received : List Slice) (opened : List UInt32) (emitted : List AssembledFrame)
    (a : FrameAssembler) : Prop where
  frames : ∀ k p, a.pending.lookup k = some p → p.frame.frameSeq = k ∧ Collects received p.frame
  newer : ∀ k ∈ a.pending, ¬ a.IsLate k
  known : ∀ s ∈ received, a.IsLate s.seq ∨ s.seq ∈ a.pending
  last : a.lastEmitted = (emitted.map AssembledFrame.frameSeq).getLast?
  increasing : (emitted.map AssembledFrame.frameSeq).Pairwise (· < ·)
  count : opened.length = a.stats.framesComplete + a.stats.framesPartial +
    a.stats.framesSuperseded + a.pending.keys.length
  nodup : opened.Nodup
  accounted : ∀ k ∈ opened, a.IsLate k ∨ k ∈ a.pending

/-- What holds between calls besides. -/
structure Settled (maxPending : Nat) (a : FrameAssembler) : Prop where
  bound : a.maxPending = maxPending
  room : a.pending.keys.length ≤ maxPending
  incomplete : ∀ k p, a.pending.lookup k = some p → p.frame.isComplete = false

/-- Two assemblers that differ in their slice counters at most. -/
structure SameFrames (a b : FrameAssembler) : Prop where
  lookup : ∀ k, b.pending.lookup k = a.pending.lookup k
  length : b.pending.keys.length = a.pending.keys.length
  maxPending : b.maxPending = a.maxPending
  lastEmitted : b.lastEmitted = a.lastEmitted
  framesComplete : b.stats.framesComplete = a.stats.framesComplete
  framesPartial : b.stats.framesPartial = a.stats.framesPartial
  framesSuperseded : b.stats.framesSuperseded = a.stats.framesSuperseded

section

variable {received : List Slice} {opened : List UInt32} {emitted : List AssembledFrame}
  {a b : FrameAssembler} {maxPending : Nat}

theorem SameFrames.mem_iff (h : SameFrames a b) (k : UInt32) : k ∈ b.pending ↔ k ∈ a.pending := by
  rw [mem_iff_exists_lookup, mem_iff_exists_lookup, h.lookup]

theorem SameFrames.isLate_iff (h : SameFrames a b) (k : UInt32) : b.IsLate k ↔ a.IsLate k := by
  rw [IsLate, IsLate, h.lastEmitted]

/-- The invariant depends on the frames only, not on the counters. -/
theorem Base.congr (h : Base received opened emitted a) (hsame : SameFrames a b) :
    Base received opened emitted b where
  frames k p hp := h.frames k p (hsame.lookup k ▸ hp)
  newer k hk := by
    rw [hsame.isLate_iff]
    exact h.newer k ((hsame.mem_iff k).mp hk)
  known s hs := by
    rw [hsame.isLate_iff, hsame.mem_iff]
    exact h.known s hs
  last := hsame.lastEmitted.trans h.last
  increasing := h.increasing
  count := by
    rw [hsame.framesComplete, hsame.framesPartial, hsame.framesSuperseded, hsame.length]
    exact h.count
  nodup := h.nodup
  accounted k hk := by
    rw [hsame.isLate_iff, hsame.mem_iff]
    exact h.accounted k hk

theorem Settled.congr (h : Settled maxPending a) (hsame : SameFrames a b) :
    Settled maxPending b where
  bound := hsame.maxPending.trans h.bound
  room := hsame.length.trans_le h.room
  incomplete k p hp := h.incomplete k p (hsame.lookup k ▸ hp)

/-- Past an emitted frame, it and all older ones are late. -/
theorem isLate_advance {seq k : UInt32} {frame : AssembledFrame} :
    (a.advance seq frame).IsLate k ↔ k ≤ seq := by
  simp [IsLate]

/-- What was late stays late when a pending frame is emitted. -/
theorem Base.le_of_isLate (h : Base received opened emitted a) {seq k : UInt32}
    (hseq : seq ∈ a.pending) (hk : a.IsLate k) : k ≤ seq := by
  obtain ⟨last, hlast, hle⟩ := hk
  by_contra hlt
  exact h.newer seq hseq ⟨last, hlast, (not_le.mp hlt).le.trans hle⟩

/-- A frame that was late or pending is so when a pending frame is emitted. -/
theorem Base.late_or_pending (h : Base received opened emitted a) {seq k : UInt32}
    (hseq : seq ∈ a.pending) (frame : AssembledFrame) (hk : a.IsLate k ∨ k ∈ a.pending) :
    (a.advance seq frame).IsLate k ∨ k ∈ (a.advance seq frame).pending := by
  rw [isLate_advance, mem_advance]
  rcases hk with hlate | hmem
  · exact .inl (h.le_of_isLate hseq hlate)
  · exact (le_or_gt k seq).imp_right fun hlt => ⟨hmem, hlt⟩

/-- An emitted frame counts once, as complete or as partial. -/
theorem countEmitted_sum (stats : AssemblyStats) (frame : AssembledFrame) :
    (countEmitted stats frame).framesComplete + (countEmitted stats frame).framesPartial =
      stats.framesComplete + stats.framesPartial + 1 := by
  rw [countEmitted]
  split_ifs
  · exact Nat.add_right_comm _ _ _
  · rfl

/-- It does not count as superseded. -/
theorem framesSuperseded_countEmitted (stats : AssemblyStats) (frame : AssembledFrame) :
    (countEmitted stats frame).framesSuperseded = stats.framesSuperseded := by
  rw [countEmitted]
  split_ifs <;> rfl

/-- The emitted numbers increase, so a frame newer than the last one is newer
than every one. -/
theorem Base.lt_of_pending (h : Base received opened emitted a) {k : UInt32} (hk : k ∈ a.pending)
    {f : AssembledFrame} (hf : f ∈ emitted) : f.frameSeq < k := by
  have hmem : f.frameSeq ∈ emitted.map AssembledFrame.frameSeq := List.mem_map_of_mem hf
  have hne := List.ne_nil_of_mem hmem
  have hle : f.frameSeq ≤ (emitted.map AssembledFrame.frameSeq).getLast hne :=
    (h.increasing.imp le_of_lt).rel_getLast hmem
  by_contra hlt
  refine h.newer k hk ⟨_, ?_, (not_lt.mp hlt).trans hle⟩
  rw [h.last, List.getLast?_eq_getLast_of_ne_nil hne]
  rfl

/-- Emitting a pending frame. -/
theorem Base.advance (h : Base received opened emitted a) {seq : UInt32} {p : Pending}
    (hp : a.pending.lookup seq = some p) :
    Base received opened (emitted ++ [p.frame]) (a.advance seq p.frame) where
  frames k q hq := by
    rw [lookup_advance] at hq
    split_ifs at hq
    exact h.frames k q hq
  newer k hk := by
    rw [isLate_advance]
    exact not_le.mpr (mem_advance.mp hk).2
  known s hs := h.late_or_pending (mem_iff_exists_lookup.mpr ⟨p, hp⟩) _ (h.known s hs)
  last := by
    rw [List.map_append, List.map_singleton, List.getLast?_concat, (h.frames seq p hp).1,
      lastEmitted_advance]
  increasing := by
    rw [List.map_append, List.map_singleton, List.pairwise_append]
    refine ⟨h.increasing, List.pairwise_singleton _ _, ?_⟩
    intro k hk k' hk'
    obtain ⟨f, hf, rfl⟩ := List.mem_map.mp hk
    rw [List.mem_singleton.mp hk', (h.frames seq p hp).1]
    exact h.lt_of_pending (mem_iff_exists_lookup.mpr ⟨p, hp⟩) hf
  count := by
    have hlength := length_keys_advance (mem_iff_exists_lookup.mpr ⟨p, hp⟩) p.frame
    have hemitted := countEmitted_sum a.stats p.frame
    have hsuperseded := framesSuperseded_countEmitted a.stats p.frame
    have hcount := h.count
    simp only [FrameAssembler.advance, countSuperseded] at hlength ⊢
    omega
  nodup := h.nodup
  accounted k hk := h.late_or_pending (mem_iff_exists_lookup.mpr ⟨p, hp⟩) _ (h.accounted k hk)

theorem Settled.advance (h : Settled maxPending a) {seq : UInt32} (hseq : seq ∈ a.pending)
    (frame : AssembledFrame) : Settled maxPending (a.advance seq frame) where
  bound := h.bound
  room := by
    have hlength := length_keys_advance hseq frame
    have hroom := h.room
    omega
  incomplete k p hp := by
    rw [lookup_advance] at hp
    split_ifs at hp
    exact h.incomplete k p hp

/-! ## One call -/

/-- The call goes through.  It emits some frames and leaves the invariant. -/
def Returns (received : List Slice) (opened : List UInt32) (emitted : List AssembledFrame)
    (maxPending : Nat) (r : Option (FrameAssembler × List AssembledFrame)) : Prop :=
  ∃ b frames, r = some (b, frames) ∧ Base received opened (emitted ++ frames) b ∧
    Settled maxPending b ∧ ∀ f ∈ frames, Collects received f

theorem Returns.of_base (h : Base received opened emitted a) (hsettled : Settled maxPending a) :
    Returns received opened emitted maxPending (some (a, [])) := by
  refine ⟨a, [], rfl, ?_, hsettled, nofun⟩
  rwa [List.append_nil]

/-- Emitting one frame, when the rest is settled. -/
theorem Base.emit (h : Base received opened emitted a) {seq : UInt32} {p : Pending}
    (hp : a.pending.lookup seq = some p) (hsettled : Settled maxPending (a.advance seq p.frame)) :
    Returns received opened emitted maxPending
      ((a.emit seq).map fun (a, frame) => (a, [frame])) := by
  rw [emit_of_lookup hp]
  refine ⟨_, [p.frame], rfl, h.advance hp, hsettled, ?_⟩
  intro f hf
  rw [List.mem_singleton.mp hf]
  exact (h.frames seq p hp).2

/-- Emitting several frames keeps the invariant. -/
theorem emitAll_returns (seqs : List UInt32) :
    ∀ {emitted : List AssembledFrame} {a : FrameAssembler}, Base received opened emitted a →
      Settled maxPending a → Returns received opened emitted maxPending (a.emitAll seqs) := by
  induction seqs with
  | nil =>
      intro emitted a h hsettled
      exact .of_base h hsettled
  | cons seq seqs ih =>
      intro emitted a h hsettled
      rw [emitAll]
      split_ifs with hseq
      · obtain ⟨p, hp⟩ := mem_iff_exists_lookup.mp hseq
        obtain ⟨b, frames, hall, hb, hsettled', hcollects⟩ :=
          ih (h.advance hp) (hsettled.advance hseq p.frame)
        rw [emit_of_lookup hp, Option.bind_some]
        simp only [hall]
        refine ⟨b, p.frame :: frames, rfl, ?_, hsettled', ?_⟩
        · rwa [List.append_cons]
        · intro f hf
          rcases List.mem_cons.mp hf with rfl | hf
          · exact (h.frames seq p hp).2
          · exact hcollects f hf
      · exact ih h hsettled

/-- So does a poll. -/
theorem poll_returns (h : Base received opened emitted a) (hsettled : Settled maxPending a)
    (nowUs : Nat) : Returns received opened emitted maxPending (a.poll nowUs) :=
  emitAll_returns _ h hsettled

/-- One frame has a new slice, and there may be one frame too many. -/
theorem Base.ready (h : Base received opened emitted a) (hbound : a.maxPending = maxPending)
    (hroom : a.pending.keys.length ≤ maxPending + 1) {seq : UInt32} {p : Pending}
    (hp : a.pending.lookup seq = some p)
    (hincomplete : ∀ k q, k ≠ seq → a.pending.lookup k = some q → q.frame.isComplete = false) :
    Returns received opened emitted maxPending (a.ready seq p.frame) := by
  have hseq := mem_iff_exists_lookup.mpr ⟨p, hp⟩
  rw [FrameAssembler.ready]
  split_ifs with hcomplete hmany
  · refine h.emit hp ⟨hbound, ?_, ?_⟩
    · have hlength := length_keys_advance hseq p.frame
      omega
    · intro k q hq
      rw [lookup_advance] at hq
      split_ifs at hq with hk
      exact hincomplete k q (not_le.mp hk).ne' hq
  · obtain ⟨least, hhead, hmem, hleast⟩ := exists_head?_ascending hseq
    obtain ⟨q, hq⟩ := mem_iff_exists_lookup.mp hmem
    rw [hhead, Option.bind_some]
    refine h.emit hq ⟨hbound, ?_, ?_⟩
    · have hlength := length_keys_advance hmem q.frame
      omega
    · intro k r hr
      rw [lookup_advance] at hr
      split_ifs at hr
      by_cases hk : k = seq
      · subst hk
        rw [hp] at hr
        obtain rfl := Option.some.inj hr
        exact Bool.eq_false_iff.mpr hcomplete
      · exact hincomplete k r hk hr
  · refine .of_base h ⟨hbound, by omega, ?_⟩
    intro k r hr
    by_cases hk : k = seq
    · subst hk
      rw [hp] at hr
      obtain rfl := Option.some.inj hr
      exact Bool.eq_false_iff.mpr hcomplete
    · exact hincomplete k r hk hr

end

/-- The first slice of a frame opens it. -/
theorem entry_of_none {a : FrameAssembler} {s : Slice} (h : a.pending.lookup s.seq = none)
    (nowUs : Nat) : a.entry s.header nowUs = .opened s.header nowUs :=
  congrArg (Option.getD · _) h

/-- A later one finds it open. -/
theorem entry_of_some {a : FrameAssembler} {s : Slice} {p : Pending}
    (h : a.pending.lookup s.seq = some p) (nowUs : Nat) : a.entry s.header nowUs = p :=
  congrArg (Option.getD · _) h

/-- A slice that is not late, whose index is below its count. -/
theorem onSlice_of_not_late {a : FrameAssembler} {s : Slice} (h : ¬ a.IsLate s.seq) (nowUs : Nat) :
    a.onSlice s.header s.payload nowUs =
      let p := a.entry s.header nowUs
      let b := a.put s.seq p
      if p.frame.slices.length ≠ s.count then
        some ({ b with
          stats := { a.stats with slicesInconsistent := a.stats.slicesInconsistent + 1 } }, [])
      else if (slot p.frame.slices s.idx).isSome then
        some ({ b with
          stats := { a.stats with slicesDuplicate := a.stats.slicesDuplicate + 1 } }, [])
      else (a.put s.seq (p.store s.idx s.payload)).ready s.seq (p.store s.idx s.payload).frame := by
  have hput : ∀ p q : Pending, (a.put s.seq p).put s.seq q = a.put s.seq q := by
    intro p q
    rw [put, put, AList.insert_insert]
    rfl
  refine (if_neg h).trans ?_
  simp only
  rw [← hput (a.entry s.header nowUs) ((a.entry s.header nowUs).store s.idx s.payload)]
  by_cases hlen : (a.entry s.header nowUs).frame.slices.length = s.count
  · have hidx : ¬ (a.entry s.header nowUs).frame.slices.length ≤ s.idx :=
      (hlen ▸ s.idx_lt_count).not_ge
    refine (if_neg (not_not.mpr hlen)).trans ((if_neg hidx).trans ?_)
    rw [if_neg (not_not.mpr hlen)]
    rfl
  · refine (if_pos hlen).trans ?_
    rw [if_pos hlen]
    rfl

/-- What a slice does, by its verdict. -/
theorem onSlice_cases (a : FrameAssembler) (s : Slice) (nowUs : Nat) :
    (a.verdict s = .late ∧ a.IsLate s.seq ∧
      a.onSlice s.header s.payload nowUs =
        some ({ a with stats := { a.stats with slicesLate := a.stats.slicesLate + 1 } }, [])) ∨
    (∃ p, a.verdict s = .inconsistent ∧ ¬ a.IsLate s.seq ∧ a.pending.lookup s.seq = some p ∧
      s.count ≠ p.frame.slices.length ∧
      a.onSlice s.header s.payload nowUs =
        some ({ a.put s.seq p with
          stats := { a.stats with slicesInconsistent := a.stats.slicesInconsistent + 1 } }, [])) ∨
    (∃ p, a.verdict s = .duplicate ∧ ¬ a.IsLate s.seq ∧ a.pending.lookup s.seq = some p ∧
      s.count = p.frame.slices.length ∧ (slot p.frame.slices s.idx).isSome ∧
      a.onSlice s.header s.payload nowUs =
        some ({ a.put s.seq p with
          stats := { a.stats with slicesDuplicate := a.stats.slicesDuplicate + 1 } }, [])) ∨
    (a.verdict s = .stored ∧ ¬ a.IsLate s.seq ∧
      s.count = (a.entry s.header nowUs).frame.slices.length ∧
      slot (a.entry s.header nowUs).frame.slices s.idx = none ∧
      a.onSlice s.header s.payload nowUs =
        (a.put s.seq ((a.entry s.header nowUs).store s.idx s.payload)).ready s.seq
          ((a.entry s.header nowUs).store s.idx s.payload).frame) := by
  by_cases hlate : a.IsLate s.seq
  · exact .inl ⟨if_pos hlate, hlate, if_pos hlate⟩
  have hcall := onSlice_of_not_late hlate nowUs
  simp only at hcall
  cases hp : a.pending.lookup s.seq with
  | none =>
      have hlen : (Pending.opened s.header nowUs).frame.slices.length = s.count :=
        List.length_replicate
      have hslot : slot (Pending.opened s.header nowUs).frame.slices s.idx = none :=
        slot_replicate_none _ _
      rw [entry_of_none hp, if_neg (not_not.mpr hlen), hslot, if_neg (by simp)] at hcall
      rw [verdict, if_neg hlate, hp, entry_of_none hp]
      exact .inr (.inr (.inr ⟨rfl, hlate, hlen.symm, hslot, hcall⟩))
  | some p =>
      rw [entry_of_some hp] at hcall ⊢
      rw [verdict, if_neg hlate, hp]
      by_cases hlen : p.frame.slices.length = s.count
      · rw [if_neg (not_not.mpr hlen)] at hcall
        by_cases hslot : (slot p.frame.slices s.idx).isSome
        · rw [if_pos hslot] at hcall
          refine .inr (.inr (.inl ⟨p, ?_, hlate, rfl, hlen.symm, hslot, hcall⟩))
          simp only [hlen, hslot, ne_eq, not_true_eq_false, if_false, if_true]
        · rw [if_neg hslot] at hcall
          refine .inr (.inr (.inr ⟨?_, hlate, hlen.symm, ?_, hcall⟩))
          · simp only [hlen, hslot, ne_eq, not_true_eq_false, if_false]
            rfl
          · exact Option.not_isSome_iff_eq_none.mp hslot
      · rw [if_pos hlen] at hcall
        refine .inr (.inl ⟨p, ?_, hlate, rfl, Ne.symm hlen, hcall⟩)
        simp only [hlen, ne_eq, not_false_eq_true, if_true]

section

variable {received : List Slice} {opened : List UInt32} {emitted : List AssembledFrame}
  {a : FrameAssembler} {maxPending : Nat} {s : Slice}

theorem lookup_put (a : FrameAssembler) (k : UInt32) (p : Pending) (j : UInt32) :
    (a.put k p).pending.lookup j = if j = k then some p else a.pending.lookup j :=
  lookup_insert_ite a.pending k p j

/-- Writing back the entry that is there. -/
theorem SameFrames.put {k : UInt32} {p : Pending} (hp : a.pending.lookup k = some p)
    {stats : AssemblyStats} (hcomplete : stats.framesComplete = a.stats.framesComplete)
    (hpart : stats.framesPartial = a.stats.framesPartial)
    (hsuperseded : stats.framesSuperseded = a.stats.framesSuperseded) :
    SameFrames a { a.put k p with stats := stats } where
  lookup j := by
    refine (lookup_put a k p j).trans ?_
    split_ifs with hj
    · rw [hj, hp]
    · rfl
  length := (length_keys_insert _ _ _).trans (if_pos (mem_iff_exists_lookup.mpr ⟨p, hp⟩))
  maxPending := rfl
  lastEmitted := rfl
  framesComplete := hcomplete
  framesPartial := hpart
  framesSuperseded := hsuperseded

/-- A slice that changes no frame. -/
theorem Base.receive (h : Base received opened emitted a) (hs : a.IsLate s.seq ∨ s.seq ∈ a.pending)
    (hown : ∀ p, a.pending.lookup s.seq = some p → p.frame.frameSeq = s.seq →
      Collects received p.frame → Collects (received ++ [s]) p.frame) :
    Base (received ++ [s]) (opened ++ (a.opens s).toList) emitted a where
  frames k p hp := by
    obtain ⟨hk, hcollects⟩ := h.frames k p hp
    refine ⟨hk, ?_⟩
    by_cases hseq : s.seq = k
    · subst hseq
      exact hown p hp hk hcollects
    · exact hcollects.concat_of_not fun heq => hseq (heq.1.trans hk)
  newer := h.newer
  known t ht := by
    rcases List.mem_append.mp ht with ht | ht
    · exact h.known t ht
    · rwa [List.mem_singleton.mp ht]
  last := h.last
  increasing := h.increasing
  count := by
    rw [opens, if_pos hs, Option.toList_none, List.append_nil]
    exact h.count
  nodup := by
    rw [opens, if_pos hs, Option.toList_none, List.append_nil]
    exact h.nodup
  accounted k hk := by
    rw [opens, if_pos hs, Option.toList_none, List.append_nil] at hk
    exact h.accounted k hk

theorem isLate_put (k : UInt32) (p : Pending) (j : UInt32) :
    (a.put k p).IsLate j ↔ a.IsLate j := Iff.rfl

theorem mem_put {k : UInt32} {p : Pending} {j : UInt32} :
    j ∈ (a.put k p).pending ↔ j = k ∨ j ∈ a.pending :=
  AList.mem_insert _

/-- The entry of a stored slice holds what was received. -/
theorem Base.collects_store (h : Base received opened emitted a) (hlate : ¬ a.IsLate s.seq)
    (nowUs : Nat) (hcount : s.count = (a.entry s.header nowUs).frame.slices.length) :
    ((a.entry s.header nowUs).store s.idx s.payload).frame.frameSeq = s.seq ∧
      Collects (received ++ [s]) ((a.entry s.header nowUs).store s.idx s.payload).frame := by
  cases hp : a.pending.lookup s.seq with
  | none =>
      rw [entry_of_none hp]
      refine ⟨rfl, .opened ?_ rfl rfl rfl rfl⟩
      intro t ht hseq
      change t.seq = s.seq at hseq
      have hmem : s.seq ∈ a.pending := (hseq ▸ h.known t ht).resolve_left hlate
      exact AList.lookup_eq_none.mp hp hmem
  | some p =>
      obtain ⟨hseq, hcollects⟩ := h.frames s.seq p hp
      rw [entry_of_some hp] at hcount ⊢
      exact ⟨hseq, hcollects.store hseq.symm hcount⟩

/-- A slice that is stored. -/
theorem Base.store (h : Base received opened emitted a) (hlate : ¬ a.IsLate s.seq) (nowUs : Nat)
    (hcount : s.count = (a.entry s.header nowUs).frame.slices.length) :
    Base (received ++ [s]) (opened ++ (a.opens s).toList) emitted
      (a.put s.seq ((a.entry s.header nowUs).store s.idx s.payload)) where
  frames k p hp := by
    rw [lookup_put] at hp
    split_ifs at hp with hk
    · rw [hk, ← Option.some.inj hp]
      exact h.collects_store hlate nowUs hcount
    · obtain ⟨hseq, hcollects⟩ := h.frames k p hp
      exact ⟨hseq, hcollects.concat_of_not fun heq => hk (hseq.symm.trans heq.1.symm)⟩
  newer k hk := by
    rw [isLate_put]
    rcases mem_put.mp hk with rfl | hk
    · exact hlate
    · exact h.newer k hk
  known t ht := by
    rw [isLate_put, mem_put]
    rcases List.mem_append.mp ht with ht | ht
    · exact (h.known t ht).imp_right Or.inr
    · exact .inr (.inl (congrArg Slice.seq (List.mem_singleton.mp ht)))
  last := h.last
  increasing := h.increasing
  count := by
    have hlength := length_keys_insert a.pending s.seq
      ((a.entry s.header nowUs).store s.idx s.payload)
    have hcount := h.count
    simp only [put]
    rw [hlength, opens]
    by_cases hmem : s.seq ∈ a.pending
    · rw [if_pos (.inr hmem), if_pos hmem, Option.toList_none, List.append_nil]
      exact hcount
    · rw [if_neg (not_or.mpr ⟨hlate, hmem⟩), if_neg hmem, Option.toList_some, List.length_append,
        List.length_singleton]
      omega
  nodup := by
    rw [opens]
    split_ifs with hs
    · rw [Option.toList_none, List.append_nil]
      exact h.nodup
    · rw [Option.toList_some, ← List.concat_eq_append, List.nodup_concat]
      exact ⟨fun hmem => hs (h.accounted _ hmem), h.nodup⟩
  accounted k hk := by
    rw [isLate_put, mem_put]
    rcases List.mem_append.mp hk with hk | hk
    · exact (h.accounted k hk).imp_right Or.inr
    · rw [opens] at hk
      split_ifs at hk
      · exact absurd hk List.not_mem_nil
      · exact .inr (.inl (by simpa using hk))

/-- A slice keeps the invariant, whatever its verdict. -/
theorem onSlice_returns (h : Base received opened emitted a) (hsettled : Settled maxPending a)
    (s : Slice) (nowUs : Nat) :
    Returns (received ++ [s]) (opened ++ (a.opens s).toList) emitted maxPending
      (a.onSlice s.header s.payload nowUs) := by
  rcases onSlice_cases a s nowUs with ⟨-, hlate, hcall⟩ | ⟨p, -, hlate, hp, hcount, hcall⟩ |
    ⟨p, -, hlate, hp, hcount, hslot, hcall⟩ | ⟨-, hlate, hcount, -, hcall⟩ <;> rw [hcall]
  · have hsame : SameFrames a
        { a with stats := { a.stats with slicesLate := a.stats.slicesLate + 1 } } :=
      ⟨fun _ => rfl, rfl, rfl, rfl, rfl, rfl, rfl⟩
    refine .of_base ((h.receive (.inl hlate) ?_).congr hsame) (hsettled.congr hsame)
    intro p hp
    exact absurd hlate (h.newer s.seq (mem_iff_exists_lookup.mpr ⟨p, hp⟩))
  · have hsame : SameFrames a { a.put s.seq p with
        stats := { a.stats with slicesInconsistent := a.stats.slicesInconsistent + 1 } } :=
      .put hp rfl rfl rfl
    refine .of_base ((h.receive (.inr (mem_iff_exists_lookup.mpr ⟨p, hp⟩)) ?_).congr hsame)
      (hsettled.congr hsame)
    intro q hq _ hcollects
    obtain rfl := Option.some.inj (hq.symm.trans hp)
    exact hcollects.concat_of_not fun heq => hcount heq.2
  · have hsame : SameFrames a { a.put s.seq p with
        stats := { a.stats with slicesDuplicate := a.stats.slicesDuplicate + 1 } } :=
      .put hp rfl rfl rfl
    refine .of_base ((h.receive (.inr (mem_iff_exists_lookup.mpr ⟨p, hp⟩)) ?_).congr hsame)
      (hsettled.congr hsame)
    intro q hq hseq hcollects
    obtain rfl := Option.some.inj (hq.symm.trans hp)
    exact hcollects.concat_of_filled hseq.symm hcount hslot
  · refine (h.store hlate nowUs hcount).ready hsettled.bound ?_
      ((lookup_put _ _ _ _).trans (if_pos rfl)) ?_
    · have hlength := length_keys_insert a.pending s.seq
        ((a.entry s.header nowUs).store s.idx s.payload)
      have hroom := hsettled.room
      simp only [put]
      split_ifs at hlength <;> omega
    · intro k q hk hq
      rw [lookup_put, if_neg hk] at hq
      exact hsettled.incomplete k q hq

end

end FrameAssembler

end RoboTele
