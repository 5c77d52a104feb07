import RoboTele.Core.FrameInvariant
import RoboTele.Runs.Machine
import Mathlib.Data.List.Induction

/-!
# Runs of the frame assembler

A run is any list of slices and polls.  `step` is `none` where the source would
panic, and no run comes to that (`run_keeps`).

`verdicts` lists what became of each slice received.  Three of the four verdicts
have a counter (`Counted`), and the fourth puts the payload in its slot.
-/

namespace RoboTele

open Runs Slots Tables

namespace FrameAssembler

/-! ## Events -/

/-- A slice or a poll, at its time. -/
inductive Event where
  | slice (s : Slice) (nowUs : Nat)
  | poll (nowUs : Nat)

/-- The slice of an event. -/
def Event.received : Event → Option Slice
  | .slice s _ => some s
  | .poll _ => none

/-- What an arrival or a poll gives.  `none` is a panic. -/
def step (a : FrameAssembler) : Event → Option (FrameAssembler × List AssembledFrame)
  | .slice s nowUs => a.onSlice s.header s.payload nowUs
  | .poll nowUs => a.poll nowUs

/-- The assembler after an event. -/
def next (a : FrameAssembler) (e : Event) : FrameAssembler := ((a.step e).map Prod.fst).getD a

/-- The frames an event emits. -/
def out (a : FrameAssembler) (e : Event) : List AssembledFrame :=
  ((a.step e).map Prod.snd).getD []

/-- The assembler after a list of events. -/
def after (deadlineUs maxPending : Nat) (es : List Event) : FrameAssembler :=
  exec next (new deadlineUs maxPending) es

/-- The slices received. -/
def received (es : List Event) : List Slice := es.filterMap Event.received

/-- The frames emitted. -/
def emitted (deadlineUs maxPending : Nat) (es : List Event) : List AssembledFrame :=
  (trace next (fun a e => some (a.out e)) (new deadlineUs maxPending) es).flatten

/-- The frames opened. -/
def opened (deadlineUs maxPending : Nat) (es : List Event) : List UInt32 :=
  trace next (fun a e => e.received.bind a.opens) (new deadlineUs maxPending) es

/-- What became of the slices received. -/
def verdicts (deadlineUs maxPending : Nat) (es : List Event) : List Verdict :=
  trace next (fun a e => e.received.map a.verdict) (new deadlineUs maxPending) es

section

variable (deadlineUs maxPending : Nat) (es : List Event) (e : Event)

theorem after_concat : after deadlineUs maxPending (es ++ [e]) =
    (after deadlineUs maxPending es).next e :=
  exec_concat _ _ _ _

/-- An event adds the slice it brings. -/
theorem received_concat : received (es ++ [e]) = received es ++ e.received.toList := by
  rw [received, List.filterMap_append]
  cases h : e.received <;> simp [received, h]

/-- An event adds the frames it emits. -/
theorem emitted_concat : emitted deadlineUs maxPending (es ++ [e]) =
    emitted deadlineUs maxPending es ++ (after deadlineUs maxPending es).out e := by
  rw [emitted, trace_concat, List.flatten_append]
  exact congrArg (_ ++ ·) (List.append_nil _)

/-- An event adds the frame it opens. -/
theorem opened_concat : opened deadlineUs maxPending (es ++ [e]) =
    opened deadlineUs maxPending es ++
      (e.received.bind (after deadlineUs maxPending es).opens).toList :=
  trace_concat _ _ _ _ _

/-- An event adds the verdict on its slice. -/
theorem verdicts_concat : verdicts deadlineUs maxPending (es ++ [e]) =
    verdicts deadlineUs maxPending es ++
      (e.received.map (after deadlineUs maxPending es).verdict).toList :=
  trace_concat _ _ _ _ _

end

/-! ## The invariant along a run -/

section

variable {recv : List Slice} {opens : List UInt32} {emits : List AssembledFrame}
  {a b : FrameAssembler} {maxPending : Nat}

/-- One event. -/
theorem step_returns (h : Base recv opens emits a) (hsettled : Settled maxPending a) (e : Event) :
    Returns (recv ++ e.received.toList) (opens ++ (e.received.bind a.opens).toList) emits
      maxPending (a.step e) := by
  cases e with
  | slice s nowUs => exact onSlice_returns h hsettled s nowUs
  | poll nowUs =>
      rw [Event.received, Option.bind_none, Option.toList_none, Option.toList_none,
        List.append_nil, List.append_nil]
      exact poll_returns h hsettled nowUs

/-- The invariant holds of a new assembler. -/
theorem base_new (deadlineUs maxPending : Nat) : Base [] [] [] (new deadlineUs maxPending) where
  frames _ p hp := absurd hp (Option.some_ne_none p).symm
  newer k hk := absurd hk (AList.notMem_empty k)
  known := nofun
  last := rfl
  increasing := .nil
  count := rfl
  nodup := .nil
  accounted := nofun

theorem settled_new (deadlineUs maxPending : Nat) :
    Settled (max maxPending 1) (new deadlineUs maxPending) where
  bound := rfl
  room := Nat.zero_le _
  incomplete _ p hp := absurd hp (Option.some_ne_none p).symm

/-- Every run keeps the invariant. -/
theorem run_keeps (deadlineUs maxPending : Nat) (es : List Event) :
    Base (received es) (opened deadlineUs maxPending es) (emitted deadlineUs maxPending es)
        (after deadlineUs maxPending es) ∧
      Settled (max maxPending 1) (after deadlineUs maxPending es) := by
  induction es using List.reverseRecOn with
  | nil => exact ⟨base_new _ _, settled_new _ _⟩
  | append_singleton es e ih =>
      obtain ⟨b, frames, hstep, hbase, hsettled, -⟩ := step_returns ih.1 ih.2 e
      rw [received_concat, opened_concat, emitted_concat, after_concat, next, out, hstep]
      exact ⟨hbase, hsettled⟩

/-- No call panics. -/
theorem step_isSome (deadlineUs maxPending : Nat) (es : List Event) (e : Event) :
    ((after deadlineUs maxPending es).step e).isSome := by
  obtain ⟨hbase, hsettled⟩ := run_keeps deadlineUs maxPending es
  obtain ⟨b, frames, hstep, -⟩ := step_returns hbase hsettled e
  rw [hstep]
  rfl

/-- A frame emitted holds what was received, the slice of the call included. -/
theorem collects_of_mem_out (deadlineUs maxPending : Nat) (es : List Event) (e : Event)
    {f : AssembledFrame} (hf : f ∈ (after deadlineUs maxPending es).out e) :
    Collects (received (es ++ [e])) f := by
  obtain ⟨hbase, hsettled⟩ := run_keeps deadlineUs maxPending es
  obtain ⟨b, frames, hstep, -, -, hcollects⟩ := step_returns hbase hsettled e
  rw [out, hstep] at hf
  rw [received_concat]
  exact hcollects f hf

/-! ## Counting slices -/

/-- The counters count the verdicts. -/
structure Counted (vs : List Verdict) (stats : AssemblyStats) : Prop where
  late : stats.slicesLate = vs.count .late
  duplicate : stats.slicesDuplicate = vs.count .duplicate
  inconsistent : stats.slicesInconsistent = vs.count .inconsistent

/-- Emitting counts no slice. -/
theorem Counted.advance {vs : List Verdict} (h : Counted vs a.stats) (seq : UInt32)
    (frame : AssembledFrame) : Counted vs (a.advance seq frame).stats := by
  simp only [FrameAssembler.advance, countSuperseded, countEmitted]
  split_ifs
  · exact ⟨h.late, h.duplicate, h.inconsistent⟩
  · exact ⟨h.late, h.duplicate, h.inconsistent⟩

/-- A frame that is emitted keeps the count of the slices. -/
theorem Counted.emit {vs : List Verdict} (h : Counted vs a.stats) {seq : UInt32}
    {frame : AssembledFrame} (hemit : a.emit seq = some (b, frame)) : Counted vs b.stats := by
  rw [FrameAssembler.emit] at hemit
  split at hemit
  · exact absurd hemit.symm (Option.some_ne_none _)
  · rw [← (Prod.mk.inj (Option.some.inj hemit)).1]
    exact h.advance _ _

theorem Counted.emitAll {vs : List Verdict} (seqs : List UInt32) :
    ∀ {a : FrameAssembler} {frames : List AssembledFrame}, Counted vs a.stats →
      a.emitAll seqs = some (b, frames) → Counted vs b.stats := by
  induction seqs with
  | nil =>
      intro a frames h hall
      rwa [← (Prod.mk.inj (Option.some.inj hall)).1]
  | cons seq seqs ih =>
      intro a frames h hall
      rw [FrameAssembler.emitAll] at hall
      split_ifs at hall
      · obtain ⟨⟨c, frame⟩, hemit, hrest⟩ := Option.bind_eq_some_iff.mp hall
        simp only [Option.map_eq_some_iff] at hrest
        obtain ⟨⟨d, frames'⟩, hrest, heq⟩ := hrest
        obtain rfl : d = b := (Prod.mk.inj heq).1
        exact ih (h.emit hemit) hrest
      · exact ih h hall

theorem Counted.ready {vs : List Verdict} (h : Counted vs a.stats) {seq : UInt32}
    {frame : AssembledFrame} {frames : List AssembledFrame}
    (hready : a.ready seq frame = some (b, frames)) : Counted vs b.stats := by
  rw [FrameAssembler.ready] at hready
  split_ifs at hready
  · obtain ⟨⟨c, frame⟩, hemit, heq⟩ := Option.map_eq_some_iff.mp hready
    rw [← (Prod.mk.inj heq).1]
    exact h.emit hemit
  · obtain ⟨⟨c, frame⟩, hemit, heq⟩ := Option.map_eq_some_iff.mp hready
    obtain ⟨least, -, hemit⟩ := Option.bind_eq_some_iff.mp hemit
    rw [← (Prod.mk.inj heq).1]
    exact h.emit hemit
  · rwa [← (Prod.mk.inj (Option.some.inj hready)).1]

/-- One event counts its slice. -/
theorem Counted.step {vs : List Verdict} (h : Counted vs a.stats) (e : Event)
    {frames : List AssembledFrame} (hstep : a.step e = some (b, frames)) :
    Counted (vs ++ (e.received.map a.verdict).toList) b.stats := by
  cases e with
  | poll nowUs =>
      rw [Event.received, Option.map_none, Option.toList_none, List.append_nil]
      exact h.emitAll _ hstep
  | slice s nowUs =>
      rw [Event.received, Option.map_some, Option.toList_some]
      rw [FrameAssembler.step] at hstep
      rcases onSlice_cases a s nowUs with ⟨hverdict, -, hcall⟩ | ⟨p, hverdict, -, -, -, hcall⟩ |
        ⟨p, hverdict, -, -, -, -, hcall⟩ | ⟨hverdict, -, -, -, hcall⟩ <;>
        rw [hcall] at hstep <;> rw [hverdict]
      · rw [← (Prod.mk.inj (Option.some.inj hstep)).1]
        exact ⟨by simp [h.late], by simp [h.duplicate], by simp [h.inconsistent]⟩
      · rw [← (Prod.mk.inj (Option.some.inj hstep)).1]
        exact ⟨by simp [h.late], by simp [h.duplicate], by simp [h.inconsistent]⟩
      · rw [← (Prod.mk.inj (Option.some.inj hstep)).1]
        exact ⟨by simp [h.late], by simp [h.duplicate], by simp [h.inconsistent]⟩
      · have hready := Counted.ready (a := a.put s.seq _) h hstep
        exact ⟨by simp [hready.late], by simp [hready.duplicate], by simp [hready.inconsistent]⟩

/-- Every slice of a run is counted by its verdict. -/
theorem counted_run (deadlineUs maxPending : Nat) (es : List Event) :
    Counted (verdicts deadlineUs maxPending es) (after deadlineUs maxPending es).stats := by
  induction es using List.reverseRecOn with
  | nil => exact ⟨rfl, rfl, rfl⟩
  | append_singleton es e ih =>
      obtain ⟨⟨b, frames⟩, hstep⟩ :=
        Option.isSome_iff_exists.mp (step_isSome deadlineUs maxPending es e)
      rw [verdicts_concat, after_concat, next, hstep]
      exact ih.step e hstep

/-- There is one verdict for each slice. -/
theorem length_verdicts (deadlineUs maxPending : Nat) (es : List Event) :
    (verdicts deadlineUs maxPending es).length = (received es).length := by
  induction es using List.reverseRecOn with
  | nil => rfl
  | append_singleton es e ih =>
      rw [verdicts_concat, received_concat, List.length_append, List.length_append, ih]
      cases e.received <;> rfl

/-- A list of verdicts by verdict. -/
theorem length_eq_counts (vs : List Verdict) :
    vs.length = vs.count .stored + vs.count .late + vs.count .duplicate +
      vs.count .inconsistent := by
  induction vs with
  | nil => rfl
  | cons v vs ih =>
      cases v <;> simp [ih] <;> omega

/-! ## Storing a slice -/

/-- The payload of the slice is in its slot, in a pending frame or in one of
these. -/
def InSlot (a : FrameAssembler) (frames : List AssembledFrame) (s : Slice) : Prop :=
  (∃ p, a.pending.lookup s.seq = some p ∧ slot p.frame.slices s.idx = some s.payload) ∨
    ∃ f ∈ frames, f.frameSeq = s.seq ∧ slot f.slices s.idx = some s.payload

/-- What a call does with a slice: its verdict is `stored`, its slot was empty
and now holds the payload, or nothing of the frames changes. -/
def Treats (a : FrameAssembler) (s : Slice) (nowUs : Nat) : Prop :=
  if a.verdict s = .stored then
    (∀ p, a.pending.lookup s.seq = some p → slot p.frame.slices s.idx = none) ∧
      InSlot (a.next (.slice s nowUs)) (a.out (.slice s nowUs)) s
  else
    (∀ k, (a.next (.slice s nowUs)).pending.lookup k = a.pending.lookup k) ∧
      a.out (.slice s nowUs) = []

/-- The frame that has a new slice is emitted or stays. -/
theorem mem_or_lookup_of_ready {seq : UInt32} {p : Pending} {frames : List AssembledFrame}
    (hp : a.pending.lookup seq = some p) (hready : a.ready seq p.frame = some (b, frames)) :
    p.frame ∈ frames ∨ b.pending.lookup seq = some p := by
  rw [ready] at hready
  split_ifs at hready
  · rw [emit_of_lookup hp, Option.map_some] at hready
    rw [← (Prod.mk.inj (Option.some.inj hready)).2]
    exact .inl (List.mem_singleton_self _)
  · obtain ⟨least, hhead, hmem, hleast⟩ :=
      exists_head?_ascending (mem_iff_exists_lookup.mpr ⟨p, hp⟩)
    obtain ⟨q, hq⟩ := mem_iff_exists_lookup.mp hmem
    rw [hhead, Option.bind_some, emit_of_lookup hq, Option.map_some] at hready
    obtain ⟨rfl, rfl⟩ := Prod.mk.inj (Option.some.inj hready)
    rcases (hleast seq (mem_iff_exists_lookup.mpr ⟨p, hp⟩)).eq_or_lt with rfl | hlt
    · rw [hp] at hq
      rw [Option.some.inj hq]
      exact .inl (List.mem_singleton_self _)
    · rw [lookup_advance, if_neg hlt.not_ge]
      exact .inr hp
  · rw [← (Prod.mk.inj (Option.some.inj hready)).1]
    exact .inr hp

end

/-- Every slice of a run is treated so. -/
theorem treats_run (deadlineUs maxPending : Nat) (es : List Event) (s : Slice) (nowUs : Nat) :
    (after deadlineUs maxPending es).Treats s nowUs := by
  obtain ⟨⟨b, frames⟩, hstep⟩ :=
    Option.isSome_iff_exists.mp (step_isSome deadlineUs maxPending es (.slice s nowUs))
  have hframes := (run_keeps deadlineUs maxPending es).1.frames
  generalize after deadlineUs maxPending es = a at hstep hframes ⊢
  rw [Treats, next, out, hstep]
  rw [step] at hstep
  rcases onSlice_cases a s nowUs with ⟨hverdict, -, hcall⟩ | ⟨p, hverdict, -, hp, -, hcall⟩ |
    ⟨p, hverdict, -, hp, -, -, hcall⟩ | ⟨hverdict, -, hcount, hslot, hcall⟩ <;>
    rw [hcall] at hstep
  · rw [if_neg (by simp [hverdict])]
    obtain ⟨rfl, rfl⟩ := Prod.mk.inj (Option.some.inj hstep)
    exact ⟨fun _ => rfl, rfl⟩
  · rw [if_neg (by simp [hverdict])]
    obtain ⟨rfl, rfl⟩ := Prod.mk.inj (Option.some.inj hstep)
    exact ⟨(SameFrames.put hp rfl rfl rfl).lookup, rfl⟩
  · rw [if_neg (by simp [hverdict])]
    obtain ⟨rfl, rfl⟩ := Prod.mk.inj (Option.some.inj hstep)
    exact ⟨(SameFrames.put hp rfl rfl rfl).lookup, rfl⟩
  · rw [if_pos hverdict]
    have hidx : s.idx < (a.entry s.header nowUs).frame.slices.length := hcount ▸ s.idx_lt_count
    have hpayload : slot ((a.entry s.header nowUs).store s.idx s.payload).frame.slices s.idx =
        some s.payload := by
      simp only [Pending.store]
      rw [slot_fill hidx, hslot, if_pos rfl, Option.none_or]
    refine ⟨?_, ?_⟩
    · intro p hp
      rwa [entry_of_some hp] at hslot
    · rcases mem_or_lookup_of_ready ((lookup_put _ _ _ _).trans (if_pos rfl)) hstep with hf | hp
      · refine .inr ⟨_, hf, ?_, hpayload⟩
        cases hp : a.pending.lookup s.seq with
        | none =>
            rw [entry_of_none hp]
            rfl
        | some p =>
            rw [entry_of_some hp]
            exact (hframes s.seq p hp).1
      · exact .inl ⟨_, hp, hpayload⟩

/-- Whatever is fed and polled, no call panics, frames come out in order and hold
what arrived first for their slots, the pending frames are few, newer, begun and
incomplete, every slice has one verdict, and every frame opened is emitted whole
or in part, superseded or pending. -/
theorem run_sound (deadlineUs maxPending : Nat) (es : List Event) :
    (∀ e, ((after deadlineUs maxPending es).step e).isSome) ∧
    ((emitted deadlineUs maxPending es).map AssembledFrame.frameSeq).Pairwise (· < ·) ∧
    (after deadlineUs maxPending es).pending.keys.length ≤ max maxPending 1 ∧
    (∀ k p, (after deadlineUs maxPending es).pending.lookup k = some p →
      (∀ f ∈ emitted deadlineUs maxPending es, f.frameSeq < k) ∧
      (∃ i, (slot p.frame.slices i).isSome) ∧ p.frame.isComplete = false) ∧
    (∀ e, ∀ f ∈ (after deadlineUs maxPending es).out e, Collects (received (es ++ [e])) f) ∧
    (∀ s nowUs, (after deadlineUs maxPending es).Treats s nowUs) ∧
    Counted (verdicts deadlineUs maxPending es) (after deadlineUs maxPending es).stats ∧
    (received es).length = (verdicts deadlineUs maxPending es).count .stored +
      (after deadlineUs maxPending es).stats.slicesLate +
      (after deadlineUs maxPending es).stats.slicesDuplicate +
      (after deadlineUs maxPending es).stats.slicesInconsistent ∧
    (opened deadlineUs maxPending es).Nodup ∧
    (opened deadlineUs maxPending es).length =
      (after deadlineUs maxPending es).stats.framesComplete +
      (after deadlineUs maxPending es).stats.framesPartial +
      (after deadlineUs maxPending es).stats.framesSuperseded +
      (after deadlineUs maxPending es).pending.keys.length := by
  obtain ⟨hbase, hsettled⟩ := run_keeps deadlineUs maxPending es
  have hcounted := counted_run deadlineUs maxPending es
  refine ⟨step_isSome deadlineUs maxPending es, hbase.increasing, hsettled.room, ?_,
    fun e f => collects_of_mem_out deadlineUs maxPending es e,
    treats_run deadlineUs maxPending es, hcounted, ?_, hbase.nodup, hbase.count⟩
  · intro k p hp
    refine ⟨?_, (hbase.frames k p hp).2.exists_slot, hsettled.incomplete k p hp⟩
    intro f hf
    exact hbase.lt_of_pending (mem_iff_exists_lookup.mpr ⟨p, hp⟩) hf
  · rw [← length_verdicts deadlineUs maxPending, length_eq_counts, hcounted.late,
      hcounted.duplicate, hcounted.inconsistent]

end FrameAssembler

end RoboTele
