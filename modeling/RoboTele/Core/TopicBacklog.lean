import RoboTele.Core.TopicRuns

/-!
# The reliable backlog and the keys on the large lane

A lane keeps at most `reliableBacklog` bytes waiting, and a key stays on the
large lane for as long as a sample of it is not taken whole there.

The second holds in every run (`largeInv_after`).  The first one fails by two
bytes: the check of a push counts the frame and not the stream header, which the
first frame of a lane brings along.  `backlogKept_iff` says that nothing else goes
wrong.
-/

namespace RoboTele

open Runs

namespace TopicOutbox

/-- The entry of a key with `n` samples on the large lane. -/
def entryOf (n : Nat) : Option Nat := if n = 0 then none else some n

@[simp] theorem entryOf_zero : entryOf 0 = none := rfl

@[simp] theorem entryOf_succ (n : Nat) : entryOf (n + 1) = some (n + 1) := rfl

@[simp] theorem entryOf_getD : ∀ n, (entryOf n).getD 0 = n
  | 0 => rfl
  | _ + 1 => rfl

theorem entryOf_eq_none_iff : ∀ {n : Nat}, entryOf n = none ↔ n = 0
  | 0 => iff_of_true rfl rfl
  | _ + 1 => iff_of_false nofun nofun

/-- Letting go of the frames that were taken whole would count a key below zero. -/
def Underflows (consumed : Nat) : List (String × Nat) → (AList fun _ : String => Nat) → Prop
  | [], _ => False
  | (key, stop) :: frames, pending =>
      stop ≤ consumed ∧
        (pending.lookup key = some 0 ∨ Underflows consumed frames (countDown pending key))

/-- Taking `n` bytes of a lane would. -/
def ConsumeUnderflows (o : TopicOutbox) (lane : ReliableLane) (n : Nat) : Prop :=
  Underflows ((o.lanes lane).consumed + min n (o.lanes lane).buf.length) (o.lanes lane).frames
    o.largePending

/-! ## Letting go of frames -/

/-- The frames of some samples, the first one starting at `off`. -/
def frameStops (off : Nat) (ss : List TopicSample) : List (String × Nat) :=
  (Framing.stops TopicSample.frameLen off ss).map fun p => (p.1.key, p.2)

/-- `pending` counts these samples. -/
def Counts (pending : AList fun _ : String => Nat) (ss : List TopicSample) : Prop :=
  ∀ key, pending.lookup key = entryOf (ss.countP fun s => s.key = key)

section

variable {pending : AList fun _ : String => Nat} {ss : List TopicSample} {s : TopicSample}

/-- A new sample stops behind the earlier ones. -/
theorem frameStops_concat (off : Nat) (ss : List TopicSample) (s : TopicSample) :
    frameStops off (ss ++ [s]) =
      frameStops off ss ++ [(s.key, off + (ss.map TopicSample.frameLen).sum + s.frameLen)] := by
  rw [frameStops, Framing.stops_concat, List.map_append, frameStops]
  rfl

/-- The first sample's key is counted as often as it is still to come. -/
theorem Counts.lookup_head (h : Counts pending (s :: ss)) :
    pending.lookup s.key = some ((ss.countP fun t => t.key = s.key) + 1) := by
  rw [h s.key, List.countP_cons_of_pos (by simp), entryOf_succ]

/-- The first sample is let go of. -/
theorem Counts.countDown (h : Counts pending (s :: ss)) : Counts (countDown pending s.key) ss := by
  intro key
  rw [TopicOutbox.countDown, h.lookup_head]
  simp only [Nat.add_sub_cancel]
  by_cases hkey : key = s.key
  · subst hkey
    split_ifs with hzero
    · rw [AList.lookup_erase, hzero]
      rfl
    · rw [AList.lookup_insert, entryOf, if_neg hzero]
  · have hother : pending.lookup key = entryOf (ss.countP fun t => t.key = key) := by
      rw [h key, List.countP_cons_of_neg (by simpa using Ne.symm hkey)]
    split_ifs
    · rw [AList.lookup_erase_ne hkey, hother]
    · rw [AList.lookup_insert_ne hkey, hother]

/-- One more sample at the end. -/
theorem Counts.concat (h : Counts pending ss) (s : TopicSample) :
    Counts (pending.insert s.key ((pending.lookup s.key).getD 0 + 1)) (ss ++ [s]) := by
  intro key
  rw [List.countP_append, List.countP_singleton]
  by_cases hkey : key = s.key
  · subst hkey
    rw [AList.lookup_insert, h s.key, entryOf_getD, decide_eq_true rfl, if_pos rfl, entryOf_succ]
  · rw [AList.lookup_insert_ne hkey, h key, decide_eq_false (Ne.symm hkey)]
    rfl

/-- The frames that `consumed` completes are let go of, the others stay. -/
theorem release_frameStops (consumed : Nat) :
    ∀ (ss : List TopicSample) (off : Nat) (pending : AList fun _ : String => Nat),
      Counts pending ss → ∃ pending',
        release consumed (frameStops off ss) pending =
          (frameStops (off + ((Framing.complete TopicSample.frameLen ss
              (consumed - off)).1.map TopicSample.frameLen).sum)
            (Framing.complete TopicSample.frameLen ss (consumed - off)).2.1, pending') ∧
        Counts pending' (Framing.complete TopicSample.frameLen ss (consumed - off)).2.1 ∧
        ¬ Underflows consumed (frameStops off ss) pending
  | [], off, pending, h => ⟨pending, rfl, h, id⟩
  | s :: ss, off, pending, h => by
      have hpos : 0 < s.frameLen := by
        rw [TopicSample.frameLen]
        omega
      rw [frameStops, Framing.stops, List.map_cons, ← frameStops]
      by_cases hstop : off + s.frameLen ≤ consumed
      · obtain ⟨pending', hrelease, hcounts, hsafe⟩ :=
          release_frameStops consumed ss (off + s.frameLen) _ h.countDown
        rw [Framing.complete_cons_of_le _ (by omega : s.frameLen ≤ consumed - off),
          show consumed - off - s.frameLen = consumed - (off + s.frameLen) by omega]
        refine ⟨pending', ?_, hcounts, ?_⟩
        · rw [release, if_pos hstop, hrelease, List.map_cons, List.sum_cons, Nat.add_assoc off]
        · rintro ⟨-, hzero | hunder⟩
          · rw [h.lookup_head] at hzero
            exact absurd (Option.some.inj hzero) (Nat.succ_ne_zero _)
          · exact hsafe hunder
      · rw [Framing.complete_cons_of_lt _ (by omega : consumed - off < s.frameLen)]
        refine ⟨pending, ?_, h, fun hunder => hstop hunder.1⟩
        rw [release, if_neg hstop, List.map_nil, List.sum_nil, Nat.add_zero, frameStops, frameStops,
          Framing.stops, List.map_cons]

end

/-! ## One call -/

section

variable {o : TopicOutbox} {s : TopicSample}

theorem popFrom_keeps (maxLen : Nat) : ∀ (line : List String) (o : TopicOutbox),
    (o.popFrom maxLen line).1.largePending = o.largePending ∧
      (o.popFrom maxLen line).1.reliableBacklog = o.reliableBacklog
  | [], _ => ⟨rfl, rfl⟩
  | key :: rest, o => by
      rw [popFrom]
      split
      · exact ⟨rfl, rfl⟩
      · dsimp only
        split_ifs
        · exact ⟨rfl, rfl⟩
        · exact popFrom_keeps maxLen rest _

theorem pushLatest_keeps (o : TopicOutbox) (s : TopicSample) :
    (o.pushLatest s).largePending = o.largePending ∧
      (o.pushLatest s).reliableBacklog = o.reliableBacklog := by
  rw [pushLatest]
  split_ifs <;> exact ⟨rfl, rfl⟩

theorem reliableBacklog_pushReliable (o : TopicOutbox) (s : TopicSample) :
    (o.pushReliable s).reliableBacklog = o.reliableBacklog := by
  rw [pushReliable]
  dsimp only
  split_ifs <;> rfl

/-- The frames that taking `n` bytes of a lane leaves. -/
theorem frames_consumeReliable_self (o : TopicOutbox) (lane : ReliableLane) (n : Nat) :
    ((o.consumeReliable lane n).lanes lane).frames =
      (release ((o.lanes lane).consumed + min n (o.lanes lane).buf.length) (o.lanes lane).frames
        o.largePending).1 := by
  rw [consumeReliable]
  dsimp only
  rw [Function.update_self]

/-- A sample of the small lane is not counted. -/
theorem pushReliable_of_small (h : o.Accepts s) (hlane : o.laneFor s = .small) :
    (o.pushReliable s).lanes =
        Function.update o.lanes .small ((o.lanes .small).append s) ∧
      (o.pushReliable s).largePending = o.largePending := by
  rw [pushReliable, if_neg (not_not_intro h), hlane]
  exact ⟨rfl, rfl⟩

/-- A sample of the large lane is counted, with the end of its frame. -/
theorem pushReliable_of_large (h : o.Accepts s) (hlane : o.laneFor s = .large) :
    (o.pushReliable s).lanes =
        Function.update o.lanes .large
          { (o.lanes .large).append s with
            frames := (o.lanes .large).frames ++
              [(s.key, (o.lanes .large).consumed + ((o.lanes .large).append s).buf.length)] } ∧
      (o.pushReliable s).largePending =
        o.largePending.insert s.key ((o.largePending.lookup s.key).getD 0 + 1) := by
  rw [pushReliable, if_neg (not_not_intro h), hlane]
  exact ⟨rfl, rfl⟩

end

end TopicOutbox

namespace TopicRun

/-- What the transport took of a lane, in samples: those taken whole, the others,
and the bytes taken of the first of these. -/
def progress (r : TopicRun) (lane : ReliableLane) : List TopicSample × List TopicSample × Nat :=
  Framing.complete TopicSample.frameLen (r.acceptedOn lane) ((r.taken lane).length - 2)

/-- The samples of a lane whose bytes were not all taken. -/
def unfinished (r : TopicRun) (lane : ReliableLane) : List TopicSample := (r.progress lane).2.1

/-- How many of them on the large lane are of a key. -/
def unfinishedOf (r : TopicRun) (key : String) : Nat :=
  (r.unfinished .large).countP fun s => s.key = key

/-! ## What is kept of each state -/

/-- No lane is over its backlog. -/
def WithinBacklog (r : TopicRun) : Prop :=
  ∀ lane, (r.outbox.reliablePending lane).length ≤ r.outbox.reliableBacklog

/-- The outbox knows which keys are on the large lane. -/
structure KnowsKeys (r : TopicRun) : Prop where
  pending : ∀ key, r.outbox.largePending.lookup key = TopicOutbox.entryOf (r.unfinishedOf key)
  counts : ∀ lane n, ¬ r.outbox.ConsumeUnderflows lane n
  returns : ∀ s, s.encodedLen ≤ smallSampleMax →
    (r.outbox.laneFor s = .small ↔ r.unfinishedOf s.key = 0)

/-- In every state of the run no lane is over its backlog and the outbox knows its
keys. -/
def BacklogKept (reliableBacklog : Nat) (es : List Event) : Prop :=
  ∀ past later, es = past ++ later →
    (after reliableBacklog past).WithinBacklog ∧ (after reliableBacklog past).KnowsKeys

/-- The first sample that a lane accepts has room for the stream header too. -/
def HeaderFits (r : TopicRun) : Event → Prop
  | .push .reliable s =>
      r.outbox.Accepts s → (r.outbox.lanes (r.outbox.laneFor s)).started = false →
        topicStreamHeader.length + s.frameLen ≤ r.outbox.reliableBacklog
  | _ => True

/-! ## The keys on the large lane -/

/-- The frames of the lane and the counts are those of its unfinished samples. -/
structure LargeInv (r : TopicRun) : Prop where
  frames : (r.outbox.lanes .large).frames =
    TopicOutbox.frameStops (2 + ((r.progress .large).1.map TopicSample.frameLen).sum)
      (r.unfinished .large)
  small : (r.outbox.lanes .small).frames = []
  counts : TopicOutbox.Counts r.outbox.largePending (r.unfinished .large)

variable {r : TopicRun}

/-- An empty outbox has nothing large pending. -/
theorem LargeInv.new (reliableBacklog : Nat) : (new reliableBacklog).LargeInv where
  frames := rfl
  small := rfl
  counts _ := rfl

/-- A step that touches neither the lanes nor the counts. -/
theorem LargeInv.of_outbox (h : r.LargeInv) {o : TopicOutbox} (ho : o.lanes = r.outbox.lanes)
    (hpending : o.largePending = r.outbox.largePending) : LargeInv { r with outbox := o } where
  frames := by
    rw [ho]
    exact h.frames
  small := by
    rw [ho]
    exact h.small
  counts := by
    rw [hpending]
    exact h.counts

/-- An accepted sample is accepted on its lane. -/
theorem acceptedOn_pushReliable {s : TopicSample} (h : r.outbox.Accepts s) {lane : ReliableLane}
    (hlane : r.outbox.laneFor s = lane) :
    (r.pushReliable s).acceptedOn lane = r.acceptedOn lane ++ [s] := by
  rw [TopicRun.pushReliable, if_pos h, acceptedOn_concat, if_pos hlane]

/-- One more sample on the lane, of whose bytes none is taken. -/
theorem progress_pushReliable (hlane : r.LaneInv .large) {s : TopicSample}
    (h : r.outbox.Accepts s) (hlarge : r.outbox.laneFor s = .large) :
    (r.pushReliable s).progress .large =
      ((r.progress .large).1, r.unfinished .large ++ [s], (r.progress .large).2.2) := by
  have hbytes : (r.taken .large).length - 2 ≤
      ((r.acceptedOn .large).map TopicSample.frameLen).sum := by
    have hlen := congrArg List.length hlane.stream
    rw [List.length_append, length_streamOf, show topicStreamHeader.length = 2 from rfl] at hlen
    split_ifs at hlen with hnone <;> omega
  rw [progress, acceptedOn_pushReliable h hlarge]
  exact Framing.complete_concat _ s.frameLen_pos _ hbytes

/-- What is finished and what is not add up. -/
theorem sum_progress (r : TopicRun) (lane : ReliableLane) :
    ((r.progress lane).1.map TopicSample.frameLen).sum +
        ((r.unfinished lane).map TopicSample.frameLen).sum =
      ((r.acceptedOn lane).map TopicSample.frameLen).sum := by
  rw [← List.sum_append, ← List.map_append, progress, unfinished, progress,
    Framing.complete_append]

/-- Where the frame of a new sample ends. -/
theorem stop_pushReliable (hlane : r.LaneInv .large) {s : TopicSample}
    (h : r.outbox.Accepts s) (hlarge : r.outbox.laneFor s = .large) :
    (r.outbox.lanes .large).consumed + ((r.outbox.lanes .large).append s).buf.length =
      2 + ((r.progress .large).1.map TopicSample.frameLen).sum +
        ((r.unfinished .large).map TopicSample.frameLen).sum + s.frameLen := by
  have hlen := congrArg List.length (hlane.pushReliable s).stream
  rw [acceptedOn_pushReliable h hlarge, length_streamOf, if_neg (by simp), List.map_append,
    List.sum_append, ← sum_progress, List.length_append, TopicRun.pushReliable,
    TopicOutbox.reliablePending, (TopicOutbox.pushReliable_of_large h hlarge).1,
    Function.update_self, ← hlane.consumed] at hlen
  rw [hlen, show topicStreamHeader.length = 2 from rfl, List.map_singleton, List.sum_singleton]
  omega

/-- A sample on the large lane is counted for its key. -/
theorem LargeInv.pushReliable (h : r.LargeInv) (hlane : r.LaneInv .large) (s : TopicSample) :
    (r.pushReliable s).LargeInv := by
  by_cases haccepts : r.outbox.Accepts s
  · cases hdest : r.outbox.laneFor s with
    | small =>
        obtain ⟨hlanes, hpending⟩ := TopicOutbox.pushReliable_of_small haccepts hdest
        have hprogress : (r.pushReliable s).progress .large = r.progress .large := by
          rw [progress, TopicRun.pushReliable, if_pos haccepts, acceptedOn_concat, hdest]
          rfl
        refine ⟨?_, ?_, ?_⟩
        · rw [unfinished, hprogress, TopicRun.pushReliable, hlanes,
            Function.update_of_ne (by decide)]
          exact h.frames
        · rw [TopicRun.pushReliable, hlanes, Function.update_self]
          exact h.small
        · rw [unfinished, hprogress, TopicRun.pushReliable, hpending]
          exact h.counts
    | large =>
        obtain ⟨hlanes, hpending⟩ := TopicOutbox.pushReliable_of_large haccepts hdest
        have hprogress := progress_pushReliable hlane haccepts hdest
        refine ⟨?_, ?_, ?_⟩
        · rw [unfinished, hprogress, TopicOutbox.frameStops_concat, TopicRun.pushReliable, hlanes,
            Function.update_self, h.frames, ← stop_pushReliable hlane haccepts hdest]
        · rw [TopicRun.pushReliable, hlanes, Function.update_of_ne (by decide)]
          exact h.small
        · rw [unfinished, hprogress, TopicRun.pushReliable, hpending]
          exact h.counts.concat s
  · have hsame : r.pushReliable s = { r with outbox := r.outbox.pushReliable s } := by
      rw [TopicRun.pushReliable, if_neg haccepts]
    rw [hsame]
    refine h.of_outbox (TopicOutbox.pushReliable_of_not_accepts haccepts) ?_
    rw [TopicOutbox.pushReliable, if_pos haccepts]

/-- How many bytes of a lane are taken after `n` more. -/
theorem length_taken_consumeReliable {lane : ReliableLane} (hlane : r.LaneInv lane) (n : Nat) :
    ((r.consumeReliable lane n).taken lane).length =
      (r.outbox.lanes lane).consumed + min n (r.outbox.lanes lane).buf.length := by
  have htaken : (r.consumeReliable lane n).taken lane =
      r.taken lane ++ (r.outbox.reliablePending lane).take n := Function.update_self ..
  rw [htaken, List.length_append, List.length_take, hlane.consumed]
  rfl

/-- The progress that `n` more bytes make. -/
theorem progress_consumeReliable (hlane : r.LaneInv .large) (n : Nat) :
    let c := Framing.complete TopicSample.frameLen (r.unfinished .large)
      ((r.outbox.lanes .large).consumed + min n (r.outbox.lanes .large).buf.length -
        (2 + ((r.progress .large).1.map TopicSample.frameLen).sum))
    (r.consumeReliable .large n).progress .large = ((r.progress .large).1 ++ c.1, c.2) := by
  have htaken := length_taken_consumeReliable hlane n
  have hbytes : ((r.progress .large).1.map TopicSample.frameLen).sum + (r.progress .large).2.2 =
      (r.taken .large).length - 2 := Framing.complete_bytes _ _ _
  obtain ⟨more, hmore⟩ : ∃ more, (r.outbox.lanes .large).consumed +
      min n (r.outbox.lanes .large).buf.length - 2 = (r.taken .large).length - 2 + more :=
    ⟨_, (Nat.add_sub_cancel' (by rw [hlane.consumed]; omega)).symm⟩
  have hleft : (r.progress .large).2.2 + more = (r.outbox.lanes .large).consumed +
      min n (r.outbox.lanes .large).buf.length -
        (2 + ((r.progress .large).1.map TopicSample.frameLen).sum) := by omega
  dsimp only
  rw [← hleft, progress, htaken, hmore]
  exact Framing.complete_add_eq _ _ _ _

/-- What is consumed counts down, and never below zero. -/
theorem LargeInv.consumeReliable (h : r.LargeInv) (hlane : r.LaneInv .large) (dest : ReliableLane)
    (n : Nat) :
    (r.consumeReliable dest n).LargeInv ∧ ¬ r.outbox.ConsumeUnderflows dest n := by
  cases dest with
  | small =>
      have hprogress : (r.consumeReliable .small n).progress .large = r.progress .large := rfl
      refine ⟨⟨?_, ?_, ?_⟩, ?_⟩
      · rw [unfinished, hprogress]
        exact (congrArg Lane.frames (r.outbox.lanes_consumeReliable_ne (by decide) n)).trans
          h.frames
      · refine (r.outbox.frames_consumeReliable_self .small n).trans ?_
        rw [h.small]
        rfl
      · rw [unfinished, hprogress, TopicRun.consumeReliable, TopicOutbox.consumeReliable, h.small]
        exact h.counts
      · rw [TopicOutbox.ConsumeUnderflows, h.small]
        exact id
  | large =>
      obtain ⟨pending', hrelease, hcounts, hsafe⟩ := TopicOutbox.release_frameStops
        ((r.outbox.lanes .large).consumed + min n (r.outbox.lanes .large).buf.length)
        (r.unfinished .large) _ _ h.counts
      rw [← h.frames] at hrelease hsafe
      have hprogress := progress_consumeReliable hlane n
      dsimp only at hprogress
      refine ⟨⟨?_, ?_, ?_⟩, hsafe⟩
      · rw [unfinished, hprogress, List.map_append, List.sum_append, ← Nat.add_assoc]
        exact (r.outbox.frames_consumeReliable_self .large n).trans (congrArg Prod.fst hrelease)
      · exact (congrArg Lane.frames (r.outbox.lanes_consumeReliable_ne (by decide) n)).trans h.small
      · rw [unfinished, hprogress, TopicRun.consumeReliable, TopicOutbox.consumeReliable]
        dsimp only
        rw [hrelease]
        exact hcounts

/-- Every event keeps the counts of the large lane. -/
theorem LargeInv.step (h : r.LargeInv) (hlane : r.LaneInv .large) (e : Event) :
    (r.step e).LargeInv := by
  cases e with
  | push mode s =>
      cases mode with
      | latest =>
          exact h.of_outbox (r.outbox.lanes_pushLatest s) (r.outbox.pushLatest_keeps s).1
      | reliable => exact h.pushReliable hlane s
  | popDatagram maxLen =>
      exact h.of_outbox (TopicOutbox.lanes_popFrom maxLen _ r.outbox)
        (TopicOutbox.popFrom_keeps maxLen _ r.outbox).1
  | consumeReliable dest n => exact (h.consumeReliable hlane dest n).1

/-- So does every run. -/
theorem largeInv_after (reliableBacklog : Nat) (es : List Event) :
    (after reliableBacklog es).LargeInv := by
  induction es using List.reverseRecOn with
  | nil => exact .new reliableBacklog
  | append_singleton es e ih =>
      rw [after, exec_concat]
      exact ih.step (laneInv_after reliableBacklog es .large) e

/-- The counts are right, so no key is counted below zero and each goes back to the
small lane in time. -/
theorem LargeInv.knowsKeys (h : r.LargeInv) (hlane : r.LaneInv .large) : r.KnowsKeys where
  pending := h.counts
  counts lane n := (h.consumeReliable hlane lane n).2
  returns s hsmall := by
    have hpending := h.counts s.key
    have hmem : s.key ∈ r.outbox.largePending ↔ r.unfinishedOf s.key ≠ 0 := by
      rw [← AList.lookup_isSome, hpending, ← Option.ne_none_iff_isSome, Ne,
        TopicOutbox.entryOf_eq_none_iff]
      rfl
    rw [TopicOutbox.laneFor]
    split_ifs with hlarge
    · exact iff_of_false nofun (hmem.mp (hlarge.resolve_left (Nat.not_lt.mpr hsmall)))
    · exact iff_of_true rfl (not_not.mp (mt hmem.mpr (not_or.mp hlarge).2))

/-! ## The backlog -/

/-- What waits on a lane after a sample was accepted on it. -/
theorem length_pending_pushReliable {s : TopicSample} (h : r.outbox.Accepts s) :
    ((r.pushReliable s).outbox.reliablePending (r.outbox.laneFor s)).length =
      (r.outbox.reliablePending (r.outbox.laneFor s)).length +
        (if (r.outbox.lanes (r.outbox.laneFor s)).started then 0 else topicStreamHeader.length) +
          s.frameLen := by
  obtain ⟨frames, hframes⟩ := TopicOutbox.lanes_pushReliable_self h
  have hself : ((r.pushReliable s).outbox.lanes (r.outbox.laneFor s)) =
      { (r.outbox.lanes (r.outbox.laneFor s)).append s with frames } := hframes
  rw [TopicOutbox.reliablePending, hself]
  simp only [Lane.append, List.length_append, TopicSample.length_frame, TopicOutbox.reliablePending]
  split_ifs <;> rfl

/-- A lane that has not started has nothing pending. -/
theorem pending_of_not_started {lane : ReliableLane} (h : r.LaneInv lane)
    (hstarted : (r.outbox.lanes lane).started = false) : r.outbox.reliablePending lane = [] := by
  have hnone : r.acceptedOn lane = [] := by
    by_contra hne
    rw [h.started.mpr hne] at hstarted
    cases hstarted
  have hstream := h.stream
  rw [hnone] at hstream
  exact (List.append_eq_nil_iff.mp hstream).2

/-- A step that touches no lane. -/
theorem WithinBacklog.of_lanes (h : r.WithinBacklog) {o : TopicOutbox}
    (ho : o.lanes = r.outbox.lanes) (hbacklog : o.reliableBacklog = r.outbox.reliableBacklog) :
    WithinBacklog { r with outbox := o } := by
  intro lane
  rw [TopicOutbox.reliablePending, ho, hbacklog]
  exact h lane

/-- Reading the lanes keeps them within the backlog. -/
theorem WithinBacklog.consumeReliable (h : r.WithinBacklog) (dest : ReliableLane) (n : Nat) :
    (r.consumeReliable dest n).WithinBacklog := by
  intro lane
  refine le_trans ?_ (h lane)
  by_cases hlane : lane = dest
  · subst hlane
    obtain ⟨frames, hframes⟩ := r.outbox.lanes_consumeReliable_self lane n
    rw [TopicOutbox.reliablePending, TopicRun.consumeReliable, hframes, List.length_drop]
    exact Nat.sub_le _ _
  · rw [TopicOutbox.reliablePending, TopicRun.consumeReliable,
      r.outbox.lanes_consumeReliable_ne hlane]
    exact le_rfl

/-- An accepted sample keeps its lane within the backlog if the header that comes with
it fits. -/
theorem withinBacklog_pushReliable_iff (hinv : ∀ lane, r.LaneInv lane) (h : r.WithinBacklog)
    {s : TopicSample} (haccepts : r.outbox.Accepts s) :
    (r.pushReliable s).WithinBacklog ↔
      ((r.outbox.lanes (r.outbox.laneFor s)).started = false →
        topicStreamHeader.length + s.frameLen ≤ r.outbox.reliableBacklog) := by
  have hself : (r.pushReliable s).WithinBacklog ↔
      ((r.pushReliable s).outbox.reliablePending (r.outbox.laneFor s)).length ≤
        r.outbox.reliableBacklog := by
    rw [← r.outbox.reliableBacklog_pushReliable s]
    refine ⟨fun hkept => hkept _, fun hkept lane => ?_⟩
    by_cases hlane : lane = r.outbox.laneFor s
    · exact hlane ▸ hkept
    · rw [TopicOutbox.reliablePending, TopicRun.pushReliable,
        TopicOutbox.lanes_pushReliable_ne hlane, r.outbox.reliableBacklog_pushReliable]
      exact h lane
  have hroom : (r.outbox.reliablePending (r.outbox.laneFor s)).length + s.frameLen ≤
      r.outbox.reliableBacklog := by
    have hle := Nat.not_lt.mp (not_or.mp haccepts).2
    rwa [Nat.add_assoc] at hle
  rw [hself, length_pending_pushReliable haccepts]
  cases hstarted : (r.outbox.lanes (r.outbox.laneFor s)).started with
  | true =>
      rw [if_pos rfl, Nat.add_zero]
      exact iff_of_true hroom fun hfresh => absurd hfresh.symm Bool.false_ne_true
  | false =>
      rw [pending_of_not_started (hinv _) hstarted, List.length_nil, Nat.zero_add,
        if_neg Bool.false_ne_true]
      exact (imp_iff_right rfl).symm

/-- A step keeps the lanes within the backlog exactly if the header of a lane that
it starts fits too. -/
theorem withinBacklog_step_iff (hinv : ∀ lane, r.LaneInv lane) (e : Event) (h : r.WithinBacklog) :
    (r.step e).WithinBacklog ↔ r.HeaderFits e := by
  cases e with
  | push mode s =>
      cases mode with
      | latest =>
          exact iff_of_true
            (h.of_lanes (r.outbox.lanes_pushLatest s) (r.outbox.pushLatest_keeps s).2) trivial
      | reliable =>
          by_cases haccepts : r.outbox.Accepts s
          · exact (withinBacklog_pushReliable_iff hinv h haccepts).trans
              (imp_iff_right haccepts).symm
          · refine iff_of_true ?_ fun haccepts' => absurd haccepts' haccepts
            exact h.of_lanes (TopicOutbox.pushReliable_of_not_accepts haccepts)
              (r.outbox.reliableBacklog_pushReliable s)
  | popDatagram maxLen =>
      exact iff_of_true (h.of_lanes (TopicOutbox.lanes_popFrom maxLen _ r.outbox)
        (TopicOutbox.popFrom_keeps maxLen _ r.outbox).2) trivial
  | consumeReliable dest n => exact iff_of_true (h.consumeReliable dest n) trivial

/-- No lane is ever over its backlog exactly if the first sample that it accepts fits
with the stream header, and the outbox always knows which keys are on the large lane. -/
theorem backlogKept_iff (reliableBacklog : Nat) (es : List Event) :
    BacklogKept reliableBacklog es ↔ Along step HeaderFits (new reliableBacklog) es := by
  have hknows (past : List Event) : (after reliableBacklog past).KnowsKeys :=
    (largeInv_after reliableBacklog past).knowsKeys (laneInv_after reliableBacklog past .large)
  refine every_past_iff_along ⟨fun _ => Nat.zero_le _, hknows []⟩ (fun es e h => ?_) es
  rw [and_iff_left (hknows (es ++ [e])), after, exec_concat]
  exact withinBacklog_step_iff (laneInv_after reliableBacklog es) e h.1

/-- A sample whose frame is as long as the backlog. -/
def fillingSample : TopicSample where
  key := "map"
  attachment := []
  payload := List.replicate (defaultReliableBacklog - 13) 0

/-- The sample fills the backlog, but for the length in front of it. -/
theorem encodedLen_fillingSample :
    fillingSample.encodedLen = defaultReliableBacklog - 4 := by
  rw [TopicSample.encodedLen, show fillingSample.payload = List.replicate _ 0 from rfl,
    List.length_replicate]
  decide

/-- With the stream's header the backlog is exceeded. -/
theorem not_backlogKept_fillingSample :
    ¬ ∀ reliableBacklog es, BacklogKept reliableBacklog es := by
  intro h
  have haccepts : (new defaultReliableBacklog).outbox.Accepts fillingSample := by
    rw [TopicOutbox.Accepts, encodedLen_fillingSample]
    decide
  have hkept := (h defaultReliableBacklog [.push .reliable fillingSample]
    [.push .reliable fillingSample] [] rfl).1
  have hfits := (withinBacklog_pushReliable_iff (laneInv_after defaultReliableBacklog [])
    (fun _ => Nat.zero_le _) haccepts).mp hkept rfl
  rw [TopicSample.frameLen, encodedLen_fillingSample] at hfits
  exact absurd hfits (by decide)

end TopicRun

end RoboTele
