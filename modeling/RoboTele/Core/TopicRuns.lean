import RoboTele.Core.TopicOutbox

/-!
# From the outbox to the reader

A run of the outbox accepts samples on its two lanes while the transport takes
bytes off them, any number at a time.  `LaneInv` ties the two together: the
bytes that were taken and the bytes that wait are the stream of the samples
that were accepted on the lane.  So a reader that gets the taken bytes in any
pieces yields the samples whose frames are complete (`samplesOf_feed`).
-/

namespace RoboTele

open Runs

/-- The outbox, the samples it accepted with their lanes, and the bytes of each
lane that the transport took. -/
structure TopicRun where
  outbox : TopicOutbox
  accepted : List (ReliableLane × TopicSample)
  taken : ReliableLane → Bytes

namespace TopicRun

/-- A call of the outbox. -/
inductive Event where
  | push (mode : TopicMode) (s : TopicSample)
  | popDatagram (maxLen : Nat)
  | consumeReliable (lane : ReliableLane) (n : Nat)
deriving DecidableEq

/-- The keys of reliable samples pass the check, as the bridge sees to. -/
def Event.KeyOk : Event → Prop
  | .push .reliable s => checkKey s.key = .ok ()
  | _ => True

instance : DecidablePred Event.KeyOk
  | .push .reliable s => inferInstanceAs (Decidable (checkKey s.key = .ok ()))
  | .push .latest _ => .isTrue trivial
  | .popDatagram _ => .isTrue trivial
  | .consumeReliable _ _ => .isTrue trivial

/-- Nothing was pushed. -/
def new (reliableBacklog : Nat) : TopicRun where
  outbox := .withBacklog reliableBacklog
  accepted := []
  taken _ := []

/-- Push, and note whether the sample was accepted. -/
def pushReliable (r : TopicRun) (s : TopicSample) : TopicRun :=
  { r with
    outbox := r.outbox.pushReliable s
    accepted :=
      if r.outbox.Accepts s then r.accepted ++ [(r.outbox.laneFor s, s)] else r.accepted }

/-- Consume, and note the bytes that were taken. -/
def consumeReliable (r : TopicRun) (lane : ReliableLane) (n : Nat) : TopicRun :=
  { r with
    outbox := r.outbox.consumeReliable lane n
    taken := Function.update r.taken lane
      (r.taken lane ++ (r.outbox.reliablePending lane).take n) }

/-- A call of the outbox. -/
def step (r : TopicRun) : Event → TopicRun
  | .push .latest s => { r with outbox := r.outbox.pushLatest s }
  | .push .reliable s => r.pushReliable s
  | .popDatagram maxLen => { r with outbox := (r.outbox.popDatagram maxLen).1 }
  | .consumeReliable lane n => r.consumeReliable lane n

/-- The outbox and its history after some calls. -/
def after (reliableBacklog : Nat) (es : List Event) : TopicRun := exec step (new reliableBacklog) es

/-- The samples accepted on a lane. -/
def acceptedOn (r : TopicRun) (lane : ReliableLane) : List TopicSample :=
  (r.accepted.filter fun a => a.1 = lane).map Prod.snd

/-- The samples that the transport took whole. -/
def takenWhole (r : TopicRun) (lane : ReliableLane) : List TopicSample :=
  (Framing.complete TopicSample.frameLen (r.acceptedOn lane) ((r.taken lane).length - 2)).1

end TopicRun

/-! ## The lanes of one call -/

namespace TopicOutbox

variable {o : TopicOutbox} {s : TopicSample}

theorem lanes_popFrom (maxLen : Nat) : ∀ (line : List String) (o : TopicOutbox),
    (o.popFrom maxLen line).1.lanes = o.lanes
  | [], _ => rfl
  | key :: rest, o => by
      rw [popFrom]
      split
      · rfl
      · show (if _ then _ else _ : TopicOutbox × Option Bytes).1.lanes = o.lanes
        split_ifs
        · rfl
        · exact lanes_popFrom maxLen rest _

@[simp] theorem lanes_pushLatest (o : TopicOutbox) (s : TopicSample) :
    (o.pushLatest s).lanes = o.lanes := by
  rw [pushLatest]
  split_ifs <;> rfl

/-- A sample that is refused changes no lane. -/
theorem pushReliable_of_not_accepts (h : ¬ o.Accepts s) : (o.pushReliable s).lanes = o.lanes := by
  rw [pushReliable, if_pos h]

/-- The sample goes on its lane. -/
theorem lanes_pushReliable_self (h : o.Accepts s) :
    ∃ frames, (o.pushReliable s).lanes (o.laneFor s) =
      { (o.lanes (o.laneFor s)).append s with frames } := by
  rw [pushReliable, if_neg (not_not_intro h)]
  by_cases hlarge : o.laneFor s = .large
  · simp only [hlarge, if_true]
    exact ⟨_, Function.update_self ..⟩
  · simp only [if_neg hlarge]
    exact ⟨(o.lanes (o.laneFor s)).frames, Function.update_self ..⟩

/-- A sample changes its own lane only. -/
theorem lanes_pushReliable_ne {lane : ReliableLane} (hlane : lane ≠ o.laneFor s) :
    (o.pushReliable s).lanes lane = o.lanes lane := by
  by_cases h : o.Accepts s
  · rw [pushReliable, if_neg (not_not_intro h)]
    by_cases hlarge : o.laneFor s = .large
    · simp only [if_pos hlarge]
      exact Function.update_of_ne hlane ..
    · simp only [if_neg hlarge]
      exact Function.update_of_ne hlane ..
  · rw [pushReliable_of_not_accepts h]

/-- What is consumed leaves the front of its lane. -/
theorem lanes_consumeReliable_self (o : TopicOutbox) (lane : ReliableLane) (n : Nat) :
    ∃ frames, (o.consumeReliable lane n).lanes lane =
      { o.lanes lane with
        buf := (o.lanes lane).buf.drop (min n (o.lanes lane).buf.length)
        consumed := (o.lanes lane).consumed + min n (o.lanes lane).buf.length
        frames } :=
  ⟨_, Function.update_self ..⟩

/-- It leaves no other lane. -/
theorem lanes_consumeReliable_ne (o : TopicOutbox) {lane dest : ReliableLane} (hlane : lane ≠ dest)
    (n : Nat) : (o.consumeReliable dest n).lanes lane = o.lanes lane :=
  Function.update_of_ne hlane ..

end TopicOutbox

namespace TopicRun

/-! ## What a lane carries -/

/-- The lane's bytes are the stream of its samples. -/
structure LaneInv (r : TopicRun) (lane : ReliableLane) : Prop where
  stream : r.taken lane ++ r.outbox.reliablePending lane = streamOf (r.acceptedOn lane)
  started : (r.outbox.lanes lane).started = true ↔ r.acceptedOn lane ≠ []
  consumed : (r.outbox.lanes lane).consumed = (r.taken lane).length

/-- A sample adds its frame to the stream, and the header if it is the first. -/
theorem streamOf_concat (ss : List TopicSample) (s : TopicSample) :
    streamOf (ss ++ [s]) =
      streamOf ss ++ (if ss = [] then topicStreamHeader else []) ++ s.frame := by
  by_cases h : ss = []
  · subst h
    simp [streamOf]
  · simp [streamOf, h]

variable {r : TopicRun} {lane : ReliableLane}

theorem acceptedOn_concat (r : TopicRun) (lane dest : ReliableLane) (s : TopicSample)
    (o : TopicOutbox) :
    acceptedOn { r with outbox := o, accepted := r.accepted ++ [(dest, s)] } lane =
      if dest = lane then r.acceptedOn lane ++ [s] else r.acceptedOn lane := by
  rw [acceptedOn, List.filter_append, List.map_append, acceptedOn]
  by_cases h : dest = lane
  · simp [h]
  · simp [h]

/-- A sample is written behind what is unread of its lane. -/
theorem LaneInv.pushReliable (h : r.LaneInv lane) (s : TopicSample) :
    (r.pushReliable s).LaneInv lane := by
  rw [TopicRun.pushReliable]
  by_cases haccepts : r.outbox.Accepts s
  · rw [if_pos haccepts]
    by_cases hlane : r.outbox.laneFor s = lane
    · obtain ⟨frames, hframes⟩ := TopicOutbox.lanes_pushReliable_self haccepts
      rw [hlane] at hframes
      refine ⟨?_, ?_, ?_⟩
      · rw [acceptedOn_concat, if_pos hlane, streamOf_concat, ← h.stream,
          TopicOutbox.reliablePending, hframes]
        show r.taken lane ++
          (_ ++ (if (r.outbox.lanes lane).started = true then [] else _) ++ _) = _
        rw [if_congr h.started rfl rfl, ite_not]
        simp only [TopicOutbox.reliablePending, List.append_assoc]
      · rw [acceptedOn_concat, if_pos hlane, hframes]
        simp [Lane.append]
      · rw [hframes]
        exact h.consumed
    · have hsame := TopicOutbox.lanes_pushReliable_ne (o := r.outbox) (s := s) (Ne.symm hlane)
      refine ⟨?_, ?_, ?_⟩
      · rw [acceptedOn_concat, if_neg hlane, TopicOutbox.reliablePending, hsame]
        exact h.stream
      · rw [acceptedOn_concat, if_neg hlane, hsame]
        exact h.started
      · rw [hsame]
        exact h.consumed
  · rw [if_neg haccepts]
    have hsame := TopicOutbox.pushReliable_of_not_accepts haccepts
    refine ⟨?_, ?_, ?_⟩
    · rw [TopicOutbox.reliablePending, hsame]
      exact h.stream
    · rw [hsame]
      exact h.started
    · rw [hsame]
      exact h.consumed

theorem take_append_drop_min (b : Bytes) (n : Nat) :
    b.take n ++ b.drop (min n b.length) = b := by
  rcases Nat.le_total n b.length with hle | hle
  · rw [Nat.min_eq_left hle, List.take_append_drop]
  · rw [Nat.min_eq_right hle, List.take_of_length_le hle, List.drop_length, List.append_nil]

/-- What is consumed was next on the stream. -/
theorem LaneInv.consumeReliable (h : r.LaneInv lane) (dest : ReliableLane) (n : Nat) :
    (r.consumeReliable dest n).LaneInv lane := by
  by_cases hlane : lane = dest
  · subst hlane
    obtain ⟨frames, hframes⟩ := r.outbox.lanes_consumeReliable_self lane n
    have htaken : (r.consumeReliable lane n).taken lane =
        r.taken lane ++ (r.outbox.reliablePending lane).take n := Function.update_self ..
    refine ⟨?_, ?_, ?_⟩
    · show _ ++ ((r.outbox.consumeReliable lane n).lanes lane).buf = streamOf (r.acceptedOn lane)
      rw [htaken, hframes, List.append_assoc, TopicOutbox.reliablePending, take_append_drop_min]
      exact h.stream
    · show ((r.outbox.consumeReliable lane n).lanes lane).started = true ↔ _
      rw [hframes]
      exact h.started
    · show ((r.outbox.consumeReliable lane n).lanes lane).consumed = _
      rw [htaken, hframes, List.length_append, List.length_take, ← h.consumed]
      rfl
  · have hsame := r.outbox.lanes_consumeReliable_ne hlane n
    have htaken : (r.consumeReliable dest n).taken lane = r.taken lane :=
      Function.update_of_ne hlane ..
    refine ⟨?_, ?_, ?_⟩
    · show _ ++ ((r.outbox.consumeReliable dest n).lanes lane).buf = streamOf (r.acceptedOn lane)
      rw [htaken, hsame]
      exact h.stream
    · show ((r.outbox.consumeReliable dest n).lanes lane).started = true ↔ _
      rw [hsame]
      exact h.started
    · show ((r.outbox.consumeReliable dest n).lanes lane).consumed = _
      rw [htaken, hsame]
      exact h.consumed

/-- A step that touches no lane. -/
theorem LaneInv.of_lanes (h : r.LaneInv lane) {o : TopicOutbox} (ho : o.lanes = r.outbox.lanes) :
    LaneInv { r with outbox := o } lane := by
  refine ⟨?_, ?_, ?_⟩
  · show _ ++ (o.lanes lane).buf = _
    rw [ho]
    exact h.stream
  · rw [ho]
    exact h.started
  · rw [ho]
    exact h.consumed

/-- Every event keeps the lanes' account. -/
theorem LaneInv.step (h : r.LaneInv lane) (e : Event) : (r.step e).LaneInv lane := by
  cases e with
  | push mode s =>
      cases mode with
      | latest => exact h.of_lanes (r.outbox.lanes_pushLatest s)
      | reliable => exact h.pushReliable s
  | popDatagram maxLen => exact h.of_lanes (TopicOutbox.lanes_popFrom maxLen _ r.outbox)
  | consumeReliable dest n => exact h.consumeReliable dest n

/-- So does every run. -/
theorem laneInv_after (reliableBacklog : Nat) (es : List Event) (lane : ReliableLane) :
    (after reliableBacklog es).LaneInv lane := by
  refine exec_inv (I := fun r : TopicRun => r.LaneInv lane) (fun _ e h => h.step e) es
    ⟨rfl, ?_, rfl⟩
  simp [new, TopicOutbox.withBacklog, acceptedOn]

/-! ## Datagrams in line -/

theorem lineUp_step (e : Event) (h : r.outbox.LineUp) : (r.step e).outbox.LineUp := by
  cases e with
  | push mode s =>
      cases mode with
      | latest => exact h.pushLatest s
      | reliable => exact h.pushReliable s
  | popDatagram maxLen => exact h.popFrom
  | consumeReliable lane n => exact h.of_eq rfl rfl

/-- In every state each key in line has its datagram. -/
theorem lineUp_after (reliableBacklog : Nat) (es : List Event) :
    (after reliableBacklog es).outbox.LineUp :=
  exec_inv (I := fun r : TopicRun => r.outbox.LineUp) (fun _ e => lineUp_step e) es
    (TopicOutbox.lineUp_withBacklog reliableBacklog)

/-! ## What the reader yields -/

/-- Every accepted sample is one that the reader takes. -/
def AllSendable (r : TopicRun) : Prop := ∀ a ∈ r.accepted, a.2.Sendable

/-- A sample with a key that is checked can be sent. -/
theorem AllSendable.step (h : r.AllSendable) {e : Event} (he : e.KeyOk) :
    (r.step e).AllSendable := by
  cases e with
  | push mode s =>
      cases mode with
      | latest => exact h
      | reliable =>
          intro a ha
          rw [TopicRun.step, TopicRun.pushReliable] at ha
          by_cases haccepts : r.outbox.Accepts s
          · simp only [if_pos haccepts, List.mem_append, List.mem_singleton] at ha
            rcases ha with hold | rfl
            · exact h a hold
            · exact ⟨Nat.not_lt.mp (not_or.mp haccepts).1, he⟩
          · simp only [if_neg haccepts] at ha
            exact h a ha
  | popDatagram maxLen => exact h
  | consumeReliable dest n => exact h

/-- All samples of a run with such keys can be sent. -/
theorem allSendable_after (reliableBacklog : Nat) (es : List Event) (hkeys : ∀ e ∈ es, e.KeyOk) :
    (after reliableBacklog es).AllSendable := by
  refine exec_inv_of_forall (I := AllSendable) (P := Event.KeyOk)
    (fun _ _ h he => h.step he) es ?_ hkeys
  intro a ha
  exact absurd ha List.not_mem_nil

theorem AllSendable.acceptedOn (h : r.AllSendable) (lane : ReliableLane) :
    ∀ s ∈ r.acceptedOn lane, s.Sendable := by
  intro s hs
  obtain ⟨a, ha, rfl⟩ := List.mem_map.mp hs
  exact h a (List.mem_of_mem_filter ha)

@[simp] theorem samplesOf_map_ok (ss : List TopicSample) :
    samplesOf (ss.map .ok) = ss := by
  rw [samplesOf, List.filterMap_map]
  exact List.filterMap_some

@[simp] theorem errorsOf_map_ok (ss : List TopicSample) : errorsOf (ss.map .ok) = [] := by
  rw [errorsOf, List.filterMap_map, List.filterMap_eq_nil_iff]
  intro s _
  rfl

/-- A reader fed what was taken of a lane, and nothing else. -/
theorem LaneInv.feed (h : r.LaneInv lane) (hgood : r.AllSendable) {chunks : List Bytes}
    (hchunks : chunks.flatten = r.taken lane) :
    (TopicStreamReader.new.feed chunks).2 = (r.takenWhole lane).map .ok := by
  rw [TopicStreamReader.feed_streamOf (hgood.acceptedOn lane) ⟨_, hchunks ▸ h.stream⟩, hchunks]
  rfl

/-- With nothing left to take, every sample of the lane was taken whole. -/
theorem LaneInv.takenWhole_of_empty (h : r.LaneInv lane)
    (hempty : r.outbox.reliablePending lane = []) : r.takenWhole lane = r.acceptedOn lane := by
  have hstream := h.stream
  rw [hempty, List.append_nil] at hstream
  rw [takenWhole, hstream, length_streamOf]
  split_ifs with hnil
  · rw [hnil]
    rfl
  · rw [show topicStreamHeader.length = 2 from rfl, Nat.add_sub_cancel_left, Framing.complete_sum]

end TopicRun

/-- A reader of a lane yields the samples that were taken whole, in order and
without errors, from a stream that carries its header once.  However any stream
is split, it gives the same samples and errors, nothing after it failed, and no
sample with a bad key. -/
theorem topicStream_exact (reliableBacklog : Nat) :
    (∀ es : List TopicRun.Event, (∀ e ∈ es, e.KeyOk) → ∀ lane chunks,
      chunks.flatten = (TopicRun.after reliableBacklog es).taken lane →
        let r := TopicRun.after reliableBacklog es
        let outs := (TopicStreamReader.new.feed chunks).2
        samplesOf outs = r.takenWhole lane ∧ errorsOf outs = [] ∧
          (r.outbox.reliablePending lane = [] → samplesOf outs = r.acceptedOn lane) ∧
          r.taken lane ++ r.outbox.reliablePending lane = streamOf (r.acceptedOn lane)) ∧
    (∀ chunks : List Bytes,
      let split := (TopicStreamReader.new.feed chunks).2
      let whole := (TopicStreamReader.new.push chunks.flatten).2
      samplesOf split = samplesOf whole ∧ errorsOf split = errorsOf whole) ∧
    (∀ chunks more : List Bytes, (TopicStreamReader.new.feed chunks).1.failed = true →
      ((TopicStreamReader.new.feed chunks).1.feed more).2 = []) ∧
    (∀ chunks : List Bytes, ∀ s ∈ samplesOf (TopicStreamReader.new.feed chunks).2,
      checkKey s.key = .ok ()) := by
  refine ⟨?_, ?_, ?_, ?_⟩
  · intro es hkeys lane chunks hchunks
    have hinv := TopicRun.laneInv_after reliableBacklog es lane
    have houts := hinv.feed (TopicRun.allSendable_after reliableBacklog es hkeys) hchunks
    refine ⟨?_, ?_, ?_, hinv.stream⟩
    · rw [houts, TopicRun.samplesOf_map_ok]
    · rw [houts, TopicRun.errorsOf_map_ok]
    · intro hempty
      rw [houts, TopicRun.samplesOf_map_ok, hinv.takenWhole_of_empty hempty]
  · intro chunks
    rw [TopicStreamReader.feed_flatten]
    exact ⟨rfl, rfl⟩
  · intro chunks more hfailed
    rw [TopicStreamReader.feed_of_failed hfailed]
  · intro chunks s hs
    rw [TopicStreamReader.feed_flatten] at hs
    exact TopicStreamReader.checkKey_of_mem_samplesOf hs

/-- Two samples, taken in two pieces and read in two others. -/
def twoSamples : List TopicRun.Event :=
  [.push .reliable { key := "a/b", attachment := [1], payload := [2, 3] },
    .consumeReliable .small 9,
    .push .reliable { key := "c", attachment := [], payload := [4] },
    .consumeReliable .small 100]

/-- Two samples of one stream, read in pieces. -/
theorem topicStream_exact_twoSamples :
    let r := TopicRun.after defaultReliableBacklog twoSamples
    samplesOf (TopicStreamReader.new.feed
      [(r.taken .small).take 5, (r.taken .small).drop 5]).2 = r.acceptedOn .small :=
  ((topicStream_exact defaultReliableBacklog).1 twoSamples (by decide +kernel) .small _
    (by simp)).2.2.1 (by decide +kernel)

end RoboTele
