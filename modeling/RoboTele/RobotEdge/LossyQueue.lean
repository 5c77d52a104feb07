import RoboTele.Core.Clock
import RoboTele.Core.Video
import RoboTele.Queues.ChunkQueue
import RoboTele.Runs.Machine
import Mathlib.Logic.Function.Basic

/-!
# The queue of lossy datagrams

Video chunks and sensor slices wait here until quiche has room for them, and
video and sensors take turns.  Waiting here is what lets stale data be dropped
before it is sent.

* A delta that has waited longer than `videoMaxWait` takes every waiting delta
  with it, and later deltas are skipped until the next IDR.
* An IDR drops everything older except the parameter sets, and ends a skip.
* A parameter set drops the waiting one of its kind.

`pushed` and `sent` record the run.  A NAL is known by its place in `pushed`,
and every chunk in `sent` carries that number.  The video side is a queue of
chunked items (`chunkQueue`), and each operation is one of its operations.

`step_inv_video` is the rule that the results about video share: what holds of
the video side need only be kept by a push, by the drop of the deltas and by
the pop of a chunk.
-/

namespace RoboTele

open Runs Queues

/-- How long a delta may wait. -/
def videoMaxWait : Nat := fromMillis 150

/-- The tagged datagrams a NAL travels in. -/
def Nal.datagrams (n : Nal) : List Bytes :=
  (chunkNal n.nalId n.nal).map (tag datagramTagChannelA)

/-- A waiting NAL.  `chunks` are the datagrams not yet sent, and `number` is its
place among the pushed ones. -/
structure PendingNal where
  number : Nat
  nalType : UInt8
  queuedAt : Instant
  chunks : List Bytes
deriving DecidableEq

/-- What the queue has thrown away. -/
structure LossyStats where
  videoNalsDropped : Nat
  sensorFramesCut : Nat
  sensorFramesSkipped : Nat
  sensorSlicesDropped : Nat
deriving DecidableEq

/-- What a new frame does to an unfinished one: replace its unsent slices, or
wait for a frame that has started. -/
inductive SensorFramePolicy where
  | cut
  | finish
deriving DecidableEq

/-- The frame being sent, and at most one whole frame behind it. -/
structure SensorQueue where
  current : List Bytes
  started : Bool
  waiting : Option (List Bytes)
deriving DecidableEq

namespace SensorQueue

def empty : SensorQueue where
  current := []
  started := false
  waiting := none

/-- Nothing of the sensor waits. -/
def isEmpty (sq : SensorQueue) : Bool := sq.current.isEmpty && sq.waiting.isNone

/-- The frame `datagrams` is the one being sent. -/
def restart (sq : SensorQueue) (datagrams : List Bytes) : SensorQueue :=
  { sq with current := datagrams, started := false }

/-- The waiting frame moves up, if there is one. -/
def advance (sq : SensorQueue) : SensorQueue :=
  match sq.waiting with
  | none => sq
  | some frame => { current := frame, started := false, waiting := none }

end SensorQueue

/-- Video and the sensors' slices that wait for the network.  `pushed` and `sent` are its history.
-/
structure LossyQueue where
  video : List PendingNal
  sensors : UInt8 → SensorQueue
  sensorPolicy : SensorFramePolicy
  skipDeltasUntilIdr : Bool
  videoTurn : Bool
  lastSensor : Option UInt8
  stats : LossyStats
  pushed : List Nal
  sent : List (Nat × Bytes)

namespace LossyQueue

def withSensorPolicy (sensorPolicy : SensorFramePolicy) : LossyQueue where
  video := []
  sensors _ := .empty
  sensorPolicy := sensorPolicy
  skipDeltasUntilIdr := false
  videoTurn := false
  lastSensor := none
  stats :=
    { videoNalsDropped := 0
      sensorFramesCut := 0
      sensorFramesSkipped := 0
      sensorSlicesDropped := 0 }
  pushed := []
  sent := []

/-! ## Video -/

/-- So many NALs were dropped. -/
def countDropped (q : LossyQueue) (n : Nat) : LossyStats :=
  { q.stats with videoNalsDropped := q.stats.videoNalsDropped + n }

/-- What a NAL of this type leaves waiting. -/
def retained (q : LossyQueue) (nalType : UInt8) : List PendingNal :=
  if nalType = nalSps ∨ nalType = nalPps then q.video.filter fun p => p.nalType ≠ nalType
  else if nalType = nalIdr then
    q.video.filter fun p => p.nalType = nalSps ∨ p.nalType = nalPps
  else q.video

/-- A delta during a skip is dropped. -/
def skipNal (q : LossyQueue) (n : Nal) : LossyQueue :=
  { q with stats := q.countDropped 1, pushed := q.pushed ++ [n] }

/-- Behind what is kept of the queue. -/
def queueNal (q : LossyQueue) (n : Nal) (now : Instant) : LossyQueue :=
  { q with
    video := q.retained n.nalType ++
      [{ number := q.pushed.length, nalType := n.nalType, queuedAt := now, chunks := n.datagrams }]
    skipDeltasUntilIdr := if n.nalType = nalIdr then false else q.skipDeltasUntilIdr
    stats := q.countDropped (q.video.length - (q.retained n.nalType).length)
    pushed := q.pushed ++ [n] }

/-- Queue one NAL unit, applying the drop rules. -/
def pushVideoNal (q : LossyQueue) (n : Nal) (now : Instant) : LossyQueue :=
  if IsDelta n.nalType ∧ q.skipDeltasUntilIdr = true then q.skipNal n else q.queueNal n now

/-- Drop every waiting delta and skip deltas until the next IDR. -/
def dropDeltas (q : LossyQueue) : LossyQueue :=
  let kept := q.video.filter fun p => ¬ IsDelta p.nalType
  { q with
    video := kept
    stats := q.countDropped (q.video.length - kept.length)
    skipDeltasUntilIdr := true }

/-- Some waiting delta is older than `videoMaxWait`. -/
def Stale (q : LossyQueue) (now : Instant) : Prop :=
  ∃ p ∈ q.video, IsDelta p.nalType ∧ videoMaxWait < now.durationSince p.queuedAt

instance (q : LossyQueue) (now : Instant) : Decidable (q.Stale now) :=
  inferInstanceAs (Decidable (∃ p ∈ q.video, _))

/-- If a delta has waited too long, all deltas go. -/
def expireStaleVideo (q : LossyQueue) (now : Instant) : LossyQueue :=
  if q.Stale now then q.dropDeltas else q

/-- The next chunk of the first NAL that waits. -/
def popVideo (q : LossyQueue) : LossyQueue × Option Bytes :=
  match q.video with
  | [] => (q, none)
  | front :: video =>
      match front.chunks with
      | [] => ({ q with video }, none)
      | chunk :: rest =>
          ({ q with
              video := if rest = [] then video else { front with chunks := rest } :: video
              sent := q.sent ++ [(front.number, chunk)] },
            some chunk)

/-! ## Sensors -/

/-- A sensor's queue has changed. -/
def setSensor (q : LossyQueue) (sensorId : UInt8) (sq : SensorQueue) (stats : LossyStats) :
    LossyQueue :=
  { q with sensors := Function.update q.sensors sensorId sq, stats }

/-- A frame was cut off after some of its slices. -/
def countCut (q : LossyQueue) (n : Nat) : LossyStats :=
  { q.stats with
    sensorFramesCut := q.stats.sensorFramesCut + 1
    sensorSlicesDropped := q.stats.sensorSlicesDropped + n }

/-- A frame was skipped as a whole. -/
def countSkipped (q : LossyQueue) (n : Nat) : LossyStats :=
  { q.stats with
    sensorFramesSkipped := q.stats.sensorFramesSkipped + 1
    sensorSlicesDropped := q.stats.sensorSlicesDropped + n }

/-- Queue one sensor frame's slices, following the policy. -/
def pushSensorFrame (q : LossyQueue) (sensorId : UInt8) (datagrams : List Bytes) : LossyQueue :=
  let sq := q.sensors sensorId
  match q.sensorPolicy with
  | .cut =>
      q.setSensor sensorId (sq.restart datagrams)
        (if sq.current = [] then q.stats else q.countCut sq.current.length)
  | .finish =>
      if sq.current = [] ∨ sq.started = false then
        q.setSensor sensorId (sq.restart datagrams)
          (if sq.current = [] then q.stats else q.countSkipped sq.current.length)
      else
        q.setSensor sensorId { sq with waiting := some datagrams }
          (match sq.waiting with
            | none => q.stats
            | some old => q.countSkipped old.length)

/-- The sensors with something waiting, in order. -/
def busySensors (q : LossyQueue) : List UInt8 :=
  ((List.range 256).map UInt8.ofNat).filter fun id => !(q.sensors id).isEmpty

/-- The next busy sensor after the last one, else the first. -/
def nextSensor (q : LossyQueue) : Option UInt8 :=
  match q.lastSensor with
  | none => q.busySensors.head?
  | some last => (q.busySensors.find? fun id => last < id).or q.busySensors.head?

/-- The next slice of the sensor whose turn it is. -/
def popSensor (q : LossyQueue) : LossyQueue × Option Bytes :=
  match q.nextSensor with
  | none => (q, none)
  | some next =>
      let sq := q.sensors next
      let sq := if sq.current = [] then sq.advance else sq
      let left := { sq with current := sq.current.tail, started := true }
      let left := if left.current = [] then left.advance else left
      ({ q.setSensor next left q.stats with lastSensor := some next }, sq.current.head?)

/-! ## Turns -/

/-- What `first` gives, else what `second` does. -/
def orElse (q : LossyQueue) (first second : LossyQueue → LossyQueue × Option Bytes) :
    LossyQueue × Option Bytes :=
  match first q with
  | (q, some datagram) => (q, some datagram)
  | (q, none) => second q

/-- The other class goes first next time. -/
def passTurn (q : LossyQueue) : LossyQueue := { q with videoTurn := !q.videoTurn }

/-- The next datagram to hand to quiche. -/
def pop (q : LossyQueue) (now : Instant) : LossyQueue × Option Bytes :=
  let q := q.expireStaleVideo now
  if q.videoTurn then q.passTurn.orElse popVideo popSensor
  else q.passTurn.orElse popSensor popVideo

/-- A call of the queue. -/
inductive Op where
  | pushVideoNal (n : Nal) (now : Instant)
  | pushSensorFrame (sensorId : UInt8) (datagrams : List Bytes)
  | pop (now : Instant)

/-- A call of the queue. -/
def step (q : LossyQueue) : Op → LossyQueue
  | .pushVideoNal n now => q.pushVideoNal n now
  | .pushSensorFrame sensorId datagrams => q.pushSensorFrame sensorId datagrams
  | .pop now => (q.pop now).1

/-! ## What holds of the video side -/

/-- The two queues have the same video side. -/
structure SameVideo (q q' : LossyQueue) : Prop where
  video : q'.video = q.video
  skip : q'.skipDeltasUntilIdr = q.skipDeltasUntilIdr
  pushed : q'.pushed = q.pushed
  sent : q'.sent = q.sent

/-- A sensor frame leaves the video alone. -/
theorem pushSensorFrame_video (q : LossyQueue) (sensorId : UInt8) (datagrams : List Bytes) :
    SameVideo q (q.pushSensorFrame sensorId datagrams) := by
  rw [pushSensorFrame]
  cases q.sensorPolicy with
  | cut => exact ⟨rfl, rfl, rfl, rfl⟩
  | finish =>
      dsimp only
      split <;> exact ⟨rfl, rfl, rfl, rfl⟩

/-- So does a slice that is taken. -/
theorem popSensor_video (q : LossyQueue) : SameVideo q q.popSensor.1 := by
  rw [popSensor]
  cases q.nextSensor <;> exact ⟨rfl, rfl, rfl, rfl⟩

/-- What two ways to pop keep, trying one after the other keeps. -/
theorem orElse_inv {I : LossyQueue → Prop} {first second : LossyQueue → LossyQueue × Option Bytes}
    (hfirst : ∀ q, I q → I (first q).1) (hsecond : ∀ q, I q → I (second q).1) {q : LossyQueue}
    (h : I q) : I (q.orElse first second).1 := by
  have hq := hfirst q h
  rw [orElse]
  cases hpop : first q with
  | mk q' datagram =>
      rw [hpop] at hq
      cases datagram with
      | none => exact hsecond q' hq
      | some datagram => exact hq

section

variable {I : LossyQueue → Prop} {P : LossyQueue → Op → Prop}
variable (hsame : ∀ q q', SameVideo q q' → I q → I q')
variable (hpush : ∀ q n now, P q (.pushVideoNal n now) → I q → I (q.pushVideoNal n now))
variable (hdrop : ∀ q, I q → I q.dropDeltas) (hpop : ∀ q, I q → I q.popVideo.1)

include hsame hpush hdrop hpop

/-- What a push, the drop of the deltas and the pop of a chunk keep, a call
keeps. -/
theorem step_inv_video (q : LossyQueue) (op : Op) (h : I q) (hop : P q op) : I (q.step op) := by
  cases op with
  | pushVideoNal n now => exact hpush q n now hop h
  | pushSensorFrame sensorId datagrams =>
      exact hsame _ _ (q.pushSensorFrame_video sensorId datagrams) h
  | pop now =>
      have hexpire : I (q.expireStaleVideo now) := by
        rw [expireStaleVideo]
        split
        · exact hdrop q h
        · exact h
      have hturn : I (q.expireStaleVideo now).passTurn :=
        hsame (q.expireStaleVideo now) _ ⟨rfl, rfl, rfl, rfl⟩ hexpire
      have hsensor : ∀ q, I q → I q.popSensor.1 := fun q => hsame _ _ q.popSensor_video
      show I (q.pop now).1
      unfold pop
      dsimp only
      split
      · exact orElse_inv hpop hsensor hturn
      · exact orElse_inv hsensor hpop hturn

end

/-! ## The video side as a queue of chunked items -/

/-- The video part as a queue of chunks. -/
def chunkQueue (q : LossyQueue) : ChunkQueue Bytes where
  pushed := q.pushed.map Nal.datagrams
  waiting := q.video.map fun p => (p.number, p.chunks)
  sent := q.sent

/-- The queue of chunks depends on the video only. -/
theorem chunkQueue_congr {q q' : LossyQueue} (h : SameVideo q q') :
    q'.chunkQueue = q.chunkQueue := by
  rw [chunkQueue, chunkQueue, h.video, h.pushed, h.sent]

/-- A NAL that is not queued is skipped in the queue of chunks. -/
theorem chunkQueue_skipNal (q : LossyQueue) (n : Nal) :
    (q.skipNal n).chunkQueue = q.chunkQueue.skip n.datagrams := by
  simp [chunkQueue, skipNal, ChunkQueue.skip]

@[simp] theorem chunkQueue_length (q : LossyQueue) :
    q.chunkQueue.pushed.length = q.pushed.length :=
  List.length_map _

theorem chunksOf_eq {q : LossyQueue} {k : Nat} {n : Nal} (h : q.pushed[k]? = some n) :
    q.chunkQueue.chunksOf k = n.datagrams := by
  simp [ChunkQueue.chunksOf, chunkQueue, h]

/-- NALs as items of that queue. -/
def keep (kept : List PendingNal) : List (Nat × List Bytes) :=
  kept.map fun p => (p.number, p.chunks)

/-- A NAL that is queued discards what it replaces, and stands behind what is kept. -/
theorem chunkQueue_queueNal (q : LossyQueue) (n : Nal) (now : Instant) :
    (q.queueNal n now).chunkQueue =
      (q.chunkQueue.discard (keep (q.retained n.nalType))).push n.datagrams := by
  simp [chunkQueue, queueNal, keep, ChunkQueue.discard, ChunkQueue.push]

/-- The deltas that are dropped are discarded from the queue of chunks. -/
theorem chunkQueue_dropDeltas (q : LossyQueue) :
    q.dropDeltas.chunkQueue =
      q.chunkQueue.discard (keep (q.video.filter fun p => ¬ IsDelta p.nalType)) :=
  rfl

/-- A chunk of the front NAL is popped from the queue of chunks. -/
theorem chunkQueue_popVideo (q : LossyQueue) : q.popVideo.1.chunkQueue = q.chunkQueue.pop := by
  rw [popVideo, ChunkQueue.pop]
  cases hvideo : q.video with
  | nil => simp [chunkQueue, hvideo]
  | cons front video =>
      cases hchunks : front.chunks with
      | nil => simp [chunkQueue, hvideo, hchunks]
      | cons chunk rest =>
          by_cases hrest : rest = []
          · simp [chunkQueue, hvideo, hchunks, hrest, ChunkQueue.leftOf]
          · simp [chunkQueue, hvideo, hchunks, hrest, ChunkQueue.leftOf]

/-- What a new NAL leaves in the queue keeps its order. -/
theorem retained_sublist (q : LossyQueue) (nalType : UInt8) :
    (q.retained nalType).Sublist q.video := by
  rw [retained]
  split_ifs
  · exact List.filter_sublist
  · exact List.filter_sublist
  · exact List.Sublist.refl _

/-! ## Numbers and types -/

/-- The type of the `k`-th NAL pushed. -/
def typeAt (pushed : List Nal) (k : Nat) : Option UInt8 := pushed[k]?.map Nal.nalType

section

variable {pushed : List Nal} {n : Nal} {k : Nat}

/-- A new NAL changes no earlier type. -/
theorem typeAt_concat (h : k < pushed.length) : typeAt (pushed ++ [n]) k = typeAt pushed k := by
  rw [typeAt, List.getElem?_append_left h, typeAt]

@[simp] theorem typeAt_concat_length (pushed : List Nal) (n : Nal) :
    typeAt (pushed ++ [n]) pushed.length = some n.nalType := by
  simp [typeAt]

/-- A NAL that was not pushed has no type. -/
theorem typeAt_of_length_le (h : pushed.length ≤ k) : typeAt pushed k = none := by
  rw [typeAt, List.getElem?_eq_none h]
  rfl

/-- A NAL with a type was pushed. -/
theorem lt_of_typeAt {t : UInt8} (h : typeAt pushed k = some t) : k < pushed.length := by
  by_contra hge
  rw [typeAt_of_length_le (not_lt.mp hge)] at h
  cases h

/-- A NAL of the longer list is one of the list or the one pushed. -/
theorem typeAt_concat_cases {t : UInt8} (h : typeAt (pushed ++ [n]) k = some t) :
    (k < pushed.length ∧ typeAt pushed k = some t) ∨ (k = pushed.length ∧ t = n.nalType) := by
  have hlt := lt_of_typeAt h
  rw [List.length_append, List.length_singleton] at hlt
  by_cases hk : k < pushed.length
  · exact Or.inl ⟨hk, typeAt_concat hk ▸ h⟩
  · obtain rfl : k = pushed.length := by omega
    rw [typeAt_concat_length] at h
    exact Or.inr ⟨rfl, (Option.some.inj h).symm⟩

/-- What is not of a type in the longer list is not in the list. -/
theorem typeAt_ne_of_concat {t : UInt8} (h : typeAt (pushed ++ [n]) k ≠ some t) :
    typeAt pushed k ≠ some t := by
  intro heq
  rw [typeAt_concat (lt_of_typeAt heq)] at h
  exact h heq

end

/-- The waiting NALs are pushed ones with their types. -/
structure Tracked (q : LossyQueue) : Prop where
  wellFormed : q.chunkQueue.WellFormed
  typed : ∀ p ∈ q.video, typeAt q.pushed p.number = some p.nalType

/-- An empty queue is tracked. -/
theorem Tracked.new (policy : SensorFramePolicy) : (withSensorPolicy policy).Tracked where
  wellFormed := .empty
  typed := by simp [withSensorPolicy]

theorem Tracked.congr {q q' : LossyQueue} (h : q.Tracked) (hsame : SameVideo q q') :
    q'.Tracked where
  wellFormed := by
    rw [chunkQueue_congr hsame]
    exact h.wellFormed
  typed := by
    rw [hsame.video, hsame.pushed]
    exact h.typed

/-- A waiting NAL was pushed. -/
theorem Tracked.number_lt {q : LossyQueue} (h : q.Tracked) {p : PendingNal} (hp : p ∈ q.video) :
    p.number < q.pushed.length :=
  lt_of_typeAt (h.typed p hp)

/-- What is kept of the video is kept of the queue of chunks. -/
theorem keep_sublist {q : LossyQueue} {kept : List PendingNal} (h : kept.Sublist q.video) :
    (keep kept).Sublist q.chunkQueue.waiting :=
  h.map _

theorem mem_keep {kept : List PendingNal} {p : PendingNal} (h : p ∈ kept) :
    (p.number, p.chunks) ∈ keep kept :=
  List.mem_map_of_mem h

/-- A NAL stays on its way if the NALs of its type are kept. -/
theorem Tracked.onItsWay_keep {q : LossyQueue} (h : q.Tracked) {kept : List PendingNal} {m : Nat}
    {t : UInt8} (hway : q.chunkQueue.OnItsWay m) (ht : typeAt q.pushed m = some t)
    (hkept : ∀ p ∈ q.video, p.nalType = t → p ∈ kept) :
    (q.chunkQueue.discard (keep kept)).OnItsWay m := by
  refine ChunkQueue.onItsWay_discard hway ?_
  intro w hw hm
  obtain ⟨p, hp, rfl⟩ := List.mem_map.mp hw
  subst hm
  exact mem_keep (hkept p hp (Option.some.inj ((h.typed p hp).symm.trans ht)))

/-- An earlier NAL stays on its way when the new NAL does not replace it. -/
theorem onItsWay_queueNal {q : LossyQueue} {n : Nal} (now : Instant) {m : Nat}
    (hm : m < q.pushed.length)
    (hway : (q.chunkQueue.discard (keep (q.retained n.nalType))).OnItsWay m) :
    (q.queueNal n now).chunkQueue.OnItsWay m := by
  rw [chunkQueue_queueNal]
  exact ChunkQueue.onItsWay_concat ((q.chunkQueue_length).symm ▸ hm) hway
    fun _ => List.mem_append_left _

/-- The new NAL is on its way. -/
theorem onItsWay_queueNal_self (q : LossyQueue) (n : Nal) (now : Instant) :
    (q.queueNal n now).chunkQueue.OnItsWay q.pushed.length := by
  rw [chunkQueue_queueNal, ← q.chunkQueue_length]
  exact ChunkQueue.onItsWay_push_self _ _

/-- A NAL may be queued if what it needs outlasts the push. -/
theorem Tracked.supplied_queueNal {q : LossyQueue} (h : q.Tracked) {n : Nal} (now : Instant)
    {needs needs' : Nat → Nat → Prop}
    (hkept : (q.chunkQueue.discard (keep (q.retained n.nalType))).Supplied needs)
    (hneeds : ∀ k, k < q.pushed.length → ∀ m, m < k → needs' k m → needs k m)
    (hself : ∀ m, m < q.pushed.length → needs' q.pushed.length m →
      (q.chunkQueue.discard (keep (q.retained n.nalType))).OnItsWay m) :
    (q.queueNal n now).chunkQueue.Supplied needs' := by
  rw [← q.chunkQueue_length] at hneeds hself
  rw [chunkQueue_queueNal]
  exact hkept.push (h.wellFormed.discard (keep_sublist (q.retained_sublist _))) hneeds _ hself

/-- A NAL that is not queued is numbered all the same. -/
theorem Tracked.skipNal {q : LossyQueue} (h : q.Tracked) (n : Nal) :
    (q.skipNal n).Tracked where
  wellFormed := by
    rw [chunkQueue_skipNal]
    exact h.wellFormed.skip _
  typed p hp := (typeAt_concat (h.number_lt hp)).trans (h.typed p hp)

/-- A NAL that is queued is numbered with its chunks. -/
theorem Tracked.queueNal {q : LossyQueue} (h : q.Tracked) (n : Nal) (now : Instant) :
    (q.queueNal n now).Tracked where
  wellFormed := by
    rw [chunkQueue_queueNal]
    exact (h.wellFormed.discard (keep_sublist (q.retained_sublist _))).push _
  typed p hp := by
    rcases List.mem_append.mp hp with hp | hp
    · have hvideo := (q.retained_sublist _).subset hp
      exact (typeAt_concat (h.number_lt hvideo)).trans (h.typed p hvideo)
    · rw [List.mem_singleton.mp hp]
      exact typeAt_concat_length _ _

theorem Tracked.dropDeltas {q : LossyQueue} (h : q.Tracked) : q.dropDeltas.Tracked where
  wellFormed := by
    rw [chunkQueue_dropDeltas]
    exact h.wellFormed.discard (keep_sublist List.filter_sublist)
  typed p hp := h.typed p (List.filter_sublist.subset hp)

/-- What still waits after a pop waited before. -/
theorem mem_popVideo {q : LossyQueue} {p : PendingNal} (h : p ∈ q.popVideo.1.video) :
    ∃ p' ∈ q.video, p'.number = p.number ∧ p'.nalType = p.nalType := by
  unfold popVideo at h
  cases hvideo : q.video with
  | nil =>
      rw [hvideo] at h
      simp [hvideo] at h
  | cons front video =>
      rw [hvideo] at h
      cases hchunks : front.chunks with
      | nil =>
          simp only [hchunks] at h
          exact ⟨p, List.mem_cons_of_mem _ h, rfl, rfl⟩
      | cons chunk rest =>
          simp only [hchunks] at h
          split_ifs at h
          · exact ⟨p, List.mem_cons_of_mem _ h, rfl, rfl⟩
          · rcases List.mem_cons.mp h with rfl | h
            · exact ⟨front, List.mem_cons_self, rfl, rfl⟩
            · exact ⟨p, List.mem_cons_of_mem _ h, rfl, rfl⟩

theorem popVideo_pushed (q : LossyQueue) :
    q.popVideo.1.pushed = q.pushed ∧
      q.popVideo.1.skipDeltasUntilIdr = q.skipDeltasUntilIdr := by
  rw [popVideo]
  cases q.video with
  | nil => exact ⟨rfl, rfl⟩
  | cons front video =>
      dsimp only
      cases front.chunks <;> exact ⟨rfl, rfl⟩

/-- A pop keeps the numbers of the NALs that wait. -/
theorem Tracked.popVideo {q : LossyQueue} (h : q.Tracked) : q.popVideo.1.Tracked where
  wellFormed := by
    rw [chunkQueue_popVideo]
    exact h.wellFormed.pop
  typed p hp := by
    obtain ⟨p', hp', hnumber, htype⟩ := mem_popVideo hp
    rw [q.popVideo_pushed.1, ← hnumber, ← htype]
    exact h.typed p' hp'

end LossyQueue

end RoboTele
