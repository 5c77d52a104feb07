import RoboTele.Queues.RoundRobin
import RoboTele.RobotEdge.LossyQueue

/-!
# The sensor side of the lossy queue

A pop takes from the class that `popSource` names.  A pop from a sensor changes the
queue of the next busy sensor in the round, and only this one; every other pop, and
every push of a NAL, leaves the sensor side as it is (`pop_sensors`).

`step_inv_sensors` is the rule that the results about sensors share: what holds of
the sensor side need only be kept by the push of a frame and by the pop of a slice.
-/

namespace RoboTele

open Runs RoundRobin

namespace SensorQueue

/-- The frame that the next slice is of moves up first. -/
def ready (sq : SensorQueue) : SensorQueue := if sq.current = [] then sq.advance else sq

/-- The slice that is next if the sensor has its turn. -/
def nextSlice (sq : SensorQueue) : Option Bytes := sq.ready.current.head?

/-- What the next slice leaves. -/
def afterSlice (sq : SensorQueue) : SensorQueue :=
  let left := { sq.ready with current := sq.ready.current.tail, started := true }
  if left.current = [] then left.advance else left

/-- What a new frame does, by the policy. -/
def pushFrame (sq : SensorQueue) (policy : SensorFramePolicy) (datagrams : List Bytes) :
    SensorQueue :=
  match policy with
  | .cut => sq.restart datagrams
  | .finish =>
      if sq.current = [] ∨ sq.started = false then sq.restart datagrams
      else { sq with waiting := some datagrams }

/-- No frame without slices waits. -/
def Filled (sq : SensorQueue) : Prop := ∀ frame ∈ sq.waiting, frame ≠ []

/-- A sensor that is not empty has a slice to send. -/
theorem Filled.nextSlice_isSome {sq : SensorQueue} (h : sq.Filled) (hbusy : sq.isEmpty = false) :
    ∃ slice, sq.nextSlice = some slice := by
  rw [nextSlice, ready, ← Option.isSome_iff_exists, List.isSome_head?]
  split_ifs with hcurrent
  · rw [isEmpty, hcurrent] at hbusy
    obtain ⟨frame, hframe⟩ : ∃ frame, sq.waiting = some frame := by
      rw [← Option.isSome_iff_exists]
      simpa using hbusy
    rw [advance, hframe]
    exact h frame hframe
  · exact hcurrent

/-- The frame that waits is the next one to be sent. -/
theorem waiting_advance (sq : SensorQueue) : sq.advance.waiting = none := by
  rw [advance]
  cases hwaiting : sq.waiting with
  | none => exact hwaiting
  | some frame => rfl

/-- A slice that was taken leaves no frame without slices. -/
theorem Filled.afterSlice {sq : SensorQueue} (h : sq.Filled) : sq.afterSlice.Filled := by
  have hready : sq.ready.Filled := by
    rw [ready]
    split_ifs
    · rw [Filled, waiting_advance]
      exact nofun
    · exact h
  rw [SensorQueue.afterSlice]
  dsimp only
  split_ifs
  · rw [Filled, waiting_advance]
    exact nofun
  · exact hready

/-- Nor does a frame that has slices. -/
theorem Filled.pushFrame {sq : SensorQueue} (h : sq.Filled) (policy : SensorFramePolicy)
    {datagrams : List Bytes} (hne : datagrams ≠ []) : (sq.pushFrame policy datagrams).Filled := by
  cases policy with
  | cut => exact h
  | finish =>
      rw [SensorQueue.pushFrame]
      split_ifs
      · exact h
      · intro frame hframe
        rwa [← Option.some.inj hframe]

end SensorQueue

namespace LossyQueue

/-! ## Which sensor is next -/

/-- The sensors with something to send, by their ids. -/
theorem sorted_busySensors (q : LossyQueue) :
    q.busySensors.Pairwise fun x y => x.toNat < y.toNat := by
  refine List.Pairwise.filter _ (List.pairwise_map.mpr ?_)
  refine List.Pairwise.imp_of_mem ?_ List.pairwise_lt_range
  intro i j hi hj hlt
  rw [UInt8.toNat_ofNat_of_lt' (List.mem_range.mp hi),
    UInt8.toNat_ofNat_of_lt' (List.mem_range.mp hj)]
  exact hlt

theorem mem_busySensors {q : LossyQueue} {id : UInt8} :
    id ∈ q.busySensors ↔ (q.sensors id).isEmpty = false := by
  rw [busySensors, List.mem_filter, Bool.not_eq_true']
  refine and_iff_right (List.mem_map.mpr ⟨id.toNat, ?_, UInt8.ofNat_toNat⟩)
  exact List.mem_range.mpr id.toNat_lt

/-- The next sensor is the next one of the round. -/
theorem nextSensor_eq (q : LossyQueue) :
    q.nextSensor = pick UInt8.toNat q.busySensors q.lastSensor := by
  rw [nextSensor]
  cases q.lastSensor <;> rfl

/-- No sensor is next exactly when none has anything to send. -/
theorem nextSensor_eq_none_iff {q : LossyQueue} :
    q.nextSensor = none ↔ ∀ id, (q.sensors id).isEmpty = true := by
  rw [nextSensor_eq, pick_eq_none_iff, List.eq_nil_iff_forall_not_mem]
  refine forall_congr' fun id => ?_
  rw [mem_busySensors, Bool.not_eq_false]

/-- The sensor whose turn it is has something to send. -/
theorem isEmpty_of_nextSensor {q : LossyQueue} {id : UInt8} (h : q.nextSensor = some id) :
    (q.sensors id).isEmpty = false :=
  mem_busySensors.mp (mem_of_pick (q.nextSensor_eq ▸ h))

/-- Without a sensor to serve, nothing is popped. -/
theorem popSensor_of_none {q : LossyQueue} (h : q.nextSensor = none) : q.popSensor = (q, none) := by
  rw [popSensor, h]

/-! ## Where a pop takes from -/

/-- Where a datagram was taken from. -/
inductive Source where
  | video
  | sensor (sensorId : UInt8)
deriving DecidableEq

/-- Video, if a chunk can be popped. -/
def videoSource (q : LossyQueue) : Option Source := q.popVideo.2.map fun _ => .video

/-- The sensor whose slice would be popped. -/
def sensorSource (q : LossyQueue) : Option Source :=
  if q.popSensor.2 = none then none else q.nextSensor.map .sensor

/-- What the next pop takes its datagram from. -/
def popSource (q : LossyQueue) (now : Instant) : Option Source :=
  let q := q.expireStaleVideo now
  if q.videoTurn then q.videoSource.or q.sensorSource else q.sensorSource.or q.videoSource

/-- A slice of this sensor's frame is taken. -/
def takeSlice (q : LossyQueue) (sensorId : UInt8) : LossyQueue :=
  { q.setSensor sensorId (q.sensors sensorId).afterSlice q.stats with
    lastSensor := some sensorId }

/-- Otherwise a slice of the sensor whose turn it is. -/
theorem popSensor_of_some {q : LossyQueue} {id : UInt8} (h : q.nextSensor = some id) :
    q.popSensor = (q.takeSlice id, (q.sensors id).nextSlice) := by
  rw [popSensor, h]
  rfl

/-- The two queues have the same sensor side. -/
structure SameSensors (q q' : LossyQueue) : Prop where
  sensors : q'.sensors = q.sensors
  policy : q'.sensorPolicy = q.sensorPolicy
  last : q'.lastSensor = q.lastSensor
  cut : q'.stats.sensorFramesCut = q.stats.sensorFramesCut
  skipped : q'.stats.sensorFramesSkipped = q.stats.sensorFramesSkipped
  dropped : q'.stats.sensorSlicesDropped = q.stats.sensorSlicesDropped

theorem SameSensors.trans {q q' q'' : LossyQueue} (h : SameSensors q q')
    (h' : SameSensors q' q'') : SameSensors q q'' where
  sensors := h'.sensors.trans h.sensors
  policy := h'.policy.trans h.policy
  last := h'.last.trans h.last
  cut := h'.cut.trans h.cut
  skipped := h'.skipped.trans h.skipped
  dropped := h'.dropped.trans h.dropped

/-- A frame goes to its own sensor. -/
theorem pushSensorFrame_sensors (q : LossyQueue) (id : UInt8) (datagrams : List Bytes) :
    (q.pushSensorFrame id datagrams).sensors =
      Function.update q.sensors id ((q.sensors id).pushFrame q.sensorPolicy datagrams) := by
  rw [pushSensorFrame]
  cases q.sensorPolicy with
  | cut => rfl
  | finish =>
      dsimp only [SensorQueue.pushFrame]
      split_ifs <;> rfl

/-- It does not move the turn. -/
theorem pushSensorFrame_last (q : LossyQueue) (id : UInt8) (datagrams : List Bytes) :
    (q.pushSensorFrame id datagrams).lastSensor = q.lastSensor := by
  rw [pushSensorFrame]
  cases q.sensorPolicy with
  | cut => rfl
  | finish =>
      dsimp only
      split_ifs <;> rfl

theorem pushSensorFrame_policy (q : LossyQueue) (id : UInt8) (datagrams : List Bytes) :
    (q.pushSensorFrame id datagrams).sensorPolicy = q.sensorPolicy := by
  rw [pushSensorFrame]
  cases hpolicy : q.sensorPolicy with
  | cut => exact hpolicy
  | finish =>
      dsimp only
      split_ifs <;> exact hpolicy

/-- Video leaves the sensors alone. -/
theorem pushVideoNal_sensors (q : LossyQueue) (n : Nal) (now : Instant) :
    SameSensors q (q.pushVideoNal n now) := by
  rw [pushVideoNal]
  split_ifs <;> exact ⟨rfl, rfl, rfl, rfl, rfl, rfl⟩

theorem expireStaleVideo_sensors (q : LossyQueue) (now : Instant) :
    SameSensors q (q.expireStaleVideo now) := by
  rw [expireStaleVideo]
  split_ifs <;> exact ⟨rfl, rfl, rfl, rfl, rfl, rfl⟩

theorem popVideo_sensors (q : LossyQueue) : SameSensors q q.popVideo.1 := by
  rw [popVideo]
  cases q.video with
  | nil => exact ⟨rfl, rfl, rfl, rfl, rfl, rfl⟩
  | cons front video =>
      dsimp only
      cases front.chunks <;> exact ⟨rfl, rfl, rfl, rfl, rfl, rfl⟩

theorem passTurn_sensors (q : LossyQueue) : SameSensors q q.passTurn :=
  ⟨rfl, rfl, rfl, rfl, rfl, rfl⟩

/-- Of the video, the first chunk of the front NAL is popped. -/
theorem popVideo_snd (q : LossyQueue) :
    q.popVideo.2 = q.video.head?.bind fun front => front.chunks.head? := by
  rw [popVideo]
  cases q.video with
  | nil => rfl
  | cons front video =>
      dsimp only [List.head?_cons, Option.bind_some]
      cases front.chunks <;> rfl

/-! ## One pop -/

/-- No sensor has a frame without slices waiting. -/
def Filled (q : LossyQueue) : Prop := ∀ id, (q.sensors id).Filled

/-- What a pop gave and did to the sensor side, by its source. -/
inductive Popped (q : LossyQueue) (popped : LossyQueue × Option Bytes) : Option Source → Prop where
  | nothing : q.nextSensor = none → SameSensors q popped.1 → popped.2 = none →
      Popped q popped none
  | video {chunk : Bytes} : SameSensors q popped.1 → popped.2 = some chunk →
      Popped q popped (some .video)
  | sensor {id : UInt8} {slice : Bytes} : q.nextSensor = some id →
      (q.sensors id).nextSlice = some slice → SameSensors (q.takeSlice id) popped.1 →
      popped.2 = some slice → Popped q popped (some (.sensor id))

section

variable {q q' : LossyQueue} {popped : LossyQueue × Option Bytes} {source : Option Source}

/-- The turn depends on the sensors only. -/
theorem SameSensors.nextSensor (h : SameSensors q q') : q'.nextSensor = q.nextSensor := by
  rw [LossyQueue.nextSensor, LossyQueue.nextSensor, busySensors, busySensors, h.sensors, h.last]

theorem SameSensors.filled (h : SameSensors q q') (hfilled : q.Filled) : q'.Filled := by
  rw [Filled, h.sensors]
  exact hfilled

theorem SameSensors.takeSlice (h : SameSensors q q') (id : UInt8) :
    SameSensors (q.takeSlice id) (q'.takeSlice id) where
  sensors := by
    change Function.update q'.sensors id _ = Function.update q.sensors id _
    rw [h.sensors]
  policy := h.policy
  last := rfl
  cut := h.cut
  skipped := h.skipped
  dropped := h.dropped

/-- Only the sensor side counts. -/
theorem Popped.of_same (h : Popped q' popped source) (hsame : SameSensors q q') :
    Popped q popped source := by
  cases h with
  | nothing hnext hpopped hnone =>
      exact .nothing (hsame.nextSensor ▸ hnext) (hsame.trans hpopped) hnone
  | video hpopped hsome => exact .video (hsame.trans hpopped) hsome
  | sensor hnext hslice hpopped hsome =>
      refine .sensor (hsame.nextSensor ▸ hnext) (hsame.sensors ▸ hslice) ?_ hsome
      exact (hsame.takeSlice _).trans hpopped

/-- Where the sensors are filled, a pop serves the sensor whose turn it is. -/
theorem sensorSource_eq (hfilled : q.Filled) : q.sensorSource = q.nextSensor.map .sensor := by
  rw [sensorSource]
  cases hnext : q.nextSensor with
  | none => rw [Option.map_none, ite_self]
  | some id =>
      obtain ⟨slice, hslice⟩ := (hfilled id).nextSlice_isSome (isEmpty_of_nextSensor hnext)
      rw [popSensor_of_some hnext, hslice, if_neg (Option.some_ne_none slice)]

/-- What is popped of the sensors comes from the sensor whose turn it is. -/
theorem popped_popSensor (hfilled : q.Filled) :
    Popped q q.popSensor (q.nextSensor.map .sensor) := by
  cases hnext : q.nextSensor with
  | none =>
      rw [popSensor_of_none hnext]
      exact .nothing hnext ⟨rfl, rfl, rfl, rfl, rfl, rfl⟩ rfl
  | some id =>
      obtain ⟨slice, hslice⟩ := (hfilled id).nextSlice_isSome (isEmpty_of_nextSensor hnext)
      rw [popSensor_of_some hnext]
      exact .sensor hnext hslice ⟨rfl, rfl, rfl, rfl, rfl, rfl⟩ hslice

/-- What a pop does to the sensor side. -/
theorem pop_popped (hfilled : q.Filled) (now : Instant) :
    Popped q (q.pop now) (q.popSource now) := by
  have hturn := (q.expireStaleVideo_sensors now).trans (passTurn_sensors _)
  have hsource : (q.expireStaleVideo now).sensorSource =
      (q.expireStaleVideo now).passTurn.nextSensor.map .sensor :=
    sensorSource_eq ((q.expireStaleVideo_sensors now).filled hfilled)
  have hvideo : (q.expireStaleVideo now).videoSource =
      (q.expireStaleVideo now).passTurn.popVideo.2.map fun _ => .video := by
    rw [videoSource, popVideo_snd, popVideo_snd]
    rfl
  rw [pop, popSource]
  rw [hsource, hvideo]
  generalize (q.expireStaleVideo now).passTurn = e at hturn
  refine Popped.of_same ?_ hturn
  have hpop := e.popVideo_sensors
  have he := hturn.filled hfilled
  split_ifs
  · rw [orElse]
    cases hfirst : e.popVideo with
    | mk e' datagram =>
        rw [hfirst] at hpop
        cases datagram with
        | none =>
            rw [← hpop.nextSensor]
            exact (popped_popSensor (hpop.filled he)).of_same hpop
        | some chunk => exact .video hpop rfl
  · rw [orElse]
    have hsensor := popped_popSensor he
    cases hnext : e.nextSensor with
    | none =>
        rw [popSensor_of_none hnext]
        cases hchunk : e.popVideo.2 with
        | none => exact .nothing hnext hpop hchunk
        | some chunk => exact .video hpop hchunk
    | some id =>
        rw [hnext] at hsensor
        cases hsensor with
        | sensor hnext hslice hsame hsome =>
            rw [popSensor_of_some hnext, hslice]
            exact .sensor hnext hslice ⟨rfl, rfl, rfl, rfl, rfl, rfl⟩ rfl

/-! ## Runs -/

/-- The queue after some calls. -/
def after (policy : SensorFramePolicy) (ops : List Op) : LossyQueue :=
  exec step (withSensorPolicy policy) ops

/-- A frame that is pushed has slices. -/
def Op.FrameFilled : Op → Prop
  | .pushSensorFrame _ datagrams => datagrams ≠ []
  | _ => True

instance : DecidablePred Op.FrameFilled
  | .pushVideoNal _ _ => .isTrue trivial
  | .pushSensorFrame _ _ => inferInstanceAs (Decidable (_ ≠ _))
  | .pop _ => .isTrue trivial

theorem Filled.update (h : q.Filled) {id : UInt8} {sq : SensorQueue} (hsq : sq.Filled)
    (hq : q'.sensors = Function.update q.sensors id sq) : q'.Filled := by
  intro id'
  rw [hq, Function.update_apply]
  split_ifs
  · exact hsq
  · exact h id'

/-- Every operation with frames that have slices keeps the sensors filled. -/
theorem Filled.step (h : q.Filled) {op : Op} (hop : op.FrameFilled) : (q.step op).Filled := by
  cases op with
  | pushVideoNal n now => exact (q.pushVideoNal_sensors n now).filled h
  | pushSensorFrame id datagrams =>
      exact h.update ((h id).pushFrame _ hop) (q.pushSensorFrame_sensors id datagrams)
  | pop now =>
      change (q.pop now).1.Filled
      have hpopped := pop_popped h now
      generalize q.pop now = popped, q.popSource now = source at hpopped ⊢
      cases hpopped with
      | nothing _ hsame _ => exact hsame.filled h
      | video hsame _ => exact hsame.filled h
      | @sensor id _ _ _ hsame _ => exact h.update (h id).afterSlice hsame.sensors

/-- So does every run of them. -/
theorem filled_after (policy : SensorFramePolicy) {ops : List Op}
    (hframes : ∀ op ∈ ops, op.FrameFilled) : (after policy ops).Filled :=
  exec_inv_of_forall (fun _ _ h hop => h.step hop) ops (fun _ => nofun) hframes

end

end LossyQueue

end RoboTele
