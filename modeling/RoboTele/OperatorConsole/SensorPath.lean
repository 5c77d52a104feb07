import RoboTele.Core.FloatArith
import RoboTele.Core.SensorDelivery
import RoboTele.Core.SensorDescriptor
import RoboTele.RobotEdge.SensorSlices

/-!
# Sensor frames from the sensor to the console

Every sensor has a thread that puts its newest frame into a slot.  The session takes what is in
the slots, cuts the frames of the selected sensors into slices and queues these, and the queue
drops what is no longer worth sending.  The network loses, delays and repeats datagrams.  The
console puts the frames of every sensor together and gives up on what comes too late.

`ShowsCaptures` says that whatever comes out is a captured frame with some of its elements
missing.  No element stands in another's place, no frame mixes two captures or two sensors, and
the frames of a sensor come in the order of their captures, none of them twice.
-/

namespace RoboTele

open Runs Slots Queues FrameAssembler

/-- One frame's elements. -/
structure SensorFrame where
  sensorId : UInt8
  frameSeq : UInt32
  captureTimeUs : UInt64
  elements : Bytes
deriving DecidableEq

/-! ## The sensor threads -/

/-- The slots of the sensors, and all that was captured. -/
structure SensorRx where
  slots : UInt8 → Option SensorFrame
  captured : UInt8 → List SensorFrame

namespace SensorRx

/-- Nothing was captured. -/
def empty : SensorRx where
  slots _ := none
  captured _ := []

/-- A sensor's thread numbers a frame and replaces the one in the slot. -/
def capture (rx : SensorRx) (sensorId : UInt8) (captureTimeUs : UInt64) (elements : Bytes) :
    SensorRx :=
  let frame : SensorFrame :=
    { sensorId, frameSeq := UInt32.ofNat (rx.captured sensorId).length, captureTimeUs, elements }
  { slots := Function.update rx.slots sensorId (some frame)
    captured := Function.update rx.captured sensorId (rx.captured sensorId ++ [frame]) }

/-- The frames in the slots, in the order of their sensors. -/
def frames (rx : SensorRx) : List SensorFrame :=
  ((List.range 256).map UInt8.ofNat).filterMap rx.slots

/-- `recv` takes every frame there is. -/
def recv (rx : SensorRx) : SensorRx := { rx with slots := fun _ => none }

end SensorRx

/-! ## The robot's session -/

/-- What of the session the sensors use. -/
structure SensorSender where
  sensors : List SensorDescriptor
  selectedSensors : List UInt8
  /-- `--slice-payload-bytes`. -/
  slicePayloadBytes : Nat
  sensorRx : SensorRx
  lossy : SensorRun
  /-- The frames that were queued, with their datagrams. -/
  queued : UInt8 → List (SensorFrame × List Bytes)

namespace SensorSender

def new (sensors : List SensorDescriptor) (slicePayloadBytes : Nat)
    (policy : SensorFramePolicy) : SensorSender where
  sensors
  selectedSensors := []
  slicePayloadBytes
  sensorRx := .empty
  lossy := .new policy
  queued _ := []

/-- The payload of a slice, from what `dgram_max_writable_len` says. -/
def slicePayload (s : SensorSender) (maxWritable : Option Nat) : Option Nat :=
  maxWritable.map fun len =>
    let max := len - (1 + sliceHeaderLen)
    match s.slicePayloadBytes with
    | 0 => max
    | n => min (Nat.max n defaultSlicePayload) max

/-- The element size that the sensor's descriptor gives. -/
def elementSize (sensors : List SensorDescriptor) (sensorId : UInt8) : Option Nat :=
  (sensors.find? fun d => d.sensorId == sensorId).map fun d => d.encoding.elementSize

/-- A sliced frame goes to the queue. -/
def pushSensorFrame (s : SensorSender) (frame : SensorFrame) (datagrams : List Bytes) :
    SensorSender :=
  { s with
    lossy := s.lossy.pushSensorFrame frame.sensorId datagrams
    queued := Function.update s.queued frame.sensorId
      (s.queued frame.sensorId ++ [(frame, datagrams)]) }

/-- The body of the loop of `send_sensor_frames`. -/
def sendSensorFrame (maxPayload : Nat) (s : SensorSender) (frame : SensorFrame) : SensorSender :=
  if s.selectedSensors.contains frame.sensorId then
    match elementSize s.sensors frame.sensorId with
    | none => s
    | some size =>
        match sliceFrame frame.sensorId frame.frameSeq frame.captureTimeUs frame.elements size
          maxPayload with
        | .error _ => s
        | .ok datagrams => s.pushSensorFrame frame datagrams
  else s

/-- Slice the frames that were taken, and queue them. -/
def sendSensorFrames (s : SensorSender) (maxWritable : Option Nat) (frames : List SensorFrame) :
    SensorSender :=
  match s.slicePayload maxWritable with
  | none => s
  | some maxPayload => frames.foldl (sendSensorFrame maxPayload) s

/-- The session's sensor branch. -/
def onFrames (s : SensorSender) (maxWritable : Option Nat) : SensorSender :=
  { s with sensorRx := s.sensorRx.recv }.sendSensorFrames maxWritable s.sensorRx.frames

end SensorSender

/-! ## The console -/

/-- `f32::max`, of two numbers. -/
def deadlineRate (maxHz : UInt8) : F32 := if maxHz = 0 then ⟨0x3DCCCCCD⟩ else .ofNat maxHz.toNat

/-- 1.5 frame periods, as `deadline_for_rate` counts them. -/
def deadlineForRate (maxHz : UInt8) : Nat :=
  ((F32.div (.ofNat 1500000) (deadlineRate maxHz)).value.map fun us => ⌊us⌋₊).getD 0

/-- How many frames a receiver keeps open. -/
def sensorMaxPendingFrames : Nat := 4

/-- A sensor's assembler, with what came in for it. -/
structure SensorReceiver where
  descriptor : SensorDescriptor
  assembler : FrameAssembler
  arrivals : List Arrival

namespace SensorReceiver

/-- How long a receiver waits for a frame's slices. -/
def deadlineUs (r : SensorReceiver) : Nat := deadlineForRate r.descriptor.maxHz

def new (descriptor : SensorDescriptor) : SensorReceiver where
  descriptor
  assembler := .new (deadlineForRate descriptor.maxHz) sensorMaxPendingFrames
  arrivals := []

/-- The assembler takes an arrival.  It never panics (`FrameAssembler.step_isSome`). -/
def take (r : SensorReceiver) (a : Arrival) : SensorReceiver :=
  { r with
    assembler := (a.event.map r.assembler.next).getD r.assembler
    arrivals := r.arrivals ++ [a] }

end SensorReceiver

/-- A slice goes to the receiver of its sensor. -/
def onSensorSlice (sensors : List SensorReceiver) (payload : Bytes) (nowUs : Nat) :
    List SensorReceiver :=
  match Slice.decode payload with
  | none => sensors
  | some slice =>
      match sensors.findIdx? fun r => r.descriptor.sensorId == slice.header.sensorId with
      | none => sensors
      | some i => sensors.modify i fun r =>
          r.take (.datagram (tag datagramTagSensorSlice payload) nowUs)

/-- The console's timer. -/
def pollSensors (sensors : List SensorReceiver) (nowUs : Nat) : List SensorReceiver :=
  sensors.map fun r => r.take (.poll nowUs)

/-! ## Both -/

/-- The robot's side and the console's, which has no receivers before SESSION_DESCRIBE. -/
structure SensorPath where
  robot : SensorSender
  operating : Bool
  sensors : List SensorReceiver

namespace SensorPath

def new (sensors : List SensorDescriptor) (slicePayloadBytes : Nat)
    (policy : SensorFramePolicy) : SensorPath where
  robot := .new sensors slicePayloadBytes policy
  operating := false
  sensors := []

/-- A step of the robot, or an arrival at the console. -/
inductive Event where
  | capture (sensorId : UInt8) (captureTimeUs : UInt64) (elements : Bytes)
  /-- SESSION_ACCEPT selects sensors. -/
  | select (sensors : List UInt8)
  | frames (maxWritable : Option Nat)
  | pushVideoNal (n : Nal) (now : Instant)
  | pop (now : Instant)
  /-- The console reads SESSION_DESCRIBE. -/
  | describe
  /-- The `k`-th slice of a sensor that left arrives.  One may arrive again, or never. -/
  | arrive (sensorId : UInt8) (k : Nat) (nowUs : Nat)
  | poll (nowUs : Nat)

/-- SESSION_DESCRIBE sets up a receiver for each sensor. -/
def onDescribe (p : SensorPath) : SensorPath :=
  if p.operating then p
  else { p with operating := true, sensors := p.robot.sensors.map .new }

/-- The console's branch for the datagrams of sensors. -/
def onDatagram (p : SensorPath) (datagram : Bytes) (nowUs : Nat) : SensorPath :=
  match untag datagram with
  | none => p
  | some (t, payload) =>
      if t = datagramTagSensorSlice ∧ p.operating then
        { p with sensors := onSensorSlice p.sensors payload nowUs }
      else p

/-- What happens on the path. -/
def step (p : SensorPath) : Event → SensorPath
  | .capture sensorId captureTimeUs elements =>
      { p with
        robot.sensorRx := p.robot.sensorRx.capture sensorId captureTimeUs elements }
  | .select sensors => { p with robot.selectedSensors := sensors }
  | .frames maxWritable => { p with robot := p.robot.onFrames maxWritable }
  | .pushVideoNal n now => { p with robot.lossy := p.robot.lossy.step (.pushVideoNal n now) }
  | .pop now => { p with robot.lossy := p.robot.lossy.step (.pop now) }
  | .describe => p.onDescribe
  | .arrive sensorId k nowUs =>
      match (p.robot.lossy.popped sensorId)[k]? with
      | none => p
      | some datagram => p.onDatagram datagram nowUs
  | .poll nowUs => if p.operating then { p with sensors := pollSensors p.sensors nowUs } else p

/-! ## What the console shows -/

/-- The frame is this capture, with the elements whose slices arrived. -/
structure IsOf (size : Nat) (c : SensorFrame) (ds : List Bytes) (as : List Arrival)
    (f : AssembledFrame) : Prop where
  sensorId : f.sensorId = c.sensorId
  frameSeq : f.frameSeq = c.frameSeq
  captureTimeUs : f.captureTimeUs = c.captureTimeUs
  restores : Restores size ds.length c.elements (SliceArrived ds as) f

/-- Every frame that is shown is one captured frame of its sensor, and a sensor's frames come in
order. -/
structure ShowsCaptures (p : SensorPath) : Prop where
  restored : ∀ r ∈ p.sensors, ∀ past last rest, r.arrivals = past ++ last :: rest →
    ∀ f ∈ emittedAt r.deadlineUs sensorMaxPendingFrames past last,
      ∃ c ∈ p.robot.sensorRx.captured r.descriptor.sensorId,
        ∃ maxPayload ds, sliceFrame c.sensorId c.frameSeq c.captureTimeUs c.elements
            r.descriptor.encoding.elementSize maxPayload = .ok ds ∧
          IsOf r.descriptor.encoding.elementSize c ds (past ++ [last]) f
  ordered : ∀ r ∈ p.sensors,
    ((emitted r.deadlineUs sensorMaxPendingFrames (r.arrivals.filterMap Arrival.event)).map
      AssembledFrame.frameSeq).Pairwise (· < ·)
  assemblers : ∀ r ∈ p.sensors, r.assembler =
    after r.deadlineUs sensorMaxPendingFrames (r.arrivals.filterMap Arrival.event)

/-- The captures are few enough for numbers of 32 bits. -/
def Fits (p : SensorPath) : Prop :=
  ∀ id, (p.robot.sensorRx.captured id).length ≤ UInt32.size

end SensorPath

/-! ## What the robot queues -/

namespace SensorSender

/-- What is captured, what of it waits in the given slots and what was queued. -/
structure Inv (policy : SensorFramePolicy) (slots : UInt8 → Option SensorFrame)
    (s : SensorSender) : Prop where
  numbered : ∀ id (i : Nat) c, (s.sensorRx.captured id)[i]? = some c →
    c.sensorId = id ∧ c.frameSeq = UInt32.ofNat i
  slotted : ∀ id, ∀ c ∈ slots id, c ∈ s.sensorRx.captured id ∧
    ∀ q ∈ s.queued id, q.1.frameSeq < c.frameSeq
  ordered : ∀ id, (s.queued id).Pairwise fun q q' => q.1.frameSeq < q'.1.frameSeq
  sliced : ∀ id, ∀ q ∈ s.queued id, q.1 ∈ s.sensorRx.captured id ∧
    ∃ size ∈ elementSize s.sensors id, ∃ maxPayload,
      sliceFrame q.1.sensorId q.1.frameSeq q.1.captureTimeUs q.1.elements size maxPayload = .ok q.2
  frames : ∀ id, s.lossy.frames id = (s.queued id).map Prod.snd
  tied : s.lossy.Tied policy

section

variable {policy : SensorFramePolicy} {slots slots' : UInt8 → Option SensorFrame}
  {s : SensorSender}

theorem Inv.new (sensors : List SensorDescriptor) (slicePayloadBytes : Nat)
    (policy : SensorFramePolicy) : Inv policy (fun _ => none) (new sensors slicePayloadBytes policy)
    where
  numbered _ _ _ h := by cases h
  slotted _ := nofun
  ordered _ := .nil
  sliced _ := nofun
  frames _ := rfl
  tied := .new policy

/-- Fewer frames may wait in the slots. -/
theorem Inv.weaken (h : Inv policy slots s) (hslots : ∀ id, ∀ c ∈ slots' id, c ∈ slots id) :
    Inv policy slots' s :=
  { h with slotted := fun id c hc => h.slotted id c (hslots id c hc) }

/-- Of two frames of a sensor with one number, both are the same. -/
theorem Inv.queued_inj (h : Inv policy slots s) {id : UInt8} {q q' : SensorFrame × List Bytes}
    (hq : q ∈ s.queued id) (hq' : q' ∈ s.queued id) (hseq : q.1.frameSeq = q'.1.frameSeq) :
    q = q' := by
  have hnodup : ((s.queued id).map fun q => q.1.frameSeq).Nodup :=
    List.pairwise_map.mpr ((h.ordered id).imp UInt32.ne_of_lt)
  exact List.inj_on_of_nodup_map hnodup hq hq' hseq

/-- A frame has at least one slice. -/
theorem sliceFrame_ne_nil {sensorId : UInt8} {frameSeq : UInt32} {captureTimeUs : UInt64}
    {elements : Bytes} {size maxPayload : Nat} {ds : List Bytes}
    (h : sliceFrame sensorId frameSeq captureTimeUs elements size maxPayload = .ok ds) :
    ds ≠ [] := by
  obtain ⟨n, payloads, hsliced, hds⟩ := sliceFrame_ok h
  rintro rfl
  have hpos := hsliced.pos
  rw [← hds.length] at hpos
  exact absurd hpos (Nat.lt_irrefl 0)

/-- A newer frame joins the queue. -/
theorem Inv.pushSensorFrame (h : Inv policy slots s) {c : SensorFrame}
    (hcaptured : c ∈ s.sensorRx.captured c.sensorId)
    (hnewer : ∀ q ∈ s.queued c.sensorId, q.1.frameSeq < c.frameSeq)
    (hslot : slots c.sensorId = none) {size maxPayload : Nat} {ds : List Bytes}
    (hsize : elementSize s.sensors c.sensorId = some size)
    (hslice : sliceFrame c.sensorId c.frameSeq c.captureTimeUs c.elements size maxPayload =
      .ok ds) : Inv policy slots (s.pushSensorFrame c ds) := by
  have hqueued : ∀ id, (s.pushSensorFrame c ds).queued id =
      if id = c.sensorId then s.queued c.sensorId ++ [(c, ds)] else s.queued id :=
    fun id => Function.update_apply _ _ _ _
  refine ⟨h.numbered, ?_, ?_, ?_, ?_, h.tied.pushSensorFrame _ (sliceFrame_ne_nil hslice)⟩
  · intro id c' hc'
    have hne : id ≠ c.sensorId := by
      rintro rfl
      rw [hslot] at hc'
      cases hc'
    rw [hqueued, if_neg hne]
    exact h.slotted id c' hc'
  · intro id
    rw [hqueued]
    split
    · refine List.pairwise_append.mpr ⟨h.ordered _, List.pairwise_singleton _ _, ?_⟩
      intro q hq q' hq'
      rw [List.mem_singleton.mp hq']
      exact hnewer q hq
    · exact h.ordered id
  · intro id q hq
    rw [hqueued] at hq
    split at hq
    · next hid =>
        subst hid
        rcases List.mem_append.mp hq with hold | hnew
        · exact h.sliced _ q hold
        · rw [List.mem_singleton.mp hnew]
          exact ⟨hcaptured, size, hsize, maxPayload, hslice⟩
    · exact h.sliced id q hq
  · intro id
    have hframes : (s.pushSensorFrame c ds).lossy.frames id =
        if id = c.sensorId then s.lossy.frames c.sensorId ++ [ds] else s.lossy.frames id :=
      Function.update_apply _ _ _ _
    rw [hframes, hqueued]
    split
    · rw [List.map_append, h.frames]
      rfl
    · exact h.frames id

/-- One frame taken out of its slot. -/
theorem Inv.sendSensorFrame (h : Inv policy slots s) {id : UInt8} {c : SensorFrame}
    (hc : slots id = some c) (maxPayload : Nat) :
    Inv policy (Function.update slots id none) (sendSensorFrame maxPayload s c) := by
  obtain ⟨hcaptured, hnewer⟩ := h.slotted id c hc
  obtain ⟨i, hi⟩ := List.mem_iff_getElem?.mp hcaptured
  obtain ⟨rfl, -⟩ := h.numbered id i c hi
  have hskip : Inv policy (Function.update slots c.sensorId none) s := by
    refine h.weaken fun id' c' hc' => ?_
    rw [Function.update_apply] at hc'
    split at hc'
    · cases hc'
    · exact hc'
  rw [SensorSender.sendSensorFrame]
  split
  · split
    · exact hskip
    · next size hsize =>
        split
        · exact hskip
        · next ds hslice =>
            exact hskip.pushSensorFrame hcaptured hnewer (Function.update_self _ _ _) hsize hslice
  · exact hskip

/-- All frames that were taken join it. -/
theorem Inv.foldl (h : Inv policy slots s) (maxPayload : Nat) : ∀ {ids : List UInt8}, ids.Nodup →
    Inv policy (fun _ => none)
      ((ids.filterMap slots).foldl (SensorSender.sendSensorFrame maxPayload) s) := by
  intro ids hnodup
  induction ids generalizing s slots with
  | nil => exact h.weaken nofun
  | cons id ids ih =>
      obtain ⟨hnot, hnodup⟩ := List.nodup_cons.mp hnodup
      cases hslot : slots id with
      | none =>
          rw [List.filterMap_cons_none hslot]
          exact ih h hnodup
      | some c =>
          have hsame : ids.filterMap slots = ids.filterMap (Function.update slots id none) := by
            refine List.filterMap_congr fun id' hid' => ?_
            rw [Function.update_of_ne]
            rintro rfl
            exact hnot hid'
          rw [List.filterMap_cons_some hslot, List.foldl_cons, hsame]
          exact ih (h.sendSensorFrame hslot maxPayload) hnodup

theorem nodup_ids : ((List.range 256).map UInt8.ofNat).Nodup := by
  refine List.Nodup.map_on (fun i hi j hj heq => ?_) List.nodup_range
  rw [← UInt8.toNat_ofNat_of_lt' (List.mem_range.mp hi), heq,
    UInt8.toNat_ofNat_of_lt' (List.mem_range.mp hj)]

/-- The sender empties the slots. -/
theorem Inv.onFrames (h : Inv policy s.sensorRx.slots s) (maxWritable : Option Nat) :
    Inv policy (fun _ => none) (s.onFrames maxWritable) := by
  have hrecv : Inv policy s.sensorRx.slots { s with sensorRx := s.sensorRx.recv } :=
    ⟨h.numbered, h.slotted, h.ordered, h.sliced, h.frames, h.tied⟩
  rw [SensorSender.onFrames, SensorSender.sendSensorFrames]
  cases SensorSender.slicePayload { s with sensorRx := s.sensorRx.recv } maxWritable with
  | none => exact hrecv.weaken nofun
  | some maxPayload => exact hrecv.foldl maxPayload nodup_ids

/-- A captured frame takes its sensor's slot. -/
theorem Inv.capture (h : Inv policy s.sensorRx.slots s) (sensorId : UInt8) (captureTimeUs : UInt64)
    (elements : Bytes) (hfits : (s.sensorRx.captured sensorId).length < UInt32.size) :
    Inv policy (s.sensorRx.capture sensorId captureTimeUs elements).slots
      { s with sensorRx := s.sensorRx.capture sensorId captureTimeUs elements } := by
  have hcaptured : ∀ id, (s.sensorRx.capture sensorId captureTimeUs elements).captured id =
      if id = sensorId then s.sensorRx.captured sensorId ++
        [⟨sensorId, UInt32.ofNat (s.sensorRx.captured sensorId).length, captureTimeUs, elements⟩]
      else s.sensorRx.captured id :=
    fun id => Function.update_apply _ _ _ _
  have hkept : ∀ id, ∀ c ∈ s.sensorRx.captured id,
      c ∈ (s.sensorRx.capture sensorId captureTimeUs elements).captured id := by
    intro id c hc
    rw [hcaptured]
    split
    · next hid =>
        subst hid
        exact List.mem_append_left _ hc
    · exact hc
  refine ⟨?_, ?_, h.ordered, fun id q hq => ?_, h.frames, h.tied⟩
  · intro id i c hc
    replace hc : ((s.sensorRx.capture sensorId captureTimeUs elements).captured id)[i]? = some c :=
      hc
    rw [hcaptured] at hc
    split at hc
    · next hid =>
        subst hid
        rcases Nat.lt_or_ge i (s.sensorRx.captured id).length with hlt | hge
        · rw [List.getElem?_append_left hlt] at hc
          exact h.numbered id i c hc
        · rw [List.getElem?_append_right hge] at hc
          have hi := (List.getElem?_eq_some_iff.mp hc).1
          rw [List.length_singleton] at hi
          obtain rfl : i = (s.sensorRx.captured id).length := by omega
          rw [Nat.sub_self] at hc
          obtain rfl := Option.some.inj hc
          exact ⟨rfl, rfl⟩
    · exact h.numbered id i c hc
  · intro id c hc
    replace hc : c ∈ Function.update s.sensorRx.slots sensorId _ id := hc
    rw [Function.update_apply] at hc
    split at hc
    · next hid =>
        subst hid
        obtain rfl := Option.some.inj hc
        refine ⟨?_, fun q hq => ?_⟩
        · show _ ∈ (s.sensorRx.capture id captureTimeUs elements).captured id
          rw [hcaptured, if_pos rfl]
          exact List.mem_concat_self
        · obtain ⟨i, hi⟩ := List.mem_iff_getElem?.mp (h.sliced id q hq).1
          have hlt := (List.getElem?_eq_some_iff.mp hi).1
          rw [(h.numbered id i _ hi).2, UInt32.lt_iff_toNat_lt,
            UInt32.toNat_ofNat_of_lt' (hlt.trans hfits), UInt32.toNat_ofNat_of_lt' hfits]
          exact hlt
    · obtain ⟨hmem, hnewer⟩ := h.slotted id c hc
      exact ⟨hkept id c hmem, hnewer⟩
  · obtain ⟨hmem, hsize⟩ := h.sliced id q hq
    exact ⟨hkept id _ hmem, hsize⟩

/-- A call of the queue that pushes no sensor frame. -/
theorem Inv.lossyStep (h : Inv policy slots s) {op : LossyQueue.Op} (hop : op.FrameFilled)
    (hframes : (s.lossy.step op).frames = s.lossy.frames) :
    Inv policy slots { s with lossy := s.lossy.step op } where
  numbered := h.numbered
  slotted := h.slotted
  ordered := h.ordered
  sliced := h.sliced
  frames id := (congrFun hframes id).trans (h.frames id)
  tied := h.tied.step hop

/-- A slice that left is one of a queued frame. -/
theorem Inv.mem_of_popped (h : Inv policy slots s) {id : UInt8} {d : Bytes}
    (hd : d ∈ s.lossy.popped id) : ∃ q ∈ s.queued id, d ∈ q.2 := by
  have hsome : some d ∈ (s.lossy.popped id).map some := List.mem_map_of_mem hd
  rw [h.tied.labelled id] at hsome
  obtain ⟨place, -, hplace⟩ := List.mem_map.mp hsome
  rw [sliceAt, h.frames, List.getD_eq_getElem?_getD, List.getElem?_map] at hplace
  cases hq : (s.queued id)[place.1]? with
  | none =>
      rw [hq] at hplace
      cases hplace
  | some q =>
      rw [hq] at hplace
      exact ⟨q, List.mem_of_getElem? hq, List.mem_of_getElem? hplace⟩

end

end SensorSender

/-! ## What the console puts together -/

/-- The assembler of a receiver has taken slices of queued frames only. -/
structure SensorReceiver.Fed (s : SensorSender) (r : SensorReceiver) : Prop where
  assembler : r.assembler =
    after r.deadlineUs sensorMaxPendingFrames (r.arrivals.filterMap Arrival.event)
  slices : ∀ d ∈ arrivedBytes r.arrivals,
    SensorSender.elementSize s.sensors r.descriptor.sensorId =
        some r.descriptor.encoding.elementSize ∧
      ∃ q ∈ s.queued r.descriptor.sensorId, d ∈ q.2

namespace SensorReceiver

variable {policy : SensorFramePolicy} {slots : UInt8 → Option SensorFrame} {s : SensorSender}
  {r : SensorReceiver}

theorem Fed.new (d : SensorDescriptor) : Fed s (.new d) where
  assembler := rfl
  slices := nofun

/-- A slice that arrives is fed to its receiver. -/
theorem Fed.take (h : r.Fed s) {a : Arrival}
    (hslices : ∀ d ∈ a.bytes, SensorSender.elementSize s.sensors r.descriptor.sensorId =
        some r.descriptor.encoding.elementSize ∧
      ∃ q ∈ s.queued r.descriptor.sensorId, d ∈ q.2) : (r.take a).Fed s where
  assembler := by
    show (a.event.map r.assembler.next).getD r.assembler =
      after r.deadlineUs sensorMaxPendingFrames ((r.arrivals ++ [a]).filterMap Arrival.event)
    rw [h.assembler, List.filterMap_append]
    cases hevent : a.event with
    | none =>
        rw [List.filterMap_cons_none hevent, List.filterMap_nil, List.append_nil]
        rfl
    | some e =>
        rw [List.filterMap_cons_some hevent, List.filterMap_nil, after, after, exec_concat]
        rfl
  slices := by
    intro d hd
    replace hd : d ∈ arrivedBytes (r.arrivals ++ [a]) := hd
    rw [arrivedBytes, List.filterMap_append] at hd
    rcases List.mem_append.mp hd with hold | hnew
    · exact h.slices d hold
    · refine hslices d ?_
      cases hbytes : a.bytes with
      | none =>
          rw [List.filterMap_cons_none hbytes] at hnew
          cases hnew
      | some d' =>
          rw [List.filterMap_cons_some hbytes] at hnew
          rw [List.mem_singleton.mp hnew]
          rfl

/-- The datagrams of a frame carry its header. -/
theorem slice_of_mem {sensorId : UInt8} {frameSeq : UInt32} {captureTimeUs : UInt64}
    {elements : Bytes} {size maxPayload : Nat} {ds : List Bytes}
    (h : sliceFrame sensorId frameSeq captureTimeUs elements size maxPayload = .ok ds) {d : Bytes}
    (hd : d ∈ ds) : ∃ slice, Slice.ofDatagram d = some slice ∧ slice.header.sensorId = sensorId ∧
      slice.seq = frameSeq ∧ slice.header.captureTimeUs = captureTimeUs := by
  obtain ⟨n, payloads, hsliced, hds⟩ := sliceFrame_ok h
  obtain ⟨k, hk, rfl⟩ := List.getElem_of_mem hd
  obtain ⟨d', payload, hget, -, hof⟩ := hds.slice k hsliced.lt (hds.length ▸ hk)
  rw [List.getElem?_eq_getElem hk] at hget
  obtain rfl := Option.some.inj hget
  exact ⟨_, hof, rfl, rfl, rfl⟩

/-- What the receiver emits restores a captured frame. -/
theorem Fed.restored (h : r.Fed s) (hinv : s.Inv policy slots) {past rest : List Arrival}
    {last : Arrival} (harrivals : r.arrivals = past ++ last :: rest) {f : AssembledFrame}
    (hf : f ∈ emittedAt r.deadlineUs sensorMaxPendingFrames past last) :
    ∃ c ∈ s.sensorRx.captured r.descriptor.sensorId,
      ∃ maxPayload ds, sliceFrame c.sensorId c.frameSeq c.captureTimeUs c.elements
          r.descriptor.encoding.elementSize maxPayload = .ok ds ∧
        SensorPath.IsOf r.descriptor.encoding.elementSize c ds (past ++ [last]) f := by
  have hcollects := collects_of_mem_emittedAt hf
  have hsubset : ∀ d ∈ arrivedBytes (past ++ [last]), d ∈ arrivedBytes r.arrivals := by
    intro d hd
    rw [harrivals, List.append_cons, arrivedBytes, List.filterMap_append]
    exact List.mem_append_left _ hd
  -- the frame is that of the first slice that arrived for it
  obtain ⟨slice, hfind, hsensor, htime, -⟩ := hcollects.first
  have hseq : slice.seq = f.frameSeq := by simpa using List.find?_some hfind
  have hreceived := List.mem_of_find?_eq_some hfind
  rw [received_eq] at hreceived
  obtain ⟨d, hd, hof⟩ := List.mem_filterMap.mp hreceived
  obtain ⟨hsize, q, hq, hdq⟩ := h.slices d (hsubset d hd)
  obtain ⟨hcaptured, size, hsize', maxPayload, hslice⟩ := hinv.sliced _ q hq
  obtain rfl := Option.some.inj (hsize.symm.trans hsize')
  obtain ⟨slice', hof', hid', hseq', htime'⟩ := slice_of_mem hslice hdq
  obtain rfl := Option.some.inj (hof.symm.trans hof')
  -- another slice with its number is one of its slices
  have hours : ∀ d' ∈ arrivedBytes (past ++ [last]), ∀ t ∈ Slice.ofDatagram d',
      t.seq = q.1.frameSeq → d' ∈ q.2 := by
    intro d' hd' t ht hsame
    obtain ⟨-, q', hq', hdq'⟩ := h.slices d' (hsubset d' hd')
    obtain ⟨-, _, -, _, hslice'⟩ := hinv.sliced _ q' hq'
    obtain ⟨t', ht', -, hseqt, -⟩ := slice_of_mem hslice' hdq'
    obtain rfl := Option.some.inj (ht.symm.trans ht')
    rwa [hinv.queued_inj hq hq' (hsame.symm.trans hseqt)]
  obtain ⟨n, payloads, hsliced, hds⟩ := sliceFrame_ok hslice
  obtain ⟨hlen, hslots⟩ := hds.slots hsliced.lt hours (hseq.symm.trans hseq') hcollects
  refine ⟨q.1, hcaptured, maxPayload, q.2, hslice, hsensor.trans hid', hseq.symm.trans hseq',
    htime.trans htime', ?_⟩
  rw [hds.length]
  exact hsliced.restores hlen hslots

end SensorReceiver

/-! ## Every run -/

namespace SensorPath

/-- Each sensor's receiver has been fed with slices that the robot has sent of that sensor. -/
structure Inv (policy : SensorFramePolicy) (p : SensorPath) : Prop where
  robot : p.robot.Inv policy p.robot.sensorRx.slots
  descriptors : p.operating = true → p.sensors.map SensorReceiver.descriptor = p.robot.sensors
  idle : p.operating = false → p.sensors = []
  fed : ∀ r ∈ p.sensors, r.Fed p.robot

section

variable {policy : SensorFramePolicy} {p : SensorPath}

theorem Inv.new (sensors : List SensorDescriptor) (slicePayloadBytes : Nat)
    (policy : SensorFramePolicy) : (new sensors slicePayloadBytes policy).Inv policy where
  robot := .new sensors slicePayloadBytes policy
  descriptors := nofun
  idle _ := rfl
  fed := nofun

/-- The robot's side takes a step, and has queued at least what it had. -/
theorem Inv.withRobot (h : p.Inv policy) {robot : SensorSender}
    (hrobot : robot.Inv policy robot.sensorRx.slots) (hsensors : robot.sensors = p.robot.sensors)
    (hqueued : ∀ id, ∀ q ∈ p.robot.queued id, q ∈ robot.queued id) :
    Inv policy { p with robot } where
  robot := hrobot
  descriptors hoperating := (h.descriptors hoperating).trans hsensors.symm
  idle := h.idle
  fed r hr := by
    refine ⟨(h.fed r hr).assembler, fun d hd => ?_⟩
    obtain ⟨hsize, q, hq, hdq⟩ := (h.fed r hr).slices d hd
    exact ⟨hsensors ▸ hsize, q, hqueued _ q hq, hdq⟩

/-- What a frame that is sent leaves of the session. -/
structure Sends (s s' : SensorSender) : Prop where
  sensors : s'.sensors = s.sensors
  sensorRx : s'.sensorRx = s.sensorRx
  queued : ∀ id, ∀ q ∈ s.queued id, q ∈ s'.queued id

theorem Sends.refl (s : SensorSender) : Sends s s := ⟨rfl, rfl, fun _ _ hq => hq⟩

/-- Sending a frame only adds to what is queued. -/
theorem sendSensorFrame_sends (maxPayload : Nat) (s : SensorSender) (c : SensorFrame) :
    Sends s (s.sendSensorFrame maxPayload c) := by
  rw [SensorSender.sendSensorFrame]
  split
  · split
    · exact .refl s
    · split
      · exact .refl s
      · refine ⟨rfl, rfl, fun id q hq => ?_⟩
        show q ∈ Function.update s.queued c.sensorId _ id
        rw [Function.update_apply]
        split
        · next hid =>
            subst hid
            exact List.mem_append_left _ hq
        · exact hq
  · exact .refl s

theorem foldl_sends (maxPayload : Nat) (frames : List SensorFrame) (s : SensorSender) :
    Sends s (frames.foldl (SensorSender.sendSensorFrame maxPayload) s) := by
  induction frames generalizing s with
  | nil => exact .refl s
  | cons c frames ih =>
      have hone := sendSensorFrame_sends maxPayload s c
      have hrest := ih (s.sendSensorFrame maxPayload c)
      exact ⟨hrest.sensors.trans hone.sensors, hrest.sensorRx.trans hone.sensorRx,
        fun id q hq => hrest.queued id q (hone.queued id q hq)⟩

/-- So does sending all of them. -/
theorem onFrames_sends (s : SensorSender) (maxWritable : Option Nat) :
    Sends { s with sensorRx := s.sensorRx.recv } (s.onFrames maxWritable) := by
  rw [SensorSender.onFrames, SensorSender.sendSensorFrames]
  cases SensorSender.slicePayload { s with sensorRx := s.sensorRx.recv } maxWritable with
  | none => exact .refl _
  | some maxPayload => exact foldl_sends maxPayload _ _

/-- The robot finds the descriptor of the first receiver with an id. -/
theorem Inv.elementSize_of_findIdx? (h : p.Inv policy) (hoperating : p.operating = true)
    {sensorId : UInt8} {i : Nat}
    (hi : p.sensors.findIdx? (fun r => r.descriptor.sensorId == sensorId) = some i)
    {r : SensorReceiver} (hr : p.sensors[i]? = some r) : r.descriptor.sensorId = sensorId ∧
      SensorSender.elementSize p.robot.sensors sensorId =
        some r.descriptor.encoding.elementSize := by
  obtain ⟨hlt, hsame, hfirst⟩ := List.findIdx?_eq_some_iff_getElem.mp hi
  obtain ⟨-, rfl⟩ := List.getElem?_eq_some_iff.mp hr
  refine ⟨eq_of_beq hsame, ?_⟩
  have hfind : p.robot.sensors.find? (fun d => d.sensorId == sensorId) =
      some (p.sensors[i]).descriptor := by
    rw [← h.descriptors hoperating, List.find?_map, Option.map_eq_some_iff]
    refine ⟨p.sensors[i], ?_, rfl⟩
    rw [List.find?_eq_some_iff_getElem]
    refine ⟨hsame, i, hlt, rfl, fun j hj => ?_⟩
    exact Bool.not_eq_true' _ ▸ Bool.eq_false_of_not_eq_true (hfirst j hj)
  rw [SensorSender.elementSize, hfind]
  rfl

theorem map_descriptor_modify (sensors : List SensorReceiver) (i : Nat) (a : Arrival) :
    (sensors.modify i fun r => r.take a).map SensorReceiver.descriptor =
      sensors.map SensorReceiver.descriptor := by
  refine List.ext_getElem? fun j => ?_
  rw [List.getElem?_map, List.getElem?_map, List.getElem?_modify]
  cases sensors[j]? with
  | none => rfl
  | some r =>
      rw [Option.map_eq_map, Option.map_some, Option.map_some, Option.map_some]
      split <;> rfl

/-- A slice of a queued frame arrives. -/
theorem Inv.onDatagram (h : p.Inv policy) {id : UInt8} {q : SensorFrame × List Bytes}
    (hq : q ∈ p.robot.queued id) {d : Bytes} (hd : d ∈ q.2) (nowUs : Nat) :
    (p.onDatagram d nowUs).Inv policy := by
  obtain ⟨hcaptured, size, hsize, maxPayload, hslice⟩ := h.robot.sliced id q hq
  obtain ⟨k, hk⟩ := List.mem_iff_getElem?.mp hcaptured
  obtain ⟨hid, -⟩ := h.robot.numbered id k _ hk
  obtain ⟨slice, hof, hsensor, -, -⟩ := SensorReceiver.slice_of_mem hslice hd
  have hsensorId : slice.header.sensorId = id := hsensor.trans hid
  rw [SensorPath.onDatagram]
  cases d with
  | nil => cases hof
  | cons t payload =>
      show Inv policy (if t = datagramTagSensorSlice ∧ p.operating = true then _ else p)
      split
      · next hguard =>
          obtain ⟨rfl, hoperating⟩ := hguard
          replace hof : Slice.decode payload = some slice := hof
          rw [onSensorSlice, hof]
          dsimp only
          split
          · exact h
          · next i hi =>
              rw [hsensorId] at hi
              refine ⟨h.robot, fun _ => ?_, fun hidle => ?_, fun r hr => ?_⟩
              · rw [map_descriptor_modify]
                exact h.descriptors hoperating
              · rw [hoperating] at hidle
                cases hidle
              · obtain ⟨j, hj⟩ := List.mem_iff_getElem?.mp hr
                rw [List.getElem?_modify] at hj
                obtain ⟨r', hr', rfl⟩ := Option.map_eq_some_iff.mp hj
                have hfed := h.fed r' (List.mem_of_getElem? hr')
                split
                · next hij =>
                    subst hij
                    obtain ⟨rfl, hsize'⟩ := h.elementSize_of_findIdx? hoperating hi hr'
                    refine hfed.take fun d hd' => ?_
                    obtain rfl := Option.some.inj hd'
                    exact ⟨hsize', q, hq, hd⟩
                · exact hfed
      · exact h

theorem Inv.poll (h : p.Inv policy) (nowUs : Nat) :
    Inv policy { p with sensors := pollSensors p.sensors nowUs } where
  robot := h.robot
  descriptors hoperating := by
    rw [← h.descriptors hoperating]
    exact List.map_map
  idle hidle := by
    rw [h.idle hidle]
    rfl
  fed r hr := by
    obtain ⟨r', hr', rfl⟩ := List.mem_map.mp hr
    exact (h.fed r' hr').take nofun

theorem onDatagram_robot (p : SensorPath) (d : Bytes) (nowUs : Nat) :
    (p.onDatagram d nowUs).robot = p.robot := by
  rw [SensorPath.onDatagram]
  cases untag d with
  | none => rfl
  | some tagged =>
      dsimp only
      split <;> rfl

theorem pop_frames (r : SensorRun) (now : Instant) : (r.step (.pop now)).frames = r.frames := by
  show (r.pop now).frames = r.frames
  rw [SensorRun.pop]
  split <;> rfl

/-- A step captures one frame at most. -/
theorem step_captured (p : SensorPath) (e : Event) (id : UInt8) :
    p.robot.sensorRx.captured id <+: (p.step e).robot.sensorRx.captured id ∧
      ((p.step e).robot.sensorRx.captured id).length ≤
        (p.robot.sensorRx.captured id).length + 1 := by
  have hsame : ∀ captured, captured = p.robot.sensorRx.captured id →
      p.robot.sensorRx.captured id <+: captured ∧
        captured.length ≤ (p.robot.sensorRx.captured id).length + 1 := by
    rintro _ rfl
    exact ⟨List.prefix_rfl, Nat.le_succ _⟩
  cases e with
  | capture sensorId captureTimeUs elements =>
      show _ <+: Function.update p.robot.sensorRx.captured sensorId _ id ∧
        (Function.update p.robot.sensorRx.captured sensorId _ id).length ≤ _
      rw [Function.update_apply]
      split
      · next hid =>
          subst hid
          exact ⟨List.prefix_append _ _, List.length_append.le⟩
      · exact hsame _ rfl
  | frames maxWritable =>
      refine hsame ((p.robot.onFrames maxWritable).sensorRx.captured id) ?_
      rw [(onFrames_sends p.robot maxWritable).sensorRx]
      rfl
  | describe =>
      rw [SensorPath.step, onDescribe]
      split <;> exact hsame _ rfl
  | arrive sensorId k nowUs =>
      rw [SensorPath.step]
      split
      · exact hsame _ rfl
      · rw [onDatagram_robot]
        exact hsame _ rfl
  | poll nowUs =>
      rw [SensorPath.step]
      split <;> exact hsame _ rfl
  | _ => exact hsame _ rfl

theorem length_captured_le (p : SensorPath) (events : List Event) (id : UInt8) :
    ((exec SensorPath.step p events).robot.sensorRx.captured id).length ≤
      (p.robot.sensorRx.captured id).length + events.length := by
  induction events generalizing p with
  | nil => exact Nat.le_refl _
  | cons e events ih =>
      refine (ih (p.step e)).trans ?_
      have hone := (step_captured p e id).2
      rw [List.length_cons]
      omega

theorem Fits.of_step {e : Event} (h : (p.step e).Fits) : p.Fits :=
  fun id => (step_captured p e id).1.length_le.trans (h id)

/-- Every event keeps the invariant of the path. -/
theorem Inv.step (h : p.Inv policy) (e : Event) (hfits : (p.step e).Fits) :
    (p.step e).Inv policy := by
  cases e with
  | capture sensorId captureTimeUs elements =>
      have hlt : (p.robot.sensorRx.captured sensorId).length < UInt32.size := by
        have hle := hfits sensorId
        replace hle : (Function.update p.robot.sensorRx.captured sensorId _ sensorId).length ≤
          UInt32.size := hle
        rw [Function.update_self, List.length_append, List.length_singleton] at hle
        exact hle
      exact h.withRobot (h.robot.capture sensorId captureTimeUs elements hlt) rfl fun _ _ hq => hq
  | select sensors =>
      exact h.withRobot ⟨h.robot.numbered, h.robot.slotted, h.robot.ordered, h.robot.sliced,
        h.robot.frames, h.robot.tied⟩ rfl fun _ _ hq => hq
  | frames maxWritable =>
      have hsends := onFrames_sends p.robot maxWritable
      refine h.withRobot ((h.robot.onFrames maxWritable).weaken ?_) hsends.sensors hsends.queued
      rw [hsends.sensorRx]
      exact fun _ => nofun
  | pushVideoNal n now =>
      exact h.withRobot (h.robot.lossyStep trivial rfl) rfl fun _ _ hq => hq
  | pop now =>
      exact h.withRobot (h.robot.lossyStep trivial (pop_frames _ now)) rfl fun _ _ hq => hq
  | describe =>
      rw [SensorPath.step, onDescribe]
      split
      · exact h
      · refine ⟨h.robot, fun _ => ?_, nofun, fun r hr => ?_⟩
        · rw [List.map_map]
          exact List.map_id _
        · obtain ⟨d, -, rfl⟩ := List.mem_map.mp hr
          exact .new d
  | arrive sensorId k nowUs =>
      rw [SensorPath.step]
      split
      · exact h
      · next d hd =>
          obtain ⟨q, hq, hdq⟩ := h.robot.mem_of_popped (List.mem_of_getElem? hd)
          exact h.onDatagram hq hdq nowUs
  | poll nowUs =>
      rw [SensorPath.step]
      split
      · exact h.poll nowUs
      · exact h

end

theorem inv_exec {sensors : List SensorDescriptor} {slicePayloadBytes : Nat}
    {policy : SensorFramePolicy} {events : List Event}
    (hfits : (exec step (new sensors slicePayloadBytes policy) events).Fits) :
    (exec step (new sensors slicePayloadBytes policy) events).Inv policy := by
  induction events using List.reverseRecOn with
  | nil => exact .new sensors slicePayloadBytes policy
  | append_singleton events e ih =>
      rw [exec_concat] at hfits ⊢
      exact (ih hfits.of_step).step e hfits

/-- The invariant is about what the console shows. -/
theorem Inv.showsCaptures {policy : SensorFramePolicy} {p : SensorPath} (h : p.Inv policy) :
    p.ShowsCaptures where
  restored r hr _ _ _ harrivals _ hf := (h.fed r hr).restored h.robot harrivals hf
  ordered r _ := (run_keeps r.deadlineUs sensorMaxPendingFrames _).1.increasing
  assemblers r hr := (h.fed r hr).assembler

/-- The console shows the robot's captures, in order and with what arrived of them. -/
theorem sensorPath_exact (sensors : List SensorDescriptor) (slicePayloadBytes : Nat)
    (policy : SensorFramePolicy) (events : List Event)
    (hfits : (exec step (new sensors slicePayloadBytes policy) events).Fits) :
    (exec step (new sensors slicePayloadBytes policy) events).ShowsCaptures :=
  (inv_exec hfits).showsCaptures

def radarDescriptor : SensorDescriptor where
  sensorId := 3
  label := "radar"
  encoding := .points
    { scaleM := ⟨0x3C23D70A⟩, intensity := false, dopplerScaleMps := none, snr := false }
  maxHz := 10
  maxBitrateKbps := 500
  mountPositionM := Vector.replicate 3 .zero
  mountOrientationXyzw := (Vector.replicate 3 .zero).push .one

/-- Two slices with one point each are sent.  The second one arrives twice, and the first one
after the deadline. -/
def lateSlice : List Event :=
  [.describe, .select [3], .capture 3 7 [1, 2, 3, 4, 5, 6, 11, 12, 13, 14, 15, 16],
    .frames (some 24), .pop 0, .pop 0, .arrive 3 1 1000, .arrive 3 1 1001, .poll 151000,
    .arrive 3 0 151001]

/-- A slice that comes after its frame was given up. -/
theorem sensorPath_exact_lateSlice :
    (exec step (new [radarDescriptor] 0 .cut) lateSlice).sensors.map (fun r =>
        emitted r.deadlineUs sensorMaxPendingFrames (r.arrivals.filterMap Arrival.event)) =
      [[⟨3, 0, 7, [none, some [11, 12, 13, 14, 15, 16]]⟩]] ∧
      (exec step (new [radarDescriptor] 0 .cut) lateSlice).ShowsCaptures := by
  refine ⟨by decide +kernel, sensorPath_exact [radarDescriptor] 0 .cut lateSlice ?_⟩
  intro id
  have hlate : lateSlice.length ≤ UInt32.size := by decide
  exact (length_captured_le _ lateSlice id).trans ((Nat.zero_add _).trans_le hlate)

end SensorPath

end RoboTele
