import RoboTele.Queues.FrameLane
import RoboTele.RobotEdge.LossySensors
import Mathlib.Algebra.BigOperators.Group.Finset.Piecewise
import Mathlib.Data.FinEnum

/-!
# The frames of a sensor

Every sensor is a lane of frames (`FrameLane`), and the queue holds the slices of the
lane's frames that are not sent yet (`Shows`).  So under `Finish` a frame that started
is sent whole and the others are dropped whole, under `Cut` no slice comes before one
of an older frame, and the counters miss nothing (`framesKept`).
-/

namespace RoboTele

open Runs Queues

/-- Whether a frame that has started is finished. -/
def SensorFramePolicy.finishes : SensorFramePolicy → Bool
  | .cut => false
  | .finish => true

/-- The slice with this place, of a sensor that pushed these frames. -/
def sliceAt (frames : List (List Bytes)) (p : Nat × Nat) : Option Bytes :=
  (frames.getD p.1 [])[p.2]?

namespace SensorQueue

/-- The slices that wait. -/
def slices (sq : SensorQueue) : List Bytes := sq.current ++ sq.waiting.getD []

/-- The slices that a push drops. -/
def replacedBy (sq : SensorQueue) (policy : SensorFramePolicy) : List Bytes :=
  match policy with
  | .cut => sq.current
  | .finish => if sq.current = [] ∨ sq.started = false then sq.current else sq.waiting.getD []

/-- The queue holds what is left of the frames in the lane. -/
structure Shows (frames : List (List Bytes)) (l : FrameLane) (sq : SensorQueue) : Prop where
  lengths : l.lengths = frames.map List.length
  current : sq.current = (l.current.map fun p => (frames.getD p.1 []).drop p.2).getD []
  started : ∀ p ∈ l.current, sq.started = decide (0 < p.2)
  waiting : sq.waiting = l.waiting.map fun w => frames.getD w []

section

variable {frames : List (List Bytes)} {l : FrameLane} {sq : SensorQueue} {finish : Bool}
variable {p : Nat × Nat} {datagrams : List Bytes}

theorem Shows.empty : Shows [] .empty .empty := ⟨rfl, rfl, nofun, rfl⟩

/-- The lane's lengths are those of the frames. -/
theorem Shows.len_eq (h : Shows frames l sq) (n : Nat) :
    l.len n = (frames.getD n []).length := by
  rw [FrameLane.len, h.lengths]
  exact List.getD_map frames [] List.length

theorem Shows.length (h : Shows frames l sq) : l.lengths.length = frames.length := by
  rw [h.lengths, List.length_map]

/-- A lane that sends nothing shows a queue without a current frame. -/
theorem Shows.current_of_none (h : Shows frames l sq) (hp : l.current = none) :
    sq.current = [] := by
  rw [h.current, hp]
  rfl

/-- A lane that sends shows the rest of its current frame. -/
theorem Shows.current_of_some (h : Shows frames l sq) (hp : l.current = some p) :
    sq.current = (frames.getD p.1 []).drop p.2 := by
  rw [h.current, hp]
  rfl

/-- What is left of the current frame is not empty. -/
theorem Shows.current_ne_nil (h : Shows frames l sq) (hinv : l.Inv finish)
    (hp : l.current = some p) : sq.current ≠ [] := by
  have hlt := hinv.begun p hp
  rw [h.current_of_some hp, Ne, List.drop_eq_nil_iff, not_le, ← h.len_eq]
  exact hlt

/-- Nothing waits behind no frame. -/
theorem Shows.waiting_of_none (h : Shows frames l sq) (hinv : l.Inv finish)
    (hp : l.current = none) : sq.waiting = none := by
  rw [h.waiting, Option.map_eq_none_iff, Option.eq_none_iff_forall_not_mem]
  intro w hw
  obtain ⟨-, -, p, hcurrent, -⟩ := hinv.waits w hw
  exact absurd (hp.symm.trans hcurrent) (Option.some_ne_none p).symm

/-- A sensor that is not empty has a current frame. -/
theorem Shows.exists_current (h : Shows frames l sq) (hinv : l.Inv finish)
    (hbusy : sq.isEmpty = false) : ∃ p, l.current = some p := by
  cases hp : l.current with
  | some p => exact ⟨p, rfl⟩
  | none =>
      rw [isEmpty, h.current_of_none hp, h.waiting_of_none hinv hp] at hbusy
      exact absurd hbusy.symm Bool.false_ne_true

/-- As many slices are queued as the lane says. -/
theorem Shows.length_slices (h : Shows frames l sq) : sq.slices.length = l.queued := by
  rw [slices, List.length_append, h.current, h.waiting, FrameLane.queued]
  congr 1
  · cases l.current with
    | none => rfl
    | some p => exact (List.length_drop ..).trans (congrArg (· - p.2) (h.len_eq p.1).symm)
  · cases l.waiting with
    | none => rfl
    | some w => exact (h.len_eq w).symm

/-! ## A push -/

theorem getD_concat (frames : List (List Bytes)) (datagrams : List Bytes) {n : Nat}
    (hn : n < frames.length) : (frames ++ [datagrams]).getD n [] = frames.getD n [] :=
  List.getD_append _ _ _ _ hn

theorem getD_concat_length (frames : List (List Bytes)) (datagrams : List Bytes) :
    (frames ++ [datagrams]).getD frames.length [] = datagrams := by
  rw [List.getD_append_right _ _ _ _ le_rfl, Nat.sub_self, List.getD_cons_zero]

/-- The waiting frame is an old one. -/
theorem Shows.waiting_concat (h : Shows frames l sq) (hinv : l.Inv finish)
    (datagrams : List Bytes) :
    sq.waiting = l.waiting.map fun w => (frames ++ [datagrams]).getD w [] := by
  rw [h.waiting]
  refine Option.map_congr fun w hw => (getD_concat _ _ ?_).symm
  rw [← h.length]
  exact hinv.lt_of_waiting hw

/-- A frame that starts at once. -/
theorem Shows.restart (h : Shows frames l sq) (hinv : l.Inv finish) (datagrams : List Bytes) :
    Shows (frames ++ [datagrams]) (l.restart datagrams.length) (sq.restart datagrams) where
  lengths := by
    rw [FrameLane.restart, h.lengths, List.map_append, List.map_singleton]
  current := by
    change datagrams = ((frames ++ [datagrams]).getD l.lengths.length []).drop 0
    rw [h.length, getD_concat_length, List.drop_zero]
  started p hp := by
    obtain rfl := Option.some.inj hp
    rfl
  waiting := h.waiting_concat hinv datagrams

/-- A frame that waits for the current one. -/
theorem Shows.wait (h : Shows frames l sq) (hinv : l.Inv finish) (datagrams : List Bytes) :
    Shows (frames ++ [datagrams]) (l.wait datagrams.length)
      { sq with waiting := some datagrams } where
  lengths := by
    rw [FrameLane.wait, h.lengths, List.map_append, List.map_singleton]
  current := by
    refine h.current.trans
      (congrArg (fun o : Option (List Bytes) => o.getD []) (Option.map_congr fun p hp => ?_))
    rw [getD_concat _ _ (h.length ▸ hinv.lt_of_current hp)]
  started := h.started
  waiting := by
    change some datagrams = some ((frames ++ [datagrams]).getD l.lengths.length [])
    rw [h.length, getD_concat_length]

/-- The frame being sent has not started. -/
theorem Shows.fresh_iff (h : Shows frames l sq) (hinv : l.Inv finish) :
    (sq.current = [] ∨ sq.started = false) ↔ ¬ ∃ p ∈ l.current, 0 < p.2 := by
  cases hp : l.current with
  | none => exact iff_of_true (.inl (h.current_of_none hp)) nofun
  | some p =>
      rw [or_iff_right (h.current_ne_nil hinv hp), h.started p hp, decide_eq_false_iff_not]
      simp

/-- A push keeps the queue in step with the lane. -/
theorem Shows.push (h : Shows frames l sq) (policy : SensorFramePolicy)
    (hinv : l.Inv policy.finishes) (datagrams : List Bytes) :
    Shows (frames ++ [datagrams]) (l.push policy.finishes datagrams.length)
      (sq.pushFrame policy datagrams) := by
  cases policy with
  | cut => exact h.restart hinv datagrams
  | finish =>
      rw [pushFrame, FrameLane.push]
      by_cases hfresh : sq.current = [] ∨ sq.started = false
      · rw [if_pos hfresh, if_neg fun hwait => (h.fresh_iff hinv).mp hfresh hwait.2]
        exact h.restart hinv datagrams
      · rw [if_neg hfresh, if_pos ⟨rfl, not_not.mp (mt (h.fresh_iff hinv).mpr hfresh)⟩]
        exact h.wait hinv datagrams

/-- What a push drops is what leaves the lane unsent. -/
theorem Shows.counts_push (h : Shows frames l sq) (policy : SensorFramePolicy)
    (hinv : l.Inv policy.finishes) (m : Nat) :
    (l.push policy.finishes m).dropped = l.dropped + (sq.replacedBy policy).length ∧
      (l.push policy.finishes m).replaced.length =
        l.replaced.length + if sq.replacedBy policy = [] then 0 else 1 := by
  have hrestart : (l.restart m).dropped = l.dropped + sq.current.length ∧
      (l.restart m).replaced.length =
        l.replaced.length + if sq.current = [] then 0 else 1 := by
    obtain ⟨hreplaced, hdropped⟩ := hinv.counts_restart m
    rw [hreplaced, hdropped]
    cases hp : l.current with
    | none => simp [h.current_of_none hp]
    | some p =>
        rw [if_neg (h.current_ne_nil hinv hp), h.current_of_some hp]
        simp [h.len_eq]
  cases policy with
  | cut => exact hrestart
  | finish =>
      rw [replacedBy, FrameLane.push]
      by_cases hfresh : sq.current = [] ∨ sq.started = false
      · rw [if_pos hfresh, if_neg fun hwait => (h.fresh_iff hinv).mp hfresh hwait.2]
        exact hrestart
      · rw [if_neg hfresh, if_pos ⟨rfl, not_not.mp (mt (h.fresh_iff hinv).mpr hfresh)⟩]
        obtain ⟨hreplaced, hdropped⟩ := hinv.counts_wait m
        rw [hreplaced, hdropped, h.waiting]
        cases hw : l.waiting with
        | none => simp
        | some w =>
            have hpos := hinv.len_pos (hinv.lt_of_waiting hw)
            rw [h.len_eq] at hpos
            rw [Option.map_some, Option.map_some, Option.getD_some, Option.getD_some, h.len_eq,
              if_neg (List.ne_nil_of_length_pos hpos)]
            exact ⟨rfl, List.length_append⟩

/-! ## A pop -/

/-- A current frame is what is sent next. -/
theorem Shows.ready_eq (h : Shows frames l sq) (hinv : l.Inv finish) (hp : l.current = some p) :
    sq.ready = sq :=
  if_neg (h.current_ne_nil hinv hp)

/-- The slice that is sent next is the lane's. -/
theorem Shows.nextSlice_eq (h : Shows frames l sq) (hinv : l.Inv finish)
    (hp : l.current = some p) : sq.nextSlice = sliceAt frames p := by
  rw [nextSlice, h.ready_eq hinv hp, h.current_of_some hp, List.head?_drop, sliceAt]

/-- A pop keeps the queue in step with the lane. -/
theorem Shows.pop (h : Shows frames l sq) (hinv : l.Inv finish) (hp : l.current = some p) :
    Shows frames l.pop sq.afterSlice := by
  obtain ⟨n, k⟩ := p
  have htail : sq.current.tail = (frames.getD n []).drop (k + 1) := by
    rw [h.current_of_some hp, List.tail_drop]
  have hlast : sq.current.tail = [] ↔ ¬ k + 1 < l.len n := by
    rw [htail, List.drop_eq_nil_iff, not_lt, h.len_eq]
  rw [afterSlice, h.ready_eq hinv hp, FrameLane.pop, hp]
  dsimp only
  by_cases hmore : k + 1 < l.len n
  · rw [if_neg fun hnil => hlast.mp hnil hmore, if_pos hmore]
    refine ⟨h.lengths, htail, ?_, h.waiting⟩
    intro p' hp'
    obtain rfl := Option.some.inj hp'
    exact (decide_eq_true (Nat.succ_pos k)).symm
  · rw [if_pos (hlast.mpr hmore), if_neg hmore, advance]
    have hwaiting := h.waiting
    cases hw : l.waiting with
    | none =>
        rw [hw] at hwaiting
        rw [hwaiting]
        exact ⟨h.lengths, hlast.mpr hmore, fun _ hp' => absurd hp' (Option.not_mem_none _), rfl⟩
    | some w =>
        rw [hw] at hwaiting
        rw [hwaiting]
        refine ⟨h.lengths, rfl, ?_, rfl⟩
        intro p' hp'
        obtain rfl := Option.some.inj hp'
        rfl

/-- A queue that a valid lane shows has no frame without slices. -/
theorem Shows.filled (h : Shows frames l sq) (hinv : l.Inv finish) : sq.Filled := by
  intro frame hframe
  rw [h.waiting] at hframe
  obtain ⟨w, hw, rfl⟩ := Option.map_eq_some_iff.mp hframe
  have hpos := hinv.len_pos (hinv.lt_of_waiting hw)
  rw [h.len_eq] at hpos
  exact List.ne_nil_of_length_pos hpos

end

end SensorQueue

/-! ## The counters -/

/-- What a push of a frame does to the counters. -/
theorem LossyQueue.pushSensorFrame_stats (q : LossyQueue) (id : UInt8) (datagrams : List Bytes)
    (hfilled : (q.sensors id).Filled) :
    (q.pushSensorFrame id datagrams).stats.sensorSlicesDropped =
        q.stats.sensorSlicesDropped + ((q.sensors id).replacedBy q.sensorPolicy).length ∧
      (q.pushSensorFrame id datagrams).stats.sensorFramesCut =
        q.stats.sensorFramesCut + (if q.sensorPolicy = .finish ∨
          (q.sensors id).replacedBy q.sensorPolicy = [] then 0 else 1) ∧
      (q.pushSensorFrame id datagrams).stats.sensorFramesSkipped =
        q.stats.sensorFramesSkipped + (if q.sensorPolicy = .cut ∨
          (q.sensors id).replacedBy q.sensorPolicy = [] then 0 else 1) := by
  rw [pushSensorFrame]
  cases q.sensorPolicy with
  | cut =>
      by_cases hcurrent : (q.sensors id).current = []
      · simp [SensorQueue.replacedBy, setSensor, hcurrent]
      · simp [SensorQueue.replacedBy, setSensor, countCut, hcurrent]
  | finish =>
      by_cases hfresh : (q.sensors id).current = [] ∨ (q.sensors id).started = false
      · by_cases hcurrent : (q.sensors id).current = []
        · simp [SensorQueue.replacedBy, setSensor, hcurrent]
        · have hstarted := hfresh.resolve_left hcurrent
          simp [SensorQueue.replacedBy, setSensor, countSkipped, hcurrent, hstarted]
      · cases hwaiting : (q.sensors id).waiting with
        | none => simp [SensorQueue.replacedBy, setSensor, hfresh, hwaiting]
        | some old =>
            have hold := hfilled old hwaiting
            simp [SensorQueue.replacedBy, setSensor, countSkipped, hfresh, hwaiting, hold]

/-- A sum over the sensors of which one changes. -/
theorem sum_update {α : Type*} (f : UInt8 → α) (g : α → Nat) (id : UInt8) (x : α) :
    (∑ i, g (Function.update f id x i)) + g (f id) = (∑ i, g (f i)) + g x := by
  rw [← Finset.add_sum_erase _ _ (Finset.mem_univ id),
    ← Finset.add_sum_erase _ (fun i => g (f i)) (Finset.mem_univ id), Function.update_self]
  have hrest : ∀ i ∈ Finset.univ.erase id, g (Function.update f id x i) = g (f i) := fun i hi => by
    rw [Function.update_of_ne (Finset.ne_of_mem_erase hi)]
  rw [Finset.sum_congr rfl hrest]
  omega

/-! ## Runs -/

/-- The queue, with the frames pushed and the slices popped of every sensor, and the lane
these make. -/
structure SensorRun where
  queue : LossyQueue
  frames : UInt8 → List (List Bytes)
  popped : UInt8 → List Bytes
  lanes : UInt8 → FrameLane

namespace SensorRun

def new (policy : SensorFramePolicy) : SensorRun where
  queue := .withSensorPolicy policy
  frames _ := []
  popped _ := []
  lanes _ := .empty

/-- A frame of a sensor, noted as a whole. -/
def pushSensorFrame (r : SensorRun) (id : UInt8) (datagrams : List Bytes) : SensorRun :=
  { r with
    queue := r.queue.pushSensorFrame id datagrams
    frames := Function.update r.frames id (r.frames id ++ [datagrams])
    lanes := Function.update r.lanes id
      ((r.lanes id).push r.queue.sensorPolicy.finishes datagrams.length) }

/-- A pop, noted for its sensor. -/
def pop (r : SensorRun) (now : Instant) : SensorRun :=
  match r.queue.popSource now with
  | some (.sensor id) =>
      { r with
        queue := (r.queue.pop now).1
        popped := Function.update r.popped id (r.popped id ++ (r.queue.pop now).2.toList)
        lanes := Function.update r.lanes id (r.lanes id).pop }
  | _ => { r with queue := (r.queue.pop now).1 }

/-- A call of the queue. -/
def step (r : SensorRun) : LossyQueue.Op → SensorRun
  | .pushVideoNal n now => { r with queue := r.queue.pushVideoNal n now }
  | .pushSensorFrame id datagrams => r.pushSensorFrame id datagrams
  | .pop now => r.pop now

/-- The queue and its history after some calls. -/
def after (policy : SensorFramePolicy) (ops : List LossyQueue.Op) : SensorRun :=
  exec step (new policy) ops

/-- The queue takes the steps of the run. -/
theorem queue_step (r : SensorRun) (op : LossyQueue.Op) : (r.step op).queue = r.queue.step op := by
  cases op with
  | pushVideoNal n now => rfl
  | pushSensorFrame id datagrams => rfl
  | pop now =>
      change (r.pop now).queue = (r.queue.pop now).1
      rw [pop]
      split <;> rfl

/-- The run's queue is the one that the operations lead to. -/
theorem queue_after (policy : SensorFramePolicy) (ops : List LossyQueue.Op) :
    (after policy ops).queue = LossyQueue.after policy ops := by
  induction ops using List.reverseRecOn with
  | nil => rfl
  | append_singleton ops op ih =>
      rw [after, exec_concat, queue_step, LossyQueue.after, exec_concat]
      exact congrArg (LossyQueue.step · op) ih

/-- What becomes of the frames.  The popped slices and the waiting ones are those of the
lane's frames.  Under `Finish` a frame that started is sent whole, under `Cut` no slice
comes before one of an older frame.  Every slice pushed was popped, counted as dropped or
waits, and every frame that neither waits nor was sent to its end is counted once. -/
structure FramesKept (r : SensorRun) (policy : SensorFramePolicy) : Prop where
  labelled : ∀ id, (r.popped id).map some = (r.lanes id).popped.map (sliceAt (r.frames id))
  shows : ∀ id, (r.queue.sensors id).Shows (r.frames id) (r.lanes id)
  finished : policy = .finish → ∀ id, (r.lanes id).Finished
  ordered : policy = .cut → ∀ id, (r.lanes id).popped.Pairwise fun s t => s.1 ≤ t.1
  slices : ∑ id, ((r.frames id).map List.length).sum =
    ∑ id, (r.popped id).length + r.queue.stats.sensorSlicesDropped +
      ∑ id, (r.queue.sensors id).slices.length
  dropped : r.queue.stats.sensorSlicesDropped = ∑ id, (r.lanes id).dropped
  cut : r.queue.stats.sensorFramesCut =
    if policy = .cut then ∑ id, (r.lanes id).replaced.length else 0
  skipped : r.queue.stats.sensorFramesSkipped =
    if policy = .finish then ∑ id, (r.lanes id).replaced.length else 0
  once : ∀ id, (r.lanes id).replaced.Nodup
  replaced : ∀ id n, n ∈ (r.lanes id).replaced ↔ n < (r.frames id).length ∧
    n ∉ (r.lanes id).held ∧ (n, ((r.frames id).getD n []).length - 1) ∉ (r.lanes id).popped

/-- The run and its lanes are in step. -/
structure Tied (policy : SensorFramePolicy) (r : SensorRun) : Prop where
  hasPolicy : r.queue.sensorPolicy = policy
  inv : ∀ id, (r.lanes id).Inv policy.finishes
  shows : ∀ id, (r.queue.sensors id).Shows (r.frames id) (r.lanes id)
  labelled : ∀ id, (r.popped id).map some = (r.lanes id).popped.map (sliceAt (r.frames id))
  dropped : r.queue.stats.sensorSlicesDropped = ∑ id, (r.lanes id).dropped
  cut : r.queue.stats.sensorFramesCut =
    if policy = .cut then ∑ id, (r.lanes id).replaced.length else 0
  skipped : r.queue.stats.sensorFramesSkipped =
    if policy = .finish then ∑ id, (r.lanes id).replaced.length else 0

variable {policy : SensorFramePolicy} {r : SensorRun} {op : LossyQueue.Op}

theorem Tied.filled (h : r.Tied policy) : r.queue.Filled :=
  fun id => (h.shows id).filled (h.inv id)

/-- Lanes that are tied to the queue keep the frames. -/
theorem Tied.kept (h : r.Tied policy) : r.FramesKept policy where
  labelled := h.labelled
  shows := h.shows
  finished hpolicy id := by
    subst hpolicy
    exact (h.inv id).finished
  ordered _ id := (h.inv id).popped_ordered
  slices := by
    rw [h.dropped, ← Finset.sum_add_distrib, ← Finset.sum_add_distrib]
    refine Finset.sum_congr rfl fun id _ => ?_
    have hlength := congrArg List.length (h.labelled id)
    rw [List.length_map, List.length_map] at hlength
    rw [hlength, (h.shows id).length_slices, ← (h.shows id).lengths, (h.inv id).sum_lengths]
  dropped := h.dropped
  cut := h.cut
  skipped := h.skipped
  once id := (h.inv id).nodup_replaced
  replaced id n := by
    rw [(h.inv id).mem_replaced_iff, (h.shows id).length, (h.shows id).len_eq]

/-! ## Every step -/

/-- Empty lanes are tied to an empty queue. -/
theorem Tied.new (policy : SensorFramePolicy) : (new policy).Tied policy where
  hasPolicy := rfl
  inv _ := .empty _
  shows _ := .empty
  labelled _ := rfl
  dropped := by
    simp [SensorRun.new, LossyQueue.withSensorPolicy, FrameLane.dropped, FrameLane.empty]
  cut := by
    simp [SensorRun.new, LossyQueue.withSensorPolicy, FrameLane.replaced, FrameLane.empty]
  skipped := by
    simp [SensorRun.new, LossyQueue.withSensorPolicy, FrameLane.replaced, FrameLane.empty]

/-- A step that leaves the sensor side alone. -/
theorem Tied.of_same (h : r.Tied policy) {q : LossyQueue} (hsame : r.queue.SameSensors q) :
    Tied policy { r with queue := q } where
  hasPolicy := hsame.policy.trans h.hasPolicy
  inv := h.inv
  shows id := by
    rw [hsame.sensors]
    exact h.shows id
  labelled := h.labelled
  dropped := hsame.dropped.trans h.dropped
  cut := hsame.cut.trans h.cut
  skipped := hsame.skipped.trans h.skipped

/-- A new frame changes no earlier slice. -/
theorem sliceAt_concat {frames : List (List Bytes)} (datagrams : List Bytes) {p : Nat × Nat}
    (hp : p.1 < frames.length) : sliceAt (frames ++ [datagrams]) p = sliceAt frames p := by
  rw [sliceAt, sliceAt, SensorQueue.getD_concat _ _ hp]

/-- A popped slice belongs to a frame that was pushed. -/
theorem lt_of_mem_popped {l : FrameLane} {finish : Bool} (hinv : l.Inv finish) {s : Nat × Nat}
    (hs : s ∈ l.popped) : s.1 < l.lengths.length := by
  obtain ⟨p, hleft | hcurrent, hframe, -⟩ := FrameLane.mem_popped.mp hs
  · exact hframe ▸ hinv.lt_of_left hleft
  · exact hframe ▸ hinv.lt_of_current hcurrent

/-- A step that changes one sensor.  The counters go up by what leaves its lane. -/
theorem Tied.update (h : r.Tied policy) (id : UInt8) {q : LossyQueue} {sq : SensorQueue}
    {frames : List (List Bytes)} {popped : List Bytes} {lane : FrameLane}
    (hpolicy : q.sensorPolicy = r.queue.sensorPolicy)
    (hsensors : q.sensors = Function.update r.queue.sensors id sq)
    (hinv : lane.Inv policy.finishes) (hshows : sq.Shows frames lane)
    (hlabelled : popped.map some = lane.popped.map (sliceAt frames))
    (hdropped : q.stats.sensorSlicesDropped + (r.lanes id).dropped =
      r.queue.stats.sensorSlicesDropped + lane.dropped)
    (hcut : policy = .cut → q.stats.sensorFramesCut + (r.lanes id).replaced.length =
      r.queue.stats.sensorFramesCut + lane.replaced.length)
    (huncut : policy ≠ .cut → q.stats.sensorFramesCut = r.queue.stats.sensorFramesCut)
    (hskipped : policy = .finish → q.stats.sensorFramesSkipped + (r.lanes id).replaced.length =
      r.queue.stats.sensorFramesSkipped + lane.replaced.length)
    (hunskipped : policy ≠ .finish →
      q.stats.sensorFramesSkipped = r.queue.stats.sensorFramesSkipped) :
    Tied policy
      { queue := q
        frames := Function.update r.frames id frames
        popped := Function.update r.popped id popped
        lanes := Function.update r.lanes id lane } := by
  have hreplacedSum := sum_update r.lanes (fun l => l.replaced.length) id lane
  refine ⟨hpolicy.trans h.hasPolicy, ?_, ?_, ?_, ?_, ?_, ?_⟩
  · intro id'
    dsimp only
    rw [Function.update_apply]
    split_ifs with hid
    · exact hinv
    · exact h.inv id'
  · intro id'
    dsimp only
    rw [hsensors, Function.update_apply, Function.update_apply, Function.update_apply]
    split_ifs with hid
    · exact hshows
    · exact h.shows id'
  · intro id'
    dsimp only
    rw [Function.update_apply, Function.update_apply, Function.update_apply]
    split_ifs with hid
    · exact hlabelled
    · exact h.labelled id'
  · have hsum := sum_update r.lanes FrameLane.dropped id lane
    have hbefore := h.dropped
    dsimp only
    omega
  · have hbefore := h.cut
    dsimp only
    split_ifs at hbefore ⊢ with hcuts
    · have hafter := hcut hcuts
      omega
    · exact (huncut hcuts).trans hbefore
  · have hbefore := h.skipped
    dsimp only
    split_ifs at hbefore ⊢ with hfinishes
    · have hafter := hskipped hfinishes
      omega
    · exact (hunskipped hfinishes).trans hbefore

/-- A frame with slices keeps the lanes tied. -/
theorem Tied.pushSensorFrame (h : r.Tied policy) (id : UInt8) {datagrams : List Bytes}
    (hne : datagrams ≠ []) : (r.pushSensorFrame id datagrams).Tied policy := by
  have hinv := h.inv id
  have hshows := h.shows id
  obtain ⟨hdropped, hcut, hskipped⟩ :=
    r.queue.pushSensorFrame_stats id datagrams (hshows.filled hinv)
  obtain ⟨hlaneDropped, hlaneReplaced⟩ := hshows.counts_push policy hinv datagrams.length
  have hsensors := r.queue.pushSensorFrame_sensors id datagrams
  rw [h.hasPolicy] at hdropped hcut hskipped hsensors
  have hlabelled : (r.popped id).map some =
      ((r.lanes id).push policy.finishes datagrams.length).popped.map
        (sliceAt (r.frames id ++ [datagrams])) := by
    rw [FrameLane.popped_push, h.labelled]
    refine List.map_congr_left fun s hs => (sliceAt_concat _ ?_).symm
    rw [← hshows.length]
    exact lt_of_mem_popped hinv hs
  have htied := h.update id (r.queue.pushSensorFrame_policy id datagrams) hsensors
    (hinv.push (List.length_pos_of_ne_nil hne)) (hshows.push policy hinv datagrams) hlabelled
    (by omega) ?_ ?_ ?_ ?_
  · rw [Function.update_eq_self] at htied
    rw [SensorRun.pushSensorFrame, h.hasPolicy]
    exact htied
  · rintro rfl
    simp only [reduceCtorEq, false_or] at hcut
    omega
  · intro hne
    cases policy with
    | cut => exact absurd rfl hne
    | finish => rwa [if_pos (Or.inl rfl)] at hcut
  · rintro rfl
    simp only [reduceCtorEq, false_or] at hskipped
    omega
  · intro hne
    cases policy with
    | cut => rwa [if_pos (Or.inl rfl)] at hskipped
    | finish => exact absurd rfl hne

/-- A step that takes a slice of a sensor that waits. -/
theorem Tied.takeSlice (h : r.Tied policy) {id : UInt8} {slice : Bytes} {q : LossyQueue}
    (hnext : r.queue.nextSensor = some id)
    (hslice : (r.queue.sensors id).nextSlice = some slice)
    (hsame : (r.queue.takeSlice id).SameSensors q) :
    Tied policy
      { r with
        queue := q
        popped := Function.update r.popped id (r.popped id ++ [slice])
        lanes := Function.update r.lanes id (r.lanes id).pop } := by
  have hinv := h.inv id
  have hshows := h.shows id
  obtain ⟨p, hp⟩ := hshows.exists_current hinv (LossyQueue.isEmpty_of_nextSensor hnext)
  obtain ⟨hreplaced, hdropped⟩ := (r.lanes id).counts_pop
  have hkeptDropped : q.stats.sensorSlicesDropped = r.queue.stats.sensorSlicesDropped :=
    hsame.dropped
  have hkeptCut : q.stats.sensorFramesCut = r.queue.stats.sensorFramesCut := hsame.cut
  have hkeptSkipped : q.stats.sensorFramesSkipped = r.queue.stats.sensorFramesSkipped :=
    hsame.skipped
  have hlabelled : (r.popped id ++ [slice]).map some =
      (r.lanes id).pop.popped.map (sliceAt (r.frames id)) := by
    rw [FrameLane.popped_pop hp, List.map_append, List.map_append, h.labelled,
      List.map_singleton, List.map_singleton, ← hslice, hshows.nextSlice_eq hinv hp]
  have htied := h.update id hsame.policy hsame.sensors hinv.pop (hshows.pop hinv hp) hlabelled
    (by rw [hkeptDropped, hdropped]) (fun _ => by rw [hkeptCut, hreplaced]) (fun _ => hkeptCut)
    (fun _ => by rw [hkeptSkipped, hreplaced]) (fun _ => hkeptSkipped)
  rwa [Function.update_eq_self] at htied

/-- So does a pop of video or of a slice. -/
theorem Tied.pop (h : r.Tied policy) (now : Instant) : (r.pop now).Tied policy := by
  have hpopped := LossyQueue.pop_popped h.filled now
  rw [SensorRun.pop]
  cases hsource : r.queue.popSource now with
  | none =>
      rw [hsource] at hpopped
      cases hpopped with
      | nothing _ hsame _ => exact h.of_same hsame
  | some source =>
      rw [hsource] at hpopped
      cases hpopped with
      | video hsame _ => exact h.of_same hsame
      | sensor hnext hslice hsame hsome =>
          dsimp only
          rw [hsome]
          exact h.takeSlice hnext hslice hsame

/-- Every step of a call with a frame that has slices. -/
theorem Tied.step (h : r.Tied policy) (hop : op.FrameFilled) : (r.step op).Tied policy := by
  cases op with
  | pushVideoNal n now => exact h.of_same (r.queue.pushVideoNal_sensors n now)
  | pushSensorFrame id datagrams => exact h.pushSensorFrame id hop
  | pop now => exact h.pop now

/-- Whatever the calls are, no slice and no frame of a sensor is lost track of. -/
theorem framesKept (policy : SensorFramePolicy) (ops : List LossyQueue.Op)
    (hframes : ∀ op ∈ ops, op.FrameFilled) :
    (after policy ops).queue = LossyQueue.after policy ops ∧ (after policy ops).FramesKept policy :=
  have htied := exec_inv_of_forall (fun _ _ h hop => h.step hop) ops (Tied.new policy) hframes
  ⟨queue_after policy ops, htied.kept⟩

/-- A frame starts, and of two that come meanwhile the older one is dropped. -/
def threeFrames : List LossyQueue.Op :=
  [.pushSensorFrame 3 [[1], [2]], .pop 0, .pushSensorFrame 3 [[3]], .pushSensorFrame 7 [[4]],
    .pushSensorFrame 3 [[5], [6]], .pop 1, .pop 2, .pop 3]

/-- Three frames of one sensor, under the policy that finishes them. -/
theorem framesKept_threeFrames :
    (after .finish threeFrames).queue = LossyQueue.after .finish threeFrames ∧
      (after .finish threeFrames).FramesKept .finish :=
  framesKept .finish threeFrames (by decide)

end SensorRun

end RoboTele
