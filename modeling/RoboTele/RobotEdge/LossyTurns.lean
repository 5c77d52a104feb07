import RoboTele.Core.AnnexB
import RoboTele.RobotEdge.LossySensors

/-!
# Turns in the lossy queue

Video and sensors take turns one datagram at a time, and sensors among themselves, so
neither class starves the other (`Fair`).

A NAL without bytes has no chunks but waits like any other, and the splitter gives one
where two start codes follow each other.  A pop that comes to it at the front drops it
and takes nothing from video, whatever waits behind.  A run is fair if no pop depends
on such a front (`fair`).
-/

namespace RoboTele

open Runs RoundRobin

namespace LossyQueue

/-! ## What waits -/

/-- A chunk of some NAL waits. -/
def VideoWaits (q : LossyQueue) : Prop := ∃ p ∈ q.video, p.chunks ≠ []

/-- Something of the sensor waits. -/
def SensorWaits (q : LossyQueue) (sensorId : UInt8) : Prop := (q.sensors sensorId).isEmpty = false

/-- Something of a sensor waits. -/
def SensorsWait (q : LossyQueue) : Prop := q.busySensors ≠ []

/-- Video and a sensor compete. -/
def BothWait (q : LossyQueue) : Prop := q.VideoWaits ∧ q.SensorsWait

/-- No chunk and no slice waits. -/
def Idle (q : LossyQueue) : Prop :=
  (∀ p ∈ q.video, p.chunks = []) ∧ ∀ id, (q.sensors id).isEmpty = true

/-- A pop that comes to a front without chunks, with chunks behind it, takes from a
sensor in the sensors' turn. -/
def FrontReady (q : LossyQueue) : Prop :=
  (∃ front ∈ q.video.head?, front.chunks = []) → q.VideoWaits →
    q.videoTurn = false ∧ q.SensorsWait

instance (q : LossyQueue) : Decidable q.VideoWaits :=
  inferInstanceAs (Decidable (∃ p ∈ q.video, _))

instance (q : LossyQueue) : Decidable q.SensorsWait :=
  inferInstanceAs (Decidable (_ ≠ _))

instance (q : LossyQueue) : Decidable q.FrontReady :=
  inferInstanceAs (Decidable (_ → _ → _ ∧ _))

/-- What a pop relies on. -/
def PopReady (q : LossyQueue) : Op → Prop
  | .pop now => (q.expireStaleVideo now).FrontReady
  | _ => True

instance (q : LossyQueue) : ∀ op, Decidable (q.PopReady op)
  | .pop now => inferInstanceAs (Decidable (q.expireStaleVideo now).FrontReady)
  | .pushVideoNal _ _ => .isTrue trivial
  | .pushSensorFrame _ _ => .isTrue trivial

/-! ## Fairness -/

/-- One of the pops took from video and the other from a sensor. -/
def Alternate : Option Source → Option Source → Prop
  | some .video, some (.sensor _) => True
  | some (.sensor _), some .video => True
  | _, _ => False

/-- The call is a pop. -/
def Op.IsPop : Op → Prop
  | .pop _ => True
  | _ => False

/-- A pop finds nothing only if nothing waits; of two pops in a row, with both classes
waiting, one is from video and one from a sensor; and between two pops of one sensor
every other sensor that waits all the time has a pop. -/
structure Fair (policy : SensorFramePolicy) (ops : List Op) : Prop where
  idle : ∀ past now later, ops = past ++ .pop now :: later →
    ((after policy past).pop now).2 = none → ((after policy past).expireStaleVideo now).Idle
  alternate : ∀ past now pushes now' later,
    ops = past ++ .pop now :: (pushes ++ .pop now' :: later) → (∀ op ∈ pushes, ¬ op.IsPop) →
      ((after policy past).expireStaleVideo now).BothWait →
        ((after policy (past ++ .pop now :: pushes)).expireStaleVideo now').BothWait →
          Alternate ((after policy past).popSource now)
            ((after policy (past ++ .pop now :: pushes)).popSource now')
  rounds : ∀ past now between now' later id other,
    ops = past ++ .pop now :: (between ++ .pop now' :: later) →
      (after policy past).popSource now = some (.sensor id) →
        (after policy (past ++ .pop now :: between)).popSource now' = some (.sensor id) →
          other ≠ id →
            (∀ mid rest, between = mid ++ rest →
              (after policy (past ++ .pop now :: mid)).SensorWaits other) →
              ∃ mid now'' rest, between = mid ++ .pop now'' :: rest ∧
                (after policy (past ++ .pop now :: mid)).popSource now'' = some (.sensor other)

/-! ## The turn -/

variable {q : LossyQueue} {now : Instant}

theorem expireStaleVideo_videoTurn (q : LossyQueue) (now : Instant) :
    (q.expireStaleVideo now).videoTurn = q.videoTurn := by
  rw [expireStaleVideo]
  split_ifs <;> rfl

theorem popVideo_videoTurn (q : LossyQueue) : q.popVideo.1.videoTurn = q.videoTurn := by
  rw [popVideo]
  cases q.video with
  | nil => rfl
  | cons front video =>
      dsimp only
      cases front.chunks <;> rfl

theorem popSensor_videoTurn (q : LossyQueue) : q.popSensor.1.videoTurn = q.videoTurn := by
  rw [popSensor]
  cases q.nextSensor <;> rfl

/-- Every pop passes the turn. -/
theorem pop_videoTurn (q : LossyQueue) (now : Instant) :
    (q.pop now).1.videoTurn = !q.videoTurn := by
  have hturn : (q.expireStaleVideo now).passTurn.videoTurn = !q.videoTurn :=
    congrArg Bool.not (q.expireStaleVideo_videoTurn now)
  have hvideo : ∀ e : LossyQueue, e.videoTurn = (!q.videoTurn) →
      e.popVideo.1.videoTurn = !q.videoTurn := fun e he => e.popVideo_videoTurn.trans he
  have hsensor : ∀ e : LossyQueue, e.videoTurn = (!q.videoTurn) →
      e.popSensor.1.videoTurn = !q.videoTurn := fun e he => e.popSensor_videoTurn.trans he
  rw [pop]
  split_ifs
  · exact orElse_inv hvideo hsensor hturn
  · exact orElse_inv hsensor hvideo hturn

/-- Nothing else does. -/
theorem step_videoTurn (q : LossyQueue) {op : Op} (hop : ¬ op.IsPop) :
    (q.step op).videoTurn = q.videoTurn := by
  cases op with
  | pushVideoNal n now =>
      change (q.pushVideoNal n now).videoTurn = _
      rw [pushVideoNal]
      split_ifs <;> rfl
  | pushSensorFrame id datagrams =>
      change (q.pushSensorFrame id datagrams).videoTurn = _
      rw [pushSensorFrame]
      cases q.sensorPolicy with
      | cut => rfl
      | finish =>
          dsimp only
          split_ifs <;> rfl
  | pop now => exact absurd trivial hop

/-- Pushes leave the turn alone. -/
theorem exec_videoTurn {ops : List Op} (hops : ∀ op ∈ ops, ¬ op.IsPop) (q : LossyQueue) :
    (exec step q ops).videoTurn = q.videoTurn :=
  exec_inv_of_forall (I := fun q' : LossyQueue => q'.videoTurn = q.videoTurn)
    (fun q' _ h hop => (step_videoTurn q' hop).trans h) ops rfl hops

/-! ## One pop -/

/-- Waiting video is served, unless it is the sensors' turn. -/
theorem videoSource_isSome (hready : q.FrontReady) (hvideo : q.VideoWaits)
    (hturn : ¬ (q.videoTurn = false ∧ q.SensorsWait)) : q.videoSource = some .video := by
  obtain ⟨p, hp, hchunks⟩ := hvideo
  obtain ⟨front, rest, hfront⟩ := List.exists_cons_of_ne_nil (List.ne_nil_of_mem hp)
  rw [videoSource, popVideo_snd, hfront, List.head?_cons, Option.bind_some]
  cases hfirst : front.chunks with
  | nil =>
      refine absurd (hready ⟨front, ?_, hfirst⟩ ⟨p, hp, hchunks⟩) hturn
      rw [hfront]
      rfl
  | cons chunk chunks => rfl

/-- A waiting sensor can be served. -/
theorem sensorSource_isSome (hfilled : q.Filled) (hsensors : q.SensorsWait) :
    ∃ id, q.sensorSource = some (.sensor id) := by
  rw [sensorSource_eq hfilled]
  cases hnext : q.nextSensor with
  | none =>
      rw [nextSensor_eq, pick_eq_none_iff] at hnext
      exact absurd hnext hsensors
  | some id => exact ⟨id, rfl⟩

/-- With both classes waiting a pop takes from the one whose turn it is. -/
theorem popSource_of_bothWait (hfilled : q.Filled)
    (hready : (q.expireStaleVideo now).FrontReady)
    (hboth : (q.expireStaleVideo now).BothWait) :
    (q.videoTurn = true → q.popSource now = some .video) ∧
      (q.videoTurn = false → ∃ id, q.popSource now = some (.sensor id)) := by
  rw [← q.expireStaleVideo_videoTurn now]
  constructor
  · intro hturn
    rw [popSource, if_pos hturn, videoSource_isSome hready hboth.1, Option.some_or]
    exact fun h => absurd (h.1.symm.trans hturn) Bool.false_ne_true
  · intro hturn
    obtain ⟨id, hid⟩ := sensorSource_isSome ((q.expireStaleVideo_sensors now).filled hfilled)
      hboth.2
    refine ⟨id, ?_⟩
    rw [popSource, hturn, if_neg Bool.false_ne_true, hid, Option.some_or]

/-- A pop that finds nothing. -/
theorem idle_of_pop_eq_none (hfilled : q.Filled)
    (hready : (q.expireStaleVideo now).FrontReady) (hpop : (q.pop now).2 = none) :
    (q.expireStaleVideo now).Idle := by
  have hpopped := pop_popped hfilled now
  cases hsource : q.popSource now with
  | some source =>
      rw [hsource] at hpopped
      cases hpopped with
      | video _ hsome => exact absurd (hpop.symm.trans hsome) (Option.some_ne_none _).symm
      | sensor _ _ _ hsome => exact absurd (hpop.symm.trans hsome) (Option.some_ne_none _).symm
  | none =>
      rw [hsource] at hpopped
      cases hpopped with
      | nothing hnext hsame _ =>
          rw [← (q.expireStaleVideo_sensors now).nextSensor] at hnext
          have hsensors : ¬ (q.expireStaleVideo now).SensorsWait := by
            rw [nextSensor_eq, pick_eq_none_iff] at hnext
            exact not_not.mpr hnext
          refine ⟨fun p hp => ?_, nextSensor_eq_none_iff.mp hnext⟩
          by_contra hchunks
          have hvideo := videoSource_isSome hready ⟨p, hp, hchunks⟩ fun h => hsensors h.2
          rw [popSource, hvideo] at hsource
          split_ifs at hsource
          · exact Option.some_ne_none _ hsource
          · rw [Option.or_eq_none_iff] at hsource
            exact Option.some_ne_none _ hsource.2

/-! ## Rounds -/

/-- From the pop of a sensor on another one that waits stays ahead of it until it is
popped. -/
theorem popped_or_ahead {last id other : UInt8} (hfilled : q.Filled) (between : List Op)
    (hframes : ∀ op ∈ between, op.FrameFilled) (hlast : q.lastSensor = some last)
    (hahead : Ahead last.toNat other.toNat id.toNat)
    (hwaits : ∀ mid rest, between = mid ++ rest → (exec step q mid).SensorWaits other) :
    (∃ mid now rest, between = mid ++ .pop now :: rest ∧
      (exec step q mid).popSource now = some (.sensor other)) ∨
    ∃ last', (exec step q between).lastSensor = some last' ∧
      Ahead last'.toNat other.toNat id.toNat := by
  induction between generalizing q last with
  | nil => exact .inr ⟨last, hlast, hahead⟩
  | cons op between ih =>
      have hnext : ∀ {last'}, (q.step op).lastSensor = some last' →
          Ahead last'.toNat other.toNat id.toNat → _ := fun hlast' hahead' =>
        ih (hfilled.step (hframes op List.mem_cons_self))
          (fun op' h => hframes op' (List.mem_cons_of_mem op h)) hlast' hahead'
          fun mid rest h => hwaits (op :: mid) rest (congrArg (op :: ·) h)
      suffices h : (∃ now, op = .pop now ∧ q.popSource now = some (.sensor other)) ∨
          ∃ last', (q.step op).lastSensor = some last' ∧
            Ahead last'.toNat other.toNat id.toNat by
        rcases h with ⟨now, rfl, hsource⟩ | ⟨last', hlast', hahead'⟩
        · exact .inl ⟨[], now, between, rfl, hsource⟩
        · rcases hnext hlast' hahead' with ⟨mid, now, rest, rfl, hsource⟩ | hright
          · exact .inl ⟨op :: mid, now, rest, rfl, hsource⟩
          · exact .inr hright
      have hkept : (q.step op).lastSensor = q.lastSensor →
          ∃ last', (q.step op).lastSensor = some last' ∧
            Ahead last'.toNat other.toNat id.toNat := fun h => ⟨last, h.trans hlast, hahead⟩
      cases op with
      | pushVideoNal n now => exact .inr (hkept (q.pushVideoNal_sensors n now).last)
      | pushSensorFrame sensorId datagrams =>
          exact .inr (hkept (q.pushSensorFrame_last sensorId datagrams))
      | pop now =>
          have hpopped := pop_popped hfilled now
          cases hsource : q.popSource now with
          | none =>
              rw [hsource] at hpopped
              cases hpopped with
              | nothing _ hsame _ => exact .inr (hkept hsame.last)
          | some source =>
              rw [hsource] at hpopped
              cases hpopped with
              | video hsame _ => exact .inr (hkept hsame.last)
              | @sensor popped _ hpick _ hsame _ =>
                  by_cases hother : popped = other
                  · exact .inl ⟨now, rfl, hother ▸ hsource⟩
                  · refine .inr ⟨popped, hsame.last, ?_⟩
                    rw [nextSensor_eq, hlast] at hpick
                    refine hahead.pick q.sorted_busySensors hpick ?_ ?_
                    · exact mem_busySensors.mpr (hwaits [] _ rfl)
                    · exact fun h => hother (UInt8.toNat_inj.mp h.symm)

/-! ## Every run -/

section

variable {policy : SensorFramePolicy} {past between later ops : List Op}

/-- A run goes on from the state after its pop. -/
theorem after_pop (policy : SensorFramePolicy) (past : List Op) (now : Instant)
    (between : List Op) :
    after policy (past ++ .pop now :: between) =
      exec step ((after policy past).pop now).1 between :=
  exec_append _ _ _ _

/-- A pop of a run that is ready. -/
theorem ready_at (hready : Along step PopReady (withSensorPolicy policy) ops)
    (hops : ops = past ++ .pop now :: later) :
    ((after policy past).expireStaleVideo now).FrontReady := by
  rw [hops, along_append] at hready
  exact hready.2.1

/-- Two pops in a row serve video and sensors in turn. -/
theorem alternate_of_ready (hframes : ∀ op ∈ ops, op.FrameFilled)
    (hready : Along step PopReady (withSensorPolicy policy) ops) {now' : Instant}
    (hops : ops = past ++ .pop now :: (between ++ .pop now' :: later))
    (hpushes : ∀ op ∈ between, ¬ op.IsPop)
    (hboth : ((after policy past).expireStaleVideo now).BothWait)
    (hboth' : ((after policy (past ++ .pop now :: between)).expireStaleVideo now').BothWait) :
    Alternate ((after policy past).popSource now)
      ((after policy (past ++ .pop now :: between)).popSource now') := by
  have hops' : ops = (past ++ .pop now :: between) ++ .pop now' :: later := by
    rw [hops, List.append_assoc, List.cons_append]
  have hfilled := filled_after policy fun op hop => hframes op (hops ▸ List.mem_append_left _ hop)
  have hfilled' := filled_after policy fun op hop =>
    hframes op (hops' ▸ List.mem_append_left _ hop)
  have hfirst := popSource_of_bothWait hfilled (ready_at hready hops) hboth
  have hsecond := popSource_of_bothWait hfilled' (ready_at hready hops') hboth'
  have hturn : (after policy (past ++ .pop now :: between)).videoTurn =
      !(after policy past).videoTurn := by
    rw [after_pop, exec_videoTurn hpushes, pop_videoTurn]
  rw [hturn] at hsecond
  cases hvideo : (after policy past).videoTurn with
  | true =>
      rw [hvideo] at hsecond
      obtain ⟨id, hid⟩ := hsecond.2 rfl
      rw [hfirst.1 hvideo, hid]
      trivial
  | false =>
      rw [hvideo] at hsecond
      obtain ⟨id, hid⟩ := hfirst.2 hvideo
      rw [hid, hsecond.1 rfl]
      trivial

/-- Between two slices of one sensor, the others that wait have their turns. -/
theorem rounds_of_filled (hframes : ∀ op ∈ ops, op.FrameFilled) {now' : Instant} {id other : UInt8}
    (hops : ops = past ++ .pop now :: (between ++ .pop now' :: later))
    (hsource : (after policy past).popSource now = some (.sensor id))
    (hsource' : (after policy (past ++ .pop now :: between)).popSource now' = some (.sensor id))
    (hne : other ≠ id)
    (hwaits : ∀ mid rest, between = mid ++ rest →
      (after policy (past ++ .pop now :: mid)).SensorWaits other) :
    ∃ mid now'' rest, between = mid ++ .pop now'' :: rest ∧
      (after policy (past ++ .pop now :: mid)).popSource now'' = some (.sensor other) := by
  have hops' : ops = (past ++ .pop now :: between) ++ .pop now' :: later := by
    rw [hops, List.append_assoc, List.cons_append]
  have hfilled : (after policy past).Filled :=
    filled_after policy fun op hop => hframes op (hops ▸ List.mem_append_left _ hop)
  have hfilled' := filled_after policy fun op hop =>
    hframes op (hops' ▸ List.mem_append_left _ hop)
  have hbetween : ∀ op ∈ between, op.FrameFilled := fun op hop =>
    hframes op (hops' ▸ by simp [hop])
  simp only [after_pop] at hwaits hsource' hfilled' ⊢
  have hlast : ((after policy past).pop now).1.lastSensor = some id := by
    have hpopped := pop_popped hfilled now
    rw [hsource] at hpopped
    cases hpopped with
    | sensor _ _ hsame _ => exact hsame.last
  have hstart : ((after policy past).pop now).1.Filled :=
    hfilled.step (show Op.FrameFilled (.pop now) from trivial)
  have hnext := pop_popped hfilled' now'
  rw [hsource'] at hnext
  have hahead := ahead_self fun h => hne (UInt8.toNat_inj.mp h)
  rcases popped_or_ahead hstart between hbetween hlast hahead hwaits with
    hpopped | ⟨last, hlast, hahead⟩
  · exact hpopped
  · -- the other one still waits ahead, and yet the first one is next
    cases hnext with
    | sensor hpick _ _ _ =>
        rw [nextSensor_eq, hlast] at hpick
        refine absurd hpick (hahead.not_pick (sorted_busySensors _) ?_ ?_)
        · exact mem_busySensors.mpr (hwaits between [] (List.append_nil between).symm)
        · exact fun h => hne (UInt8.toNat_inj.mp h)

end

/-- A run is fair if no pop comes to a front without chunks, with chunks behind it, unless a
sensor waits and has the turn. -/
theorem fair (policy : SensorFramePolicy) (ops : List Op)
    (hframes : ∀ op ∈ ops, op.FrameFilled)
    (hready : Along step PopReady (withSensorPolicy policy) ops) : Fair policy ops where
  idle past now later hops hpop := by
    refine idle_of_pop_eq_none ?_ (ready_at hready hops) hpop
    exact filled_after policy fun op hop => hframes op (hops ▸ List.mem_append_left _ hop)
  alternate _ _ _ _ _ hops hpushes hboth hboth' :=
    alternate_of_ready hframes hready hops hpushes hboth hboth'
  rounds _ _ _ _ _ _ _ hops hsource hsource' hne hwaits :=
    rounds_of_filled hframes hops hsource hsource' hne hwaits

/-- Two sensors and a NAL of two chunks. -/
def sharedRun : List Op :=
  [.pushSensorFrame 3 [[1], [2]], .pushSensorFrame 7 [[3], [4]],
    .pushVideoNal { nalId := 0, nal := List.replicate 1200 5 } 0, .pop 0, .pop 1, .pop 2, .pop 3,
    .pop 4, .pop 5, .pop 6]

/-- Two sensors and video that share the queue. -/
theorem fair_sharedRun : Fair .finish sharedRun :=
  fair .finish sharedRun (by decide +kernel) (by decide +kernel)

/-! ## A NAL without bytes -/

/-- What the callers of the queue promise. -/
structure Admissible (ops : List Op) : Prop where
  nals : ∀ n now, .pushVideoNal n now ∈ ops → ∃ pushes, n.nal ∈ (AnnexBSplitter.new.feed pushes).2
  frames : ∀ op ∈ ops, op.FrameFilled
  times : (ops.filterMap fun op => match op with | .pop now => some now | _ => none).Pairwise
    (· ≤ ·)

/-- Two start codes in a row, and a NAL of one byte. -/
def emptyNalStream : Bytes := [0, 0, 1, 0, 0, 1, 1, 0, 0, 1]

def emptyNalRun : List Op :=
  [.pushVideoNal { nalId := 0, nal := [] } 0, .pushVideoNal { nalId := 1, nal := [1] } 0, .pop 0]

/-- Two start codes in a row make an empty NAL. -/
theorem feed_emptyNalStream :
    (AnnexBSplitter.new.feed [emptyNalStream]).2 = [[], [1]] := by
  simp [AnnexBSplitter.feed, AnnexBSplitter.new, AnnexBSplitter.push, emptyNalStream]
  decide +kernel

/-- Such a stream is one that the code can receive. -/
theorem admissible_emptyNalRun : Admissible emptyNalRun where
  nals n now hmem := by
    refine ⟨[emptyNalStream], ?_⟩
    rw [feed_emptyNalStream]
    simp [emptyNalRun] at hmem
    rcases hmem with ⟨rfl, -⟩ | ⟨rfl, -⟩ <;> simp
  frames := by decide
  times := by simp [emptyNalRun]

/-- The pop drops the NAL without bytes and finds nothing, with a chunk behind it. -/
theorem not_fair_emptyNalRun :
    ¬ ∀ (policy : SensorFramePolicy) (ops : List Op), Admissible ops → Fair policy ops := by
  intro hall
  have hidle := (hall .cut emptyNalRun admissible_emptyNalRun).idle (emptyNalRun.take 2) 0 [] rfl
    (by decide +kernel)
  exact absurd hidle.1 (by decide +kernel)

end LossyQueue

end RoboTele
