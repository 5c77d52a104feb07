import RoboTele.Simulator.Scheduler
import Mathlib.Data.Rat.Floor
import Mathlib.Algebra.Order.Field.Rat

/-!
# The simulator's link

One direction of the link is a server.  Datagrams wait in a heap, CONTROL before MEDIA and each
class in the order of the calls of `enqueue`.  The first one is served for the time its bytes
take at the bandwidth of the moment, and then it is lost, or it arrives after the propagation
delay.  `on_deliver` is told in both cases.

The server is driven by the scheduler's events.  `_draining` says that it is at work: a
datagram that is enqueued meanwhile waits until `_finish_service` takes the next one.

`on_deliver` and the callbacks of other events are anything that enqueues datagrams, schedules
and cancels events or runs the scheduler.  `frames` is what Python's call stack holds of this,
and an operation is the next thing that happens: a call made by the code that runs now, a turn
of the innermost `run`, or the return of the innermost callback.  Callbacks return, and sizes
are counts of bytes.

`history` is not part of the program.  The number of a datagram's call of `enqueue` tells equal
datagrams apart.
-/

namespace RoboTele.Sim

open HeapQueue

/-- Control goes before media. -/
inductive Priority where
  | control
  | media
deriving DecidableEq

/-- Control is first. -/
def Priority.toNat : Priority → ℕ
  | control => 0
  | media => 1

/-- A datagram as the link sees it. -/
structure Datagram where
  sizeWireBytes : ℕ
  priority : Priority
deriving DecidableEq

/-- An entry of `_queue`. -/
structure Entry where
  seq : ℕ
  datagram : Datagram
deriving DecidableEq

/-- By priority, and then in the order of the calls. -/
def Entry.key (e : Entry) : ℕ ×ₗ ℕ := toLex (e.datagram.priority.toNat, e.seq)

/-- What the timeline and the random numbers say when they are asked. -/
structure Conditions where
  bandwidthMbps : ℚ
  lossProb : ℚ
  owdMs : ℚ
  /-- `rng.gauss(0.0, jitter_std_ms)`. -/
  jitterMs : ℚ
  /-- `rng.random()`. -/
  random : ℚ

/-- The callbacks of the link, and those of everything else. -/
inductive Callback where
  | finishService (entry : Entry)
  | deliver (entry : Entry) (arrival : ℚ)
  | other
deriving DecidableEq

/-- A call of `on_deliver`. -/
structure Report where
  entry : Entry
  delivered : Bool
  arrivalTime : Option ℚ
deriving DecidableEq

/-- The calls of `enqueue`, what entered service with what was left waiting, and the calls of
`on_deliver`. -/
structure LinkHistory where
  enqueued : List Entry
  entered : List (Entry × List Entry)
  reported : List Report

/-- One direction of the link. -/
structure DirectionalLink where
  queue : List Entry
  seq : ℕ
  draining : Bool
  queueDepthSamples : List (ℚ × ℕ)
  history : LinkHistory

/-- A call that has not returned. -/
inductive Frame where
  | run (untilTime : ℚ)
  /-- `on_deliver`, called by `_finish_service`, which calls `_drain` when it returns. -/
  | lossReport
  /-- A callback that `run` called. -/
  | callback
deriving DecidableEq

/-- The link with its scheduler, and the calls that are under way. -/
structure Simulation where
  scheduler : Scheduler Callback
  link : DirectionalLink
  frames : List Frame
  /-- An exception of the scheduler that the link does not catch. -/
  error : Option ScheduleError

/-- The bandwidth is taken to be at least this. -/
def minBandwidthMbps : ℚ := 1 / 100

/-- The seconds a datagram is in service. -/
def serviceTime (c : Conditions) (datagram : Datagram) : ℚ :=
  let bwMbps := max c.bandwidthMbps minBandwidthMbps
  (datagram.sizeWireBytes * 8 : ℕ) / (bwMbps * 1000000)

/-- The time at which a datagram that leaves service now arrives. -/
def arrivalTime (c : Conditions) (now : ℚ) : ℚ :=
  let owdMs := max (1 / 10) (c.owdMs + c.jitterMs)
  now + owdMs / 1000

namespace Simulation

def new : Simulation where
  scheduler := .new
  link :=
    { queue := []
      seq := 0
      draining := false
      queueDepthSamples := []
      history := { enqueued := [], entered := [], reported := [] } }
  frames := []
  error := none

/-! ## `DirectionalLink` -/

/-- `_drain`. -/
def drain (c : Conditions) (s : Simulation) : Simulation :=
  match s.link.queue with
  | [] => { s with link := { s.link with draining := false } }
  | entry :: queue =>
      let link : DirectionalLink :=
        { s.link with
          queue
          draining := true
          queueDepthSamples :=
            s.link.queueDepthSamples ++ [(s.scheduler.now, queue.length)]
          history := { s.link.history with entered := s.link.history.entered ++ [(entry, queue)] } }
      match s.scheduler.schedule (serviceTime c entry.datagram) (.finishService entry) with
      | .ok scheduler => { s with scheduler, link }
      | .error error => { s with link, error := some error }

/-- What `enqueue` does before it looks at `_draining`. -/
def accept (datagram : Datagram) (s : Simulation) : Simulation :=
  let entry : Entry := { seq := s.link.seq, datagram }
  let queue := push Entry.key entry s.link.queue
  { s with
    link :=
      { s.link with
        queue
        seq := s.link.seq + 1
        queueDepthSamples := s.link.queueDepthSamples ++ [(s.scheduler.now, queue.length)]
        history := { s.link.history with enqueued := s.link.history.enqueued ++ [entry] } } }

/-- Queue a datagram, and serve the queue if it is not being served. -/
def enqueue (c : Conditions) (datagram : Datagram) (s : Simulation) : Simulation :=
  let s := s.accept datagram
  if s.link.draining then s else s.drain c

/-- A call of `on_deliver`, up to what it does. -/
def report (report : Report) (frame : Frame) (s : Simulation) : Simulation :=
  { s with
    link :=
      { s.link with
        history := { s.link.history with reported := s.link.history.reported ++ [report] } }
    frames := frame :: s.frames }

/-- The part of `_apply_propagation_and_loss` for a datagram that is not lost. -/
def propagate (c : Conditions) (entry : Entry) (s : Simulation) : Simulation :=
  let arrival := arrivalTime c s.scheduler.now
  match s.scheduler.scheduleAt arrival (.deliver entry arrival) with
  | .ok scheduler => { s with scheduler }
  | .error error => { s with error := some error }

/-- `_finish_service`, up to what `on_deliver` does when the datagram is lost. -/
def finishService (c : Conditions) (entry : Entry) (s : Simulation) : Simulation :=
  if c.random < c.lossProb then s.report ⟨entry, false, none⟩ .lossReport
  else (s.propagate c entry).drain c

/-! ## What can happen next -/

/-- What a callback of the scheduler does. -/
def call (c : Conditions) (s : Simulation) : Callback → Simulation
  | .finishService entry => s.finishService c entry
  | .deliver entry arrival => s.report ⟨entry, true, some arrival⟩ .callback
  | .other => { s with frames := .callback :: s.frames }

/-- A turn of the innermost `run`.  `frames` are those around it. -/
def runTurn (c : Conditions) (untilTime : ℚ) (frames : List Frame) (s : Simulation) :
    Simulation :=
  match s.scheduler.turn untilTime with
  | (.executes callback, scheduler) => { s with scheduler }.call c callback
  | (.skips, scheduler) => { s with scheduler }
  | (.returns, scheduler) => { s with scheduler, frames }

/-- The innermost call is not the scheduler's. -/
def codeRuns (s : Simulation) : Bool :=
  match s.frames with
  | .run _ :: _ => false
  | _ => true

/-- A call that raises in the code that made it. -/
def attempt (s : Simulation) : Except ScheduleError (Scheduler Callback) → Simulation
  | .ok scheduler => { s with scheduler }
  | .error _ => s

/-- There is a handle of this event.  The link keeps none of its own. -/
def hasHandle (s : Simulation) (seq : ℕ) : Bool :=
  seq < s.scheduler.seq && s.scheduler.heap.all fun e => e.seq != seq || e.callback == .other

end Simulation

/-- What happens next.  The first five are calls by the code that runs. -/
inductive Op where
  | enqueue (c : Conditions) (datagram : Datagram)
  | schedule (delay : ℚ)
  | scheduleAt (time : ℚ)
  | cancel (seq : ℕ)
  | run (untilTime : ℚ)
  | turn (c : Conditions)
  | returns (c : Conditions)

namespace Simulation

/-- An operation that cannot happen now changes nothing. -/
def step (s : Simulation) : Op → Simulation
  | .enqueue c datagram => if s.codeRuns then s.enqueue c datagram else s
  | .schedule delay => if s.codeRuns then s.attempt (s.scheduler.schedule delay .other) else s
  | .scheduleAt time => if s.codeRuns then s.attempt (s.scheduler.scheduleAt time .other) else s
  | .cancel seq =>
      if s.codeRuns ∧ s.hasHandle seq then { s with scheduler := s.scheduler.cancel seq } else s
  | .run untilTime => if s.codeRuns then { s with frames := .run untilTime :: s.frames } else s
  | .turn c =>
      match s.frames with
      | .run untilTime :: frames => s.runTurn c untilTime frames
      | _ => s
  | .returns c =>
      match s.frames with
      | .callback :: frames => { s with frames }
      | .lossReport :: frames => { s with frames }.drain c
      | _ => s

end Simulation

end RoboTele.Sim
