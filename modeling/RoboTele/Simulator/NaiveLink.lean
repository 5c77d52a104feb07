import RoboTele.Simulator.Driven
import RoboTele.Simulator.Link
import Mathlib.Data.List.AList

/-!
# The link of the naive baseline

One direction of an ordered, reliable stream.  Segments are put on the wire one after the other,
each for the time its bytes take at the bandwidth of the moment.  A segment that is lost is tried
again after a timeout that doubles with each loss of it.  One that arrives is withheld until all
segments before it have arrived, and then `on_deliver` is told.

`_release_in_order` calls `on_deliver` in its loop.  What that does comes before the next turn of
the loop, and it may be anything, so another segment may arrive in between.

The timeout after the 1024th loss of one segment is too large for a float, and the program raises.
-/

namespace RoboTele.Sim

/-- What a segment carries. -/
inductive NaiveCategory where
  | command
  | telemetry
  | haptic
  | video
deriving DecidableEq

/-- Which way a segment goes. -/
inductive Direction where
  | robotToOperator
  | operatorToRobot
deriving DecidableEq

/-- A segment of the byte stream. -/
structure NaiveSegment where
  sendTime : ℚ
  sizeWireBytes : ℕ
  category : NaiveCategory
  seq : ℕ
  direction : Direction
deriving DecidableEq

/-- The callbacks of the link, with the number of the segment. -/
inductive NaiveCallback where
  | onWire (localIdx : ℕ) (seg : NaiveSegment)
  | attemptDelivery (localIdx : ℕ) (seg : NaiveSegment) (retryCount : ℕ)
  | onArrived (localIdx : ℕ) (seg : NaiveSegment) (arrivalTime : ℚ)
deriving DecidableEq

/-- What is left to do when `on_deliver` returns. -/
inductive NaiveRest where
  | releaseInOrder
deriving DecidableEq

/-- A call of `on_deliver`, and when the segment arrived. -/
structure Delivery where
  seg : NaiveSegment
  arrivalTime : ℚ
  deliverTime : ℚ
deriving DecidableEq

/-- The calls of `enqueue` and of `on_deliver`.  This is not part of the program. -/
structure NaiveHistory where
  enqueued : List NaiveSegment
  delivered : List Delivery
deriving DecidableEq

/-- What waits to be transmitted, and what has arrived ahead of its turn. -/
structure NaiveReliableLink where
  toTransmit : List (ℕ × NaiveSegment)
  nextLocalIdx : ℕ
  transmitting : Bool
  completed : AList fun _ : ℕ => NaiveSegment × ℚ
  nextDeliverIdx : ℕ
  lastDeliveredTime : ℚ
  queueDepthSamples : List (ℚ × ℕ)
  history : NaiveHistory

namespace NaiveReliableLink

/-- The bandwidth is taken to be at least this. -/
def minBandwidthMbps : ℚ := 1 / 100

def rtoFloorS : ℚ := 1 / 5

def rtoRttMultiplier : ℚ := 4

def rtoCapS : ℚ := 3

def new : NaiveReliableLink where
  toTransmit := []
  nextLocalIdx := 0
  transmitting := false
  completed := ∅
  nextDeliverIdx := 0
  lastDeliveredTime := 0
  queueDepthSamples := []
  history := { enqueued := [], delivered := [] }

/-- The seconds a segment is put on the wire. -/
def serviceTime (c : Conditions) (seg : NaiveSegment) : ℚ :=
  let bwMbps := max c.bandwidthMbps minBandwidthMbps
  (seg.sizeWireBytes * 8 : ℕ) / (bwMbps * 1000000)

/-- The seconds until a segment that was lost `retryCount` times before is tried again. -/
def rto (c : Conditions) (retryCount : ℕ) : Except Raised ℚ :=
  if retryCount < 1024 then
    let rttEstimateS := 2 * c.owdMs / 1000
    .ok (min rtoCapS (max rtoFloorS (rtoRttMultiplier * rttEstimateS) * 2 ^ retryCount))
  else .error .overflow

/-- The seconds that a segment travels. -/
def owd (c : Conditions) : ℚ := max (1 / 10) (c.owdMs + c.jitterMs) / 1000

end NaiveReliableLink

/-- The link and what surrounds it. -/
abbrev NaiveWorld := World NaiveCallback NaiveReliableLink NaiveRest

namespace NaiveWorld

open NaiveReliableLink

/-- `_pump_transmit`. -/
def pumpTransmit (c : Conditions) (w : NaiveWorld) : NaiveWorld :=
  match w.part.toTransmit with
  | [] => { w with part := { w.part with transmitting := false } }
  | (localIdx, seg) :: toTransmit =>
      let part : NaiveReliableLink :=
        { w.part with
          toTransmit
          transmitting := true
          queueDepthSamples :=
            w.part.queueDepthSamples ++ [(w.scheduler.now, toTransmit.length)] }
      { w with part }.schedule (NaiveReliableLink.serviceTime c seg) (.onWire localIdx seg)

/-- What `enqueue` does before it looks at `_transmitting`. -/
def accept (seg : NaiveSegment) (w : NaiveWorld) : NaiveWorld :=
  let toTransmit := w.part.toTransmit ++ [(w.part.nextLocalIdx, seg)]
  { w with
    part :=
      { w.part with
        toTransmit
        nextLocalIdx := w.part.nextLocalIdx + 1
        queueDepthSamples := w.part.queueDepthSamples ++ [(w.scheduler.now, toTransmit.length)]
        history :=
          { w.part.history with enqueued := w.part.history.enqueued ++ [seg] } } }

/-- Append a segment, and transmit if nothing is being transmitted. -/
def enqueue (c : Conditions) (seg : NaiveSegment) (w : NaiveWorld) : NaiveWorld :=
  let w := accept seg w
  if w.part.transmitting then w else pumpTransmit c w

/-- `_attempt_delivery`. -/
def attemptDelivery (c : Conditions) (localIdx : ℕ) (seg : NaiveSegment) (retryCount : ℕ)
    (w : NaiveWorld) : NaiveWorld :=
  if c.random < c.lossProb then
    match rto c retryCount with
    | .ok delay => w.schedule delay (.attemptDelivery localIdx seg (retryCount + 1))
    | .error error => { w with raised := some error }
  else
    let arrival := w.scheduler.now + owd c
    w.scheduleAt arrival (.onArrived localIdx seg arrival)

/-- `_release_in_order`, up to what `on_deliver` does. -/
def releaseInOrder (w : NaiveWorld) : NaiveWorld :=
  match w.part.completed.lookup w.part.nextDeliverIdx with
  | none => w
  | some (seg, completionTime) =>
      let deliverTime := max completionTime w.part.lastDeliveredTime
      { w with
        part :=
          { w.part with
            completed := w.part.completed.erase w.part.nextDeliverIdx
            lastDeliveredTime := deliverTime
            nextDeliverIdx := w.part.nextDeliverIdx + 1
            history :=
              { w.part.history with
                delivered := w.part.history.delivered ++ [⟨seg, completionTime, deliverTime⟩] } }
        calls := .own .releaseInOrder :: w.calls }

/-- `_on_arrived`. -/
def onArrived (localIdx : ℕ) (seg : NaiveSegment) (arrivalTime : ℚ) (w : NaiveWorld) :
    NaiveWorld :=
  let completed := w.part.completed.insert localIdx (seg, arrivalTime)
  releaseInOrder { w with part := { w.part with completed } }

end NaiveWorld

open NaiveWorld

/-- The code of the link. -/
def naiveLink : Part NaiveCallback NaiveReliableLink NaiveRest (Conditions × NaiveSegment)
    Conditions where
  enter input w := enqueue input.1 input.2 w
  fire c callback w :=
    match callback with
    | .onWire localIdx seg => attemptDelivery c localIdx seg 0 (pumpTransmit c w)
    | .attemptDelivery localIdx seg retryCount => attemptDelivery c localIdx seg retryCount w
    | .onArrived localIdx seg arrivalTime => onArrived localIdx seg arrivalTime w
  resume _ rest w :=
    match rest with
    | .releaseInOrder => releaseInOrder w

end RoboTele.Sim
