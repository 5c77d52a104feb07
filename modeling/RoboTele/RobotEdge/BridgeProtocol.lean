import Mathlib.Algebra.Order.Field.Rat

/-!
# The bridge's message types

Commands from `robot-edge` to `xgo_bridge.py`, and what comes back: events of
the bridge process itself, and events of the supervisor that runs it.
-/

namespace RoboTele

/-- A line to the bridge. -/
inductive BridgeCommand where
  | move (x y : ℚ) (seq : Nat)
  | turn (step : ℚ) (seq : Nat)
  | attitude (axis : Char) (data : ℚ) (seq : Nat)
  | action (id : UInt8) (seq : Nat)
  | motor (id : UInt8) (angle : ℚ) (seq : Nat)
  | arm (x z : ℚ) (seq : Nat)
  | claw (pos : UInt8) (seq : Nat)
  | stop (seq : Nat)
  | heartbeat (seq : Nat)
  | query (seq : Nat)
  | estop (seq : Nat)
  | estopClear (seq : Nat)
deriving DecidableEq

/-- The number of a command. -/
def BridgeCommand.seq : BridgeCommand → Nat
  | move _ _ seq | turn _ seq | attitude _ _ seq | action _ seq | motor _ _ seq | arm _ _ seq
  | claw _ seq | stop seq | heartbeat seq | query seq | estop seq | estopClear seq => seq

/-- A line from the bridge. -/
inductive BridgeEvent where
  | ack (seq : Option Nat) (ok : Bool) (error : Option String)
  | telemetry (ts : ℚ) (motors : List ℚ) (battery : UInt8) (roll pitch yaw : ℚ)
  | status (state : String) (detail : Option String)
  | log (level msg : String)

/-- What the supervisor tells the session. -/
inductive SupervisorEvent where
  | fromBridge (ev : BridgeEvent)
  | processDied (attempt : Nat) (willRetry : Bool)
  | gaveUp

end RoboTele
