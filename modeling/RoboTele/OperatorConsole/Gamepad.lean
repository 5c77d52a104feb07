import RoboTele.OperatorConsole.Client
import Mathlib.Data.Finset.Basic

/-!
# The gamepad thread

`gamepad.rs`.  `gilrs` reports changes only, so the thread keeps what it heard in
`PadState`.  It drains the events, sends again whatever is deflected or held
(`sendRefresh`), and sleeps.  All pads share one state.

Stick values are exact rationals where the source computes with `f32`.  `gilrs`
is outside the source.  It reports axes and buttons of connected pads, and `pads`
are the ones it has as connected.
-/

namespace RoboTele

def stickDeadzone : ℚ := 15 / 100
def moveScale : ℚ := 15
def strafeScale : ℚ := 12
def turnScale : ℚ := 60
def pitchTickStepDeg : ℚ := 6 / 10
def rollYawTickStepDeg : ℚ := 6 / 10
def armStepMm : Int := 10
def armStepFineMm : Int := 2
def clawTickStep : Int := 8

/-- What the right stick's X axis does. -/
inductive StickXMode where
  | turn
  | roll
  | yaw
deriving DecidableEq

/-- The axes that are told apart. -/
inductive Axis where
  | leftStickX
  | leftStickY
  | rightStickX
  | rightStickY
  | other
deriving DecidableEq

/-- The buttons that are told apart. -/
inductive Button where
  | south
  | east
  | west
  | north
  | start
  | select
  | leftTrigger
  | rightTrigger
  | leftTrigger2
  | leftThumb
  | rightThumb
  | dpadUp
  | dpadDown
  | dpadLeft
  | dpadRight
  | other
deriving DecidableEq

/-- An event of the gamepad library. -/
inductive EventType where
  | connected
  | disconnected
  | axisChanged (axis : Axis) (value : ℚ)
  | buttonPressed (button : Button)
  | buttonReleased (button : Button)
  | other

/-- A new axis or button event. -/
def EventType.isInput : EventType → Bool
  | axisChanged _ _ | buttonPressed _ | buttonReleased _ => true
  | _ => false

/-- What the gamepad thread remembers between events. -/
structure PadState where
  leftX : ℚ
  leftY : ℚ
  rightX : ℚ
  rightY : ℚ
  lbHeld : Bool
  rbHeld : Bool
  l3Held : Bool
  r3Held : Bool
  stickXMode : StickXMode
  armFineMode : Bool
  dpadUp : Bool
  dpadDown : Bool
  dpadLeft : Bool
  dpadRight : Bool

namespace PadState

def default : PadState where
  leftX := 0
  leftY := 0
  rightX := 0
  rightY := 0
  lbHeld := false
  rbHeld := false
  l3Held := false
  r3Held := false
  stickXMode := .turn
  armFineMode := false
  dpadUp := false
  dpadDown := false
  dpadLeft := false
  dpadRight := false

/-- How far a nudge of the arm goes. -/
def armStep (s : PadState) : Int := if s.armFineMode then armStepFineMm else armStepMm

/-- Both bumpers held together. -/
def checkEstopCombo (s : PadState) : List TeleopInput :=
  if s.lbHeld && s.rbHeld then [.estop] else []

/-- A stick was moved. -/
def axisChanged (s : PadState) (axis : Axis) (value : ℚ) : PadState :=
  match axis with
  | .leftStickX => { s with leftX := value }
  | .leftStickY => { s with leftY := value }
  | .rightStickX => { s with rightX := value }
  | .rightStickY => { s with rightY := value }
  | .other => s

/-- A press into the other stick that is held clears the E-Stop, and any other
press of a stick latches its mode or unlatches it. -/
def handleButtonPress (s : PadState) (button : Button) : PadState × List TeleopInput :=
  match button with
  | .leftTrigger2 => ({ s with armFineMode := !s.armFineMode }, [])
  | .south => (s, [.neutralPose])
  | .east => (s, [.attitudeReset])
  | .west => (s, [.cameraReset])
  | .north => (s, [.saveFrame])
  | .start => (s, [.toggleRecording])
  | .select => (s, [.estopToggle])
  | .leftTrigger =>
      let s := { s with lbHeld := true }
      (s, .clawNudge (-clawTickStep) :: s.checkEstopCombo)
  | .rightTrigger =>
      let s := { s with rbHeld := true }
      (s, .clawNudge clawTickStep :: s.checkEstopCombo)
  | .leftThumb =>
      let s := { s with l3Held := true }
      if s.r3Held then (s, [.estopClear])
      else ({ s with stickXMode := if s.stickXMode = .yaw then .turn else .yaw }, [])
  | .rightThumb =>
      let s := { s with r3Held := true }
      if s.l3Held then (s, [.estopClear])
      else ({ s with stickXMode := if s.stickXMode = .roll then .turn else .roll }, [])
  | .dpadUp => ({ s with dpadUp := true }, [.armNudge 0 s.armStep])
  | .dpadDown => ({ s with dpadDown := true }, [.armNudge 0 (-s.armStep)])
  | .dpadLeft => ({ s with dpadLeft := true }, [.armNudge (-s.armStep) 0])
  | .dpadRight => ({ s with dpadRight := true }, [.armNudge s.armStep 0])
  | .other => (s, [])

/-- A button that is held no longer. -/
def handleButtonRelease (s : PadState) (button : Button) : PadState :=
  match button with
  | .leftTrigger => { s with lbHeld := false }
  | .rightTrigger => { s with rbHeld := false }
  | .leftThumb => { s with l3Held := false }
  | .rightThumb => { s with r3Held := false }
  | .dpadUp => { s with dpadUp := false }
  | .dpadDown => { s with dpadDown := false }
  | .dpadLeft => { s with dpadLeft := false }
  | .dpadRight => { s with dpadRight := false }
  | _ => s

/-- What an event changes and what it sends. -/
def handleEvent (s : PadState) (event : EventType) : PadState × List TeleopInput :=
  match event with
  | .axisChanged axis value => (s.axisChanged axis value, [])
  | .buttonPressed button => s.handleButtonPress button
  | .buttonReleased button => (s.handleButtonRelease button, [])
  | _ => (s, [])

/-! ## Sending again -/

/-- A stick is out of its deadzone. -/
def Deflected (value : ℚ) : Prop := stickDeadzone < |value|

instance (value : ℚ) : Decidable (Deflected value) := inferInstanceAs (Decidable (_ < _))

/-- What a right stick out of its deadzone sideways does. -/
def stickX (s : PadState) : TeleopInput :=
  match s.stickXMode with
  | .yaw => .attitudeNudge 'y' (-s.rightX * rollYawTickStepDeg)
  | .roll => .attitudeNudge 'r' (s.rightX * rollYawTickStepDeg)
  | .turn => .turn (-s.rightX * turnScale)

/-- The left stick as a velocity. -/
def moveInput (s : PadState) : TeleopInput :=
  .move (if Deflected s.leftY then s.leftY * moveScale else 0)
    (if Deflected s.leftX then -s.leftX * strafeScale else 0)

/-- Send what is deflected or held. -/
def sendRefresh (s : PadState) : List TeleopInput :=
  (if Deflected s.leftX ∨ Deflected s.leftY then [s.moveInput] else []) ++
  (if Deflected s.rightX then [s.stickX] else []) ++
  (if Deflected s.rightY then [.attitudeNudge 'p' (-s.rightY * pitchTickStepDeg)] else []) ++
  (if s.lbHeld then [.clawNudge (-clawTickStep)] else []) ++
  (if s.rbHeld then [.clawNudge clawTickStep] else []) ++
  (if s.dpadUp then [.armNudge 0 s.armStep] else []) ++
  (if s.dpadDown then [.armNudge 0 (-s.armStep)] else []) ++
  (if s.dpadLeft then [.armNudge (-s.armStep) 0] else []) ++
  (if s.dpadRight then [.armNudge s.armStep 0] else [])

/-- Nothing is deflected, and no bumper and no direction is held. -/
structure Idle (s : PadState) : Prop where
  leftX : ¬ Deflected s.leftX
  leftY : ¬ Deflected s.leftY
  rightX : ¬ Deflected s.rightX
  rightY : ¬ Deflected s.rightY
  bumpers : s.lbHeld = false ∧ s.rbHeld = false
  dpad : s.dpadUp = false ∧ s.dpadDown = false ∧ s.dpadLeft = false ∧ s.dpadRight = false

theorem ite_singleton_eq_nil {α : Type*} {p : Prop} [Decidable p] {a : α} :
    (if p then [a] else []) = [] ↔ ¬ p := by
  by_cases hp : p <;> simp [hp]

/-- A refresh sends nothing of an idle state, and something of any other. -/
theorem sendRefresh_eq_nil_iff (s : PadState) : s.sendRefresh = [] ↔ s.Idle := by
  simp only [sendRefresh, List.append_eq_nil_iff, ite_singleton_eq_nil, not_or,
    Bool.not_eq_true]
  constructor
  · rintro ⟨⟨⟨⟨⟨⟨⟨⟨⟨hlx, hly⟩, hrx⟩, hry⟩, hlb⟩, hrb⟩, hup⟩, hdown⟩, hleft⟩, hright⟩
    exact ⟨hlx, hly, hrx, hry, ⟨hlb, hrb⟩, hup, hdown, hleft, hright⟩
  · rintro ⟨hlx, hly, hrx, hry, ⟨hlb, hrb⟩, hup, hdown, hleft, hright⟩
    exact ⟨⟨⟨⟨⟨⟨⟨⟨⟨hlx, hly⟩, hrx⟩, hry⟩, hlb⟩, hrb⟩, hup⟩, hdown⟩, hleft⟩, hright⟩

end PadState

/-! ## The thread -/

/-- The pads that `gilrs` has as connected, what is kept, and what the HUD shows. -/
structure GamepadThread where
  pads : Finset Nat
  state : PadState
  connected : Bool
  stickMode : StickXMode
  armFine : Bool

namespace GamepadThread

/-- The thread with the pads that are there. -/
def new (pads : Finset Nat) : GamepadThread where
  pads := pads
  state := .default
  connected := decide (pads ≠ ∅)
  stickMode := .turn
  armFine := false

/-- The pads after an event. -/
def padsAfter (t : GamepadThread) (id : Nat) : EventType → Finset Nat
  | .connected => insert id t.pads
  | .disconnected => t.pads.erase id
  | _ => t.pads

/-- One event of `gilrs`, with what it sends. -/
def onEvent (t : GamepadThread) (id : Nat) (event : EventType) :
    GamepadThread × List TeleopInput :=
  let t := { t with pads := t.padsAfter id event }
  match event with
  | .connected | .disconnected => ({ t with connected := decide (t.pads ≠ ∅) }, [])
  | event =>
      let (state, sent) := t.state.handleEvent event
      ({ t with state := state, stickMode := state.stickXMode, armFine := state.armFineMode },
        sent)

/-- Pads that come and go leave what is kept as it is. -/
theorem onEvent_of_not_isInput (t : GamepadThread) (id : Nat) {event : EventType}
    (h : event.isInput = false) :
    (t.onEvent id event).1.state = t.state ∧ (t.onEvent id event).2 = [] := by
  cases event <;> first | exact ⟨rfl, rfl⟩ | exact absurd h.symm Bool.false_ne_true

end GamepadThread

end RoboTele
