import RoboTele.OperatorConsole.Client

/-!
# The keyboard

`InputReader` of `input.rs`: the input of each key, one entry for each arm of its match.  Any
other key is skipped, and the reader waits for the next one.
-/

namespace RoboTele

def keyArmStepMm : Int := 10
def keyClawStep : Int := 20
def attitudeStepDeg : ℚ := 2
def brightnessStep : ℚ := 1 / 10
def contrastStep : ℚ := 1 / 10
def evStep : ℚ := 1 / 2
def shutterStepUs : ℚ := 2000

/-- The keys that the reader tells apart. -/
inductive KeyCode where
  | char (c : Char)
  | up
  | down
  | left
  | right
  | esc
  | other
deriving DecidableEq

/-- The input of each key. -/
def keymap : List (KeyCode × TeleopInput) :=
  [(.char 'w', .move 15 0),
    (.char 's', .move (-15) 0),
    (.char 'a', .move 0 12),
    (.char 'd', .move 0 (-12)),
    (.left, .turn 60),
    (.right, .turn (-60)),
    (.up, .attitudeNudge 'p' (-attitudeStepDeg)),
    (.char '=', .attitudeNudge 'p' (-attitudeStepDeg)),
    (.down, .attitudeNudge 'p' attitudeStepDeg),
    (.char '-', .attitudeNudge 'p' attitudeStepDeg),
    (.char '[', .attitudeNudge 'r' (-attitudeStepDeg)),
    (.char ']', .attitudeNudge 'r' attitudeStepDeg),
    (.char ',', .attitudeNudge 'y' (-attitudeStepDeg)),
    (.char '.', .attitudeNudge 'y' attitudeStepDeg),
    (.char '0', .attitudeReset),
    (.char 'b', .cameraNudge 'b' (-brightnessStep)),
    (.char 'B', .cameraNudge 'b' brightnessStep),
    (.char 'f', .cameraNudge 'c' (-contrastStep)),
    (.char 'F', .cameraNudge 'c' contrastStep),
    (.char 'v', .cameraNudge 'v' (-evStep)),
    (.char 'V', .cameraNudge 'v' evStep),
    (.char 'h', .cameraNudge 's' (-shutterStepUs)),
    (.char 'H', .cameraNudge 's' shutterStepUs),
    (.char '9', .cameraReset),
    (.char ' ', .move 0 0),
    (.char 'e', .estop),
    (.char 'c', .estopClear),
    -- stand and sit
    (.char '1', .action 2),
    (.char '2', .action 12),
    (.char 'i', .armNudge 0 keyArmStepMm),
    (.char 'k', .armNudge 0 (-keyArmStepMm)),
    (.char 'j', .armNudge (-keyArmStepMm) 0),
    (.char 'l', .armNudge keyArmStepMm 0),
    (.char 'u', .clawNudge (-keyClawStep)),
    (.char 'o', .clawNudge keyClawStep),
    (.char 'r', .toggleRecording),
    (.char 'p', .saveFrame),
    (.char 'q', .quit),
    (.esc, .quit)]

/-- What a key sends, if it sends anything. -/
def KeyCode.input (key : KeyCode) : Option TeleopInput := keymap.lookup key

end RoboTele
