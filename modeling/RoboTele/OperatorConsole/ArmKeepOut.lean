import RoboTele.OperatorConsole.Gamepad
import RoboTele.OperatorConsole.Keyboard
import RoboTele.OperatorConsole.Observer

/-!
# Keeping the arm clear of the screen

The arm touches the robot's front screen where `x` is below `minSafeArmX z`.  Every arm
nudge moves it clear, whichever way the nudge goes.  But the client starts with the arm at
`(0, 0)`, which is not clear, and the neutral pose puts it back there, so a tick sends it.

`KeepsOut` is what the Command frames of a run are to satisfy: all values within their
ranges and the arm clear, and no `i16` sum that overflows.  The ranges hold in every run,
and `keepsOut_iff` says that the arm is clear in a frame exactly if it was nudged since the
start and since the last neutral pose.
-/

namespace RoboTele

open Runs Past

/-! ## The held command -/

namespace TeleopCommand

/-- Every value is within the hardware's range.  The claw is a byte. -/
structure WithinRanges (c : TeleopCommand) : Prop where
  armX : armXMin ≤ c.armX ∧ c.armX ≤ armXMax
  armZ : armZMin ≤ c.armZ ∧ c.armZ ≤ armZMax
  attitudeR : -rollMax ≤ c.attitudeR ∧ c.attitudeR ≤ rollMax
  attitudeP : -pitchMax ≤ c.attitudeP ∧ c.attitudeP ≤ pitchMax
  attitudeY : -yawMax ≤ c.attitudeY ∧ c.attitudeY ≤ yawMax

/-- The arm does not touch the screen. -/
def Clear (c : TeleopCommand) : Prop := minSafeArmX c.armZ ≤ c.armX

/-- The arm is where the client starts with it. -/
def AtNeutral (c : TeleopCommand) : Prop := c.armX = 0 ∧ c.armZ = 0

/-- All but the velocities are the same. -/
def SamePose (c d : TeleopCommand) : Prop := d.halted = c.halted

end TeleopCommand

/-- A clamped value lies within its bounds. -/
theorem clampTo_mem {α : Type} [LinearOrder α] {lo hi : α} (h : lo ≤ hi) (v : α) :
    lo ≤ clampTo lo hi v ∧ clampTo lo hi v ≤ hi :=
  ⟨le_max_left _ _, max_le h (min_le_right _ _)⟩

/-- The end of the arm's range is clear. -/
theorem minSafeArmX_le (z : Int) : minSafeArmX z ≤ armXMax := by
  have hz : (0 : Int) ≤ clampTo 0 35 z := (clampTo_mem (by decide) z).1
  have hsafe : 70 - 40 / 35 * ((clampTo 0 35 z : Int) : ℚ) ≤ 70 := by
    have hcast : (0 : ℚ) ≤ ((clampTo 0 35 z : Int) : ℚ) := Int.cast_nonneg hz
    linarith
  have hround : roundHalfAway (70 - 40 / 35 * ((clampTo 0 35 z : Int) : ℚ)) ≤ 70 := by
    rw [roundHalfAway]
    split_ifs with hpos
    · refine (Int.floor_mono (add_le_add_left hsafe (1 / 2))).trans ?_
      norm_num
    · have hneg : (0 : Int) ≤ ⌊-(70 - 40 / 35 * ((clampTo 0 35 z : Int) : ℚ)) + 1 / 2⌋ :=
        Int.floor_nonneg.mpr (by linarith)
      omega
  rw [minSafeArmX, clampI16]
  have hmin := min_le_left (roundHalfAway (70 - 40 / 35 * ((clampTo 0 35 z : Int) : ℚ))) 32767
  exact max_le (by decide) ((hmin.trans hround).trans (by decide))

namespace TeleopCommand

variable {c d : TeleopCommand}

theorem withinRanges_initial : initial.WithinRanges where
  armX := by decide
  armZ := by decide
  attitudeR := by decide +kernel
  attitudeP := by decide +kernel
  attitudeY := by decide +kernel

/-- The neutral arm touches the screen. -/
theorem AtNeutral.not_clear (h : c.AtNeutral) : ¬ c.Clear := by
  rw [Clear, h.1, h.2]
  decide +kernel

/-- A nudged arm is clear of the keep-out. -/
theorem clear_nudgeArm (c : TeleopCommand) (dx dz : Int) : (c.nudgeArm dx dz).Clear :=
  le_min (le_max_right _ _) (minSafeArmX_le _)

theorem WithinRanges.nudgeArm (h : c.WithinRanges) (dx dz : Int) :
    (c.nudgeArm dx dz).WithinRanges where
  armX := by
    have hx := clampTo_mem (show armXMin ≤ armXMax by decide) (c.armX + dx)
    exact ⟨le_min (hx.1.trans (le_max_left _ _)) (by decide), min_le_right _ _⟩
  armZ := clampTo_mem (by decide) _
  attitudeR := h.attitudeR
  attitudeP := h.attitudeP
  attitudeY := h.attitudeY

theorem WithinRanges.nudgeAttitude (h : c.WithinRanges) (axis : Char) (delta : ℚ) :
    (c.nudgeAttitude axis delta).WithinRanges := by
  have hroll := clampTo_mem (show -rollMax ≤ rollMax by decide +kernel) (c.attitudeR + delta)
  have hpitch := clampTo_mem (show -pitchMax ≤ pitchMax by decide +kernel) (c.attitudeP + delta)
  have hyaw := clampTo_mem (show -yawMax ≤ yawMax by decide +kernel) (c.attitudeY + delta)
  unfold TeleopCommand.nudgeAttitude
  split
  · exact { h with attitudeR := hroll }
  · exact { h with attitudeP := hpitch }
  · exact { h with attitudeY := hyaw }
  · exact h

theorem WithinRanges.level (h : c.WithinRanges) : c.level.WithinRanges where
  armX := h.armX
  armZ := h.armZ
  attitudeR := withinRanges_initial.attitudeR
  attitudeP := withinRanges_initial.attitudeP
  attitudeY := withinRanges_initial.attitudeY

theorem SamePose.trans {e : TeleopCommand} (h : SamePose c d) (h' : SamePose d e) :
    SamePose c e :=
  Eq.trans h' h

/-- Neither the ranges nor the screen depend on the velocities. -/
theorem SamePose.withinRanges_iff (h : SamePose c d) : d.WithinRanges ↔ c.WithinRanges := by
  have hhalted : ∀ c : TeleopCommand, c.halted.WithinRanges ↔ c.WithinRanges := by
    refine fun c => ⟨fun h => ?_, fun h => ?_⟩ <;>
      exact ⟨h.armX, h.armZ, h.attitudeR, h.attitudeP, h.attitudeY⟩
  rw [← hhalted d, h, hhalted c]

theorem SamePose.arm_eq (h : SamePose c d) : d.armX = c.armX ∧ d.armZ = c.armZ :=
  ⟨(congrArg armX h : d.halted.armX = c.halted.armX),
    (congrArg armZ h : d.halted.armZ = c.halted.armZ)⟩

/-- The same pose is as clear. -/
theorem SamePose.clear_iff (h : SamePose c d) : d.Clear ↔ c.Clear := by
  rw [Clear, Clear, h.arm_eq.1, h.arm_eq.2]

end TeleopCommand

/-! ## Inputs -/

/-- No nudge is larger than those that the keyboard and the gamepad send. -/
def TeleopInput.Sized : TeleopInput → Prop
  | armNudge dx dz => |dx| ≤ armStepMm ∧ |dz| ≤ armStepMm
  | clawNudge delta => |delta| ≤ keyClawStep
  | _ => True

instance : DecidablePred TeleopInput.Sized
  | .armNudge _ _ => inferInstanceAs (Decidable (_ ∧ _))
  | .clawNudge _ => inferInstanceAs (Decidable (_ ≤ _))
  | .move _ _ | .turn _ | .action _ | .estop | .estopClear | .estopToggle | .attitudeNudge _ _
  | .attitudeReset | .neutralPose | .cameraNudge _ _ | .cameraReset | .saveFrame
  | .toggleRecording | .quit => .isTrue trivial

/-- What a key produces nudges by no more than its step. -/
theorem sized_of_key {key : KeyCode} {input : TeleopInput} (h : key.input = some input) :
    input.Sized := by
  have hall : ∀ arm ∈ keymap, arm.2.Sized := by decide
  obtain ⟨before, after, harms, -⟩ := List.lookup_eq_some_iff.mp h
  exact hall (key, input) (by simp [harms])

namespace PadState

/-- The pad's step is at most the coarse one. -/
theorem abs_armStep_le (s : PadState) : |s.armStep| ≤ armStepMm := by
  rw [armStep]
  split_ifs <;> decide

/-- The nudges of the gamepad, at either step. -/
theorem sized_nudges (s : PadState) :
    (TeleopInput.armNudge 0 s.armStep).Sized ∧ (TeleopInput.armNudge 0 (-s.armStep)).Sized ∧
      (TeleopInput.armNudge (-s.armStep) 0).Sized ∧ (TeleopInput.armNudge s.armStep 0).Sized ∧
      (TeleopInput.clawNudge (-clawTickStep)).Sized ∧
      (TeleopInput.clawNudge clawTickStep).Sized := by
  have hstep := s.abs_armStep_le
  have hneg : |-s.armStep| ≤ armStepMm := (abs_neg s.armStep).trans_le hstep
  have hzero : |(0 : Int)| ≤ armStepMm := by decide
  exact ⟨⟨hzero, hstep⟩, ⟨hzero, hneg⟩, ⟨hneg, hzero⟩, ⟨hstep, hzero⟩,
    show |-clawTickStep| ≤ keyClawStep by decide, show |clawTickStep| ≤ keyClawStep by decide⟩

/-- So do the pad's refreshes. -/
theorem sized_of_sendRefresh (s : PadState) : ∀ input ∈ s.sendRefresh, input.Sized := by
  obtain ⟨hup, hdown, hleft, hright, hopen, hclose⟩ := s.sized_nudges
  intro input hinput
  simp only [sendRefresh, List.mem_append, List.mem_ite_nil_right, List.mem_singleton] at hinput
  have hstick : s.stickX.Sized := by
    rw [stickX]
    split <;> trivial
  rcases hinput with (((((((⟨-, rfl⟩ | ⟨-, rfl⟩) | ⟨-, rfl⟩) | ⟨-, rfl⟩) | ⟨-, rfl⟩) |
    ⟨-, rfl⟩) | ⟨-, rfl⟩) | ⟨-, rfl⟩) | ⟨-, rfl⟩
  all_goals first | assumption | trivial

/-- So do the pad's events. -/
theorem sized_of_handleEvent (s : PadState) (event : EventType) :
    ∀ input ∈ (s.handleEvent event).2, input.Sized := by
  have hcombo : ∀ s : PadState, ∀ input ∈ s.checkEstopCombo, input.Sized := by
    intro s input hinput
    rw [checkEstopCombo, List.mem_ite_nil_right, List.mem_singleton] at hinput
    rw [hinput.2]
    trivial
  cases event with
  | buttonPressed button =>
      rw [handleEvent]
      cases button with
      | leftTrigger =>
          exact List.forall_mem_cons.mpr ⟨s.sized_nudges.2.2.2.2.1, hcombo _⟩
      | rightTrigger =>
          exact List.forall_mem_cons.mpr ⟨s.sized_nudges.2.2.2.2.2, hcombo _⟩
      | dpadUp => exact List.forall_mem_singleton.mpr s.sized_nudges.1
      | dpadDown => exact List.forall_mem_singleton.mpr s.sized_nudges.2.1
      | dpadLeft => exact List.forall_mem_singleton.mpr s.sized_nudges.2.2.1
      | dpadRight => exact List.forall_mem_singleton.mpr s.sized_nudges.2.2.2.1
      | leftThumb | rightThumb =>
          simp only [handleButtonPress]
          split <;> simp [TeleopInput.Sized]
      | _ => simp [handleButtonPress, TeleopInput.Sized]
  | _ => nofun

end PadState

/-- An input that the keyboard or the gamepad sends. -/
inductive TeleopInput.Produced (input : TeleopInput) : Prop where
  | key (key : KeyCode) (h : key.input = some input)
  | pad (s : PadState) (event : EventType) (h : input ∈ (s.handleEvent event).2)
  | refresh (s : PadState) (h : input ∈ s.sendRefresh)

theorem TeleopInput.Produced.sized {input : TeleopInput} (h : input.Produced) : input.Sized := by
  cases h with
  | key key h => exact sized_of_key h
  | pad s event h => exact s.sized_of_handleEvent event input h
  | refresh s h => exact s.sized_of_sendRefresh input h

/-! ## Runs -/

/-- The command of a Command frame. -/
def Sent.command? : Sent → Option TeleopCommand
  | .command _ _ cmd => some cmd
  | _ => none

/-- The Command frames of a log. -/
def commandFrames (log : List Sent) : List TeleopCommand := log.filterMap Sent.command?

/-- A sum that an `i16` holds. -/
def InI16 (n : Int) : Prop := -32768 ≤ n ∧ n ≤ 32767

namespace Client

/-- The operator nudges the arm. -/
def Event.nudgesArm : Event → Bool
  | .input (.armNudge _ _) _ => true
  | _ => false

/-- The operator asks for the neutral pose. -/
def Event.resetsArm : Event → Bool
  | .input .neutralPose _ => true
  | _ => false

/-- The arm was nudged, and no neutral pose came since. -/
def Nudged (past : List Event) : Prop :=
  Since (fun _ e => e.nudgesArm = true) (fun e => e.resetsArm = true) past

/-- The sums that the step computes in `i16` do not overflow. -/
def NoOverflow (s : Client) : Event → Prop
  | .input (.armNudge dx dz) _ => InI16 (s.lastCommand.armX + dx) ∧ InI16 (s.lastCommand.armZ + dz)
  | .input (.clawNudge delta) _ => InI16 (s.lastCommand.claw.toNat + delta)
  | _ => True

/-- The tick sends a Command frame. -/
def sendsCommand (s : Client) : Event → Bool
  | .tick clk _ => decide (s.phase = .operating) && !s.observing (clk.read 1)
  | _ => false

/-- No sum overflows, and every Command frame is within the ranges with the arm clear of the
screen. -/
def KeepsOut (args : ClientArgs) (es : List Event) : Prop :=
  Always (fun past e => (after args past).NoOverflow e) es ∧
    ∀ cmd ∈ commandFrames (after args es).log, cmd.WithinRanges ∧ cmd.Clear

/-- Whenever a Command frame is sent, the arm was nudged since the start and since the last
neutral pose. -/
def NudgedFirst (args : ClientArgs) (es : List Event) : Prop :=
  Always (fun past e => (after args past).sendsCommand e = true → Nudged past) es

/-! ### What a step sends -/

variable {s t : Client} {past es : List Event} {e : Event}

/-- What is quiet sends no Command. -/
theorem Quietly.commandFrames_eq (h : Quietly s t) : commandFrames t.log = commandFrames s.log := by
  obtain ⟨xs, hxs, hlog⟩ := h
  have hnone : commandFrames xs = [] := by
    refine List.filterMap_eq_nil_iff.mpr fun x hx => ?_
    have hsession := (hxs x hx).1
    cases x <;> first | rfl | cases hsession
  rw [hlog, commandFrames, List.filterMap_append]
  exact (congrArg (_ ++ ·) hnone).trans (List.append_nil _)

theorem samePose_sendActionTrigger (s : Client) (id : UInt8) :
    s.lastCommand.SamePose (s.sendActionTrigger id).lastCommand := by
  rw [sendActionTrigger]
  dsimp only
  split_ifs <;> rfl

theorem samePose_autoZero (s : Client) (now : Instant) :
    s.lastCommand.SamePose (s.autoZero now).lastCommand := by
  rw [autoZero]
  split_ifs <;> rfl

theorem samePose_fireDemoAction (s : Client) :
    s.lastCommand.SamePose s.fireDemoAction.lastCommand := by
  rw [fireDemoAction]
  split
  · exact samePose_sendActionTrigger { s with demoAction := none } _
  · rfl

/-- A tick sends what the client holds then, in the pose it held before. -/
theorem onTick_sends (s : Client) (clk : Clock) (wallUs : UInt64) :
    s.lastCommand.SamePose (s.onTick clk wallUs).lastCommand ∧
      commandFrames (s.onTick clk wallUs).log = commandFrames s.log ++
        if s.sendsCommand (.tick clk wallUs) then [(s.onTick clk wallUs).lastCommand] else [] := by
  have hpose := (samePose_autoZero s (clk.read 0)).trans (samePose_fireDemoAction _)
  have hsame := (sameWatch_autoZero s (clk.read 0)).trans (sameWatch_fireDemoAction _)
  have hquiet : Quietly s (s.autoZero (clk.read 0)).fireDemoAction :=
    (Quietly.autoZero s _).trans (.fireDemoAction _)
  rw [onTick, sendsCommand]
  by_cases hphase : s.phase = .operating
  · rw [if_neg (by simp [hphase])]
    dsimp only
    rw [hsame.observing_eq]
    cases hobserving : s.observing (clk.read 1) with
    | true =>
        refine ⟨hpose, ?_⟩
        rw [if_pos rfl, if_neg (by simp), List.append_nil, ← hquiet.commandFrames_eq]
        simp [sendHeartbeat, record, commandFrames, Sent.command?]
    | false =>
        refine ⟨hpose, ?_⟩
        rw [if_neg Bool.false_ne_true, if_pos (by simp [hphase]), ← hquiet.commandFrames_eq]
        simp [sendCommand, record, commandFrames, Sent.command?]
  · rw [if_pos hphase, if_neg (by simp [hphase])]
    exact ⟨rfl, (List.append_nil _).symm⟩

/-- An event adds the Command it sends. -/
theorem commandFrames_step (s : Client) (e : Event) :
    commandFrames (s.step e).log =
      commandFrames s.log ++ if s.sendsCommand e then [(s.step e).lastCommand] else [] := by
  cases e with
  | tick clk wallUs => exact (onTick_sends s clk wallUs).2
  | input i clk => exact (Quietly.onInput s i clk).commandFrames_eq.trans (List.append_nil _).symm
  | estopReport latched => exact (List.append_nil _).symm
  | helloNegotiated =>
      refine Eq.trans ?_ (List.append_nil _).symm
      rw [step]
      split_ifs <;> rfl
  | sessionDescribed =>
      refine Eq.trans ?_ (List.append_nil _).symm
      rw [step]
      split_ifs <;> rfl
  | reconnect => simp [step, record, commandFrames, Sent.command?, sendsCommand]

/-! ### What the client holds -/

/-- The ranges, and whether the arm is clear. -/
structure Holds (past : List Event) (c : TeleopCommand) : Prop where
  withinRanges : c.WithinRanges
  clear : Nudged past → c.Clear
  atNeutral : ¬ Nudged past → c.AtNeutral

/-- The arm is nudged by the last nudge, until a reset. -/
theorem nudged_concat (past : List Event) (e : Event) :
    Nudged (past ++ [e]) ↔ e.nudgesArm = true ∨ Nudged past ∧ e.resetsArm ≠ true :=
  since_concat _ _ _ _

/-- A step that neither nudges the arm nor resets it. -/
theorem Holds.of_arm_eq {c d : TeleopCommand} (h : Holds past c) (hnudge : e.nudgesArm = false)
    (hreset : e.resetsArm = false) (hranges : d.WithinRanges) (hx : d.armX = c.armX)
    (hz : d.armZ = c.armZ) : Holds (past ++ [e]) d := by
  have hiff : Nudged (past ++ [e]) ↔ Nudged past := by
    rw [nudged_concat, hnudge, hreset]
    simp
  refine ⟨hranges, fun hnudged => ?_, fun hnudged => ?_⟩
  · rw [TeleopCommand.Clear, hx, hz]
    exact h.clear (hiff.mp hnudged)
  · rw [TeleopCommand.AtNeutral, hx, hz]
    exact h.atNeutral (mt hiff.mpr hnudged)

/-- What leaves the pose alone keeps the invariant. -/
theorem Holds.of_samePose {c d : TeleopCommand} (h : Holds past c) (hnudge : e.nudgesArm = false)
    (hreset : e.resetsArm = false) (hpose : c.SamePose d) : Holds (past ++ [e]) d :=
  h.of_arm_eq hnudge hreset (hpose.withinRanges_iff.mpr h.withinRanges) hpose.arm_eq.1
    hpose.arm_eq.2

theorem refreshMoveInput_lastCommand (s : Client) (input : TeleopInput) (now : Instant) :
    (s.refreshMoveInput input now).lastCommand = s.lastCommand := by
  rw [refreshMoveInput]
  split_ifs <;> rfl

theorem sendCameraControl_lastCommand (s : Client) :
    s.sendCameraControl.lastCommand = s.lastCommand := by
  rw [sendCameraControl]
  dsimp only
  split_ifs <;> rfl

/-- Every input keeps the invariant of the held command. -/
theorem holds_onInput (h : Holds past s.lastCommand) (i : TeleopInput) (clk : Clock) :
    Holds (past ++ [.input i clk]) (s.onInput i clk).lastCommand := by
  rw [← refreshMoveInput_lastCommand s i (clk.read 0)] at h
  have hranges := h.withinRanges
  unfold onInput
  cases i with
  | move vx vy | turn turn => exact h.of_samePose rfl rfl rfl
  | action id => exact h.of_samePose rfl rfl (samePose_sendActionTrigger _ id)
  | armNudge dx dz =>
      have hnudged : Nudged (past ++ [.input (.armNudge dx dz) clk]) :=
        (nudged_concat _ _).mpr (.inl rfl)
      exact ⟨hranges.nudgeArm dx dz, fun _ => TeleopCommand.clear_nudgeArm _ dx dz,
        fun hnot => absurd hnudged hnot⟩
  | attitudeNudge axis delta =>
      have harm : ∀ c : TeleopCommand, (c.nudgeAttitude axis delta).armX = c.armX ∧
          (c.nudgeAttitude axis delta).armZ = c.armZ := by
        intro c
        unfold TeleopCommand.nudgeAttitude
        split <;> exact ⟨rfl, rfl⟩
      exact h.of_arm_eq rfl rfl (hranges.nudgeAttitude axis delta) (harm _).1 (harm _).2
  | attitudeReset => exact h.of_arm_eq rfl rfl hranges.level rfl rfl
  | neutralPose =>
      have hnot : ¬ Nudged (past ++ [.input .neutralPose clk]) := by
        rw [nudged_concat]
        simp [Event.nudgesArm, Event.resetsArm]
      refine ⟨?_, fun hnudged => absurd hnudged hnot, fun _ => ⟨rfl, rfl⟩⟩
      exact { TeleopCommand.withinRanges_initial with }
  | clawNudge delta => exact h.of_arm_eq rfl rfl { hranges with } rfl rfl
  | cameraNudge param delta | cameraReset =>
      exact h.of_samePose rfl rfl (congrArg TeleopCommand.halted (sendCameraControl_lastCommand _))
  | estop | estopClear | estopToggle | saveFrame | toggleRecording | quit =>
      exact h.of_samePose rfl rfl rfl

/-- So does every event. -/
theorem holds_step (h : Holds past s.lastCommand) (e : Event) :
    Holds (past ++ [e]) (s.step e).lastCommand := by
  cases e with
  | tick clk wallUs => exact h.of_samePose rfl rfl (onTick_sends s clk wallUs).1
  | input i clk => exact holds_onInput h i clk
  | helloNegotiated | sessionDescribed =>
      refine h.of_samePose rfl rfl ?_
      rw [step]
      split_ifs <;> rfl
  | estopReport _ | reconnect => exact h.of_samePose rfl rfl rfl

/-- So does every run. -/
theorem holds_after (args : ClientArgs) (es : List Event) :
    Holds es (after args es).lastCommand := by
  induction es using List.reverseRecOn with
  | nil =>
      exact ⟨TeleopCommand.withinRanges_initial, fun h => absurd h (since_nil _ _),
        fun _ => ⟨rfl, rfl⟩⟩
  | append_singleton es e ih =>
      rw [after_concat]
      exact holds_step ih e

/-- The arm is clear exactly if it was nudged. -/
theorem Holds.clear_iff {c : TeleopCommand} (h : Holds past c) : c.Clear ↔ Nudged past := by
  refine ⟨fun hclear => ?_, h.clear⟩
  by_contra hnot
  exact (h.atNeutral hnot).not_clear hclear

/-- Nudges of the input modules do not take a value within its range out of an `i16`. -/
theorem noOverflow_of_sized (h : s.lastCommand.WithinRanges)
    (hsized : ∀ i clk, e = .input i clk → i.Sized) : s.NoOverflow e := by
  cases e with
  | input i clk =>
      have hi := hsized i clk rfl
      cases i with
      | armNudge dx dz =>
          obtain ⟨hdx, hdz⟩ := hi
          have hx := h.armX
          have hz := h.armZ
          simp only [abs_le, armStepMm, armXMin, armXMax, armZMin, armZMax] at hdx hdz hx hz
          exact ⟨⟨by omega, by omega⟩, ⟨by omega, by omega⟩⟩
      | clawNudge delta =>
          have hclaw := s.lastCommand.claw.toNat_lt
          have hdelta : |delta| ≤ keyClawStep := hi
          simp only [abs_le, keyClawStep] at hdelta
          exact ⟨by omega, by omega⟩
      | _ => trivial
  | _ => trivial

/-- A frame is sent as the client holds it before. -/
theorem samePose_of_sendsCommand (hsends : s.sendsCommand e = true) :
    s.lastCommand.SamePose (s.step e).lastCommand := by
  cases e with
  | tick clk wallUs => exact (onTick_sends s clk wallUs).1
  | _ => cases hsends

/-- No run whose nudges are no larger overflows. -/
theorem noOverflow_after (args : ClientArgs) (hsized : ∀ i clk, .input i clk ∈ es → i.Sized) :
    Always (fun past e => (after args past).NoOverflow e) es := by
  intro past e later hes
  refine noOverflow_of_sized (holds_after args past).withinRanges fun i clk he => ?_
  refine hsized i clk ?_
  rw [hes, he]
  exact List.mem_append_right _ List.mem_cons_self

/-- What a step that does not overflow adds to the two rules. -/
theorem keepsOut_step_iff (h : Holds past s.lastCommand) (hoverflow : s.NoOverflow e) :
    (s.NoOverflow e ∧ ∀ cmd ∈ (if s.sendsCommand e then [(s.step e).lastCommand] else []),
        cmd.WithinRanges ∧ cmd.Clear) ↔ (s.sendsCommand e = true → Nudged past) := by
  by_cases hsends : s.sendsCommand e = true
  · have hpose := samePose_of_sendsCommand hsends
    have hranges := hpose.withinRanges_iff.mpr h.withinRanges
    rw [if_pos hsends, List.forall_mem_singleton, hpose.clear_iff, h.clear_iff]
    simp [hoverflow, hranges, hsends]
  · rw [if_neg hsends]
    simp [hoverflow, hsends]

/-- In a run without an overflow the rules come down to the nudges. -/
theorem keepsOut_iff_of_noOverflow (args : ClientArgs) {es : List Event}
    (h : Always (fun past e => (after args past).NoOverflow e) es) :
    KeepsOut args es ↔ NudgedFirst args es := by
  induction es using List.reverseRecOn with
  | nil =>
      have hnone : commandFrames (after args []).log = [] := rfl
      refine iff_of_true ⟨always_nil _, ?_⟩ (always_nil _)
      rw [hnone]
      exact List.forall_mem_nil _
  | append_singleton es e ih =>
      obtain ⟨hpast, hoverflow⟩ := (always_concat _ _ _).mp h
      have ih := ih hpast
      have hstep := keepsOut_step_iff (e := e) (holds_after args es) hoverflow
      rw [NudgedFirst, always_concat, ← hstep]
      rw [NudgedFirst] at ih
      rw [← ih, KeepsOut, KeepsOut, always_concat, after_concat, commandFrames_step,
        List.forall_mem_append, and_and_and_comm]

/-- The Command frames keep the arm clear of the screen exactly if the arm is nudged before
the first of them and again after each neutral pose. -/
theorem keepsOut_iff (args : ClientArgs) (es : List Event)
    (hsized : ∀ i clk, .input i clk ∈ es → i.Sized) : KeepsOut args es ↔ NudgedFirst args es :=
  keepsOut_iff_of_noOverflow args (noOverflow_after args hsized)

/-- So it is for everything that the keyboard and the gamepad send. -/
theorem keepsOut_of_produced (args : ClientArgs) (es : List Event)
    (hproduced : ∀ i clk, .input i clk ∈ es → i.Produced) :
    KeepsOut args es ↔ NudgedFirst args es :=
  keepsOut_iff_of_noOverflow args
    (noOverflow_after args fun i clk hi => (hproduced i clk hi).sized)

def plainArgs : ClientArgs := { moveStaleMs := 400, observer := false, demoAction := none }

/-- The arm is nudged down once before the robot can be operated. -/
def nudgedRun : List Event :=
  [.input (.armNudge 0 (-10)) (.const 0), .helloNegotiated, .sessionDescribed,
    .tick (.const 1000000) 1]

/-- The characterization at a run that nudges the arm and resets it. -/
theorem keepsOut_iff_nudgedRun : KeepsOut plainArgs nudgedRun ↔ NudgedFirst plainArgs nudgedRun :=
  keepsOut_iff plainArgs nudgedRun (by simp [nudgedRun, TeleopInput.Sized, armStepMm])

/-- The first tick sends the arm into the screen. -/
theorem not_keepsOut_atStart :
    ¬ ∀ (args : ClientArgs) (es : List Event),
      (∀ i clk, .input i clk ∈ es → i.Sized) → KeepsOut args es := by
  intro h
  have hrun := h plainArgs [.helloNegotiated, .sessionDescribed, .tick (.const 0) 0] (by simp)
  have hsent : TeleopCommand.initial ∈ commandFrames
      (after plainArgs [.helloNegotiated, .sessionDescribed, .tick (.const 0) 0]).log := by
    simp [plainArgs, after, step, onTick, autoZero, fireDemoAction, observing, sendCommand, record,
      Client.new, commandFrames, Sent.command?]
  have hclear := (hrun.2 .initial hsent).2
  exact TeleopCommand.AtNeutral.not_clear (c := .initial) ⟨rfl, rfl⟩ hclear

end Client

end RoboTele
