import RoboTele.RobotEdge.SessionOrders
import RoboTele.RobotEdge.SessionRuns
import RoboTele.Runs.Past

/-!
# Bringing the body to rest

The robot's firmware executes the last velocity it was given until it is given
another.  `AtRest` says of a list of orders that it ends with a stop, or with a
zero velocity.

`motion` is the velocity one step puts into force, if it orders any.  It is read
off the state before the step, and a session's orders end at rest exactly if the
newest motion of its run is zero (`atRest_after`).  Two rules about the end of a
velocity then become conditions on motions: a tick on which nobody drives must
find the robot told to stop, and so must the end of a session.
-/

namespace RoboTele

open Runs Past

/-! ## Orders for the body -/

namespace BridgeCommand

/-- A command for the body's velocity. -/
def isBody : BridgeCommand → Bool
  | move _ _ _ | turn _ _ | stop _ | estop _ => true
  | _ => false

/-- A nonzero `Move` or `Turn`. -/
def drives : BridgeCommand → Bool
  | move x y _ => decide (x ≠ 0 ∨ y ≠ 0)
  | turn step _ => decide (step ≠ 0)
  | _ => false

end BridgeCommand

/-- The orders that move the body or stop it. -/
def bodyOrders (l : List BridgeCommand) : List BridgeCommand := l.filter BridgeCommand.isBody

@[simp] theorem bodyOrders_append (l m : List BridgeCommand) :
    bodyOrders (l ++ m) = bodyOrders l ++ bodyOrders m := List.filter_append ..

/-- `AtRest` on the body orders, newest first. -/
def newestAtRest : List BridgeCommand → Bool
  | [] => true
  | .stop _ :: _ | .estop _ :: _ => true
  | .turn step _ :: .move x y _ :: _ => decide (step = 0 ∧ x = 0 ∧ y = 0)
  | _ => false

/-- The last order for the body, if there is one, is a `Stop` or `Estop`, or a
zero `Move` followed by a zero `Turn`. -/
def AtRest (l : List BridgeCommand) : Prop := newestAtRest (bodyOrders l).reverse = true

instance (l : List BridgeCommand) : Decidable (AtRest l) := inferInstanceAs (Decidable (_ = true))

/-! ## The velocity in force -/

/-- The velocity of the body, as a `Move` and a `Turn` set it. -/
structure BodyVelocity where
  vx : ℚ
  vy : ℚ
  turn : ℚ
deriving DecidableEq

namespace BodyVelocity

/-- No motion. -/
def zero : BodyVelocity := { vx := 0, vy := 0, turn := 0 }

end BodyVelocity

/-- The orders put the velocity `v` into force: they end with a stop, or they
are one `Move` and one `Turn`. -/
inductive Gives (l : List BridgeCommand) : BodyVelocity → Prop where
  | stop (pre : List BridgeCommand) (h : bodyOrders l = pre ++ [.stop 0]) : Gives l .zero
  | estop (pre : List BridgeCommand) (h : bodyOrders l = pre ++ [.estop 0]) : Gives l .zero
  | drive (v : BodyVelocity) (h : bodyOrders l = [.move v.vx v.vy 0, .turn v.turn 0]) : Gives l v

/-- What such orders leave behind does not depend on the orders before them. -/
theorem Gives.atRest_append {m : List BridgeCommand} {v : BodyVelocity} (h : Gives m v)
    (l : List BridgeCommand) : AtRest (l ++ m) ↔ v = .zero := by
  rw [AtRest]
  rw [bodyOrders_append]
  cases h with
  | stop pre h => simp [h, newestAtRest]
  | estop pre h => simp [h, newestAtRest]
  | drive v h =>
      obtain ⟨vx, vy, turn⟩ := v
      simp [h, newestAtRest, BodyVelocity.zero]
      tauto

/-- Orders without one for the body change nothing. -/
theorem atRest_append_of_bodyOrders_nil {l m : List BridgeCommand} (h : bodyOrders m = []) :
    AtRest (l ++ m) ↔ AtRest l := by
  simp [AtRest, h]

/-- A nonzero velocity takes a nonzero `Move` or `Turn`. -/
theorem Gives.exists_drives {m : List BridgeCommand} {v : BodyVelocity} (h : Gives m v)
    (hv : v ≠ .zero) : ∃ cmd ∈ m, cmd.drives = true := by
  cases h with
  | stop => exact absurd rfl hv
  | estop => exact absurd rfl hv
  | drive v h =>
      have hmem (cmd : BridgeCommand) (hcmd : cmd ∈ bodyOrders m) : cmd ∈ m :=
        List.mem_of_mem_filter hcmd
      by_cases hmove : v.vx ≠ 0 ∨ v.vy ≠ 0
      · exact ⟨.move v.vx v.vy 0, hmem _ (by simp [h]), decide_eq_true hmove⟩
      · refine ⟨.turn v.turn 0, hmem _ (by simp [h]), decide_eq_true fun hturn => hv ?_⟩
        obtain ⟨vx, vy, turn⟩ := v
        simp_all [BodyVelocity.zero]

/-! ## The motion of a step -/

/-- The velocity an operator's command asks for. -/
def TeleopCommand.bodyVelocity (cmd : TeleopCommand) : BodyVelocity :=
  { vx := cmd.vx, vy := cmd.vy, turn := cmd.turn }

/-- The velocity autonomy asks for. -/
def AutonomyVelocity.bodyVelocity (v : AutonomyVelocity) : BodyVelocity :=
  { vx := v.vx, vy := v.vy, turn := v.turn }

namespace Session

/-- The velocity an admitted command puts into force. -/
def commandMotion (s : Session) (seq : UInt64) (cmd : TeleopCommand) (clk : Clock) :
    Option BodyVelocity :=
  match s.commandSource seq clk with
  | .fullTeleoperation =>
      if s.settling (clk.read 3) || s.holdsSit cmd then none else some cmd.bodyVelocity
  | .eStop | .emergencySafeParking | .activeImpedanceHold => some .zero
  | .semiAutonomous => none

/-- The velocity a tick puts into force. -/
def tickMotion (s : Session) (clk : Clock) : Option BodyVelocity :=
  match s.tickSource clk with
  | .eStop => some .zero
  | .semiAutonomous => some (s.autonomyGoal.readVelocity (clk.read 2)).bodyVelocity
  | _ => none

/-- The velocity a step puts into force, if it orders any. -/
def motion (fb : FlatBuffers) (s : Session) (e : Event) : Option BodyVelocity :=
  if s.ended.isSome then none
  else
    match e with
    | .datagram data clk =>
        match s.admittedCommand fb data with
        | some (seq, cmd) => s.commandMotion seq cmd clk
        | none => none
    | .tick clk _ => s.tickMotion clk
    | .exit .shutdown => some .zero
    | _ => none

/-- The orders of a step are for the velocity of its motion. -/
def OrdersMotion (l : List BridgeCommand) : Option BodyVelocity → Prop
  | none => bodyOrders l = []
  | some v => Gives l v

theorem commandOrders_motion (s : Session) (seq : UInt64) (cmd : TeleopCommand) (clk : Clock) :
    OrdersMotion (s.commandOrders seq cmd clk) (s.commandMotion seq cmd clk) := by
  rw [commandOrders, commandMotion]
  cases s.commandSource seq clk with
  | fullTeleoperation =>
      rw [driveOrders]
      dsimp only
      split_ifs with hheld hsettling
      · rfl
      · rfl
      · simp_all
      · exact .drive _ rfl
  | eStop => exact .stop [] rfl
  | emergencySafeParking => exact .stop [] rfl
  | activeImpedanceHold => exact .stop [] rfl
  | semiAutonomous => rfl

theorem tickOrders_motion (s : Session) (clk : Clock) :
    OrdersMotion (s.tickOrders clk) (s.tickMotion clk) := by
  have hquery (c : Prop) [Decidable c] :
      bodyOrders (if c then [BridgeCommand.query 0] else []) = [] := by
    split_ifs <;> rfl
  have hbody : bodyOrders (s.tickOrders clk) =
      bodyOrders (s.relayOrders (s.tickSource clk)) ++
        bodyOrders (s.autonomyOrders (s.tickSource clk) (clk.read 2)) := by
    simp only [tickOrders, bodyOrders_append, hquery, List.append_nil]
    rfl
  have hrelay (h : s.tickSource clk ≠ .eStop) :
      bodyOrders (s.relayOrders (s.tickSource clk)) = [] := by
    rw [relayOrders, if_neg h]
    split_ifs <;> rfl
  have hidle (h : s.tickSource clk ≠ .eStop) (h' : s.tickSource clk ≠ .semiAutonomous) :
      bodyOrders (s.tickOrders clk) = [] := by
    rw [hbody, hrelay h, autonomyOrders, if_neg h']
    rfl
  unfold tickMotion
  cases hsource : s.tickSource clk with
  | eStop => exact .estop [] (by rw [hbody, hsource]; rfl)
  | semiAutonomous =>
      exact .drive _ (by rw [hbody, hrelay (by simp [hsource]), hsource]; rfl)
  | emergencySafeParking => exact hidle (by simp [hsource]) (by simp [hsource])
  | activeImpedanceHold => exact hidle (by simp [hsource]) (by simp [hsource])
  | fullTeleoperation => exact hidle (by simp [hsource]) (by simp [hsource])

theorem ordersOf_motion (fb : FlatBuffers) (s : Session) (e : Event) :
    OrdersMotion (s.ordersOf fb e) (s.motion fb e) := by
  unfold ordersOf motion
  split_ifs
  · rfl
  · cases e with
    | datagram data clk =>
        dsimp only
        cases s.admittedCommand fb data with
        | none => rfl
        | some admitted => exact s.commandOrders_motion admitted.1 admitted.2 clk
    | streamData streamId data clk write =>
        dsimp only [OrdersMotion]
        unfold actionOrders
        split_ifs <;> rfl
    | tick clk io => exact s.tickOrders_motion clk
    | exit exit =>
        cases exit with
        | closed => rfl
        | error => rfl
        | shutdown => exact .estop [.stop 0] rfl
    | _ => rfl

/-- The velocities a run puts into force, in order. -/
def motions (fb : FlatBuffers) (args : ServerArgs) (goal : AutonomyGoal) (t₀ : Instant)
    (es : List Event) : List BodyVelocity :=
  trace (step fb) (motion fb) (.new args goal t₀) es

/-- The newest of some velocities, zero if there is none. -/
def newest (vs : List BodyVelocity) : BodyVelocity := vs.getLast?.getD .zero

section

variable (fb : FlatBuffers) (args : ServerArgs) (goal : AutonomyGoal) (t₀ : Instant)

theorem motions_concat (es : List Event) (e : Event) :
    motions fb args goal t₀ (es ++ [e]) =
      motions fb args goal t₀ es ++ ((after fb args goal t₀ es).motion fb e).toList :=
  trace_concat _ _ _ _ _

/-- The orders of a run are at rest exactly if its newest velocity is zero. -/
theorem atRest_after (es : List Event) :
    AtRest (after fb args goal t₀ es).orders ↔ newest (motions fb args goal t₀ es) = .zero := by
  induction es using List.reverseRecOn with
  | nil => exact iff_of_true rfl rfl
  | append_singleton es e ih =>
      have horders := ordersOf_motion fb (after fb args goal t₀ es) e
      rw [after_concat, step_orders, motions_concat]
      cases hmotion : (after fb args goal t₀ es).motion fb e with
      | none =>
          rw [hmotion] at horders
          rw [atRest_append_of_bodyOrders_nil horders, ih, Option.toList_none, List.append_nil]
      | some v =>
          rw [hmotion] at horders
          rw [Gives.atRest_append horders]
          simp [newest]

end

/-! ## Nobody drives -/

/-- A tick that is arbitrated to no driver. -/
def undrivenTick (s : Session) : Event → Bool
  | .tick clk _ =>
      s.ended.isNone && decide (s.tickSource clk ≠ .fullTeleoperation) &&
        decide (s.tickSource clk ≠ .semiAutonomous)
  | _ => false

/-- A tick that holds the robot where it is. -/
def holdTick (s : Session) : Event → Bool
  | .tick clk _ => s.ended.isNone && decide (s.tickSource clk = .activeImpedanceHold)
  | _ => false

/-- The velocity a step puts into force, if it is a tick. -/
def motionOfTick (fb : FlatBuffers) (s : Session) : Event → Option BodyVelocity
  | .tick clk io => s.motion fb (.tick clk io)
  | _ => none

/-- The velocities the ticks of a run put into force, in order. -/
def tickMotions (fb : FlatBuffers) (args : ServerArgs) (goal : AutonomyGoal) (t₀ : Instant)
    (es : List Event) : List BodyVelocity :=
  trace (step fb) (motionOfTick fb) (.new args goal t₀) es

section

variable (fb : FlatBuffers) (args : ServerArgs) (goal : AutonomyGoal) (t₀ : Instant)

/-- After every tick on which nobody drives, the body is at rest. -/
def RestsUndriven (es : List Event) : Prop :=
  Always (fun past e => (after fb args goal t₀ past).undrivenTick e = true →
    AtRest ((after fb args goal t₀ past).step fb e).orders) es

/-- At every tick that holds the robot, the velocity the last driving or
stopping tick put into force is zero. -/
def HoldsAtZero (es : List Event) : Prop :=
  Always (fun past e => (after fb args goal t₀ past).holdTick e = true →
    newest (tickMotions fb args goal t₀ past) = .zero) es

instance (es : List Event) : Decidable (RestsUndriven fb args goal t₀ es) :=
  inferInstanceAs (Decidable (Always _ _))

instance (es : List Event) : Decidable (HoldsAtZero fb args goal t₀ es) :=
  inferInstanceAs (Decidable (Always _ _))

/-- The deadman flag is never taken back. -/
theorem deadmanHeld_step {s : Session} (e : Event) (h : s.safety.deadmanHeld = true) :
    (s.step fb e).safety.deadmanHeld = true := by
  refine (step_moves fb s e).inv (I := fun v => v.safety.deadmanHeld = true)
    (fun v m _ hv => ?_) h
  cases m with
  | accept seq => rfl
  | _ => exact hv

/-- An admitted command sets the deadman flag. -/
theorem deadmanHeld_onAdmitted (s : Session) (seq : UInt64) (cmd : TeleopCommand) (clk : Clock) :
    (s.onAdmitted seq cmd clk).safety.deadmanHeld = true := by
  have hmoves := (Moves.refl (fun _ => True)
    ((s.acceptCommand seq (clk.read 0)).record (.dispatched seq))).dispatchTeleopCommand cmd
      (clk.read 1) (clk.read 2) (clk.read 3) fun _ => trivial
  refine hmoves.inv (I := fun v => v.safety.deadmanHeld = true) (fun v m _ hv => ?_) rfl
  cases m with
  | accept seq => rfl
  | _ => exact hv

/-- In a session that runs on and has seen no command, only ticks move the
body. -/
theorem motionOfTick_eq_motion {s : Session} {e : Event}
    (hended : (s.step fb e).ended.isSome = false)
    (hheld : (s.step fb e).safety.deadmanHeld = false) :
    s.motionOfTick fb e = s.motion fb e := by
  have hrunning := running_of_step fb hended
  rw [step_of_running fb e hrunning] at hended hheld
  cases e with
  | tick clk io => rfl
  | datagram data clk =>
      cases hadm : s.admittedCommand fb data with
      | none => simp [motionOfTick, motion, hadm]
      | some admitted =>
          rw [handle, onDatagram_of_admitted clk hadm, deadmanHeld_onAdmitted] at hheld
          exact Bool.noConfusion hheld
  | exit exit =>
      cases exit with
      | shutdown => simp [handle, finish] at hended
      | closed => simp [motionOfTick, motion]
      | error => simp [motionOfTick, motion]
  | _ => simp [motionOfTick, motion]

/-- A running session that has seen no command was moved by its ticks alone. -/
theorem tickMotions_eq_motions (es : List Event)
    (hended : (after fb args goal t₀ es).ended.isSome = false)
    (hheld : (after fb args goal t₀ es).safety.deadmanHeld = false) :
    tickMotions fb args goal t₀ es = motions fb args goal t₀ es := by
  induction es using List.reverseRecOn with
  | nil => rfl
  | append_singleton es e ih =>
      rw [after_concat] at hended hheld
      have hbefore : (after fb args goal t₀ es).safety.deadmanHeld = false := by
        by_contra h
        rw [Bool.not_eq_false] at h
        rw [deadmanHeld_step fb e h] at hheld
        exact Bool.noConfusion hheld
      have hstep := motionOfTick_eq_motion fb hended hheld
      rw [motions_concat, ← ih (running_of_step fb hended) hbefore, ← hstep]
      exact trace_concat _ _ _ _ _

/-- The source of a tick in a run, without RTT samples. -/
theorem tickSource_after (es : List Event) (clk : Clock) :
    (after fb args goal t₀ es).tickSource clk =
      let s := after fb args goal t₀ es
      if (s.safety.poll (clk.read 0)).isEstopped then .eStop
      else if s.safety.deadmanHeld then .fullTeleoperation
      else if s.autonomyGoal.asserted (clk.read 1) then .semiAutonomous
      else .activeImpedanceHold :=
  (after_unmeasured fb args goal t₀ es).arbitrate_eq (clk.read 0) _

/-- What a tick without a driver leaves behind: a stopped robot if the latch
is set, else the velocity of the ticks before it. -/
theorem atRest_undrivenTick {past : List Event} {clk : Clock} {io : TickIo}
    (h : (after fb args goal t₀ past).undrivenTick (.tick clk io) = true) :
    AtRest ((after fb args goal t₀ past).step fb (.tick clk io)).orders ↔
      ((after fb args goal t₀ past).holdTick (.tick clk io) = true →
        newest (tickMotions fb args goal t₀ past) = .zero) := by
  have hsource := tickSource_after fb args goal t₀ past clk
  have hrest := atRest_after fb args goal t₀ (past ++ [.tick clk io])
  rw [after_concat, motions_concat] at hrest
  generalize hs : after fb args goal t₀ past = s at *
  rw [hrest]
  simp only [undrivenTick, Bool.and_eq_true, Option.isNone_iff_eq_none, decide_eq_true_eq] at h
  obtain ⟨⟨hended, hfull⟩, hsemi⟩ := h
  have hmotion : s.motion fb (.tick clk io) = s.tickMotion clk := by
    rw [motion, if_neg (by simp [hended])]
  rw [hmotion]
  dsimp only at hsource
  by_cases hstop : (s.safety.poll (clk.read 0)).isEstopped = true
  · rw [if_pos hstop] at hsource
    simp [tickMotion, holdTick, hsource, newest]
  · rw [if_neg hstop] at hsource
    have hheld : s.safety.deadmanHeld = false := by
      by_contra hheld
      rw [Bool.not_eq_false] at hheld
      exact hfull (by rw [hsource, if_pos hheld])
    have hhold : s.tickSource clk = .activeImpedanceHold := by
      rw [hsource, hheld] at hsemi ⊢
      split_ifs at hsemi ⊢ <;> simp_all
    rw [← tickMotions_eq_motions fb args goal t₀ past (by simp [hs, hended]) (by rw [hs, hheld])]
    simp [tickMotion, holdTick, hhold, hended]

/-- The robot is told to stop whenever nobody drives it exactly in the runs in
which every holding tick finds the ticks' last velocity zero. -/
theorem restsUndriven_iff (es : List Event) :
    RestsUndriven fb args goal t₀ es ↔ HoldsAtZero fb args goal t₀ es := by
  have hundriven (s : Session) (e : Event) (h : s.holdTick e = true) :
      s.undrivenTick e = true := by
    cases e with
    | tick clk io => simp_all [holdTick, undrivenTick]
    | _ => simp [holdTick] at h
  apply always_congr
  intro past e post _
  by_cases h : (after fb args goal t₀ past).undrivenTick e = true
  · cases e with
    | tick clk io => simp only [h, true_implies, atRest_undrivenTick fb args goal t₀ h]
    | _ => simp [undrivenTick] at h
  · have hhold : ¬ (after fb args goal t₀ past).holdTick e = true := mt (hundriven _ e) h
    simp [h, hhold]

end

/-- An autonomy goal of 10 mm/s at time zero, and the operator heartbeating. -/
def lapsedGoalRun : List Event :=
  let io : TickIo := { established := true, estopStreamOk := true, captureUs := 0 }
  opening .fixedLayout sampleArgs [] 0 ++
    [.autonomySample [0x41, 0x20, 0, 0, 0, 0, 0, 0, 0, 0, 0, 0] 0,
      .tick (.const 0) io,
      .datagram (heartbeatDatagram 1) (.const (fromMillis 300)),
      .tick (.const (fromMillis 600)) io]

/-- The goal lapses, and its velocity stays. -/
theorem restsUndriven_fails_for_lapsedGoal :
    ¬ RestsUndriven .fixedLayout sampleArgs (.new 0) 0 lapsedGoalRun := by
  decide +kernel

/-! ## The end of a session -/

/-- A session that has ended and that ever drove the robot leaves it at rest. -/
def EndsAtRest (s : Session) : Prop :=
  s.ended.isSome = true → (∃ cmd ∈ s.orders, cmd.drives = true) → AtRest s.orders

/-- A nonzero velocity was put into force by a nonzero `Move` or `Turn`. -/
theorem exists_drives_of_motion (fb : FlatBuffers) (args : ServerArgs) (goal : AutonomyGoal)
    (t₀ : Instant) (es : List Event) {v : BodyVelocity} (hv : v ∈ motions fb args goal t₀ es)
    (hzero : v ≠ .zero) : ∃ cmd ∈ (after fb args goal t₀ es).orders, cmd.drives = true := by
  induction es using List.reverseRecOn with
  | nil => simp [motions] at hv
  | append_singleton es e ih =>
      rw [after_concat, step_orders]
      rw [motions_concat, List.mem_append, Option.mem_toList] at hv
      rcases hv with hv | hv
      · obtain ⟨cmd, hcmd, hdrives⟩ := ih hv
        exact ⟨cmd, List.mem_append_left _ hcmd, hdrives⟩
      · have horders := ordersOf_motion fb (after fb args goal t₀ es) e
        rw [hv] at horders
        obtain ⟨cmd, hcmd, hdrives⟩ := Gives.exists_drives horders hzero
        exact ⟨cmd, List.mem_append_right _ hcmd, hdrives⟩

theorem newest_mem {vs : List BodyVelocity} (h : newest vs ≠ .zero) : newest vs ∈ vs := by
  unfold newest at h ⊢
  cases hlast : vs.getLast? with
  | none => simp [hlast] at h
  | some v => exact List.mem_of_getLast? hlast

/-- An ended session leaves the robot at rest exactly if the last velocity it
put into force is zero. -/
theorem endsAtRest_iff (fb : FlatBuffers) (args : ServerArgs) (goal : AutonomyGoal) (t₀ : Instant)
    (es : List Event) :
    EndsAtRest (after fb args goal t₀ es) ↔
      ((after fb args goal t₀ es).ended.isSome = true →
        newest (motions fb args goal t₀ es) = .zero) := by
  rw [EndsAtRest]
  rw [atRest_after]
  apply forall_congr'
  intro _
  refine ⟨?_, fun h _ => h⟩
  intro h
  by_contra hmoving
  exact hmoving (h (exists_drives_of_motion fb args goal t₀ es (newest_mem hmoving) hmoving))

/-- A session that ends in a shutdown leaves the robot at rest. -/
theorem endsAtRest_shutDown (fb : FlatBuffers) (args : ServerArgs) (goal : AutonomyGoal)
    (t₀ : Instant) (es : List Event)
    (h : (after fb args goal t₀ es).ended.isSome = false) :
    EndsAtRest (after fb args goal t₀ (es ++ [.exit .shutdown])) := by
  rw [endsAtRest_iff, motions_concat]
  simp [motion, h, newest]

/-- An operator drives forward, and the connection closes. -/
def lostOperatorRun : List Event :=
  let clk := Clock.const 0
  opening .fixedLayout sampleArgs [] 0 ++
    [.datagram (commandDatagram .fixedLayout 0 1 (.forward 10)) clk, .exit .closed]

/-- A connection that closes leaves the velocity. -/
theorem endsAtRest_fails_for_lostOperator :
    ¬ EndsAtRest (after .fixedLayout sampleArgs (.new 0) 0 lostOperatorRun) := by
  have hrun : let s := after .fixedLayout sampleArgs (.new 0) 0 lostOperatorRun
      s.ended.isSome = true ∧ s.orders.any BridgeCommand.drives = true ∧ ¬ AtRest s.orders := by
    decide +kernel
  intro h
  exact hrun.2.2 (h hrun.1 (List.any_eq_true.mp hrun.2.1))

end Session

end RoboTele
