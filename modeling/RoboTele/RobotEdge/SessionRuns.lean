import RoboTele.RobotEdge.SessionSteps

/-!
# Runs of a session

A session is built once and then takes steps.  What its safety task and its log
satisfy in every run follows from what each `SafetyMove` keeps
(`after_view_inv`).

`Unmeasured` is the first such invariant.  No handler hands the safety task an
RTT sample, so its state machine stays at tier 0, and the first accepted command
sets the deadman and freshness flags for good.  The inputs of an arbitration
then come down to the latch, "a command was accepted", and the goal.
-/

namespace RoboTele

open Runs

namespace Session

/-- The session after a run. -/
def after (fb : FlatBuffers) (args : ServerArgs) (goal : AutonomyGoal) (t₀ : Instant)
    (es : List Event) : Session :=
  exec (step fb) (.new args goal t₀) es

section

variable (fb : FlatBuffers) (args : ServerArgs) (goal : AutonomyGoal) (t₀ : Instant)

@[simp] theorem after_nil : after fb args goal t₀ [] = .new args goal t₀ := rfl

@[simp] theorem after_concat (es : List Event) (e : Event) :
    after fb args goal t₀ (es ++ [e]) = (after fb args goal t₀ es).step fb e :=
  exec_concat _ _ _ _

/-- What a fresh session satisfies and every move keeps, every run satisfies. -/
theorem after_view_inv {I : SafetyView → Prop} (hinit : I (Session.new args goal t₀).view)
    (hmove : ∀ v m, I v → I (SafetyMove.apply v m)) (es : List Event) :
    I (after fb args goal t₀ es).view := by
  refine exec_inv (I := fun s : Session => I s.view) (fun s e hs => ?_) es hinit
  exact (step_moves fb s e).inv (fun v m _ hv => hmove v m hv) hs

end

end Session

/-! ## The safety task without RTT samples -/

/-- The state machine is as built, and the flags say whether a command was
accepted. -/
structure SafetyView.Unmeasured (v : SafetyView) : Prop where
  suspended : v.safety.stateMachine.suspended = false
  tier : v.safety.stateMachine.tier = 0
  fresh : v.safety.commandFresh = v.safety.deadmanHeld
  held : v.safety.deadmanHeld = true ↔ ∃ seq, Act.commandAccepted seq ∈ v.log

/-- What an arbitration entry arbitrated. -/
def Act.arbitrated? : Act → Option ArbitrationInputs
  | .arbitrated i => some i
  | _ => none

theorem Act.quiet_arbitrated? {a : Act} (h : a.quiet = true) : a.arbitrated? = none := by
  cases a with
  | arbitrated i => simp [quiet] at h
  | _ => rfl

theorem Act.quiet_ne_commandAccepted {a : Act} (h : a.quiet = true) (seq : UInt64) :
    Act.commandAccepted seq ≠ a := by
  rintro rfl
  simp [quiet] at h

namespace SafetyView

theorem Unmeasured.new (args : ServerArgs) (goal : AutonomyGoal) (t₀ : Instant) :
    (Session.new args goal t₀).view.Unmeasured where
  suspended := rfl
  tier := rfl
  fresh := rfl
  held := by
    simp [Session.new, Session.view, SafetyTask.withWatchdogThresholdMs]

theorem Unmeasured.apply {v : SafetyView} (h : v.Unmeasured) (m : SafetyMove) :
    (m.apply v).Unmeasured := by
  obtain ⟨hsuspended, htier, hfresh, hheld⟩ := h
  cases m with
  | note a =>
      refine ⟨hsuspended, htier, hfresh, ?_⟩
      simp [SafetyMove.apply, hheld, Act.quiet_ne_commandAccepted a.2]
  | activity now => exact ⟨hsuspended, htier, hfresh, hheld⟩
  | accept seq => exact ⟨hsuspended, htier, rfl, by simp [SafetyMove.apply]⟩
  | arbitrate now asserted =>
      exact ⟨hsuspended, htier, hfresh, by simp [SafetyMove.apply, SafetyTask.poll, hheld]⟩
  | dispatch seq => exact ⟨hsuspended, htier, hfresh, by simp [SafetyMove.apply, hheld]⟩
  | trigger =>
      refine ⟨hsuspended, htier, hfresh, ?_⟩
      simp [SafetyMove.apply, SafetyTask.triggerExplicitEstop, hheld]
  | clear now =>
      refine ⟨hsuspended, htier, hfresh, ?_⟩
      simp [SafetyMove.apply, SafetyTask.clearExplicitEstop, hheld]
  | relay active => exact ⟨hsuspended, htier, hfresh, hheld⟩
  | order cmd => exact ⟨hsuspended, htier, hfresh, by simp [SafetyMove.apply, hheld]⟩
  | done i => exact ⟨hsuspended, htier, hfresh, by simp [SafetyMove.apply, hheld]⟩

/-- Without RTT samples an arbitration sees the latch, the deadman flag and the
goal. -/
theorem Unmeasured.inputs_eq {v : SafetyView} (h : v.Unmeasured) (now : Instant)
    (asserted : Bool) :
    (v.safety.poll now).inputs asserted =
      { estopLatched := (v.safety.poll now).isEstopped
        safeParkingRequested := false
        suspended := false
        resumeDwellExceeded := false
        teleopReady := v.safety.deadmanHeld
        autonomyGoalAsserted := asserted } := by
  simp [SafetyTask.inputs, SafetyTask.poll, SafetyStateMachine.isSuspended, h.suspended, h.tier,
    h.fresh]

/-- The ladder without RTT samples. -/
theorem Unmeasured.arbitrate_eq {v : SafetyView} (h : v.Unmeasured) (now : Instant)
    (asserted : Bool) :
    arbitrate ((v.safety.poll now).inputs asserted) =
      if (v.safety.poll now).isEstopped then .eStop
      else if v.safety.deadmanHeld then .fullTeleoperation
      else if asserted then .semiAutonomous
      else .activeImpedanceHold := by
  rw [h.inputs_eq]
  simp [arbitrate]

end SafetyView

namespace Session

theorem after_unmeasured (fb : FlatBuffers) (args : ServerArgs) (goal : AutonomyGoal)
    (t₀ : Instant) (es : List Event) : (after fb args goal t₀ es).view.Unmeasured :=
  after_view_inv fb args goal t₀ (.new args goal t₀) (fun _ m hv => hv.apply m) es

/-! ## Opening a session -/

end Session

/-- A Class D robot with topic forwarding, no camera and the default watchdog. -/
def sampleArgs : ServerArgs :=
  { taskClass := .d
    watchdogThresholdMs := 400
    describe := []
    forwarding := true
    cameraAttached := false
    bench := none }

namespace Session

/-- What an operator console announces. -/
def operatorCapabilities : HelloCapabilities :=
  { protocolVersion := { major := 1, minor := 0 }
    capabilityBitmask := topicForwarding
    supportedTaskClasses := 8
    supportedQuantizationTiers := 2
    maxControlRateHz := 50 }

/-- HELLO and SESSION_ACCEPT, both read whole. -/
def opening (fb : FlatBuffers) (args : ServerArgs) (sessionAccept : Bytes) (t : Instant) :
    List Event :=
  [.streamData 0 (encodeHello fb operatorCapabilities) (.const t) (.written args.describe.length),
    .streamData 1 sessionAccept (.const t) .done]

end Session

end RoboTele
