import RoboTele.Core.Safety

/-!
# The safety task

`robot-edge`'s `SafetyTask` joins the state machine, the watchdog and the
arbitration ladder into one decision per tick.  Its E-Stop latch has two
sources: an explicit flag, and the watchdog.  `inputs` is the record `tick`
hands to `arbitrate`, read after the watchdog was polled.
-/

namespace RoboTele

/-- The state machine and the watchdog of a session, and the operator's own latch and flags. -/
structure SafetyTask where
  stateMachine : SafetyStateMachine
  watchdog : Watchdog
  explicitEstop : Bool
  deadmanHeld : Bool
  commandFresh : Bool

namespace SafetyTask

/-- A task whose watchdog has a threshold of its own. -/
def withWatchdogThresholdMs (taskClass : TaskClass) (watchdogThresholdMs : ℚ) (now : Instant) :
    SafetyTask :=
  { stateMachine := .new taskClass now
    watchdog := .withThresholdMs watchdogThresholdMs now
    explicitEstop := false
    deadmanHeld := false
    commandFresh := false }

/-- A task with the thresholds of its class. -/
def new (taskClass : TaskClass) (now : Instant) : SafetyTask :=
  withWatchdogThresholdMs taskClass taskClass.watchdogBlackoutMs now

/-- Feeds the watchdog, and the state machine if there is an RTT sample. -/
def onChannelBActivity (t : SafetyTask) (rttMs : Option ℚ) (now : Instant) : SafetyTask :=
  let t := { t with watchdog := t.watchdog.heartbeat now }
  match rttMs with
  | some rtt => { t with stateMachine := t.stateMachine.onRttSample rtt now }
  | none => t

/-- The operator's stop. -/
def triggerExplicitEstop (t : SafetyTask) : SafetyTask := { t with explicitEstop := true }

/-- The operator's release, which clears the watchdog too. -/
def clearExplicitEstop (t : SafetyTask) (now : Instant) : SafetyTask :=
  { t with explicitEstop := false, watchdog := t.watchdog.clear now }

/-- Either latch is set. -/
def isEstopped (t : SafetyTask) : Bool := t.explicitEstop || t.watchdog.isTriggered

/-- What `tick` hands to `arbitrate`.  Parking requests and the resume dwell
are not wired up and are always false. -/
def inputs (t : SafetyTask) (autonomyGoalAsserted : Bool) : ArbitrationInputs :=
  { estopLatched := t.isEstopped
    safeParkingRequested := false
    suspended := t.stateMachine.isSuspended
    resumeDwellExceeded := false
    teleopReady := t.deadmanHeld && t.commandFresh && !t.stateMachine.isSuspended
      && decide (t.stateMachine.tier ≤ 3)
    autonomyGoalAsserted }

/-- The task after `tick` has polled the watchdog. -/
def poll (t : SafetyTask) (now : Instant) : SafetyTask :=
  { t with watchdog := (t.watchdog.check now).1 }

/-- Check the watchdog and arbitrate. -/
def tick (t : SafetyTask) (now : Instant) (autonomyGoalAsserted : Bool) :
    SafetyTask × ControlSource :=
  let t := t.poll now
  (t, arbitrate (t.inputs autonomyGoalAsserted))

/-! ## What each operation does to the latch -/

@[simp] theorem isEstopped_iff (t : SafetyTask) :
    t.isEstopped = true ↔ t.explicitEstop = true ∨ t.watchdog.triggered = true := by
  simp [isEstopped, Watchdog.isTriggered]

@[simp] theorem onChannelBActivity_explicitEstop (t : SafetyTask) (rtt : Option ℚ)
    (now : Instant) : (t.onChannelBActivity rtt now).explicitEstop = t.explicitEstop := by
  cases rtt <;> rfl

@[simp] theorem onChannelBActivity_watchdog (t : SafetyTask) (rtt : Option ℚ) (now : Instant) :
    (t.onChannelBActivity rtt now).watchdog = t.watchdog.heartbeat now := by
  cases rtt <;> rfl

@[simp] theorem onChannelBActivity_deadmanHeld (t : SafetyTask) (rtt : Option ℚ)
    (now : Instant) : (t.onChannelBActivity rtt now).deadmanHeld = t.deadmanHeld := by
  cases rtt <;> rfl

@[simp] theorem onChannelBActivity_commandFresh (t : SafetyTask) (rtt : Option ℚ)
    (now : Instant) : (t.onChannelBActivity rtt now).commandFresh = t.commandFresh := by
  cases rtt <;> rfl

@[simp] theorem onChannelBActivity_none_stateMachine (t : SafetyTask) (now : Instant) :
    (t.onChannelBActivity none now).stateMachine = t.stateMachine := rfl

/-- Activity moves the watchdog's clock and never the latch. -/
@[simp] theorem onChannelBActivity_isEstopped (t : SafetyTask) (rtt : Option ℚ) (now : Instant) :
    (t.onChannelBActivity rtt now).isEstopped = t.isEstopped := by
  cases rtt <;> rfl

@[simp] theorem triggerExplicitEstop_isEstopped (t : SafetyTask) :
    t.triggerExplicitEstop.isEstopped = true := by
  simp [triggerExplicitEstop]

@[simp] theorem clearExplicitEstop_isEstopped (t : SafetyTask) (now : Instant) :
    (t.clearExplicitEstop now).isEstopped = false := by
  simp [clearExplicitEstop, isEstopped, Watchdog.isTriggered]

/-- A poll latches on a blackout and keeps what was latched. -/
theorem poll_isEstopped (t : SafetyTask) (now : Instant) :
    (t.poll now).isEstopped = true ↔
      t.isEstopped = true ∨ t.watchdog.thresholdMs ≤ t.watchdog.blackoutMs now := by
  simp [poll, or_assoc]

@[simp] theorem tick_fst (t : SafetyTask) (now : Instant) (asserted : Bool) :
    (t.tick now asserted).1 = t.poll now := rfl

theorem tick_snd (t : SafetyTask) (now : Instant) (asserted : Bool) :
    (t.tick now asserted).2 = arbitrate ((t.poll now).inputs asserted) := rfl

end SafetyTask

end RoboTele
