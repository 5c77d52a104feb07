import RoboTele.Core.Double

/-!
# Tiers, state machine, watchdog and arbitration ladder

The four modules of `roboprotocol-core::safety`.

* `tierForLatency` maps an RTT sample to a tier 0-4 under a task class.
* `SafetyStateMachine` is driven by RTT samples.  Tier 4 suspends, and only a
  deadman reset together with a window of low latency resumes.
* `Watchdog` is polled.  It trips on the first poll that finds the last
  heartbeat too old, and stays tripped until it is cleared.
* `arbitrate` picks one control source, top down.
-/

namespace RoboTele

/-! ## Tiers -/

/-- The task classes a session can run under. -/
inductive TaskClass where
  | b
  | c
  | d
  | e
deriving DecidableEq

/-- Upper bounds of tiers 0-3 in milliseconds.  At or above `tier3Max` is
tier 4. -/
structure TierThresholdsMs where
  tier0Max : ℚ
  tier1Max : ℚ
  tier2Max : ℚ
  tier3Max : ℚ

/-- The tiers of a task class. -/
def TaskClass.thresholds : TaskClass → TierThresholdsMs
  | .b => { tier0Max := 40, tier1Max := 80, tier2Max := 120, tier3Max := 150 }
  | .c => { tier0Max := 80, tier1Max := 150, tier2Max := 220, tier3Max := 300 }
  | .d => { tier0Max := 100, tier1Max := 250, tier2Max := 400, tier3Max := 500 }
  | .e => { tier0Max := 200, tier1Max := 400, tier2Max := 700, tier3Max := 1000 }

/-- Heartbeat silence that trips the watchdog, in milliseconds. -/
def TaskClass.watchdogBlackoutMs : TaskClass → ℚ
  | .b => 200
  | .c => 300
  | .d => 400
  | .e => 500

/-- Rounding takes no task class's silence to its threshold or away from it. -/
theorem TaskClass.watchdogBlackoutMs_le_silenceMs_iff (taskClass : TaskClass) (nanos : Nat) :
    taskClass.watchdogBlackoutMs ≤ silenceMs nanos ↔
      taskClass.watchdogBlackoutMs ≤ asSecs nanos * 1000 := by
  have hexact (ms : Nat) (hms : fromMillis ms < 2 ^ 49)
      (hreached : ms ≤ silenceMs (fromMillis ms)) :
      ms ≤ silenceMs nanos ↔ ms ≤ asSecs nanos * 1000 := by
    have hself : asSecs (fromMillis ms) * 1000 = ms := asSecs_fromMillis ms
    rw [← hself, le_silenceMs_iff hms (hself.trans_le hreached),
      mul_le_mul_iff_left₀ (by norm_num), asSecs_le_asSecs]
  cases taskClass with
  | b => exact hexact 200 (by decide) (by decide +kernel)
  | c => exact hexact 300 (by decide) (by decide +kernel)
  | d => exact hexact 400 (by decide) (by decide +kernel)
  | e => exact hexact 500 (by decide) (by decide +kernel)

/-- A resume takes samples that are this much below tier 1. -/
def resumeHysteresisMs : ℚ := 20

/-- And it takes them for this long. -/
def resumeStabilityWindowS : ℚ := 2

/-- The tier of a round-trip time. -/
def tierForLatency (taskClass : TaskClass) (latencyMs : ℚ) : Nat :=
  let th := taskClass.thresholds
  if latencyMs < th.tier0Max then 0
  else if latencyMs < th.tier1Max then 1
  else if latencyMs < th.tier2Max then 2
  else if latencyMs < th.tier3Max then 3
  else 4

/-! ## The state machine -/

/-- What caused a transition. -/
inductive TransitionTrigger where
  | init
  | latency
  | resume
deriving DecidableEq

/-- A change of the tier, for the log. -/
structure TierTransition where
  time : Instant
  oldTier : Nat
  newTier : Nat
  trigger : TransitionTrigger
deriving DecidableEq

/-- The tiers 0 to 4 by the round-trip time, and what a resume waits for. -/
structure SafetyStateMachine where
  taskClass : TaskClass
  tier : Nat
  suspended : Bool
  deadmanResetRequested : Bool
  stableSince : Option Instant
  transitions : List TierTransition

namespace SafetyStateMachine

/-- The machine at its start. -/
def new (taskClass : TaskClass) (now : Instant) : SafetyStateMachine :=
  { taskClass, tier := 0, suspended := false, deadmanResetRequested := false,
    stableSince := none,
    transitions := [{ time := now, oldTier := 0, newTier := 0, trigger := .init }] }

/-- Teleoperation is suspended. -/
def isSuspended (m : SafetyStateMachine) : Bool := m.suspended

/-- The operator has reset the deadman switch. -/
def requestDeadmanReset (m : SafetyStateMachine) : SafetyStateMachine :=
  { m with deadmanResetRequested := true }

/-- Change the tier, and note it. -/
def transition (m : SafetyStateMachine) (newTier : Nat) (trigger : TransitionTrigger)
    (now : Instant) : SafetyStateMachine :=
  { m with
    tier := newTier
    transitions := m.transitions ++ [{ time := now, oldTier := m.tier, newTier, trigger }] }

/-- A sample during a suspension: it breaks the window, goes on with it, or ends the suspension. -/
def evaluateResume (m : SafetyStateMachine) (rttMs : ℚ) (now : Instant) : SafetyStateMachine :=
  let resumeCeiling := m.taskClass.thresholds.tier0Max - resumeHysteresisMs
  if rttMs ≥ resumeCeiling then { m with stableSince := none }
  else
    let stableSince := m.stableSince.getD now
    let m := { m with stableSince := some stableSince }
    let stableFor := asSecs (now.durationSince stableSince)
    if stableFor ≥ resumeStabilityWindowS ∧ m.deadmanResetRequested then
      { m with suspended := false, deadmanResetRequested := false, stableSince := none }.transition
        0 .resume now
    else m

/-- A sample is a number: a duration that was measured, never NaN. -/
def onRttSample (m : SafetyStateMachine) (rttMs : ℚ) (now : Instant) : SafetyStateMachine :=
  if m.suspended then m.evaluateResume rttMs now
  else
    let newTier := tierForLatency m.taskClass rttMs
    let m := if newTier ≠ m.tier then m.transition newTier .latency now else m
    if newTier = 4 then { m with suspended := true, stableSince := none } else m

end SafetyStateMachine

/-! ## The watchdog -/

/-- When the watchdog tripped, and after how long a silence. -/
structure WatchdogTrigger where
  time : Instant
  blackoutMs : ℚ
deriving DecidableEq

/-- A watchdog that trips when a check finds too long a silence. -/
structure Watchdog where
  thresholdMs : ℚ
  lastHeartbeat : Instant
  triggered : Bool
  triggerEvents : List WatchdogTrigger

namespace Watchdog

/-- A watchdog with another threshold than its class's. -/
def withThresholdMs (thresholdMs : ℚ) (now : Instant) : Watchdog :=
  { thresholdMs, lastHeartbeat := now, triggered := false, triggerEvents := [] }

/-- The watchdog has tripped. -/
def isTriggered (w : Watchdog) : Bool := w.triggered

/-- Something was heard, and a trip stays. -/
def heartbeat (w : Watchdog) (now : Instant) : Watchdog := { w with lastHeartbeat := now }

/-- Silence since the last heartbeat in milliseconds, as it is rounded. -/
def blackoutMs (w : Watchdog) (now : Instant) : ℚ :=
  silenceMs (now.durationSince w.lastHeartbeat)

/-- One poll.  The flag is true on the poll that trips the watchdog. -/
def check (w : Watchdog) (now : Instant) : Watchdog × Bool :=
  if w.triggered then (w, false)
  else if w.blackoutMs now ≥ w.thresholdMs then
    ({ w with
       triggered := true
       triggerEvents := w.triggerEvents ++ [{ time := now, blackoutMs := w.blackoutMs now }] },
     true)
  else (w, false)

/-- A trip is over, and the silence begins anew. -/
def clear (w : Watchdog) (now : Instant) : Watchdog :=
  { w with triggered := false, lastHeartbeat := now }

@[simp] theorem heartbeat_triggered (w : Watchdog) (now : Instant) :
    (w.heartbeat now).triggered = w.triggered := rfl

@[simp] theorem heartbeat_lastHeartbeat (w : Watchdog) (now : Instant) :
    (w.heartbeat now).lastHeartbeat = now := rfl

@[simp] theorem heartbeat_thresholdMs (w : Watchdog) (now : Instant) :
    (w.heartbeat now).thresholdMs = w.thresholdMs := rfl

@[simp] theorem clear_triggered (w : Watchdog) (now : Instant) :
    (w.clear now).triggered = false := rfl

@[simp] theorem clear_lastHeartbeat (w : Watchdog) (now : Instant) :
    (w.clear now).lastHeartbeat = now := rfl

@[simp] theorem clear_thresholdMs (w : Watchdog) (now : Instant) :
    (w.clear now).thresholdMs = w.thresholdMs := rfl

@[simp] theorem check_lastHeartbeat (w : Watchdog) (now : Instant) :
    (w.check now).1.lastHeartbeat = w.lastHeartbeat := by
  rw [check]
  split_ifs <;> rfl

@[simp] theorem check_thresholdMs (w : Watchdog) (now : Instant) :
    (w.check now).1.thresholdMs = w.thresholdMs := by
  rw [check]
  split_ifs <;> rfl

/-- A poll leaves the watchdog triggered exactly if it was, or the silence has
reached the threshold. -/
@[simp] theorem check_triggered (w : Watchdog) (now : Instant) :
    (w.check now).1.triggered = true ↔ w.triggered = true ∨ w.thresholdMs ≤ w.blackoutMs now := by
  rw [check]
  split_ifs with h1 h2
  · simp [h1]
  · simp only [ge_iff_le] at h2
    simp [h2]
  · simp only [ge_iff_le, not_le] at h2
    simp [h1, h2]

end Watchdog

/-! ## The arbitration ladder -/

/-- Who drives the robot. -/
inductive ControlSource where
  | eStop
  | emergencySafeParking
  | activeImpedanceHold
  | fullTeleoperation
  | semiAutonomous
deriving DecidableEq

/-- All that arbitration looks at. -/
structure ArbitrationInputs where
  estopLatched : Bool
  safeParkingRequested : Bool
  suspended : Bool
  resumeDwellExceeded : Bool
  teleopReady : Bool
  autonomyGoalAsserted : Bool
deriving DecidableEq

/-- The first in the order of precedence that applies. -/
def arbitrate (inputs : ArbitrationInputs) : ControlSource :=
  if inputs.estopLatched then .eStop
  else if inputs.safeParkingRequested || (inputs.suspended && inputs.resumeDwellExceeded) then
    .emergencySafeParking
  else if inputs.suspended then .activeImpedanceHold
  else if inputs.teleopReady then .fullTeleoperation
  else if inputs.autonomyGoalAsserted then .semiAutonomous
  else .activeImpedanceHold

@[simp] theorem arbitrate_eq_eStop (i : ArbitrationInputs) :
    arbitrate i = .eStop ↔ i.estopLatched = true := by
  rw [arbitrate]
  split_ifs with h <;> simp_all

/-- A source that drives the robot is admitted only unlatched and unsuspended. -/
theorem not_latched_of_drives {i : ArbitrationInputs}
    (h : arbitrate i = .fullTeleoperation ∨ arbitrate i = .semiAutonomous) :
    i.estopLatched = false ∧ i.suspended = false := by
  unfold arbitrate at h
  split_ifs at h with h1 h2 h3 h4 h5 <;> simp_all

end RoboTele
