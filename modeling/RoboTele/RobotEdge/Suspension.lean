import RoboTele.Core.ResumeInterlock
import RoboTele.RobotEdge.Rest

/-!
# Suspension by the measured latency

Full Teleoperation is for a measured latency within tiers 0-3.  At tier 4 the
robot holds, until the resume interlock has completed.  `KeepsSuspended` is
that rule for a session, with quiche's path RTT given beside each event:
`monitor` is the state machine that the RTTs of the ticks would drive, and
while it is suspended no tick may be arbitrated to Full Teleoperation.

The session has an RTT at every tick and hands none of them to its safety task.
So what keeps a tick out of Full Teleoperation is only the E-Stop latch, or that
no command was accepted yet, and `keepsSuspended_iff` says the rule holds in the
runs in which one of these always happens to be the case.
-/

namespace RoboTele

open Runs Past

namespace Session

/-- An event with the RTT of quiche's path at that time, in milliseconds. -/
abbrev Measured := Event × ℚ

/-- The RTT of a tick, and the time of the tick. -/
def tickSample? (m : Measured) : Option (ℚ × Instant) :=
  match m.1 with
  | .tick clk _ => some (m.2, clk.read 0)
  | _ => none

/-- The tick is arbitrated to Full Teleoperation. -/
def teleopTick (s : Session) (e : Event) : Bool :=
  match e with
  | .tick clk _ => s.ended.isNone && decide (s.tickSource clk = .fullTeleoperation)
  | _ => false

/-- A tick that finds the E-Stop latched, the channel silent for the watchdog's
threshold, or no command accepted. -/
def BarredTick (s : Session) (e : Event) : Prop :=
  ∀ clk io, e = .tick clk io → s.ended = none →
    s.safety.isEstopped = true ∨
    s.safety.watchdog.thresholdMs ≤ s.safety.watchdog.blackoutMs (clk.read 0) ∨
    ∀ seq, Act.commandAccepted seq ∉ s.log

section

variable (fb : FlatBuffers) (args : ServerArgs) (goal : AutonomyGoal) (t₀ : Instant)

/-- The state machine driven by the RTTs of the ticks.  No message of a session
asks for a deadman reset. -/
def monitor (args : ServerArgs) (t₀ : Instant) (past : List Measured) : SafetyStateMachine :=
  .after args.taskClass t₀ ((past.filterMap tickSample?).map fun x => .rttSample x.1 x.2)

/-- The session after the events of a measured run. -/
def afterMeasured (past : List Measured) : Session :=
  after fb args goal t₀ (past.map Prod.fst)

/-- No tick is arbitrated to Full Teleoperation while its own RTT, or one before
it, suspends. -/
def KeepsSuspended (ms : List Measured) : Prop :=
  Always (fun past m => (monitor args t₀ (past ++ [m])).suspended = true →
    (afterMeasured fb args goal t₀ past).teleopTick m.1 = false) ms

/-- Every tick that the latencies suspend is barred for another reason. -/
def SuspendsWhileBarred (ms : List Measured) : Prop :=
  Always (fun past m => (∃ x ∈ (past ++ [m]).filterMap tickSample?,
      args.taskClass.thresholds.tier3Max ≤ x.1) →
    (afterMeasured fb args goal t₀ past).BarredTick m.1) ms

instance (ms : List Measured) : Decidable (KeepsSuspended fb args goal t₀ ms) :=
  inferInstanceAs (Decidable (Always _ _))

/-- The monitor is suspended from the first tick of tier 4 on. -/
theorem monitor_suspended_iff (past : List Measured) :
    (monitor args t₀ past).suspended = true ↔
      ∃ x ∈ past.filterMap tickSample?, args.taskClass.thresholds.tier3Max ≤ x.1 :=
  SafetyStateMachine.suspended_after_samples _ _ _

/-- In a run a tick is kept out of Full Teleoperation by the latch or by the
want of a command, and by nothing else. -/
theorem teleopTick_eq_false_iff (past : List Event) (e : Event) :
    (after fb args goal t₀ past).teleopTick e = false ↔
      (after fb args goal t₀ past).BarredTick e := by
  cases e with
  | tick clk io =>
      have hsource := tickSource_after fb args goal t₀ past clk
      have hheld : (after fb args goal t₀ past).safety.deadmanHeld = false ↔
          ∀ seq, Act.commandAccepted seq ∉ (after fb args goal t₀ past).log := by
        rw [← Bool.not_eq_true, ← not_exists]
        exact not_congr (after_unmeasured fb args goal t₀ past).held
      have hpoll := (after fb args goal t₀ past).safety.poll_isEstopped (clk.read 0)
      generalize after fb args goal t₀ past = s at *
      have hbarred : s.tickSource clk ≠ .fullTeleoperation ↔
          s.safety.isEstopped = true ∨
            s.safety.watchdog.thresholdMs ≤ s.safety.watchdog.blackoutMs (clk.read 0) ∨
            ∀ seq, Act.commandAccepted seq ∉ s.log := by
        rw [← or_assoc, ← hpoll, ← hheld, hsource]
        dsimp only
        generalize (s.safety.poll (clk.read 0)).isEstopped = stopped
        generalize s.safety.deadmanHeld = held
        generalize s.autonomyGoal.asserted (clk.read 1) = asserted
        cases stopped <;> cases held <;> cases asserted <;> simp
      simp only [teleopTick, BarredTick, Bool.and_eq_false_iff, decide_eq_false_iff_not, hbarred]
      constructor
      · rintro (hended | h) clk' io' heq hrunning
        · simp [hrunning] at hended
        · cases heq
          exact h
      · intro h
        cases hended : s.ended with
        | some exit => exact Or.inl rfl
        | none => exact Or.inr (h clk io rfl hended)
  | _ => simp [teleopTick, BarredTick]

/-- The measured latency keeps a run out of Full Teleoperation exactly if every
tick that it suspends is barred anyway. -/
theorem keepsSuspended_iff (ms : List Measured) :
    KeepsSuspended fb args goal t₀ ms ↔ SuspendsWhileBarred fb args goal t₀ ms := by
  apply always_congr
  intro past m post _
  rw [monitor_suspended_iff, afterMeasured, teleopTick_eq_false_iff]

end

/-- A Class D operator drives on a path of 600 ms. -/
def slowPathRun : List Measured :=
  let io : TickIo := { established := true, estopStreamOk := true, captureUs := 0 }
  let es : List Event := opening .fixedLayout sampleArgs [] 0 ++
    [.datagram (commandDatagram .fixedLayout 0 1 (.forward 10)) (.const 0),
      .tick (.const (fromMillis 20)) io]
  es.map fun e => (e, 600)

/-- No RTT is measured, so the slow path is driven on. -/
theorem not_keepsSuspended_slowPath :
    ¬ KeepsSuspended .fixedLayout sampleArgs (.new 0) 0 slowPathRun := by
  decide +kernel

end Session

end RoboTele
