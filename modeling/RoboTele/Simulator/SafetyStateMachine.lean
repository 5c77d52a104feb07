import RoboTele.Core.Double
import RoboTele.Core.ResumeInterlock

/-!
# The simulator's safety state machine and its port

`roboprotocol-core::safety` is a port of the simulator's tiers and state machine.  The simulator
reads the time from its scheduler, as a double of seconds from zero, and subtracts two of these.
The port is told an instant with each sample, in whole nanoseconds, and an instant before the one
it compares with counts as that one.

In the first six days the doubles and their differences are wrong by less than half a nanosecond.
So the two see the same windows but for one that is over in the very nanosecond: from 0.3 s to
2.3 s the port sees two seconds and the simulator does not.  Where the clock of the simulator shows
two seconds between any two samples that come two seconds apart (`ClocksAgree`), both go through
the same states and the same transitions, also where times go back, and their tables are the same
(`safetyStateMachine_ports`).  `start` is the simulator's zero on the monotonic clock, and the
simulator's clock shows the double nearest to the time since then.
-/

namespace RoboTele.Sim

open RoboTele.SafetyStateMachine (Input)

/-- `TASK_CLASS_THRESHOLDS`. -/
def taskClassThresholds : TaskClass → TierThresholdsMs
  | .b => { tier0Max := 40, tier1Max := 80, tier2Max := 120, tier3Max := 150 }
  | .c => { tier0Max := 80, tier1Max := 150, tier2Max := 220, tier3Max := 300 }
  | .d => { tier0Max := 100, tier1Max := 250, tier2Max := 400, tier3Max := 500 }
  | .e => { tier0Max := 200, tier1Max := 400, tier2Max := 700, tier3Max := 1000 }

/-- `WATCHDOG_BLACKOUT_MS`. -/
def watchdogBlackoutMs : TaskClass → ℚ
  | .b => 200
  | .c => 300
  | .d => 400
  | .e => 500

/-- `RESUME_HYSTERESIS_MS`. -/
def resumeHysteresisMs : ℚ := 20

/-- `RESUME_STABILITY_WINDOW_S`. -/
def resumeStabilityWindowS : ℚ := 2

/-- The tier of a round-trip time. -/
def tierForLatency (taskClass : TaskClass) (latencyMs : ℚ) : ℕ :=
  let th := taskClassThresholds taskClass
  if latencyMs < th.tier0Max then 0
  else if latencyMs < th.tier1Max then 1
  else if latencyMs < th.tier2Max then 2
  else if latencyMs < th.tier3Max then 3
  else 4

/-- A change of the tier, with the scheduler's time. -/
structure TierTransition where
  time : ℚ
  taskClass : TaskClass
  oldTier : ℕ
  newTier : ℕ
  trigger : TransitionTrigger
deriving DecidableEq

/-- The simulator's tiers 0 to 4, and what a resume waits for. -/
structure SafetyStateMachine where
  taskClass : TaskClass
  tier : ℕ
  suspended : Bool
  deadmanResetRequested : Bool
  stableSince : Option ℚ
  transitions : List TierTransition

namespace SafetyStateMachine

/-- A machine at the scheduler's zero. -/
def new (taskClass : TaskClass) : SafetyStateMachine where
  taskClass
  tier := 0
  suspended := false
  deadmanResetRequested := false
  stableSince := none
  transitions := [⟨0, taskClass, 0, 0, .init⟩]

/-- The operator has reset the deadman switch. -/
def requestDeadmanReset (m : SafetyStateMachine) : SafetyStateMachine :=
  { m with deadmanResetRequested := true }

/-- Change the tier, and note it. -/
def transition (m : SafetyStateMachine) (newTier : ℕ) (trigger : TransitionTrigger) (now : ℚ) :
    SafetyStateMachine :=
  { m with
    tier := newTier
    transitions := m.transitions ++ [⟨now, m.taskClass, m.tier, newTier, trigger⟩] }

/-- `_evaluate_resume`.  The subtraction is of two doubles. -/
def evaluateResume (m : SafetyStateMachine) (rttMs now : ℚ) : SafetyStateMachine :=
  let resumeCeiling := (taskClassThresholds m.taskClass).tier0Max - resumeHysteresisMs
  if rttMs ≥ resumeCeiling then { m with stableSince := none }
  else
    let stableSince := m.stableSince.getD now
    let m := { m with stableSince := some stableSince }
    let stableFor := toF64 (now - stableSince)
    if stableFor ≥ resumeStabilityWindowS ∧ m.deadmanResetRequested then
      { m with suspended := false, deadmanResetRequested := false, stableSince := none }.transition
        0 .resume now
    else m

/-- `on_rtt_sample`, when the scheduler's clock shows `now`. -/
def onRttSample (m : SafetyStateMachine) (rttMs now : ℚ) : SafetyStateMachine :=
  if m.suspended then m.evaluateResume rttMs now
  else
    let newTier := tierForLatency m.taskClass rttMs
    let m := if newTier ≠ m.tier then m.transition newTier .latency now else m
    if newTier = 4 then { m with suspended := true, stableSince := none } else m

end SafetyStateMachine

/-! ## The port -/

/-- What the simulator's clock shows at an instant. -/
def clockSecs (start now : Instant) : ℚ := toF64 (asSecs (now.durationSince start))

/-- From 0.3 s to 2.3 s the simulator counts less than two seconds. -/
example : toF64 (clockSecs 0 2300000000 - clockSecs 0 300000000) < resumeStabilityWindowS := by
  decide +kernel

/-- The time a sample comes at. -/
def time? : Input → Option Instant
  | .rttSample _ now => some now
  | .deadmanReset => none

/-- Samples come in the first six days of the clock, which shows the window between any two of
them that are exactly the window apart. -/
structure ClocksAgree (start : Instant) (times : List Instant) : Prop where
  started : ∀ now ∈ times, start ≤ now
  early : ∀ now ∈ times, now ≤ start + 2 ^ 19 * 1000000000
  window : ∀ since ∈ times, ∀ now ∈ times, now = since + 2 * 1000000000 →
    clockSecs start now = clockSecs start since + 2

/-- The two tables are the same. -/
theorem taskClassThresholds_eq (taskClass : TaskClass) :
    taskClassThresholds taskClass = taskClass.thresholds := by
  cases taskClass <;> rfl

theorem watchdogBlackoutMs_eq (taskClass : TaskClass) :
    watchdogBlackoutMs taskClass = taskClass.watchdogBlackoutMs := by
  cases taskClass <;> rfl

theorem tierForLatency_eq (taskClass : TaskClass) (latencyMs : ℚ) :
    tierForLatency taskClass latencyMs = RoboTele.tierForLatency taskClass latencyMs := by
  rw [tierForLatency, RoboTele.tierForLatency, taskClassThresholds_eq]

/-- What the two machines decide by. -/
structure TablesAgree (taskClass : TaskClass) : Prop where
  thresholds : taskClassThresholds taskClass = taskClass.thresholds
  blackout : watchdogBlackoutMs taskClass = taskClass.watchdogBlackoutMs
  hysteresis : resumeHysteresisMs = RoboTele.resumeHysteresisMs
  window : resumeStabilityWindowS = RoboTele.resumeStabilityWindowS

theorem tablesAgree (taskClass : TaskClass) : TablesAgree taskClass where
  thresholds := taskClassThresholds_eq taskClass
  blackout := watchdogBlackoutMs_eq taskClass
  hysteresis := rfl
  window := rfl

/-! ## The window -/

namespace ClocksAgree

variable {start now since : Instant} {times : List Instant}

theorem abs_clockSecs_sub_le (h : ClocksAgree start times) (hnow : now ∈ times) :
    |clockSecs start now - asSecs (now.durationSince start)| ≤ 1 / 2 ^ 33 ∧
      asSecs (now.durationSince start) ≤ 2 ^ 19 := by
  have hearly := h.early now hnow
  have hle : asSecs (now.durationSince start) ≤ 2 ^ 19 := by
    calc asSecs (now.durationSince start) ≤ asSecs (2 ^ 19 * 1000000000) := by
          exact asSecs_le_asSecs.mpr (Nat.sub_le_of_le_add (Nat.add_comm start _ ▸ hearly))
      _ = 2 ^ 19 := by norm_num [asSecs]
  have hpos : 0 ≤ asSecs (now.durationSince start) := by
    rw [asSecs]
    positivity
  refine ⟨abs_toF64_sub_le_of_abs_le ?_, hle⟩
  rw [abs_of_nonneg hpos]
  linarith

/-- The simulator has seen a window exactly when the port has, although the port takes a time that
is before its beginning for the beginning. -/
theorem window_iff (h : ClocksAgree start times) (hnow : now ∈ times) (hsince : since ∈ times) :
    toF64 (clockSecs start now - clockSecs start since) ≥ resumeStabilityWindowS ↔
      asSecs (now.durationSince since) ≥ RoboTele.resumeStabilityWindowS := by
  obtain ⟨hnowError, hnowLe⟩ := h.abs_clockSecs_sub_le hnow
  obtain ⟨hsinceError, hsinceLe⟩ := h.abs_clockSecs_sub_le hsince
  obtain ⟨hnowLo, hnowHi⟩ := abs_le.mp hnowError
  obtain ⟨hsinceLo, hsinceHi⟩ := abs_le.mp hsinceError
  have hnowStarted := h.started now hnow
  have hsinceStarted := h.started since hsince
  have hexact : clockSecs start now - clockSecs start since ≤ 2 ^ 20 ∧
      -2 ^ 20 ≤ clockSecs start now - clockSecs start since := by
    have hpos (t : Instant) : 0 ≤ asSecs (t.durationSince start) := by
      rw [asSecs]
      positivity
    have hnowPos := hpos now
    have hsincePos := hpos since
    constructor <;> linarith
  obtain ⟨hlo, hhi⟩ := abs_le.mp (abs_toF64_sub_le_of_abs_le (abs_le.mpr hexact.symm))
  have hport : asSecs (now.durationSince since) ≥ RoboTele.resumeStabilityWindowS ↔
      since + 2 * 1000000000 ≤ now := by
    have htwo : RoboTele.resumeStabilityWindowS = asSecs (2 * 1000000000) := by
      norm_num [asSecs, RoboTele.resumeStabilityWindowS]
    have hsub (a b k : Nat) (hk : 0 < k) : k ≤ a - b ↔ b + k ≤ a := by omega
    rw [ge_iff_le, htwo, asSecs_le_asSecs, Instant.durationSince]
    exact hsub now since _ (by decide)
  rw [hport, ge_iff_le, resumeStabilityWindowS]
  have hsecs (t : Instant) (ht : start ≤ t) :
      asSecs (t.durationSince start) = ((t : ℚ) - start) / 1000000000 := by
    rw [asSecs, Instant.durationSince, Nat.cast_sub ht]
  rw [hsecs now hnowStarted] at hnowLo hnowHi
  rw [hsecs since hsinceStarted] at hsinceLo hsinceHi
  rcases lt_trichotomy now (since + 2 * 1000000000) with hlt | heq | hgt
  · -- a nanosecond is more than the doubles are wrong by
    have hstep : (now : ℚ) + 1 ≤ since + 2 * 1000000000 := by exact_mod_cast hlt
    refine iff_of_false (not_le.mpr ?_) (not_le.mpr hlt)
    linarith
  · have hshown : clockSecs start now - clockSecs start since = 2 :=
      sub_eq_of_eq_add' (h.window since hsince now hnow heq)
    have htwo : toF64 2 = 2 := by decide +kernel
    rw [hshown, htwo]
    exact iff_of_true le_rfl heq.ge
  · have hstep : (since : ℚ) + 2 * 1000000000 + 1 ≤ now := by exact_mod_cast hgt
    refine iff_of_true ?_ hgt.le
    linarith

end ClocksAgree

/-! ## The same states -/

/-- The transition of the port as the simulator records it. -/
def ofPort (start : Instant) (taskClass : TaskClass) (t : RoboTele.TierTransition) :
    TierTransition :=
  ⟨clockSecs start t.time, taskClass, t.oldTier, t.newTier, t.trigger⟩

/-- Both machines are in the same state and have made the same transitions. -/
structure Ports (start : Instant) (m : SafetyStateMachine) (r : RoboTele.SafetyStateMachine) :
    Prop where
  taskClass : m.taskClass = r.taskClass
  tier : m.tier = r.tier
  suspended : m.suspended = r.suspended
  deadmanResetRequested : m.deadmanResetRequested = r.deadmanResetRequested
  stableSince : m.stableSince = r.stableSince.map (clockSecs start)
  transitions : m.transitions = r.transitions.map (ofPort start r.taskClass)

/-- The simulator's machine on an input of the port. -/
def SafetyStateMachine.step (start : Instant) (m : SafetyStateMachine) : Input → SafetyStateMachine
  | .deadmanReset => m.requestDeadmanReset
  | .rttSample rttMs now => m.onRttSample rttMs (clockSecs start now)

namespace Ports

variable {start now : Instant} {m : SafetyStateMachine} {r : RoboTele.SafetyStateMachine}
  {rttMs : ℚ} {times : List Instant}

theorem new (start : Instant) (taskClass : TaskClass) :
    Ports start (.new taskClass) (.new taskClass start) where
  taskClass := rfl
  tier := rfl
  suspended := rfl
  deadmanResetRequested := rfl
  stableSince := rfl
  transitions := by
    change [_] = [ofPort start taskClass ⟨start, 0, 0, .init⟩]
    have hzero : clockSecs start start = 0 := by
      rw [clockSecs, Instant.durationSince, Nat.sub_self]
      decide +kernel
    rw [ofPort, hzero]

theorem transition (h : Ports start m r) (newTier : ℕ) (trigger : TransitionTrigger) :
    Ports start (m.transition newTier trigger (clockSecs start now))
      (r.transition newTier trigger now) where
  taskClass := h.taskClass
  tier := rfl
  suspended := h.suspended
  deadmanResetRequested := h.deadmanResetRequested
  stableSince := h.stableSince
  transitions := by
    change m.transitions ++ [_] = (r.transitions ++ [_]).map (ofPort start r.taskClass)
    rw [List.map_append, h.transitions, h.taskClass, h.tier]
    rfl

theorem evaluateResume (h : Ports start m r) (hclocks : ClocksAgree start times)
    (hnow : now ∈ times) (hsince : ∀ since ∈ r.stableSince, since ∈ times) :
    Ports start (m.evaluateResume rttMs (clockSecs start now)) (r.evaluateResume rttMs now) := by
  have hceiling : (taskClassThresholds m.taskClass).tier0Max - resumeHysteresisMs =
      r.taskClass.thresholds.tier0Max - RoboTele.resumeHysteresisMs := by
    rw [taskClassThresholds_eq, h.taskClass]
    rfl
  have hget : m.stableSince.getD (clockSecs start now) =
      clockSecs start (r.stableSince.getD now) := by
    rw [h.stableSince, Option.getD_map]
  have hmem : r.stableSince.getD now ∈ times := by
    cases hcase : r.stableSince with
    | none => exact hnow
    | some since => exact hsince since hcase
  have hwindow := hclocks.window_iff hnow hmem
  rw [SafetyStateMachine.evaluateResume, RoboTele.SafetyStateMachine.evaluateResume, hceiling,
    hget]
  split
  · exact { h with stableSince := rfl }
  · dsimp only
    split
    · next hresumes =>
        rw [if_pos ⟨hwindow.mp hresumes.1, h.deadmanResetRequested ▸ hresumes.2⟩]
        refine transition ?_ 0 .resume
        exact { h with suspended := rfl, deadmanResetRequested := rfl, stableSince := rfl }
    · next hstays =>
        rw [if_neg fun hport => hstays
          ⟨hwindow.mpr hport.1, h.deadmanResetRequested.trans hport.2⟩]
        exact { h with stableSince := rfl }

theorem onRttSample (h : Ports start m r) (hclocks : ClocksAgree start times) (hnow : now ∈ times)
    (hsince : ∀ since ∈ r.stableSince, since ∈ times) :
    Ports start (m.onRttSample rttMs (clockSecs start now)) (r.onRttSample rttMs now) := by
  rw [SafetyStateMachine.onRttSample, RoboTele.SafetyStateMachine.onRttSample, h.suspended]
  split
  · exact h.evaluateResume hclocks hnow hsince
  · have hmoved : Ports start
        (if tierForLatency m.taskClass rttMs ≠ m.tier then
          m.transition (tierForLatency m.taskClass rttMs) .latency (clockSecs start now) else m)
        (if RoboTele.tierForLatency r.taskClass rttMs ≠ r.tier then
          r.transition (RoboTele.tierForLatency r.taskClass rttMs) .latency now else r) := by
      rw [tierForLatency_eq, h.taskClass, h.tier]
      split
      · exact h.transition _ _
      · exact h
    dsimp only
    rw [tierForLatency_eq, h.taskClass] at hmoved ⊢
    split
    · exact { hmoved with suspended := rfl, stableSince := rfl }
    · exact hmoved

theorem step (h : Ports start m r) (hclocks : ClocksAgree start times) {i : Input}
    (hi : ∀ now ∈ time? i, now ∈ times) (hsince : ∀ since ∈ r.stableSince, since ∈ times) :
    Ports start (SafetyStateMachine.step start m i) (r.step i) := by
  cases i with
  | deadmanReset => exact { h with deadmanResetRequested := rfl }
  | rttSample rttMs now => exact h.onRttSample hclocks (hi now rfl) hsince

/-- A window begins with a sample. -/
theorem stableSince_step (r : RoboTele.SafetyStateMachine) (i : Input) :
    ∀ since ∈ (r.step i).stableSince, since ∈ r.stableSince ∨ since ∈ time? i := by
  intro since hsince
  cases i with
  | deadmanReset => exact .inl hsince
  | rttSample rttMs now =>
      change since ∈ (r.onRttSample rttMs now).stableSince at hsince
      rw [RoboTele.SafetyStateMachine.onRttSample] at hsince
      split at hsince
      · rw [RoboTele.SafetyStateMachine.evaluateResume] at hsince
        split at hsince
        · cases hsince
        · dsimp only at hsince
          split at hsince
          · cases hsince
          · obtain rfl := Option.some.inj hsince
            cases hcase : r.stableSince with
            | none => exact .inr rfl
            | some since => exact .inl rfl
      · dsimp only at hsince
        split at hsince
        · cases hsince
        · split at hsince <;> exact .inl hsince

theorem exec (hclocks : ClocksAgree start times) :
    ∀ {m : SafetyStateMachine} {r : RoboTele.SafetyStateMachine} (inputs : List Input),
      (∀ i ∈ inputs, ∀ now ∈ time? i, now ∈ times) → (∀ since ∈ r.stableSince, since ∈ times) →
      Ports start m r →
      Ports start (Runs.exec (SafetyStateMachine.step start) m inputs)
        (Runs.exec RoboTele.SafetyStateMachine.step r inputs)
  | _, _, [], _, _, h => h
  | _, r, i :: inputs, hmem, hsince, h => by
      have hi := hmem i List.mem_cons_self
      refine exec hclocks inputs (fun j hj => hmem j (List.mem_cons_of_mem _ hj)) ?_
        (h.step hclocks hi hsince)
      intro since hin
      exact (stableSince_step r i since hin).elim (hsince since) (hi since)

end Ports

/-- The simulator's machine and its port decide by the same tables, and on any inputs whose times
both clocks show alike they go through the same states. -/
theorem safetyStateMachine_ports (taskClass : TaskClass) (start : Instant) (inputs : List Input)
    (hclocks : ClocksAgree start (inputs.filterMap time?)) :
    TablesAgree taskClass ∧
      Ports start (Runs.exec (SafetyStateMachine.step start) (.new taskClass) inputs)
        (RoboTele.SafetyStateMachine.after taskClass start inputs) := by
  refine ⟨tablesAgree taskClass, (Ports.new start taskClass).exec hclocks inputs ?_ ?_⟩
  · intro i hi now hnow
    exact List.mem_filterMap.mpr ⟨i, hi, hnow⟩
  · intro since hsince
    cases hsince

/-- A suspension of a session of class D that ends two seconds after its first good sample. -/
theorem safetyStateMachine_ports_resume :
    TablesAgree .d ∧
      Ports 0
        (Runs.exec (SafetyStateMachine.step 0) (.new .d)
          [.rttSample 600 100000000, .deadmanReset, .rttSample 10 500000000,
            .rttSample 10 2500000000])
        (RoboTele.SafetyStateMachine.after .d 0
          [.rttSample 600 100000000, .deadmanReset, .rttSample 10 500000000,
            .rttSample 10 2500000000]) :=
  safetyStateMachine_ports .d 0 _
    { started := by decide
      early := by decide
      window := by decide +kernel }

end RoboTele.Sim
