import RoboTele.RobotEdge.SafetyTask
import RoboTele.Runs.Machine
import RoboTele.Runs.Past

/-!
# What the safety task's latch remembers

The operations on a `SafetyTask` as a list, oldest first.  The latch is a
function of that history.  Each of its two sources is a "since": the explicit
flag says a trigger came since the last clear, the watchdog says a tick came
since the last clear that found the silence too long (`BlackoutTick`).

The silence is in the watchdog's own milliseconds, which are rounded
(`MeasuredAtLeast`).  For the threshold of a task class they are as good as
the silence itself (`AtLeast`).

The watchdog keeps one instant, the time of the newest heartbeat or clear.  In
a history whose times never decrease that instant is the latest of them
(`lastRestart`), which is what lets a statement about times be a statement
about the watchdog's field.
-/

namespace RoboTele

open Runs Past

/-- An operation on a `SafetyTask`. -/
inductive SafetyOp where
  | activity (rttMs : Option ℚ) (now : Instant)
  | triggerEstop
  | clearEstop (now : Instant)
  | tick (now : Instant) (autonomyGoalAsserted : Bool)
  | setDeadmanHeld (held : Bool)
  | setCommandFresh (fresh : Bool)
deriving DecidableEq

namespace SafetyOp

/-- An operation on the task. -/
def apply (t : SafetyTask) : SafetyOp → SafetyTask
  | activity rttMs now => t.onChannelBActivity rttMs now
  | triggerEstop => t.triggerExplicitEstop
  | clearEstop now => t.clearExplicitEstop now
  | tick now asserted => (t.tick now asserted).1
  | setDeadmanHeld held => { t with deadmanHeld := held }
  | setCommandFresh fresh => { t with commandFresh := fresh }

/-- The time of an operation, if it reads the clock. -/
def time? : SafetyOp → Option Instant
  | activity _ now => some now
  | clearEstop now => some now
  | tick now _ => some now
  | _ => none

/-- The time at which an operation restarts the watchdog's clock. -/
def restart? : SafetyOp → Option Instant
  | activity _ now => some now
  | clearEstop now => some now
  | _ => none

end SafetyOp

/-- Times never decrease, from the construction at `t₀` on. -/
def Chronological (t₀ : Instant) (ops : List SafetyOp) : Prop :=
  (t₀ :: ops.filterMap SafetyOp.time?).Pairwise (· ≤ ·)

instance (t₀ : Instant) (ops : List SafetyOp) : Decidable (Chronological t₀ ops) :=
  inferInstanceAs (Decidable (List.Pairwise _ _))

/-- The latest of the construction, the last activity and the last clear. -/
def lastRestart (t₀ : Instant) (ops : List SafetyOp) : Instant :=
  (ops.filterMap SafetyOp.restart?).foldl max t₀

/-- The silence is at least the threshold. -/
def AtLeast (thresholdMs : ℚ) (silence : Nat) : Prop := thresholdMs ≤ asSecs silence * 1000

/-- The silence is at least the threshold in the watchdog's rounded milliseconds. -/
def MeasuredAtLeast (thresholdMs : ℚ) (silence : Nat) : Prop := thresholdMs ≤ silenceMs silence

/-- A tick that finds a long silence since the latest restart before it. -/
def BlackoutTick (long : Nat → Prop) (t₀ : Instant) (past : List SafetyOp) (op : SafetyOp) :
    Prop :=
  ∃ now asserted, op = .tick now asserted ∧ long (now.durationSince (lastRestart t₀ past))

/-- The operation is an explicit clear. -/
def IsClear (op : SafetyOp) : Prop := ∃ now, op = .clearEstop now

/-- The history holds an explicit trigger or a blackout tick that no clear
followed. -/
def LatchedByHistory (long : Nat → Prop) (t₀ : Instant) (ops : List SafetyOp) : Prop :=
  Since (fun past op => op = .triggerEstop ∨ BlackoutTick long t₀ past op) IsClear ops

/-- The task after a list of operations. -/
def SafetyTask.after (taskClass : TaskClass) (thresholdMs : ℚ) (t₀ : Instant)
    (ops : List SafetyOp) : SafetyTask :=
  exec SafetyOp.apply (.withWatchdogThresholdMs taskClass thresholdMs t₀) ops

/-! ## Times -/

theorem Chronological.of_concat {t₀ : Instant} {ops : List SafetyOp} {op : SafetyOp}
    (h : Chronological t₀ (ops ++ [op])) : Chronological t₀ ops := by
  unfold Chronological at h ⊢
  rw [List.filterMap_append, ← List.cons_append] at h
  exact (List.pairwise_append.mp h).1

/-- A restart is a reading of the clock. -/
theorem restart_sublist_time (ops : List SafetyOp) :
    (ops.filterMap SafetyOp.restart?).Sublist (ops.filterMap SafetyOp.time?) := by
  induction ops with
  | nil => exact .slnil
  | cons op ops ih =>
      cases op with
      | activity _ now => exact ih.cons_cons now
      | clearEstop now => exact ih.cons_cons now
      | tick now _ => exact ih.cons now
      | triggerEstop => exact ih
      | setDeadmanHeld _ => exact ih
      | setCommandFresh _ => exact ih

theorem foldl_max_le {t₀ t : Instant} {l : List Instant} (h₀ : t₀ ≤ t) (hl : ∀ x ∈ l, x ≤ t) :
    l.foldl max t₀ ≤ t := by
  induction l generalizing t₀ with
  | nil => exact h₀
  | cons x l ih =>
      exact ih (max_le h₀ (hl x (List.mem_cons_self ..))) fun y hy =>
        hl y (List.mem_cons_of_mem _ hy)

/-- An operation of a chronological history is no earlier than any restart
before it. -/
theorem lastRestart_le {t₀ : Instant} {ops : List SafetyOp} {op : SafetyOp}
    (h : Chronological t₀ (ops ++ [op])) {now : Instant} (hnow : op.time? = some now) :
    lastRestart t₀ ops ≤ now := by
  unfold Chronological at h
  rw [List.filterMap_append, ← List.cons_append] at h
  have hlast := (List.pairwise_append.mp h).2.2
  have hmem : now ∈ List.filterMap SafetyOp.time? [op] := by simp [hnow]
  apply foldl_max_le (hlast t₀ (List.mem_cons_self ..) now hmem)
  intro x hx
  exact hlast x (List.mem_cons_of_mem _ ((restart_sublist_time ops).subset hx)) now hmem

theorem lastRestart_concat (t₀ : Instant) (ops : List SafetyOp) (op : SafetyOp) :
    lastRestart t₀ (ops ++ [op]) =
      (op.restart?).elim (lastRestart t₀ ops) (max (lastRestart t₀ ops)) := by
  cases hop : op.restart? <;> simp [lastRestart, List.filterMap_append, hop]

/-! ## The invariant of a history -/

/-- What a task's fields say about the history behind it. -/
structure Remembers (thresholdMs : ℚ) (t₀ : Instant) (ops : List SafetyOp) (t : SafetyTask) :
    Prop where
  threshold : t.watchdog.thresholdMs = thresholdMs
  heartbeat : t.watchdog.lastHeartbeat = lastRestart t₀ ops
  explicit : t.explicitEstop = true ↔ Since (fun _ op => op = .triggerEstop) IsClear ops
  triggered : t.watchdog.triggered = true ↔
    Since (BlackoutTick (MeasuredAtLeast thresholdMs) t₀) IsClear ops

theorem Remembers.init (taskClass : TaskClass) (thresholdMs : ℚ) (t₀ : Instant) :
    Remembers thresholdMs t₀ [] (.withWatchdogThresholdMs taskClass thresholdMs t₀) where
  threshold := rfl
  heartbeat := rfl
  explicit := by simp [SafetyTask.withWatchdogThresholdMs]
  triggered := by simp [SafetyTask.withWatchdogThresholdMs, Watchdog.withThresholdMs]

/-- An operation that is no tick is no blackout tick. -/
theorem not_blackoutTick {long : Nat → Prop} {t₀ : Instant} {past : List SafetyOp}
    {op : SafetyOp} (h : ∀ now asserted, op ≠ .tick now asserted) :
    ¬ BlackoutTick long t₀ past op := by
  rintro ⟨now, asserted, rfl, -⟩
  exact h now asserted rfl

/-- Each operation changes the fields as it changes the history. -/
theorem Remembers.step {thresholdMs : ℚ} {t₀ : Instant} {ops : List SafetyOp} {t : SafetyTask}
    (h : Remembers thresholdMs t₀ ops t) {op : SafetyOp}
    (hchron : Chronological t₀ (ops ++ [op])) :
    Remembers thresholdMs t₀ (ops ++ [op]) (op.apply t) := by
  cases op with
  | activity rtt now =>
      have hle : lastRestart t₀ ops ≤ now := lastRestart_le hchron rfl
      refine ⟨by simp [SafetyOp.apply, h.threshold], ?_, ?_, ?_⟩
      · simp [SafetyOp.apply, lastRestart_concat, SafetyOp.restart?, hle]
      · simp [SafetyOp.apply, h.explicit, IsClear]
      · simp [SafetyOp.apply, h.triggered, IsClear, not_blackoutTick]
  | triggerEstop =>
      refine ⟨h.threshold, ?_, ?_, ?_⟩
      · rw [lastRestart_concat]
        exact h.heartbeat
      · simp [SafetyOp.apply, SafetyTask.triggerExplicitEstop]
      · simp [SafetyOp.apply, SafetyTask.triggerExplicitEstop, h.triggered, IsClear,
          not_blackoutTick]
  | clearEstop now =>
      have hle : lastRestart t₀ ops ≤ now := lastRestart_le hchron rfl
      refine ⟨h.threshold, ?_, ?_, ?_⟩
      · simp [SafetyOp.apply, SafetyTask.clearExplicitEstop, lastRestart_concat,
          SafetyOp.restart?, hle]
      · simp [SafetyOp.apply, SafetyTask.clearExplicitEstop, IsClear]
      · simp [SafetyOp.apply, SafetyTask.clearExplicitEstop, IsClear, not_blackoutTick]
  | tick now asserted =>
      refine ⟨by simp [SafetyOp.apply, SafetyTask.poll, h.threshold], ?_, ?_, ?_⟩
      · rw [lastRestart_concat]
        simp [SafetyOp.apply, SafetyTask.poll, SafetyOp.restart?, h.heartbeat]
      · simp [SafetyOp.apply, SafetyTask.poll, h.explicit, IsClear]
      · simp [SafetyOp.apply, SafetyTask.poll, h.triggered, IsClear, BlackoutTick,
          MeasuredAtLeast, Watchdog.blackoutMs, h.threshold, h.heartbeat, or_comm]
  | setDeadmanHeld held =>
      refine ⟨h.threshold, ?_, ?_, ?_⟩
      · rw [lastRestart_concat]
        exact h.heartbeat
      · simp [SafetyOp.apply, h.explicit, IsClear]
      · simp [SafetyOp.apply, h.triggered, IsClear, not_blackoutTick]
  | setCommandFresh fresh =>
      refine ⟨h.threshold, ?_, ?_, ?_⟩
      · rw [lastRestart_concat]
        exact h.heartbeat
      · simp [SafetyOp.apply, h.explicit, IsClear]
      · simp [SafetyOp.apply, h.triggered, IsClear, not_blackoutTick]

/-- The task after a chronological history remembers it. -/
theorem remembers_after (taskClass : TaskClass) (thresholdMs : ℚ) (t₀ : Instant)
    {ops : List SafetyOp} (hchron : Chronological t₀ ops) :
    Remembers thresholdMs t₀ ops (SafetyTask.after taskClass thresholdMs t₀ ops) := by
  induction ops using List.reverseRecOn with
  | nil => exact .init taskClass thresholdMs t₀
  | append_singleton ops op ih =>
      unfold SafetyTask.after at ih ⊢
      rw [exec_concat]
      exact (ih hchron.of_concat).step hchron

/-- The latch is set exactly if the history says so. -/
theorem Remembers.isEstopped_iff {thresholdMs : ℚ} {t₀ : Instant} {ops : List SafetyOp}
    {t : SafetyTask} (h : Remembers thresholdMs t₀ ops t) :
    t.isEstopped = true ↔ LatchedByHistory (MeasuredAtLeast thresholdMs) t₀ ops := by
  rw [SafetyTask.isEstopped_iff, h.explicit, h.triggered, LatchedByHistory, since_or]

/-- A task class's silence is measured as long as it is. -/
theorem measuredAtLeast_watchdogBlackoutMs (taskClass : TaskClass) :
    MeasuredAtLeast taskClass.watchdogBlackoutMs = AtLeast taskClass.watchdogBlackoutMs := by
  funext silence
  exact propext (taskClass.watchdogBlackoutMs_le_silenceMs_iff silence)

/-! ## The output of a tick -/

/-- A tick returns `EStop` exactly if a trigger or a tick after too long a
silence, itself included, came since the last clear.  The silence is the one
the watchdog measures, which is off by less than one part in `2 ^ 50`, and for
the threshold of a task class not at all.  Activity never releases the latch.
A tick that lets anyone drive finds neither the latch nor a suspension. -/
theorem safetyTask_tick_characterised (taskClass : TaskClass) (thresholdMs : ℚ) (t₀ : Instant)
    (ops : List SafetyOp) (t : Instant) (asserted : Bool)
    (hchron : Chronological t₀ (ops ++ [.tick t asserted])) :
    let task := SafetyTask.after taskClass thresholdMs t₀ ops
    ((task.tick t asserted).2 = .eStop ↔
        LatchedByHistory (MeasuredAtLeast thresholdMs) t₀ (ops ++ [.tick t asserted])) ∧
      (∀ silence, |silenceMs silence - asSecs silence * 1000| ≤ asSecs silence * 1000 / 2 ^ 50) ∧
      (∀ ofClass : TaskClass, thresholdMs = ofClass.watchdogBlackoutMs →
        ((task.tick t asserted).2 = .eStop ↔
          LatchedByHistory (AtLeast thresholdMs) t₀ (ops ++ [.tick t asserted]))) ∧
      (∀ rttMs now, task.isEstopped = true →
        (task.onChannelBActivity rttMs now).isEstopped = true) ∧
      ((task.tick t asserted).2 = .fullTeleoperation ∨ (task.tick t asserted).2 = .semiAutonomous →
        (task.tick t asserted).1.isEstopped = false ∧ task.stateMachine.isSuspended = false) := by
  intro task
  have hbefore := remembers_after taskClass thresholdMs t₀ hchron.of_concat
  have hafter : Remembers thresholdMs t₀ (ops ++ [.tick t asserted]) (task.tick t asserted).1 :=
    hbefore.step hchron
  have hlatched : (task.tick t asserted).2 = .eStop ↔
      LatchedByHistory (MeasuredAtLeast thresholdMs) t₀ (ops ++ [.tick t asserted]) := by
    rw [← hafter.isEstopped_iff, SafetyTask.tick_snd, arbitrate_eq_eStop]
    rfl
  refine ⟨hlatched, abs_silenceMs_sub_le, ?_, ?_, ?_⟩
  · rintro ofClass rfl
    rw [hlatched, measuredAtLeast_watchdogBlackoutMs]
  · intro rttMs now hlatched
    rw [SafetyTask.onChannelBActivity_isEstopped]
    exact hlatched
  · intro hdrives
    exact not_latched_of_drives hdrives

/-- A blackout at 400 ms, and activity that does not release it. -/
theorem safetyTask_tick_characterised_blackout :
    let ops : List SafetyOp :=
      [.activity none 0, .tick (fromMillis 400) false, .activity none (fromMillis 401)]
    let task := SafetyTask.after .d 400 0 ops
    ((task.tick (fromMillis 402) true).2 = .eStop ↔
        LatchedByHistory (MeasuredAtLeast 400) 0 (ops ++ [.tick (fromMillis 402) true])) ∧
      (∀ silence, |silenceMs silence - asSecs silence * 1000| ≤ asSecs silence * 1000 / 2 ^ 50) ∧
      (∀ ofClass : TaskClass, 400 = ofClass.watchdogBlackoutMs →
        ((task.tick (fromMillis 402) true).2 = .eStop ↔
          LatchedByHistory (AtLeast 400) 0 (ops ++ [.tick (fromMillis 402) true]))) ∧
      (∀ rttMs now, task.isEstopped = true →
        (task.onChannelBActivity rttMs now).isEstopped = true) ∧
      ((task.tick (fromMillis 402) true).2 = .fullTeleoperation ∨
          (task.tick (fromMillis 402) true).2 = .semiAutonomous →
        (task.tick (fromMillis 402) true).1.isEstopped = false ∧
          task.stateMachine.isSuspended = false) :=
  safetyTask_tick_characterised .d 400 0 _ (fromMillis 402) true (by decide)

/-- With a threshold of 1001 ms a tick after a silence of exactly 1001 ms does not latch. -/
theorem not_latched_atRoundedThreshold :
    ¬ ∀ (taskClass : TaskClass) (thresholdMs : ℚ) (t₀ : Instant) (ops : List SafetyOp)
      (t : Instant) (asserted : Bool), Chronological t₀ (ops ++ [.tick t asserted]) →
        (((SafetyTask.after taskClass thresholdMs t₀ ops).tick t asserted).2 = .eStop ↔
          LatchedByHistory (AtLeast thresholdMs) t₀ (ops ++ [.tick t asserted])) := by
  intro h
  have hlong : AtLeast 1001 (fromMillis 1001) := by
    rw [AtLeast, asSecs_fromMillis]
    norm_num
  have hlatched : LatchedByHistory (AtLeast 1001) 0 [.tick (fromMillis 1001) false] :=
    ⟨[], _, [], rfl, .inr ⟨_, _, rfl, hlong⟩, nofun⟩
  have hestop := (h .d 1001 0 [] (fromMillis 1001) false (by decide)).mpr hlatched
  exact absurd hestop (by decide +kernel)

end RoboTele
