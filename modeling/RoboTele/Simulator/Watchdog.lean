import RoboTele.Core.Safety
import Mathlib.Tactic.Linarith

/-!
# The simulator's watchdog and the polled one

The simulator's watchdog arms a timer at each heartbeat, and its scheduler runs the
timer when it is due unless a heartbeat has cancelled it.  `Watchdog` has no timer.  A
heartbeat overwrites the time of the last one, and only a poll compares it with the
threshold.

So a blackout that ends before the next poll is seen by the timer and not by the poll
(`not_detects_heardBetween`).  `detects_iff` gives the runs in which the polled watchdog
trips on what the timer trips on.

The simulator counts seconds from zero, and `start` is the same moment on the monotonic
clock.  Its times are exact here.  The polled watchdog rounds the silence, and for the
thresholds of the task classes, the only ones both watchdogs can have, that changes nothing.
-/

namespace RoboTele

/-- A trigger of the simulator's watchdog, in seconds. -/
structure SimWatchdogTrigger where
  time : ℚ
  blackoutMs : ℚ
deriving DecidableEq

/-- The watchdog and what its scheduler holds for it: the time, and when the timer is
due that was neither cancelled nor run. -/
structure SimWatchdog where
  thresholdMs : ℚ
  now : ℚ
  lastHeartbeat : ℚ
  timer : Option ℚ
  triggered : Bool
  triggerEvents : List SimWatchdogTrigger
deriving DecidableEq

namespace SimWatchdog

/-- The timer is due after the threshold. -/
def arm (w : SimWatchdog) : SimWatchdog := { w with timer := some (w.now + w.thresholdMs / 1000) }

def new (thresholdMs : ℚ) : SimWatchdog :=
  arm
    { thresholdMs
      now := 0
      lastHeartbeat := 0
      timer := none
      triggered := false
      triggerEvents := [] }

/-- Cancel the timer and arm it again. -/
def heartbeat (w : SimWatchdog) : SimWatchdog :=
  let w := { w with lastHeartbeat := w.now, timer := none }
  if w.triggered then w else w.arm

/-- The timer has run: trip, unless that was done. -/
def onTimeout (w : SimWatchdog) : SimWatchdog :=
  if w.triggered then w
  else
    { w with
      triggered := true
      triggerEvents := w.triggerEvents ++
        [{ time := w.now, blackoutMs := (w.now - w.lastHeartbeat) * 1000 }] }

/-- The timer runs before what the scheduler does at `time`.  Of two callbacks that are
due together the one scheduled first runs first. -/
def Due (w : SimWatchdog) (time : ℚ) (timerFirst : Bool) : Prop :=
  ∃ due ∈ w.timer, due < time ∨ due = time ∧ timerFirst = true

instance (w : SimWatchdog) (time : ℚ) (timerFirst : Bool) : Decidable (w.Due time timerFirst) :=
  inferInstanceAs (Decidable (∃ due ∈ w.timer, _))

/-- The scheduler comes to `time`. -/
def run (w : SimWatchdog) (time : ℚ) (timerFirst : Bool) : SimWatchdog :=
  let w :=
    if w.Due time timerFirst then onTimeout { w with now := w.timer.getD w.now, timer := none }
    else w
  { w with now := max w.now time }

end SimWatchdog

/-! ## Runs of both -/

/-- What happens `time` nanoseconds after the start.  `timerFirst` tells whether the
simulator runs a timer that is due at that very time before the heartbeat. -/
inductive WatchdogEvent where
  | heartbeat (time : Nat) (timerFirst : Bool)
  | check (time : Nat)
deriving DecidableEq

namespace WatchdogEvent

/-- When an event comes. -/
def time : WatchdogEvent → Nat
  | heartbeat time _ | check time => time

end WatchdogEvent

/-- The simulator's watchdog after the heartbeats. -/
def SimWatchdog.after (w : SimWatchdog) : List WatchdogEvent → SimWatchdog
  | [] => w
  | .heartbeat time timerFirst :: es => ((w.run (asSecs time) timerFirst).heartbeat).after es
  | .check _ :: es => w.after es

/-- The polled watchdog after heartbeats and checks. -/
def Watchdog.after (start : Instant) (w : Watchdog) : List WatchdogEvent → Watchdog
  | [] => w
  | .heartbeat time _ :: es => Watchdog.after start (w.heartbeat (start + time)) es
  | .check time :: es => Watchdog.after start (w.check (start + time)).1 es

/-- The simulator's watchdog triggers at `t`, if nothing but these events happens. -/
def TriggersAt (thresholdMs : ℚ) (es : List WatchdogEvent) (t : ℚ) : Prop :=
  ∃ time, ∃ e ∈ (((SimWatchdog.new thresholdMs).after es).run time true).triggerEvents, e.time = t

/-- The time of the last heartbeat, or `last` if there is none. -/
def lastBeat (last : Nat) : List WatchdogEvent → Nat
  | [] => last
  | .heartbeat time _ :: es => lastBeat time es
  | .check _ :: es => lastBeat last es

/-- Some check comes exactly the threshold after the last heartbeat. -/
def ChecksOnTime (thresholdMs : ℚ) (last : Nat) : List WatchdogEvent → Prop
  | [] => False
  | .heartbeat time _ :: es => ChecksOnTime thresholdMs time es
  | .check time :: es =>
      asSecs time = asSecs last + thresholdMs / 1000 ∨ ChecksOnTime thresholdMs last es

/-- The check at `p` is the first one at or after `t`. -/
structure FirstCheck (es before : List WatchdogEvent) (p : Nat) (t : ℚ) : Prop where
  split : ∃ later, es = before ++ .check p :: later
  le : t ≤ asSecs p
  earlier : ∀ q, .check q ∈ before → asSecs q < t

/-- What the timer triggers on, the first check from then on finds triggered. -/
def Detects (thresholdMs : ℚ) (start : Instant) (es : List WatchdogEvent) : Prop :=
  ∀ t before p, TriggersAt thresholdMs es t → FirstCheck es before p t →
    (Watchdog.after start (.withThresholdMs thresholdMs start) (before ++ [.check p])).triggered =
      true

/-- The first check from `t` on comes at least the threshold after every heartbeat since
`t`, unless an earlier check came exactly the threshold after the last heartbeat. -/
def ChecksInTime (thresholdMs : ℚ) (es : List WatchdogEvent) : Prop :=
  ∀ t before p, TriggersAt thresholdMs es t → FirstCheck es before p t →
    (∀ time first, .heartbeat time first ∈ before → t ≤ asSecs time →
      asSecs time + thresholdMs / 1000 ≤ asSecs p) ∨
    ChecksOnTime thresholdMs 0 before

/-- The events come in the order of their times. -/
def InOrder (es : List WatchdogEvent) : Prop := es.Pairwise fun e e' => e.time ≤ e'.time

instance (es : List WatchdogEvent) : Decidable (InOrder es) :=
  inferInstanceAs (Decidable (List.Pairwise _ _))

/-! ## When the timer triggers -/

/-- The heartbeats after `last` keep the timer from running until `t`. -/
inductive Blackout (thresholdMs : ℚ) : Nat → List WatchdogEvent → ℚ → Prop where
  | silent {last : Nat} {es : List WatchdogEvent} :
      (∀ time first, .heartbeat time first ∈ es →
        asSecs last + thresholdMs / 1000 ≤ asSecs time) →
      Blackout thresholdMs last es (asSecs last + thresholdMs / 1000)
  | beat {last time : Nat} {t : ℚ} {first : Bool} {es : List WatchdogEvent} :
      asSecs time ≤ asSecs last + thresholdMs / 1000 → Blackout thresholdMs time es t →
      Blackout thresholdMs last (.heartbeat time first :: es) t
  | check {last time : Nat} {t : ℚ} {es : List WatchdogEvent} :
      Blackout thresholdMs last es t → Blackout thresholdMs last (.check time :: es) t

section

variable {thresholdMs t : ℚ} {last : Nat} {es : List WatchdogEvent}

namespace SimWatchdog

/-- A watchdog whose timer was armed at `last`. -/
structure Armed (w : SimWatchdog) (thresholdMs : ℚ) (last : Nat) : Prop where
  threshold : w.thresholdMs = thresholdMs
  now : w.now = asSecs last
  timer : w.timer = some (asSecs last + thresholdMs / 1000)
  triggered : w.triggered = false
  triggerEvents : w.triggerEvents = []

/-- The timer starts with the first silence. -/
theorem armed_new (thresholdMs : ℚ) : (new thresholdMs).Armed thresholdMs 0 where
  threshold := rfl
  now := by simp [new, arm, asSecs]
  timer := by simp [new, arm, asSecs]
  triggered := rfl
  triggerEvents := rfl

/-- A heartbeat does not take a trigger back. -/
theorem heartbeat_of_triggered {w : SimWatchdog} (h : w.triggered = true) :
    w.heartbeat.triggered = true ∧ w.heartbeat.triggerEvents = w.triggerEvents := by
  rw [heartbeat, if_pos h]
  exact ⟨h, rfl⟩

/-- Nor does time. -/
theorem run_of_triggered {w : SimWatchdog} (h : w.triggered = true) (time : ℚ) (first : Bool) :
    (w.run time first).triggered = true ∧
      (w.run time first).triggerEvents = w.triggerEvents := by
  simp only [run, onTimeout, h, if_true]
  split <;> simp [h]

/-- Once triggered, the watchdog stays as it is. -/
theorem after_triggerEvents : ∀ (es : List WatchdogEvent) {w : SimWatchdog}, w.triggered = true →
    ∀ time first, ((w.after es).run time first).triggerEvents = w.triggerEvents
  | [], _, hw, time, first => (run_of_triggered hw time first).2
  | .heartbeat beat tie :: es, _, hw, time, first => by
      have hrun := run_of_triggered hw (asSecs beat) tie
      have hbeat := heartbeat_of_triggered hrun.1
      rw [after, after_triggerEvents es hbeat.1, hbeat.2, hrun.2]
  | .check _ :: es, w, hw, time, first => by
      rw [after, after_triggerEvents es hw]

/-- The timer is due: it triggers where it was armed to. -/
theorem Armed.run_of_due {w : SimWatchdog} (h : w.Armed thresholdMs last) {time : ℚ} {first : Bool}
    (hdue : w.Due time first) :
    (w.run time first).triggered = true ∧
      ∀ e ∈ (w.run time first).triggerEvents, e.time = asSecs last + thresholdMs / 1000 := by
  rw [run, if_pos hdue]
  simp [onTimeout, h.triggered, h.triggerEvents, h.timer]

/-- The timer is not due: a heartbeat arms it again. -/
theorem Armed.heartbeat {w : SimWatchdog} (h : w.Armed thresholdMs last) {time : Nat}
    {first : Bool} (hle : last ≤ time) (hdue : ¬ w.Due (asSecs time) first) :
    ((w.run (asSecs time) first).heartbeat).Armed thresholdMs time := by
  have hnow : max w.now (asSecs time) = asSecs time := by
    rw [h.now]
    exact max_eq_right (asSecs_le_asSecs.mpr hle)
  rw [run, if_neg hdue]
  simp only [SimWatchdog.heartbeat, h.triggered, hnow, arm]
  exact ⟨h.threshold, rfl, by simp [h.threshold], rfl, h.triggerEvents⟩

/-- When an armed timer is due. -/
theorem Armed.due_iff {w : SimWatchdog} (h : w.Armed thresholdMs last) {time : ℚ} {first : Bool} :
    w.Due time first ↔ asSecs last + thresholdMs / 1000 < time ∨
      asSecs last + thresholdMs / 1000 = time ∧ first = true := by
  simp [Due, h.timer]

theorem Armed.le_of_due {w : SimWatchdog} (h : w.Armed thresholdMs last) {time : ℚ} {first : Bool}
    (hdue : w.Due time first) : asSecs last + thresholdMs / 1000 ≤ time := by
  rcases h.due_iff.mp hdue with hlt | ⟨heq, -⟩
  · exact hlt.le
  · exact heq.le

theorem Armed.le_of_not_due {w : SimWatchdog} (h : w.Armed thresholdMs last) {time : ℚ}
    {first : Bool} (hdue : ¬ w.Due time first) : time ≤ asSecs last + thresholdMs / 1000 := by
  by_contra hlt
  exact hdue (h.due_iff.mpr (.inl (not_le.mp hlt)))

/-- The timer triggers at the end of a blackout. -/
theorem Armed.blackout : ∀ {es : List WatchdogEvent} {w : SimWatchdog} {last : Nat},
    w.Armed thresholdMs last → (∀ e ∈ es, last ≤ e.time) → InOrder es →
    ∀ {time first}, ∀ e ∈ ((w.after es).run time first).triggerEvents,
      Blackout thresholdMs last es e.time
  | [], w, last, h, _, _, time, first, e, he => by
      rw [after] at he
      by_cases hdue : w.Due time first
      · rw [(h.run_of_due hdue).2 e he]
        exact .silent nofun
      · rw [run, if_neg hdue, h.triggerEvents] at he
        cases he
  | .heartbeat beat tie :: es, w, last, h, hlast, horder, time, first, e, he => by
      rw [after] at he
      have horder' := List.pairwise_cons.mp horder
      by_cases hdue : w.Due (asSecs beat) tie
      · obtain ⟨htriggered, hat⟩ := h.run_of_due hdue
        have hevents := heartbeat_of_triggered htriggered
        rw [after_triggerEvents es hevents.1, hevents.2] at he
        rw [hat e he]
        -- every heartbeat from this one on comes too late
        have hbeat : asSecs last + thresholdMs / 1000 ≤ asSecs beat := h.le_of_due hdue
        refine .silent fun time' first' hmem => ?_
        rcases List.mem_cons.mp hmem with heq | hmem
        · cases heq
          exact hbeat
        · exact hbeat.trans (asSecs_le_asSecs.mpr (horder'.1 _ hmem))
      · exact .beat (h.le_of_not_due hdue)
          ((h.heartbeat (hlast _ List.mem_cons_self) hdue).blackout horder'.1 horder'.2 e he)
  | .check _ :: es, w, last, h, hlast, horder, time, first, e, he => by
      rw [after] at he
      exact .check (h.blackout (fun e he => hlast e (List.mem_cons_of_mem _ he))
        (List.pairwise_cons.mp horder).2 e he)

end SimWatchdog

/-- A timer that triggers was silent for the blackout time. -/
theorem TriggersAt.blackout (h : TriggersAt thresholdMs es t) (horder : InOrder es) :
    Blackout thresholdMs 0 es t := by
  obtain ⟨time, e, he, rfl⟩ := h
  exact (SimWatchdog.armed_new thresholdMs).blackout (fun e _ => Nat.zero_le _) horder e he

/-! ## What a blackout leaves to the checks -/

/-- A check does not end a silence. -/
theorem Blackout.of_check {time : Nat} (h : Blackout thresholdMs last (.check time :: es) t) :
    Blackout thresholdMs last es t := by
  cases h with
  | silent hsilent =>
      exact .silent fun time first hmem => hsilent time first (List.mem_cons_of_mem _ hmem)
  | check h => exact h

/-- A timer runs the threshold after some heartbeat. -/
theorem Blackout.le (h : Blackout thresholdMs last es t) (hlast : ∀ e ∈ es, last ≤ e.time)
    (horder : InOrder es) : asSecs last + thresholdMs / 1000 ≤ t := by
  induction h with
  | silent _ => exact le_rfl
  | beat hle _ ih =>
      have ih := ih (List.pairwise_cons.mp horder).1 (List.pairwise_cons.mp horder).2
      have hbeat := asSecs_le_asSecs.mpr (hlast _ List.mem_cons_self)
      exact (add_le_add_left hbeat _).trans ih
  | check _ ih =>
      exact ih (fun e he => hlast e (List.mem_cons_of_mem _ he)) (List.pairwise_cons.mp horder).2

/-- Before the timer runs, no time is more than the threshold after the last
heartbeat. -/
theorem Blackout.le_of_lt (h : Blackout thresholdMs last es t) {time : Nat}
    (hes : ∀ e ∈ es, time ≤ e.time) (hlt : asSecs time < t) :
    asSecs time ≤ asSecs last + thresholdMs / 1000 := by
  induction h with
  | silent _ => exact hlt.le
  | beat hle _ _ => exact (asSecs_le_asSecs.mpr (hes _ List.mem_cons_self)).trans hle
  | check _ ih => exact ih (fun e he => hes e (List.mem_cons_of_mem _ he)) hlt

/-- The last heartbeat is not later than the events. -/
theorem lastBeat_le {p : Nat} : ∀ (before : List WatchdogEvent) {last : Nat},
    (∀ e ∈ before, e.time ≤ p) → last ≤ p → lastBeat last before ≤ p
  | [], _, _, hlast => hlast
  | .heartbeat _ _ :: before, _, h, _ =>
      lastBeat_le before (fun e he => h e (List.mem_cons_of_mem _ he)) (h _ List.mem_cons_self)
  | .check _ :: before, _, h, hlast =>
      lastBeat_le before (fun e he => h e (List.mem_cons_of_mem _ he)) hlast

theorem exists_lastBeat : ∀ (es : List WatchdogEvent) (last : Nat) (first : Bool),
    ∃ first', .heartbeat (lastBeat last es) first' ∈ WatchdogEvent.heartbeat last first :: es
  | [], _, first => ⟨first, List.mem_cons_self⟩
  | .heartbeat time tie :: es, _, _ => by
      obtain ⟨first', hmem⟩ := exists_lastBeat es time tie
      exact ⟨first', List.mem_cons_of_mem _ hmem⟩
  | .check _ :: es, last, first => by
      obtain ⟨first', hmem⟩ := exists_lastBeat es last first
      rw [lastBeat]
      rcases List.mem_cons.mp hmem with heq | hmem
      · exact ⟨first', heq ▸ List.mem_cons_self⟩
      · exact ⟨first', List.mem_cons_of_mem _ (List.mem_cons_of_mem _ hmem)⟩

/-- The threshold has passed since the last heartbeat, or that came since the timer
ran. -/
theorem Blackout.lastBeat_le : ∀ {before : List WatchdogEvent} {last : Nat},
    Blackout thresholdMs last (before ++ es) t → (∀ e ∈ before ++ es, last ≤ e.time) →
    InOrder (before ++ es) →
    asSecs (lastBeat last before) + thresholdMs / 1000 ≤ t ∨
      ∃ first, .heartbeat (lastBeat last before) first ∈ before ∧
        t ≤ asSecs (lastBeat last before)
  | [], _, h, hlast, horder => .inl (h.le hlast horder)
  | .heartbeat time tie :: before, last, h, _, horder => by
      have horder' := List.pairwise_cons.mp horder
      rw [lastBeat]
      cases h with
      | silent hsilent =>
          obtain ⟨first', hmem⟩ := exists_lastBeat before time tie
          exact .inr ⟨first', hmem, hsilent _ first' (List.mem_append_left _ hmem)⟩
      | beat hle h =>
          rcases h.lastBeat_le horder'.1 horder'.2 with hle | ⟨first, hmem, hle⟩
          · exact .inl hle
          · exact .inr ⟨first, List.mem_cons_of_mem _ hmem, hle⟩
  | .check time :: before, last, h, hlast, horder => by
      rw [lastBeat]
      rcases h.of_check.lastBeat_le (fun e he => hlast e (List.mem_cons_of_mem _ he))
        (List.pairwise_cons.mp horder).2 with hle | ⟨first, hmem, hle⟩
      · exact .inl hle
      · exact .inr ⟨first, List.mem_cons_of_mem _ hmem, hle⟩

theorem le_lastBeat : ∀ {before : List WatchdogEvent} {last : Nat}, InOrder before →
    (∀ e ∈ before, last ≤ e.time) → last ≤ lastBeat last before ∧
      ∀ time first, .heartbeat time first ∈ before → time ≤ lastBeat last before
  | [], _, _, _ => ⟨le_rfl, nofun⟩
  | .heartbeat beat tie :: before, last, horder, hlast => by
      have horder' := List.pairwise_cons.mp horder
      have ih := le_lastBeat horder'.2 horder'.1
      have hbeat : last ≤ beat := hlast _ List.mem_cons_self
      refine ⟨hbeat.trans ih.1, fun time first hmem => ?_⟩
      rcases List.mem_cons.mp hmem with heq | hmem
      · cases heq
        exact ih.1
      · exact ih.2 time first hmem
  | .check _ :: before, last, horder, hlast => by
      have ih := le_lastBeat (List.pairwise_cons.mp horder).2
        fun e he => hlast e (List.mem_cons_of_mem _ he)
      refine ⟨ih.1, fun time first hmem => ?_⟩
      rcases List.mem_cons.mp hmem with heq | hmem
      · cases heq
      · exact ih.2 time first hmem

/-! ## What the polled watchdog makes of it -/

namespace Watchdog

variable {start : Instant} {w : Watchdog}

/-- The threshold is a task class's, which the simulator's watchdog has too. -/
def OfClass (w : Watchdog) : Prop :=
  ∃ taskClass : TaskClass, w.thresholdMs = taskClass.watchdogBlackoutMs

theorem after_append (start : Instant) : ∀ (es es' : List WatchdogEvent) (w : Watchdog),
    Watchdog.after start w (es ++ es') = Watchdog.after start (Watchdog.after start w es) es'
  | [], _, _ => rfl
  | .heartbeat _ _ :: es, es', _ => after_append start es es' _
  | .check _ :: es, es', _ => after_append start es es' _

/-- A watchdog that has tripped stays tripped. -/
theorem after_triggered : ∀ (es : List WatchdogEvent) {w : Watchdog}, w.triggered = true →
    (Watchdog.after start w es).triggered = true
  | [], _, hw => hw
  | .heartbeat _ _ :: es, _, hw => after_triggered es hw
  | .check _ :: es, _, hw => after_triggered es ((check_triggered _ _).mpr (.inl hw))

theorem after_thresholdMs : ∀ (es : List WatchdogEvent) (w : Watchdog),
    (Watchdog.after start w es).thresholdMs = w.thresholdMs
  | [], _ => rfl
  | .heartbeat _ _ :: es, w => (after_thresholdMs es _).trans (heartbeat_thresholdMs w _)
  | .check _ :: es, w => (after_thresholdMs es _).trans (check_thresholdMs w _)

theorem after_lastHeartbeat : ∀ (es : List WatchdogEvent) {w : Watchdog} {last : Nat},
    w.lastHeartbeat = start + last →
      (Watchdog.after start w es).lastHeartbeat = start + lastBeat last es
  | [], _, _, hw => hw
  | .heartbeat _ _ :: es, _, _, _ => after_lastHeartbeat es rfl
  | .check _ :: es, _, _, hw => after_lastHeartbeat es ((check_lastHeartbeat _ _).trans hw)

/-- A poll finds the threshold reached where it comes that long after the last
heartbeat. -/
theorem thresholdMs_le_blackoutMs (hclass : w.OfClass) (hw : w.lastHeartbeat = start + last)
    {time : Nat} (hle : last ≤ time) : w.thresholdMs ≤ w.blackoutMs (start + time) ↔
      asSecs last + w.thresholdMs / 1000 ≤ asSecs time := by
  have hsilence : (Instant.durationSince (start + time) (start + last) : ℚ) =
      (time : ℚ) - (last : ℚ) := by
    rw [Instant.durationSince, Nat.add_sub_add_left, Nat.cast_sub hle]
  obtain ⟨taskClass, hthreshold⟩ := hclass
  rw [blackoutMs, hw, hthreshold, taskClass.watchdogBlackoutMs_le_silenceMs_iff, asSecs, asSecs,
    asSecs, hsilence]
  constructor <;> intro h <;> linarith

/-- Only a check trips the watchdog. -/
theorem exists_check_of_triggered : ∀ (es : List WatchdogEvent) {w : Watchdog},
    (Watchdog.after start w es).triggered = true →
      w.triggered = true ∨ ∃ q, .check q ∈ es
  | [], _, h => .inl h
  | .heartbeat _ _ :: es, _, h =>
      (exists_check_of_triggered es h).imp_right fun ⟨q, hq⟩ => ⟨q, List.mem_cons_of_mem _ hq⟩
  | .check q :: _, _, _ => .inr ⟨q, List.mem_cons_self⟩

/-- A check that comes on time trips the watchdog. -/
theorem triggered_of_checksOnTime : ∀ {es : List WatchdogEvent} {w : Watchdog} {last : Nat},
    w.OfClass → w.lastHeartbeat = start + last → (∀ e ∈ es, last ≤ e.time) → InOrder es →
    ChecksOnTime w.thresholdMs last es → (Watchdog.after start w es).triggered = true
  | .heartbeat time _ :: es, w, last, hclass, _, _, horder, h =>
      have horder' := List.pairwise_cons.mp horder
      triggered_of_checksOnTime (w := w.heartbeat (start + time)) hclass rfl horder'.1 horder'.2 h
  | .check time :: es, w, last, hclass, hw, hlast, horder, h => by
      rcases h with heq | h
      · refine after_triggered es ((check_triggered _ _).mpr (.inr ?_))
        exact (thresholdMs_le_blackoutMs hclass hw (hlast _ List.mem_cons_self)).mpr heq.ge
      · show (Watchdog.after start (w.check (start + time)).1 es).triggered = true
        have hclass' : (w.check (start + time)).1.OfClass :=
          hclass.imp fun _ hthreshold => (check_thresholdMs _ _).trans hthreshold
        refine triggered_of_checksOnTime hclass' ((check_lastHeartbeat _ _).trans hw)
          (fun e he => hlast e (List.mem_cons_of_mem _ he)) (List.pairwise_cons.mp horder).2 ?_
        rwa [check_thresholdMs]

/-- Before the timer runs, only a check that comes exactly the threshold after the last
heartbeat trips the polled watchdog. -/
theorem checksOnTime_of_triggered : ∀ {before : List WatchdogEvent} {w : Watchdog} {last : Nat},
    w.OfClass → w.lastHeartbeat = start + last → w.triggered = false →
    Blackout w.thresholdMs last (before ++ es) t → (∀ e ∈ before ++ es, last ≤ e.time) →
    InOrder (before ++ es) → (∀ q, .check q ∈ before → asSecs q < t) →
    (Watchdog.after start w before).triggered = true → ChecksOnTime w.thresholdMs last before
  | [], w, _, _, _, hw, _, _, _, _, h => absurd h (by simp [Watchdog.after, hw])
  | .heartbeat time first :: before, w, last, hclass, _, hw, hblackout, _, horder, hearlier, h => by
      have horder' := List.pairwise_cons.mp horder
      have hearlier' := fun q hq => hearlier q (List.mem_cons_of_mem _ hq)
      cases hblackout with
      | silent hsilent =>
          -- the timer has run, and no check comes before it
          obtain ⟨q, hq⟩ := (exists_check_of_triggered before h).resolve_left (by simp [hw])
          have hbeat := hsilent time first List.mem_cons_self
          have hle := asSecs_le_asSecs.mpr (horder'.1 _ (List.mem_append_left _ hq))
          exact absurd (hearlier' q hq) (not_lt.mpr (hbeat.trans hle))
      | beat _ hblackout =>
          show ChecksOnTime (w.heartbeat (start + time)).thresholdMs time before
          exact checksOnTime_of_triggered hclass rfl hw hblackout horder'.1 horder'.2 hearlier' h
  | .check time :: before, w, last, hclass, hbeat, hw, hblackout, hlast, horder, hearlier, h => by
      have horder' := List.pairwise_cons.mp horder
      by_cases htrips : w.thresholdMs ≤ w.blackoutMs (start + time)
      · have hle := (thresholdMs_le_blackoutMs hclass hbeat (hlast _ List.mem_cons_self)).mp htrips
        have hge := hblackout.of_check.le_of_lt horder'.1 (hearlier time List.mem_cons_self)
        exact .inl (le_antisymm hge hle)
      · have hcheck : (w.check (start + time)).1 = w := by
          rw [check, if_neg (by simp [hw]), if_neg htrips]
        rw [Watchdog.after, hcheck] at h
        exact .inr (checksOnTime_of_triggered hclass hbeat hw hblackout.of_check
          (fun e he => hlast e (List.mem_cons_of_mem _ he)) horder'.2
          (fun q hq => hearlier q (List.mem_cons_of_mem _ hq)) h)

end Watchdog

/-- Under the threshold of a task class the polled watchdog trips on the first check after
the timer exactly if that check comes in time after the heartbeats in between. -/
theorem detects_iff (taskClass : TaskClass) (start : Instant) (es : List WatchdogEvent)
    (horder : InOrder es) : Detects taskClass.watchdogBlackoutMs start es ↔
      ChecksInTime taskClass.watchdogBlackoutMs es := by
  have hclass (es : List WatchdogEvent) : (Watchdog.after start
      (.withThresholdMs taskClass.watchdogBlackoutMs start) es).OfClass :=
    ⟨taskClass, Watchdog.after_thresholdMs es _⟩
  have hstep : ∀ t before p, TriggersAt taskClass.watchdogBlackoutMs es t →
      FirstCheck es before p t →
        ((Watchdog.after start (.withThresholdMs taskClass.watchdogBlackoutMs start)
            (before ++ [.check p])).triggered = true ↔
          (∀ time first, .heartbeat time first ∈ before → t ≤ asSecs time →
            asSecs time + taskClass.watchdogBlackoutMs / 1000 ≤ asSecs p) ∨
          ChecksOnTime taskClass.watchdogBlackoutMs 0 before) := by
    intro t before p htriggers hfirst
    obtain ⟨later, rfl⟩ := hfirst.split
    have hblackout := htriggers.blackout horder
    have hbefore := List.pairwise_append.mp horder
    have hlast := le_lastBeat hbefore.1 (fun e _ => Nat.zero_le e.time)
    have hp : lastBeat 0 before ≤ p :=
      lastBeat_le before (fun e he => hbefore.2.2 e he _ List.mem_cons_self) (Nat.zero_le p)
    have hbeat : (Watchdog.after start (.withThresholdMs taskClass.watchdogBlackoutMs start)
        before).lastHeartbeat = start + lastBeat 0 before :=
      Watchdog.after_lastHeartbeat before rfl
    have hsilence := Watchdog.thresholdMs_le_blackoutMs (hclass before) hbeat hp
    rw [Watchdog.after_thresholdMs] at hsilence
    rw [Watchdog.after_append, Watchdog.after, Watchdog.after, Watchdog.check_triggered,
      Watchdog.after_thresholdMs, hsilence]
    constructor
    · rintro (htriggered | hle)
      · exact .inr (Watchdog.checksOnTime_of_triggered (hclass []) rfl rfl hblackout
          (fun e _ => Nat.zero_le _) horder hfirst.earlier htriggered)
      · refine .inl fun time first hmem _ => ?_
        have htime := asSecs_le_asSecs.mpr (hlast.2 time first hmem)
        exact (add_le_add_left htime _).trans hle
    · rintro (hbetween | hontime)
      · right
        rcases hblackout.lastBeat_le (fun e _ => Nat.zero_le _) horder with hle | ⟨first, hmem, hle⟩
        · exact hle.trans hfirst.le
        · exact hbetween _ first hmem hle
      · exact .inl (Watchdog.triggered_of_checksOnTime (hclass []) rfl (fun e _ => Nat.zero_le _)
          hbefore.1 hontime)
  exact forall₅_congr hstep

/-- The characterization, with a check during the silence and one after it. -/
theorem detects_iff_twoChecks :
    Detects TaskClass.d.watchdogBlackoutMs 0
        [.heartbeat 100000000 false, .check 300000000, .check 510000000] ↔
      ChecksInTime TaskClass.d.watchdogBlackoutMs
        [.heartbeat 100000000 false, .check 300000000, .check 510000000] :=
  detects_iff .d 0 _ (by decide)

/-- After 400 ms of silence a heartbeat comes, and ten milliseconds later the check. -/
theorem not_detects_heardBetween :
    ¬ ∀ (taskClass : TaskClass) (start : Instant) (es : List WatchdogEvent),
      InOrder es → Detects taskClass.watchdogBlackoutMs start es := by
  intro h
  have htriggers :
      TriggersAt 400 [.heartbeat 500000000 false, .check 510000000] (2 / 5) :=
    ⟨1, { time := 2 / 5, blackoutMs := 400 }, by decide +kernel, rfl⟩
  have hfirst : FirstCheck [.heartbeat 500000000 false, .check 510000000]
      [.heartbeat 500000000 false] 510000000 (2 / 5) :=
    ⟨⟨[], rfl⟩, by decide +kernel, by simp⟩
  have htrips := h .d 0 _ (by decide) _ _ _ htriggers hfirst
  exact absurd htrips (by decide +kernel)

end

end RoboTele
