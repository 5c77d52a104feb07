import RoboTele.Simulator.Driven
import RoboTele.Simulator.SafetyStateMachine
import RoboTele.Simulator.Watchdog
import Mathlib.Data.List.Chain
import Mathlib.Logic.Relation

/-!
# The simulator's watchdog on the scheduler

`Watchdog` schedules its timer, and a heartbeat cancels it by its handle and schedules the next
one.  On the scheduler this is one event that is live until the watchdog triggers
(`WatchdogWorld.Valid`).

`SimWatchdog` has a time at which the timer is due instead of a scheduler.  Whatever the code
around the watchdog does, all that happens to it is a heartbeat, the timer at the time it is due,
or time that passes up to then (`SimWatchdog.Moves`).  So it triggers at the end of the first gap
in the heartbeats that is long enough, not later, and never again (`watchdogTimer_exact`).

Times are exact here, sums of doubles in the simulator.  A heartbeat at the very time of the timer
may run before it, if it was scheduled first, and then its gap is not long enough.
-/

namespace RoboTele

namespace SimWatchdog

/-- What can happen to a watchdog. -/
inductive Moves : SimWatchdog → SimWatchdog → Prop
  | waits {w : SimWatchdog} (time : ℚ) (hnow : w.now ≤ time)
      (htimer : ∀ due ∈ w.timer, time ≤ due) :
      Moves w { w with now := time }
  | heartbeat (w : SimWatchdog) : Moves w w.heartbeat
  | timeout {w : SimWatchdog} (due : ℚ) (hnow : w.now ≤ due) (htimer : w.timer = some due) :
      Moves w (onTimeout { w with now := due, timer := none })

/-- What happens before a watchdog comes to be as it is. -/
abbrev Reaches : SimWatchdog → SimWatchdog → Prop := Relation.ReflTransGen Moves

end SimWatchdog

namespace Sim

open World

/-- The one callback of the watchdog. -/
inductive WatchdogCallback where
  | onTimeout
deriving DecidableEq

/-- `Watchdog`.  `heartbeats` are their times, with that of its start.  They are not part of the
program. -/
structure WatchdogTimer where
  taskClass : TaskClass
  thresholdMs : ℚ
  lastHeartbeat : ℚ
  timer : Option ℕ
  triggered : Bool
  triggerEvents : List SimWatchdogTrigger
  heartbeats : List ℚ

/-- A watchdog with its scheduler. -/
abbrev WatchdogWorld := World WatchdogCallback WatchdogTimer Empty

namespace WatchdogWorld

/-- `_arm`. -/
def arm (w : WatchdogWorld) : WatchdogWorld :=
  match w.scheduler.schedule (w.part.thresholdMs / 1000) (some .onTimeout) with
  | .ok scheduler => { w with scheduler, part := { w.part with timer := some w.scheduler.seq } }
  | .error error => { w with raised := some (.schedule error) }

/-- A watchdog that was just made. -/
def init (taskClass : TaskClass) : WatchdogWorld :=
  arm (World.new
    { taskClass
      thresholdMs := watchdogBlackoutMs taskClass
      lastHeartbeat := 0
      timer := none
      triggered := false
      triggerEvents := []
      heartbeats := [0] })

/-- What `heartbeat` does before it looks at `triggered`. -/
def disarm (w : WatchdogWorld) : WatchdogWorld :=
  { w with
    scheduler :=
      match w.part.timer with
      | some seq => w.scheduler.cancel seq
      | none => w.scheduler
    part :=
      { w.part with
        lastHeartbeat := w.scheduler.now
        heartbeats := w.part.heartbeats ++ [w.scheduler.now] } }

/-- The timer starts anew, unless the watchdog has tripped. -/
def heartbeat (w : WatchdogWorld) : WatchdogWorld :=
  let w := disarm w
  if w.part.triggered then w else arm w

/-- `_on_timeout`, up to what `on_estop` does. -/
def onTimeout (w : WatchdogWorld) : WatchdogWorld :=
  if w.part.triggered then w
  else
    let blackoutMs := (w.scheduler.now - w.part.lastHeartbeat) * 1000
    { w with
      part :=
        { w.part with
          triggered := true
          triggerEvents := w.part.triggerEvents ++ [{ time := w.scheduler.now, blackoutMs }] }
      calls := .callback :: w.calls }

end WatchdogWorld

open WatchdogWorld

/-- The code of the watchdog. -/
def watchdogTimer : Part WatchdogCallback WatchdogTimer Empty Unit Unit where
  enter _ w := heartbeat w
  fire _ callback w :=
    match callback with
    | .onTimeout => onTimeout w
  resume _ rest _ := rest.elim

namespace WatchdogWorld

variable {w w' : WatchdogWorld} {taskClass : TaskClass}

/-- The seconds of silence that trigger. -/
def silenceS (w : WatchdogWorld) : ℚ := w.part.thresholdMs / 1000

/-- Each time is at most `silence` after the one before. -/
def InTime (silence : ℚ) (times : List ℚ) : Prop := times.IsChain fun a b => b ≤ a + silence

/-- The watchdog as it is without a scheduler. -/
def view (w : WatchdogWorld) : SimWatchdog where
  thresholdMs := w.part.thresholdMs
  now := w.scheduler.now
  lastHeartbeat := w.part.lastHeartbeat
  timer := (live w.scheduler).head?.map Event.time
  triggered := w.part.triggered
  triggerEvents := w.part.triggerEvents

/-! ## The timer is one event -/

/-- The timer of the last heartbeat will run. -/
structure Armed (w : WatchdogWorld) : Prop where
  untriggered : w.part.triggered = false
  timer : ∃ e, live w.scheduler = [e] ∧ w.part.timer = some e.seq ∧
    e.time = w.part.lastHeartbeat + silenceS w
  inTime : InTime (silenceS w) w.part.heartbeats
  noEvents : w.part.triggerEvents = []

/-- The timer of the first heartbeat that was followed by too long a silence has run. -/
structure Tripped (w : WatchdogWorld) : Prop where
  triggered : w.part.triggered = true
  noTimer : live w.scheduler = []
  event : ∃ before last after, w.part.heartbeats = before ++ last :: after ∧
    w.part.triggerEvents = [⟨last + silenceS w, w.part.thresholdMs⟩] ∧
    InTime (silenceS w) (before ++ [last]) ∧ (∀ time ∈ after, last + silenceS w ≤ time) ∧
    last + silenceS w ≤ w.scheduler.now

/-- The watchdog is armed by one event or has tripped, and has got there by its moves. -/
structure Valid (taskClass : TaskClass) (w : WatchdogWorld) : Prop where
  valid : w.scheduler.Valid
  noRaise : w.raised = none
  threshold : w.part.thresholdMs = watchdogBlackoutMs taskClass
  last : ∃ past, w.part.heartbeats = past ++ [w.part.lastHeartbeat]
  state : Armed w ∨ Tripped w
  reaches : SimWatchdog.Reaches (.new (watchdogBlackoutMs taskClass)) (view w)

theorem watchdogBlackoutMs_pos (taskClass : TaskClass) : 0 < watchdogBlackoutMs taskClass := by
  cases taskClass <;> norm_num [watchdogBlackoutMs]

theorem Valid.silenceS_nonneg (h : Valid taskClass w) : 0 ≤ silenceS w := by
  rw [silenceS, h.threshold]
  exact div_nonneg (watchdogBlackoutMs_pos taskClass).le (by norm_num)

/-- A timer that is armed when there is none is the only live event. -/
theorem arm_spec (hvalid : w.scheduler.Valid) (hsilence : 0 ≤ silenceS w)
    (hlive : live w.scheduler = []) :
    ∃ scheduler, arm w =
        { w with scheduler, part := { w.part with timer := some w.scheduler.seq } } ∧
      scheduler.Valid ∧ scheduler.now = w.scheduler.now ∧
      live scheduler = [⟨w.scheduler.now + silenceS w, w.scheduler.seq, .onTimeout, false⟩] := by
  obtain ⟨scheduler, hcall⟩ :=
    w.scheduler.schedule_eq_ok (some WatchdogCallback.onTimeout) hsilence
  have hat := Scheduler.schedule_cases hcall
  have hperm := live_scheduleAt hat
  rw [hlive] at hperm
  refine ⟨scheduler, ?_, hvalid.schedule hcall, Scheduler.now_scheduleAt hat,
    List.perm_singleton.mp hperm⟩
  rw [arm]
  rw [silenceS] at hcall
  rw [hcall]

/-- A timer that is disarmed has nothing scheduled. -/
theorem disarm_live (h : Armed w ∨ Tripped w) : live (disarm w).scheduler = [] := by
  rcases h with harmed | htripped
  · obtain ⟨e, hlive, htimer, -⟩ := harmed.timer
    rw [disarm, htimer, live_cancel, hlive]
    simp
  · rw [disarm]
    cases w.part.timer with
    | none => exact htripped.noTimer
    | some seq =>
        dsimp only
        rw [live_cancel, htripped.noTimer, List.filter_nil]

theorem disarm_valid (h : w.scheduler.Valid) : (disarm w).scheduler.Valid := by
  rw [disarm]
  cases w.part.timer with
  | none => exact h
  | some seq => exact h.cancel seq

theorem disarm_now (w : WatchdogWorld) : (disarm w).scheduler.now = w.scheduler.now := by
  rw [disarm]
  cases w.part.timer <;> rfl

/-- While the watchdog is armed it is not yet time to trigger. -/
theorem Armed.now_le (h : Armed w) (hvalid : w.scheduler.Valid) :
    w.scheduler.now ≤ w.part.lastHeartbeat + silenceS w := by
  obtain ⟨e, hlive, -, htime⟩ := h.timer
  rw [← htime]
  exact now_le_of_live hvalid (hlive ▸ List.mem_singleton_self e)

/-- Heartbeats in time go on being in time. -/
theorem InTime.concat {silence : ℚ} {past : List ℚ} {last time : ℚ}
    (h : InTime silence (past ++ [last])) (hle : time ≤ last + silence) :
    InTime silence (past ++ [last] ++ [time]) := by
  refine List.isChain_append.mpr ⟨h, List.isChain_singleton _, ?_⟩
  simp [hle]

/-! ## What one call keeps -/

theorem view_heartbeat_armed (h : Armed w) {scheduler : Scheduler (Option WatchdogCallback)}
    {e : Event WatchdogCallback} (timer : Option ℕ) (hnow : scheduler.now = w.scheduler.now)
    (hlive : live scheduler = [e]) (htime : e.time = w.scheduler.now + silenceS w) :
    view { w with scheduler, part := { (disarm w).part with timer } } = (view w).heartbeat := by
  have huntriggered : (view w).triggered = false := h.untriggered
  rw [SimWatchdog.heartbeat, if_neg (by rw [huntriggered]; exact Bool.false_ne_true)]
  simp only [view, hlive, hnow, SimWatchdog.arm, disarm, List.head?_cons, Option.map_some, htime,
    silenceS]

theorem view_heartbeat_tripped (h : Tripped w) : view (disarm w) = (view w).heartbeat := by
  have htriggered : (view w).triggered = true := h.triggered
  rw [SimWatchdog.heartbeat, if_pos htriggered, view, disarm_now, disarm_live (.inr h)]
  rfl

/-- The gap before this heartbeat was short enough. -/
theorem Armed.beats (h : Armed w) (hvalid : w.scheduler.Valid)
    (hlast : ∃ past, w.part.heartbeats = past ++ [w.part.lastHeartbeat]) :
    InTime (silenceS w) (w.part.heartbeats ++ [w.scheduler.now]) := by
  obtain ⟨past, hpast⟩ := hlast
  have hinTime := h.inTime
  rw [hpast] at hinTime ⊢
  exact hinTime.concat (h.now_le hvalid)

/-- A heartbeat keeps the timer valid. -/
theorem Valid.heartbeat (h : Valid taskClass w) : Valid taskClass (heartbeat w) := by
  rcases h.state with harmed | htripped
  · obtain ⟨scheduler, harm, hvalid, hnow, hlive⟩ :=
      arm_spec (disarm_valid h.valid) h.silenceS_nonneg (disarm_live h.state)
    rw [disarm_now] at hnow hlive
    rw [WatchdogWorld.heartbeat, if_neg (by simp [disarm, harmed.untriggered]), harm]
    exact
      { valid := hvalid
        noRaise := h.noRaise
        threshold := h.threshold
        last := ⟨w.part.heartbeats, rfl⟩
        state := .inl
          { untriggered := harmed.untriggered
            timer := ⟨_, hlive, rfl, rfl⟩
            inTime := harmed.beats h.valid h.last
            noEvents := harmed.noEvents }
        reaches := by
          have hview := view_heartbeat_armed harmed (some (disarm w).scheduler.seq) hnow
            hlive rfl
          exact hview ▸ h.reaches.tail (.heartbeat (view w)) }
  · have htriggered : (disarm w).part.triggered = true := htripped.triggered
    rw [WatchdogWorld.heartbeat, if_pos htriggered]
    obtain ⟨before, last, after, hbeats, hevents, hinTime, hafter, hnow⟩ := htripped.event
    exact
      { valid := disarm_valid h.valid
        noRaise := h.noRaise
        threshold := h.threshold
        last := ⟨w.part.heartbeats, rfl⟩
        state := .inr
          { triggered := htriggered
            noTimer := disarm_live h.state
            event := by
              refine ⟨before, last, after ++ [w.scheduler.now], ?_, hevents, hinTime, ?_, ?_⟩
              · change w.part.heartbeats ++ [w.scheduler.now] = _
                rw [hbeats, List.append_assoc, List.cons_append]
              · exact List.forall_mem_append.mpr ⟨hafter, List.forall_mem_singleton.mpr hnow⟩
              · exact hnow.trans (disarm_now w).ge }
        reaches := view_heartbeat_tripped htripped ▸ h.reaches.tail (.heartbeat (view w)) }

/-- The timer runs at the end of the silence, and nothing is live then. -/
theorem Valid.fire {e : Event WatchdogCallback} (h : Valid taskClass w) (hf : w.Fires e w') :
    Valid taskClass (onTimeout w') := by
  rcases h.state with harmed | htripped
  · obtain ⟨f, hlive, -, htime⟩ := harmed.timer
    have hperm := hf.live
    rw [hlive] at hperm
    obtain ⟨rfl, hrest⟩ := List.cons.inj (List.singleton_perm.mp hperm)
    obtain ⟨past, hpast⟩ := h.last
    have hinTime := harmed.inTime
    rw [hpast] at hinTime
    have hblackout : (w'.scheduler.now - w'.part.lastHeartbeat) * 1000 = w.part.thresholdMs := by
      rw [hf.now, hf.part, htime, add_sub_cancel_left, silenceS, div_mul_cancel₀ _ (by norm_num)]
    have hview : view (onTimeout w') =
        SimWatchdog.onTimeout { view w with now := f.time, timer := none } := by
      rw [onTimeout, hf.part, if_neg (by rw [harmed.untriggered]; exact Bool.false_ne_true),
        SimWatchdog.onTimeout, if_neg (by rw [view, harmed.untriggered]; exact Bool.false_ne_true)]
      simp only [view, ← hrest, hf.now, List.head?_nil, Option.map_none]
    have htimer : (view w).timer = some f.time := by rw [view, hlive]; rfl
    have huntriggered : w'.part.triggered ≠ true := by
      rw [hf.part, harmed.untriggered]
      exact Bool.false_ne_true
    refine
      { valid := ?_
        noRaise := ?_
        threshold := ?_
        last := ?_
        state := .inr ?_
        reaches := hview ▸ h.reaches.tail (.timeout f.time hf.now_le htimer) }
    all_goals rw [onTimeout, if_neg huntriggered]
    · exact hf.valid
    · exact hf.raised
    · exact hf.part ▸ h.threshold
    · exact hf.part ▸ h.last
    · refine ⟨rfl, hrest.symm, past, w.part.lastHeartbeat, [], ?_, ?_, ?_, ?_, ?_⟩
      · exact hf.part ▸ hpast
      · change w'.part.triggerEvents ++ [_] = [⟨_, w'.part.thresholdMs⟩]
        rw [hblackout, hf.now, htime, hf.part, harmed.noEvents]
        rfl
      · change InTime (w'.part.thresholdMs / 1000) _
        rw [hf.part]
        exact hinTime
      · exact fun _ htime => absurd htime List.not_mem_nil
      · change _ + w'.part.thresholdMs / 1000 ≤ w'.scheduler.now
        rw [hf.part, hf.now, htime]
        exact le_rfl
  · have hmem := hf.live.mem_iff.mpr List.mem_cons_self
    rw [htripped.noTimer] at hmem
    exact absurd hmem List.not_mem_nil

/-- Time passes up to the timer. -/
theorem Valid.around (h : Valid taskClass w) (ha : w.Around w') : Valid taskClass w' := by
  have hlive : live w'.scheduler = live w.scheduler := by
    rcases h.state with harmed | htripped
    · obtain ⟨e, he, -⟩ := harmed.timer
      rw [he]
      exact List.perm_singleton.mp (he ▸ ha.live)
    · rw [htripped.noTimer]
      exact (htripped.noTimer ▸ ha.live).eq_nil
  have hview : view w' = { view w with now := w'.scheduler.now } := by
    rw [view, hlive, ha.part]
    rfl
  have hdue : ∀ due ∈ (view w).timer, w'.scheduler.now ≤ due := by
    intro due hdue
    obtain ⟨e, he, rfl⟩ := Option.map_eq_some_iff.mp hdue
    exact now_le_of_live ha.valid (hlive ▸ List.mem_of_mem_head? he)
  refine ⟨ha.valid, ha.raised ▸ h.noRaise, ha.part ▸ h.threshold, ha.part ▸ h.last, ?_,
    hview ▸ h.reaches.tail (.waits _ ha.now_le hdue)⟩
  rcases h.state with harmed | htripped
  · obtain ⟨e, he, htimer⟩ := harmed.timer
    refine .inl ⟨ha.part ▸ harmed.untriggered, ⟨e, hlive.trans he, ?_⟩, ?_,
      ha.part ▸ harmed.noEvents⟩
    · rw [silenceS, ha.part]
      exact htimer
    · rw [silenceS, ha.part]
      exact harmed.inTime
  · obtain ⟨before, last, after, hbeats, hevents, hinTime, hafter, hnow⟩ := htripped.event
    refine .inr ⟨ha.part ▸ htripped.triggered, hlive.trans htripped.noTimer,
      before, last, after, ?_⟩
    rw [silenceS, ha.part]
    exact ⟨hbeats, hevents, hinTime, hafter, hnow.trans ha.now_le⟩

/-- So does the start. -/
theorem valid_init (taskClass : TaskClass) : Valid taskClass (init taskClass) := by
  have hsilence : 0 ≤ watchdogBlackoutMs taskClass / 1000 :=
    div_nonneg (watchdogBlackoutMs_pos taskClass).le (by norm_num)
  obtain ⟨scheduler, harm, hvalid, hnow, hlive⟩ := arm_spec
    (w := World.new
      { taskClass
        thresholdMs := watchdogBlackoutMs taskClass
        lastHeartbeat := 0
        timer := none
        triggered := false
        triggerEvents := []
        heartbeats := [0] }) Scheduler.valid_new hsilence rfl
  rw [init, harm]
  exact
    { valid := hvalid
      noRaise := rfl
      threshold := rfl
      last := ⟨[], rfl⟩
      state := .inl
        { untriggered := rfl
          timer := ⟨_, hlive, rfl, rfl⟩
          inTime := List.isChain_singleton _
          noEvents := rfl }
      reaches := by
        rw [view, hlive, hnow]
        exact .refl }

end WatchdogWorld

/-- The timer keeps its invariant, whatever else is scheduled. -/
theorem watchdogTimer_keeps (taskClass : TaskClass) : watchdogTimer.Keeps (Valid taskClass) where
  valid h := h.valid
  around h ha := h.around ha
  enter _ h _ := h.heartbeat
  fire _ h hf := h.fire hf
  resume {_ rest _} _ _ _ _ := rest.elim

/-- What is promised of the watchdog of a task class. -/
structure TriggersOnTime (taskClass : TaskClass) (w : WatchdogWorld) : Prop where
  /-- It has not triggered while no silence since a heartbeat was long enough. -/
  silent : w.part.triggered = false →
    InTime (watchdogBlackoutMs taskClass / 1000) (w.part.heartbeats ++ [w.scheduler.now]) ∧
      w.part.triggerEvents = []
  /-- It has triggered once, at the end of the first silence that was long enough. -/
  triggers : w.part.triggered = true → ∃ before last after,
    w.part.heartbeats = before ++ last :: after ∧
      w.part.triggerEvents =
        [⟨last + watchdogBlackoutMs taskClass / 1000, watchdogBlackoutMs taskClass⟩] ∧
      InTime (watchdogBlackoutMs taskClass / 1000) (before ++ [last]) ∧
      (∀ time ∈ after, last + watchdogBlackoutMs taskClass / 1000 ≤ time) ∧
      last + watchdogBlackoutMs taskClass / 1000 ≤ w.scheduler.now
  noRaise : w.raised = none

/-- A valid timer triggers after the silence, and not before. -/
theorem WatchdogWorld.Valid.triggersOnTime {w : WatchdogWorld} {taskClass : TaskClass}
    (h : Valid taskClass w) : TriggersOnTime taskClass w := by
  refine ⟨fun huntriggered => ?_, fun htriggered => ?_, h.noRaise⟩
  · rcases h.state with harmed | htripped
    · rw [← h.threshold]
      exact ⟨harmed.beats h.valid h.last, harmed.noEvents⟩
    · exact absurd (huntriggered.symm.trans htripped.triggered) Bool.false_ne_true
  · rcases h.state with harmed | htripped
    · exact absurd (harmed.untriggered.symm.trans htriggered) Bool.false_ne_true
    · rw [← h.threshold]
      exact htripped.event

end Sim

end RoboTele
