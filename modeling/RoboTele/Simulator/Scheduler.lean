import RoboTele.Queues.HeapQueue
import Mathlib.Data.Prod.Lex
import Mathlib.Algebra.Order.Ring.Rat

/-!
# The simulator's scheduler

A heap of events by time, and among events of one time by the order in which they were
scheduled.  `run` takes the least one, moves the clock to its time and runs its callback, until
none is left up to a given time.

The callbacks are anything that may schedule and cancel events, or run the scheduler again.  So
`run` is taken apart into its turns: `turn` takes one event and says which callback runs, and
whatever that callback does comes before the next turn.

`history` is not part of the program.  It holds what was scheduled, what became of it, and for
every `run` that returned what was pending then.
-/

namespace RoboTele.Sim

open HeapQueue

variable {κ : Type*}

/-- `_Event`.  The order of events looks at the time and the number only. -/
structure Event (κ : Type*) where
  time : ℚ
  seq : ℕ
  callback : κ
  cancelled : Bool
deriving DecidableEq

namespace Event

/-- Events run by their times, and those of one time in the order they were scheduled. -/
def key (e : Event κ) : ℚ ×ₗ ℕ := toLex (e.time, e.seq)

/-- The event as it was scheduled. -/
def scheduled (e : Event κ) : Event κ := { e with cancelled := false }

theorem scheduled_eq {e : Event κ} (h : e.cancelled = false) : e.scheduled = e := by
  cases e
  exact congrArg (Event.mk _ _ _) h.symm

theorem key_lt_key {e f : Event κ} (htime : e.time ≤ f.time) (hseq : e.seq < f.seq) :
    e.key < f.key := by
  rcases htime.lt_or_eq with hlt | heq
  · exact Prod.Lex.toLex_lt_toLex.mpr (.inl hlt)
  · exact Prod.Lex.toLex_lt_toLex.mpr (.inr ⟨heq, hseq⟩)

theorem time_le_of_key_lt {e f : Event κ} (h : e.key < f.key) : e.time ≤ f.time := by
  rcases Prod.Lex.toLex_lt_toLex.mp h with hlt | ⟨heq, -⟩
  · exact hlt.le
  · exact heq.le

end Event

/-- `ValueError`: `"cannot schedule in the past: {time} < {now}"` and `"delay must be >= 0"`. -/
inductive ScheduleError where
  | past (time now : ℚ)
  | negativeDelay
deriving DecidableEq

/-- What became of every event. -/
structure History (κ : Type*) where
  scheduled : List (Event κ)
  executed : List (Event κ)
  skipped : List (Event κ)
  cancelled : List ℕ
  returned : List (ℚ × List (Event κ))

/-- The events to come, in the order of their times and numbers. -/
structure Scheduler (κ : Type*) where
  heap : List (Event κ)
  seq : ℕ
  now : ℚ
  history : History κ

/-- What a turn of `run` comes to. -/
inductive Turn (κ : Type*) where
  | executes (callback : κ)
  | skips
  | returns

namespace Scheduler

def new : Scheduler κ where
  heap := []
  seq := 0
  now := 0
  history := { scheduled := [], executed := [], skipped := [], cancelled := [], returned := [] }

/-- An event at a time that is not past. -/
def scheduleAt (s : Scheduler κ) (time : ℚ) (callback : κ) : Except ScheduleError (Scheduler κ) :=
  if time < s.now then .error (.past time s.now)
  else
    let event : Event κ := { time, seq := s.seq, callback, cancelled := false }
    .ok
      { s with
        heap := push Event.key event s.heap
        seq := s.seq + 1
        history := { s.history with scheduled := s.history.scheduled ++ [event] } }

/-- An event after a delay that is not negative. -/
def schedule (s : Scheduler κ) (delay : ℚ) (callback : κ) : Except ScheduleError (Scheduler κ) :=
  if delay < 0 then .error .negativeDelay else s.scheduleAt (s.now + delay) callback

/-- `EventHandle.cancel`, by the number of the event. -/
def cancel (s : Scheduler κ) (seq : ℕ) : Scheduler κ :=
  { s with
    heap := s.heap.map fun e => if e.seq = seq then { e with cancelled := true } else e
    history := { s.history with cancelled := s.history.cancelled ++ [seq] } }

/-- After the loop of `run`. -/
def returnAt (s : Scheduler κ) (untilTime : ℚ) : Scheduler κ :=
  { s with
    now := max s.now untilTime
    history := { s.history with returned := s.history.returned ++ [(untilTime, s.heap)] } }

/-- One turn of the loop of `run`, up to the call of the callback. -/
def turn (s : Scheduler κ) (untilTime : ℚ) : Turn κ × Scheduler κ :=
  match s.heap with
  | [] => (.returns, s.returnAt untilTime)
  | e :: heap =>
      if e.time ≤ untilTime then
        if e.cancelled then
          let history := { s.history with skipped := s.history.skipped ++ [e] }
          (.skips, { s with heap, history })
        else
          let history := { s.history with executed := s.history.executed ++ [e] }
          (.executes e.callback, { s with heap, now := e.time, history })
      else (.returns, s.returnAt untilTime)

/-! ## What one call does -/

variable {s s' : Scheduler κ} {time delay untilTime : ℚ} {callback : κ}

theorem scheduleAt_eq_ok (callback : κ) (h : s.now ≤ time) :
    ∃ s', s.scheduleAt time callback = .ok s' := by
  rw [scheduleAt, if_neg (not_lt.mpr h)]
  exact ⟨_, rfl⟩

theorem schedule_eq_ok (s : Scheduler κ) (callback : κ) (h : 0 ≤ delay) :
    ∃ s', s.schedule delay callback = .ok s' := by
  rw [schedule, if_neg (not_lt.mpr h)]
  exact scheduleAt_eq_ok callback (le_add_of_nonneg_right h)

/-- What an accepted call of `schedule_at` does. -/
theorem scheduleAt_cases (h : s.scheduleAt time callback = .ok s') :
    s.now ≤ time ∧ s' =
      { s with
        heap := push Event.key ⟨time, s.seq, callback, false⟩ s.heap
        seq := s.seq + 1
        history :=
          { s.history with
            scheduled := s.history.scheduled ++ [⟨time, s.seq, callback, false⟩] } } := by
  rw [scheduleAt] at h
  split at h
  · cases h
  · next hlt => exact ⟨not_lt.mp hlt, (Except.ok.inj h).symm⟩

/-- `schedule` is `schedule_at` at a time that is not past. -/
theorem schedule_cases (h : s.schedule delay callback = .ok s') :
    s.scheduleAt (s.now + delay) callback = .ok s' := by
  rw [schedule] at h
  split at h
  · cases h
  · exact h

/-- What a turn does. -/
inductive Turns (s : Scheduler κ) (untilTime : ℚ) : Turn κ → Scheduler κ → Prop
  | executes (e : Event κ) (heap : List (Event κ)) (hheap : s.heap = e :: heap)
      (hdue : e.time ≤ untilTime) (hcancelled : e.cancelled = false) :
      Turns s untilTime (.executes e.callback)
        { s with
          heap
          now := e.time
          history := { s.history with executed := s.history.executed ++ [e] } }
  | skips (e : Event κ) (heap : List (Event κ)) (hheap : s.heap = e :: heap)
      (hdue : e.time ≤ untilTime) (hcancelled : e.cancelled = true) :
      Turns s untilTime .skips
        { s with heap, history := { s.history with skipped := s.history.skipped ++ [e] } }
  | returns (hheap : ∀ e ∈ s.heap.head?, untilTime < e.time) :
      Turns s untilTime .returns (s.returnAt untilTime)

theorem turn_cases (s : Scheduler κ) (untilTime : ℚ) :
    Turns s untilTime (s.turn untilTime).1 (s.turn untilTime).2 := by
  rw [turn]
  split
  · next hheap =>
      refine .returns ?_
      rw [hheap]
      exact fun e he => absurd he (Option.not_mem_none e)
  · next e heap hheap =>
      split
      · next hdue =>
          split
          · next hcancelled => exact .skips e heap hheap hdue hcancelled
          · next hcancelled =>
              exact .executes e heap hheap hdue (Bool.eq_false_of_not_eq_true hcancelled)
      · next hdue =>
          refine .returns ?_
          rw [hheap]
          rintro f ⟨⟩
          exact not_le.mp hdue

end Scheduler

end RoboTele.Sim
