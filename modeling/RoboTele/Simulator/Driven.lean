import RoboTele.Runs.Machine
import RoboTele.Simulator.SchedulerOrder

/-!
# Code that the scheduler drives

A part of the simulator has a state, calls that other code makes, and callbacks that it gives to
the scheduler.  Other code is anything that makes these calls, schedules and cancels events of
its own or runs the scheduler.  `calls` is what Python's call stack holds of this, and an
operation is the next thing that happens: a call made by the code that runs now, a turn of the
innermost `run`, or the return of the innermost callback.  Nothing catches what a part raises.

To a part all of this comes down to little (`Part.Keeps`).  Other code leaves its state and its
events alone and lets time pass (`Around`).  The scheduler takes one of its events at the event's
time, before all the others (`Fires`).
-/

namespace RoboTele.Sim

open HeapQueue Runs

variable {κ σ φ ι ρ : Type*}

/-- A call that has not returned. -/
inductive Call (φ : Type*) where
  | run (untilTime : ℚ)
  | callback
  /-- The part has called other code, and does the rest when that returns. -/
  | own (rest : φ)
deriving DecidableEq

/-- What the code may raise. -/
inductive Raised where
  | schedule (error : ScheduleError)
  /-- `OverflowError`: `"int too large to convert to float"`. -/
  | overflow
deriving DecidableEq

/-- A part of the simulator and what surrounds it.  The callbacks of other code are `none`. -/
structure World (κ σ φ : Type*) where
  scheduler : Scheduler (Option κ)
  part : σ
  calls : List (Call φ)
  raised : Option Raised

/-- The code of a part: what other code calls, the callbacks, and what is left to do when other
code returns. -/
structure Part (κ σ φ ι ρ : Type*) where
  enter : ι → World κ σ φ → World κ σ φ
  fire : ρ → κ → World κ σ φ → World κ σ φ
  resume : ρ → φ → World κ σ φ → World κ σ φ

/-- What happens next.  The first five are calls by the code that runs. -/
inductive Act (ι ρ : Type*) where
  | enter (input : ι)
  | schedule (delay : ℚ)
  | scheduleAt (time : ℚ)
  | cancel (seq : ℕ)
  | run (untilTime : ℚ)
  | turn (input : ρ)
  | returns (input : ρ)

/-! ## What can happen -/

namespace World

def new (part : σ) : World κ σ φ where
  scheduler := .new
  part
  calls := []
  raised := none

/-- The innermost call is not the scheduler's. -/
def codeRuns (w : World κ σ φ) : Bool :=
  match w.calls with
  | .run _ :: _ => false
  | _ => true

/-- A call that raises in the code that made it. -/
def attempt (w : World κ σ φ) : Except ScheduleError (Scheduler (Option κ)) → World κ σ φ
  | .ok scheduler => { w with scheduler }
  | .error _ => w

/-- Other code has a handle of this event. -/
def hasHandle (w : World κ σ φ) (seq : ℕ) : Bool :=
  seq < w.scheduler.seq && w.scheduler.heap.all fun e => e.seq != seq || e.callback.isNone

/-- The part schedules an event. -/
def scheduleAt (time : ℚ) (callback : κ) (w : World κ σ φ) : World κ σ φ :=
  match w.scheduler.scheduleAt time (some callback) with
  | .ok scheduler => { w with scheduler }
  | .error error => { w with raised := some (.schedule error) }

/-- The code schedules a callback, or raises what the scheduler does. -/
def schedule (delay : ℚ) (callback : κ) (w : World κ σ φ) : World κ σ φ :=
  match w.scheduler.schedule delay (some callback) with
  | .ok scheduler => { w with scheduler }
  | .error error => { w with raised := some (.schedule error) }

end World

namespace Part

/-- A turn of the innermost `run`.  `calls` are those around it. -/
def runTurn (p : Part κ σ φ ι ρ) (input : ρ) (untilTime : ℚ) (calls : List (Call φ))
    (w : World κ σ φ) : World κ σ φ :=
  match w.scheduler.turn untilTime with
  | (.executes (some callback), scheduler) => p.fire input callback { w with scheduler }
  | (.executes none, scheduler) => { w with scheduler, calls := .callback :: w.calls }
  | (.skips, scheduler) => { w with scheduler }
  | (.returns, scheduler) => { w with scheduler, calls }

/-- An operation that cannot happen now changes nothing. -/
def step (p : Part κ σ φ ι ρ) (w : World κ σ φ) (act : Act ι ρ) : World κ σ φ :=
  if w.raised.isSome then w
  else
    match act with
    | .enter input => if w.codeRuns then p.enter input w else w
    | .schedule delay => if w.codeRuns then w.attempt (w.scheduler.schedule delay none) else w
    | .scheduleAt time => if w.codeRuns then w.attempt (w.scheduler.scheduleAt time none) else w
    | .cancel seq =>
        if w.codeRuns ∧ w.hasHandle seq then { w with scheduler := w.scheduler.cancel seq } else w
    | .run untilTime => if w.codeRuns then { w with calls := .run untilTime :: w.calls } else w
    | .turn input =>
        match w.calls with
        | .run untilTime :: calls => p.runTurn input untilTime calls w
        | _ => w
    | .returns input =>
        match w.calls with
        | .callback :: calls => { w with calls }
        | .own rest :: calls => p.resume input rest { w with calls }
        | _ => w

end Part

/-! ## The events of a part -/

/-- An event of the part that was not cancelled. -/
def Event.live? (e : Event (Option κ)) : Option (Event κ) :=
  if e.cancelled then none else e.callback.map fun callback => { e with callback }

/-- The events of the part that will run, in their order. -/
def live (s : Scheduler (Option κ)) : List (Event κ) := s.heap.filterMap Event.live?

/-- A cancelled event fires nothing. -/
theorem Event.live?_cancelled {e : Event (Option κ)} (h : e.cancelled = true) : e.live? = none :=
  if_pos h

/-- Nor does an event of another part. -/
theorem Event.live?_other {e : Event (Option κ)} (h : e.callback = none) : e.live? = none := by
  rw [Event.live?, h]
  split <;> rfl

/-- What is live of an event is the event with its callback. -/
theorem Event.live?_eq_some {e : Event (Option κ)} {f : Event κ} (h : e.live? = some f) :
    e.callback = some f.callback ∧ e.time = f.time ∧ e.seq = f.seq ∧ f.cancelled = false := by
  rw [Event.live?] at h
  split at h
  · cases h
  · next hflag =>
      obtain ⟨callback, hcallback, rfl⟩ := Option.map_eq_some_iff.mp h
      exact ⟨hcallback, rfl, rfl, Bool.eq_false_of_not_eq_true hflag⟩

section Live

variable {s s' : Scheduler (Option κ)} {time untilTime : ℚ}

/-- What the part schedules is one more live event. -/
theorem live_scheduleAt {callback : κ} (h : s.scheduleAt time (some callback) = .ok s') :
    (live s').Perm (⟨time, s.seq, callback, false⟩ :: live s) := by
  obtain ⟨-, rfl⟩ := Scheduler.scheduleAt_cases h
  have hperm := (push_perm Event.key (⟨time, s.seq, some callback, false⟩ : Event (Option κ))
    s.heap).filterMap Event.live?
  exact hperm.trans (List.Perm.of_eq rfl)

/-- An event of another part leaves the live ones. -/
theorem live_scheduleAt_other (h : s.scheduleAt time none = .ok s') :
    (live s').Perm (live s) := by
  obtain ⟨-, rfl⟩ := Scheduler.scheduleAt_cases h
  have hperm := (push_perm Event.key (⟨time, s.seq, none, false⟩ : Event (Option κ))
    s.heap).filterMap Event.live?
  exact hperm.trans (List.Perm.of_eq rfl)

/-- What is cancelled is live no more. -/
theorem live_cancel (s : Scheduler (Option κ)) (seq : ℕ) :
    live (s.cancel seq) = (live s).filter fun e => e.seq != seq := by
  rw [live, live, Scheduler.cancel, List.filterMap_map, List.filter_filterMap]
  refine List.filterMap_congr fun e _ => ?_
  rw [Function.comp_apply]
  split
  · next heq =>
      rw [Event.live?_cancelled rfl]
      cases hlive : e.live? with
      | none => rfl
      | some f =>
          have hseq := (Event.live?_eq_some hlive).2.2.1
          rw [Option.filter_some_neg]
          rw [← hseq, heq, bne_self_eq_false]
  · next hne =>
      cases hlive : e.live? with
      | none => rfl
      | some f =>
          have hseq := (Event.live?_eq_some hlive).2.2.1
          rw [Option.filter_some_pos]
          rw [← hseq, bne_iff_ne]
          exact hne

/-- Nothing live is before the clock. -/
theorem now_le_of_live (h : s.Valid) {e : Event κ} (he : e ∈ live s) : s.now ≤ e.time := by
  obtain ⟨f, hf, hlive⟩ := List.mem_filterMap.mp he
  rw [← (Event.live?_eq_some hlive).2.1]
  exact h.future f hf

end Live

/-! ## What a part has to keep -/

/-- The calls of the part that wait for other code. -/
def Call.own? : Call φ → Option φ
  | .own rest => some rest
  | .run _ | .callback => none

namespace World

/-- The rests of the part's own functions that are to run. -/
def waiting (w : World κ σ φ) : List φ := w.calls.filterMap Call.own?

/-- What other code does to the part. -/
structure Around (w w' : World κ σ φ) : Prop where
  valid : w'.scheduler.Valid
  live : (live w'.scheduler).Perm (live w.scheduler)
  part : w'.part = w.part
  waiting : w'.waiting = w.waiting
  raised : w'.raised = w.raised
  now_le : w.scheduler.now ≤ w'.scheduler.now

/-- The scheduler is about to call the event's callback. -/
structure Fires (w : World κ σ φ) (e : Event κ) (w' : World κ σ φ) : Prop where
  valid : w'.scheduler.Valid
  live : (live w.scheduler).Perm (e :: Sim.live w'.scheduler)
  part : w'.part = w.part
  calls : w'.calls = w.calls
  noneRaised : w.raised = none
  raised : w'.raised = none
  now : w'.scheduler.now = e.time
  now_le : w.scheduler.now ≤ e.time
  first : ∀ f ∈ Sim.live w'.scheduler, e.time ≤ f.time

/-- A call of the scheduler by the part: it raises nothing. -/
structure Schedules (time : ℚ) (callback : κ) (w w' : World κ σ φ) : Prop where
  valid : w'.scheduler.Valid
  live : (live w'.scheduler).Perm
    (⟨time, w.scheduler.seq, callback, false⟩ :: Sim.live w.scheduler)
  part : w'.part = w.part
  calls : w'.calls = w.calls
  raised : w'.raised = w.raised
  now : w'.scheduler.now = w.scheduler.now

/-- A callback in the future is scheduled. -/
theorem scheduleAt_schedules {w : World κ σ φ} {time : ℚ} (h : w.scheduler.Valid) (callback : κ)
    (htime : w.scheduler.now ≤ time) : w.Schedules time callback (w.scheduleAt time callback) := by
  obtain ⟨s, hs⟩ := Scheduler.scheduleAt_eq_ok (some callback) htime
  rw [scheduleAt, hs]
  exact ⟨h.scheduleAt hs, live_scheduleAt hs, rfl, rfl, rfl, Scheduler.now_scheduleAt hs⟩

/-- A delay is counted from now. -/
theorem schedule_eq {w : World κ σ φ} {delay : ℚ} (callback : κ) (h : 0 ≤ delay) :
    w.schedule delay callback = w.scheduleAt (w.scheduler.now + delay) callback := by
  rw [schedule, Scheduler.schedule, if_neg (not_lt.mpr h), scheduleAt]

theorem schedule_schedules {w : World κ σ φ} {delay : ℚ} (h : w.scheduler.Valid) (callback : κ)
    (hdelay : 0 ≤ delay) :
    w.Schedules (w.scheduler.now + delay) callback (w.schedule delay callback) := by
  rw [schedule_eq callback hdelay]
  exact scheduleAt_schedules h callback (le_add_of_nonneg_right hdelay)

end World

/-- What is enough for every run to keep `I`. -/
structure Part.Keeps (p : Part κ σ φ ι ρ) (I : World κ σ φ → Prop) : Prop where
  valid : ∀ {w}, I w → w.scheduler.Valid
  around : ∀ {w w'}, I w → w.Around w' → I w'
  enter : ∀ {w} input, I w → w.raised = none → I (p.enter input w)
  fire : ∀ {w e w'} input, I w → w.Fires e w' → I (p.fire input e.callback w')
  resume : ∀ {w rest calls} input, I w → w.raised = none → w.calls = .own rest :: calls →
    I (p.resume input rest { w with calls })

namespace Part.Keeps

open World

variable {p : Part κ σ φ ι ρ} {I : World κ σ φ → Prop} {w : World κ σ φ}

theorem around_scheduler (hp : p.Keeps I) (h : I w) {scheduler : Scheduler (Option κ)}
    (hvalid : scheduler.Valid) (hlive : (live scheduler).Perm (live w.scheduler))
    (hnow : w.scheduler.now ≤ scheduler.now) : I { w with scheduler } :=
  hp.around h ⟨hvalid, hlive, rfl, rfl, rfl, hnow⟩

/-- Calls of other parts keep the invariant. -/
theorem around_calls (hp : p.Keeps I) (h : I w) {calls : List (Call φ)}
    (hwaiting : calls.filterMap Call.own? = w.waiting) : I { w with calls } :=
  have hvalid : w.scheduler.Valid := hp.valid h
  hp.around h ⟨hvalid, List.Perm.refl _, rfl, hwaiting, rfl, le_rfl⟩

/-- So does an attempt to schedule one. -/
theorem attempt (hp : p.Keeps I) (h : I w) (time : ℚ) :
    I (w.attempt (w.scheduler.scheduleAt time none)) := by
  cases hcall : w.scheduler.scheduleAt time none with
  | error _ => exact h
  | ok scheduler =>
      exact hp.around_scheduler h ((hp.valid h).scheduleAt hcall) (live_scheduleAt_other hcall)
        (Scheduler.now_scheduleAt hcall).ge

/-- So does a handle that is cancelled. -/
theorem cancel (hp : p.Keeps I) (h : I w) {seq : ℕ} (hhandle : w.hasHandle seq = true) :
    I { w with scheduler := w.scheduler.cancel seq } := by
  refine hp.around_scheduler h ((hp.valid h).cancel seq) (List.Perm.of_eq ?_) le_rfl
  rw [live_cancel, List.filter_eq_self]
  intro e he
  obtain ⟨f, hf, hlive⟩ := List.mem_filterMap.mp he
  obtain ⟨hcallback, -, hseq, -⟩ := Event.live?_eq_some hlive
  have hother := List.all_eq_true.mp (Bool.and_eq_true_iff.mp hhandle).2 f hf
  rw [hcallback, Option.isNone_some, Bool.or_false] at hother
  rwa [← hseq]

/-- So does a turn of the scheduler. -/
theorem runTurn (hp : p.Keeps I) (h : I w) (hraised : w.raised = none) {untilTime : ℚ}
    {calls : List (Call φ)} (hcalls : w.calls = .run untilTime :: calls) (input : ρ) :
    I (p.runTurn input untilTime calls w) := by
  have hturn := w.scheduler.turn_cases untilTime
  have hvalid := (hp.valid h).turns hturn
  have hnow := hturn.now_le (hp.valid h)
  rw [Part.runTurn]
  generalize w.scheduler.turn untilTime = r at hturn hvalid hnow ⊢
  obtain ⟨t, scheduler⟩ := r
  cases hturn with
  | returns hhead =>
      refine hp.around h ⟨hvalid, List.Perm.refl _, rfl, ?_, rfl, hnow⟩
      rw [World.waiting, World.waiting, hcalls]
      rfl
  | skips e heap hheap hdue hcancelled =>
      refine hp.around_scheduler h hvalid (List.Perm.of_eq ?_) hnow
      rw [live, live, hheap, List.filterMap_cons_none (Event.live?_cancelled hcancelled)]
  | executes e heap hheap hdue hcancelled =>
      dsimp only at hvalid hnow ⊢
      cases hcallback : e.callback with
      | none =>
          refine hp.around h ⟨hvalid, List.Perm.of_eq ?_, rfl, rfl, rfl, hnow⟩
          rw [live, live, hheap, List.filterMap_cons_none (Event.live?_other hcallback)]
      | some callback =>
          have hlive : e.live? = some { e with callback } := by
            rw [Event.live?, hcancelled, if_neg Bool.false_ne_true, hcallback]
            rfl
          have hfires : w.Fires { e with callback } { w with scheduler := _ } :=
            { valid := hvalid
              live := by
                rw [live, hheap, List.filterMap_cons_some hlive]
                exact List.Perm.refl _
              part := rfl
              calls := rfl
              noneRaised := hraised
              raised := hraised
              now := rfl
              now_le := hnow
              first := fun f hf => now_le_of_live hvalid hf }
          exact hp.fire input h hfires

/-- So does every act. -/
theorem step (hp : p.Keeps I) (h : I w) (act : Act ι ρ) : I (p.step w act) := by
  rw [Part.step.eq_def]
  split
  · exact h
  · next hsome =>
      have hraised : w.raised = none := Option.not_isSome_iff_eq_none.mp hsome
      cases act with
      | enter input =>
          dsimp only
          split
          · exact hp.enter input h hraised
          · exact h
      | schedule delay =>
          dsimp only
          split
          · rw [Scheduler.schedule]
            split
            · exact h
            · exact hp.attempt h _
          · exact h
      | scheduleAt time =>
          dsimp only
          split
          · exact hp.attempt h time
          · exact h
      | cancel seq =>
          dsimp only
          split
          · next hhandle => exact hp.cancel h hhandle.2
          · exact h
      | run untilTime =>
          dsimp only
          split
          · exact hp.around_calls h rfl
          · exact h
      | turn input =>
          dsimp only
          split
          · next hcalls => exact hp.runTurn h hraised hcalls input
          · exact h
      | returns input =>
          dsimp only
          split
          · next hcalls =>
              refine hp.around_calls h ?_
              rw [World.waiting, hcalls]
              rfl
          · next hcalls => exact hp.resume input h hraised hcalls
          · exact h

/-- So does every run. -/
theorem exec (hp : p.Keeps I) (h : I w) (acts : List (Act ι ρ)) : I (Runs.exec p.step w acts) :=
  exec_inv (I := I) (fun _ act hw => hp.step hw act) acts h

end Part.Keeps

end RoboTele.Sim
