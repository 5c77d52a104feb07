import RoboTele.Simulator.Scheduler

/-!
# The order in which the scheduler executes events

Nothing can be scheduled before the clock, and the clock only moves to the time of the event
that is executed or to the end of a `run`.  So what is executed is before all that is pending
and not after the clock, and a new event is behind both (`Scheduler.Valid`).

It follows that events are executed in the order of their times and numbers, and that each one
is executed, pending, or skipped because it was cancelled (`Valid.executed_or_pending`).
-/

namespace RoboTele.Sim.Scheduler

open HeapQueue

variable {κ : Type*} {s s' : Scheduler κ} {time delay untilTime : ℚ} {callback : κ}

/-- Every event there ever was, wherever it is now. -/
def events (s : Scheduler κ) : List (Event κ) :=
  s.history.executed ++ s.history.skipped ++ s.heap

/-- The heap is in order and after what was executed, and every event is accounted for. -/
structure Valid (s : Scheduler κ) : Prop where
  inOrder : InOrder Event.key s.heap
  future : ∀ e ∈ s.heap, s.now ≤ e.time
  numbered : s.history.scheduled.map Event.seq = List.range s.seq
  accounted : (s.events.map Event.scheduled).Perm s.history.scheduled
  executedInOrder : InOrder Event.key s.history.executed
  executedPast : ∀ e ∈ s.history.executed, e.time ≤ s.now
  executedFirst : ∀ e ∈ s.history.executed, ∀ f ∈ s.heap, e.key < f.key
  uncancelled : ∀ e ∈ s.history.executed, e.cancelled = false
  skippedCancelled : ∀ e ∈ s.history.skipped, e.seq ∈ s.history.cancelled
  pendingCancelled : ∀ e ∈ s.heap, e.cancelled = true → e.seq ∈ s.history.cancelled
  returnedPast : ∀ r ∈ s.history.returned, ∀ e ∈ r.2, r.1 < e.time

/-- A new scheduler is valid. -/
theorem valid_new : (new : Scheduler κ).Valid where
  inOrder := List.Pairwise.nil
  future _ he := absurd he List.not_mem_nil
  numbered := rfl
  accounted := List.Perm.nil
  executedInOrder := List.Pairwise.nil
  executedPast _ he := absurd he List.not_mem_nil
  executedFirst _ he := absurd he List.not_mem_nil
  uncancelled _ he := absurd he List.not_mem_nil
  skippedCancelled _ he := absurd he List.not_mem_nil
  pendingCancelled _ he := absurd he List.not_mem_nil
  returnedPast _ hr := absurd hr List.not_mem_nil

namespace Valid

theorem perm_range (h : s.Valid) : (s.events.map Event.seq).Perm (List.range s.seq) := by
  have hseqs := h.accounted.map Event.seq
  rwa [List.map_map, h.numbered] at hseqs

/-- Events are numbered below the next number. -/
theorem seq_lt (h : s.Valid) {e : Event κ} (he : e ∈ s.events) : e.seq < s.seq :=
  List.mem_range.mp (h.perm_range.mem_iff.mp (List.mem_map_of_mem he))

theorem seq_lt_of_executed (h : s.Valid) {e : Event κ} (he : e ∈ s.history.executed) :
    e.seq < s.seq :=
  h.seq_lt (List.mem_append_left _ (List.mem_append_left _ he))

theorem seq_lt_of_pending (h : s.Valid) {e : Event κ} (he : e ∈ s.heap) : e.seq < s.seq :=
  h.seq_lt (List.mem_append_right _ he)

/-! ## What one call keeps -/

/-- An event that is scheduled keeps the scheduler valid. -/
theorem scheduleAt (h : s.Valid) (hcall : s.scheduleAt time callback = .ok s') : s'.Valid := by
  obtain ⟨htime, rfl⟩ := scheduleAt_cases hcall
  have hnew : ∀ e ∈ s.heap, e.key ≠ (⟨time, s.seq, callback, false⟩ : Event κ).key :=
    fun e he heq => (h.seq_lt_of_pending he).ne (congrArg Prod.snd (toLex.injective heq))
  have hperm := (push_perm Event.key ⟨time, s.seq, callback, false⟩ s.heap).append_left
    (s.history.executed ++ s.history.skipped)
  exact
    { inOrder := h.inOrder.push hnew
      future := forall_mem_push htime h.future
      numbered := by
        rw [List.map_append, h.numbered, List.range_succ]
        rfl
      accounted := by
        refine ((hperm.trans List.perm_middle).map Event.scheduled).trans ?_
        exact (h.accounted.cons _).trans (List.perm_append_singleton _ _).symm
      executedInOrder := h.executedInOrder
      executedPast := h.executedPast
      executedFirst := fun e he => forall_mem_push
        (Event.key_lt_key ((h.executedPast e he).trans htime) (h.seq_lt_of_executed he))
        (h.executedFirst e he)
      uncancelled := h.uncancelled
      skippedCancelled := h.skippedCancelled
      pendingCancelled := forall_mem_push (fun hfalse => absurd hfalse Bool.false_ne_true)
        h.pendingCancelled
      returnedPast := h.returnedPast }

theorem schedule (h : s.Valid) (hcall : s.schedule delay callback = .ok s') : s'.Valid :=
  h.scheduleAt (schedule_cases hcall)

/-- So does one that is cancelled. -/
theorem cancel (h : s.Valid) (seq : ℕ) : (s.cancel seq).Valid := by
  have hmark : ∀ e : Event κ, (if e.seq = seq then { e with cancelled := true } else e).key =
      e.key := by
    intro e
    split <;> rfl
  have hscheduled : (s.cancel seq).events.map Event.scheduled =
      s.events.map Event.scheduled := by
    simp only [events, Scheduler.cancel, List.map_append, List.map_map]
    refine congrArg _ (List.map_congr_left fun e _ => ?_)
    simp only [Function.comp_apply]
    split <;> rfl
  exact
    { inOrder := h.inOrder.map hmark
      future := List.forall_mem_map.mpr fun e he => by
        split <;> exact h.future e he
      numbered := h.numbered
      accounted := hscheduled ▸ h.accounted
      executedInOrder := h.executedInOrder
      executedPast := h.executedPast
      executedFirst := fun e he => List.forall_mem_map.mpr fun f hf => by
        rw [hmark]
        exact h.executedFirst e he f hf
      uncancelled := h.uncancelled
      skippedCancelled := fun e he => List.mem_append_left _ (h.skippedCancelled e he)
      pendingCancelled := List.forall_mem_map.mpr fun e he => by
        split
        · next heq => exact fun _ => List.mem_append_right _ (List.mem_singleton.mpr heq)
        · exact fun hflag => List.mem_append_left _ (h.pendingCancelled e he hflag)
      returnedPast := h.returnedPast }

theorem returnAt (h : s.Valid) (hhead : ∀ e ∈ s.heap.head?, untilTime < e.time) :
    (s.returnAt untilTime).Valid := by
  have hpast : ∀ e ∈ s.heap, untilTime < e.time := by
    cases hheap : s.heap with
    | nil => exact fun e he => absurd he List.not_mem_nil
    | cons f heap =>
        rw [hheap] at hhead
        have hf := hhead f rfl
        have hlt := (hheap ▸ h.inOrder).head_lt
        intro e he
        rcases List.mem_cons.mp he with rfl | he
        · exact hf
        · exact hf.trans_le (Event.time_le_of_key_lt (hlt e he))
  exact
    { h with
      future := fun e he => max_le (h.future e he) (hpast e he).le
      executedPast := fun e he => (h.executedPast e he).trans (le_max_left _ _)
      returnedPast := List.forall_mem_append.mpr
        ⟨h.returnedPast, List.forall_mem_singleton.mpr hpast⟩ }

/-- The least event is executed. -/
theorem executes {e : Event κ} {heap : List (Event κ)} (h : s.Valid) (hheap : s.heap = e :: heap)
    (hcancelled : e.cancelled = false) :
    Valid
      { s with
        heap
        now := e.time
        history := { s.history with executed := s.history.executed ++ [e] } } := by
  have he : e ∈ s.heap := hheap ▸ List.mem_cons_self
  have hrest : ∀ f ∈ heap, f ∈ s.heap := fun f hf => hheap ▸ List.mem_cons_of_mem e hf
  have hlt : ∀ f ∈ heap, e.key < f.key := (hheap ▸ h.inOrder).head_lt
  have hperm : (s.history.executed ++ [e] ++ s.history.skipped ++ heap).Perm s.events := by
    rw [events, hheap, List.append_assoc _ [e], List.singleton_append, List.append_assoc,
      List.append_assoc _ s.history.skipped]
    exact List.perm_middle.symm.append_left _
  exact
    { inOrder := (hheap ▸ h.inOrder).tail
      future := fun f hf => Event.time_le_of_key_lt (hlt f hf)
      numbered := h.numbered
      accounted := (hperm.map Event.scheduled).trans h.accounted
      executedInOrder := List.pairwise_append.mpr ⟨h.executedInOrder,
        List.pairwise_singleton _ e, fun x hx y hy =>
          List.mem_singleton.mp hy ▸ h.executedFirst x hx e he⟩
      executedPast := List.forall_mem_append.mpr
        ⟨fun x hx => (h.executedPast x hx).trans (h.future e he),
          List.forall_mem_singleton.mpr le_rfl⟩
      executedFirst := List.forall_mem_append.mpr
        ⟨fun x hx f hf => h.executedFirst x hx f (hrest f hf),
          List.forall_mem_singleton.mpr hlt⟩
      uncancelled := List.forall_mem_append.mpr
        ⟨h.uncancelled, List.forall_mem_singleton.mpr hcancelled⟩
      skippedCancelled := h.skippedCancelled
      pendingCancelled := fun f hf => h.pendingCancelled f (hrest f hf)
      returnedPast := h.returnedPast }

/-- The least event was cancelled. -/
theorem skips {e : Event κ} {heap : List (Event κ)} (h : s.Valid) (hheap : s.heap = e :: heap)
    (hcancelled : e.cancelled = true) :
    Valid
      { s with heap, history := { s.history with skipped := s.history.skipped ++ [e] } } := by
  have he : e ∈ s.heap := hheap ▸ List.mem_cons_self
  have hrest : ∀ f ∈ heap, f ∈ s.heap := fun f hf => hheap ▸ List.mem_cons_of_mem e hf
  have hsame : s.history.executed ++ (s.history.skipped ++ [e]) ++ heap = s.events := by
    rw [events, hheap, List.append_assoc, List.append_assoc, List.append_assoc,
      List.singleton_append]
  exact
    { inOrder := (hheap ▸ h.inOrder).tail
      future := fun f hf => h.future f (hrest f hf)
      numbered := h.numbered
      accounted := (List.Perm.of_eq (congrArg (List.map Event.scheduled) hsame)).trans h.accounted
      executedInOrder := h.executedInOrder
      executedPast := h.executedPast
      executedFirst := fun x hx f hf => h.executedFirst x hx f (hrest f hf)
      uncancelled := h.uncancelled
      skippedCancelled := List.forall_mem_append.mpr
        ⟨h.skippedCancelled, List.forall_mem_singleton.mpr (h.pendingCancelled e he hcancelled)⟩
      pendingCancelled := fun f hf => h.pendingCancelled f (hrest f hf)
      returnedPast := h.returnedPast }

/-- So does a turn. -/
theorem turns {t : Turn κ} (h : s.Valid) (hturn : Turns s untilTime t s') : s'.Valid := by
  cases hturn with
  | returns hhead => exact h.returnAt hhead
  | executes e heap hheap _ hcancelled => exact h.executes hheap hcancelled
  | skips e heap hheap _ hcancelled => exact h.skips hheap hcancelled

/-! ## What the invariant says -/

/-- An event that was not cancelled is executed or pending, and it is not both. -/
theorem executed_or_pending (h : s.Valid) {e : Event κ} (he : e ∈ s.history.scheduled)
    (hcancelled : e.seq ∉ s.history.cancelled) :
    (e ∈ s.history.executed ∧ e ∉ s.heap) ∨ (e ∈ s.heap ∧ e ∉ s.history.executed) := by
  obtain ⟨x, hx, rfl⟩ := List.mem_map.mp (h.accounted.mem_iff.mpr he)
  have hnever : x ∈ s.history.executed → x ∉ s.heap := fun hexecuted hpending =>
    lt_irrefl _ (h.executedFirst x hexecuted x hpending)
  rcases List.mem_append.mp hx with hx | hpending
  · rcases List.mem_append.mp hx with hexecuted | hskipped
    · rw [Event.scheduled_eq (h.uncancelled x hexecuted)]
      exact .inl ⟨hexecuted, hnever hexecuted⟩
    · exact absurd (h.skippedCancelled x hskipped) hcancelled
  · have hflag : x.cancelled = false :=
      Bool.eq_false_of_not_eq_true fun hflag => hcancelled (h.pendingCancelled x hpending hflag)
    rw [Event.scheduled_eq hflag]
    exact .inr ⟨hpending, fun hexecuted => hnever hexecuted hpending⟩

end Valid

/-- What is promised of the events. -/
structure ExecutesOnce (s : Scheduler κ) : Prop where
  /-- Every call that was accepted has its number. -/
  calls : s.history.scheduled.map Event.seq = List.range s.seq
  onlyScheduled : ∀ e ∈ s.history.executed, e ∈ s.history.scheduled
  /-- By time and number, and no event twice. -/
  inOrder : s.history.executed.Pairwise fun e f => e.key < f.key
  executedOrPending : ∀ e ∈ s.history.scheduled, e.seq ∉ s.history.cancelled →
    (e ∈ s.history.executed ∧ e ∉ s.heap) ∨ (e ∈ s.heap ∧ e ∉ s.history.executed)
  uncancelled : ∀ e ∈ s.history.executed, e.cancelled = false
  /-- A `run` that returned left nothing up to its time behind. -/
  returned : ∀ r ∈ s.history.returned, ∀ e ∈ r.2, r.1 < e.time

/-- A valid scheduler executes no event twice. -/
theorem Valid.executesOnce (h : s.Valid) : s.ExecutesOnce where
  calls := h.numbered
  onlyScheduled e he := by
    have hmem := h.accounted.mem_iff.mp
      (List.mem_map_of_mem (List.mem_append_left _ (List.mem_append_left _ he)))
    rwa [Event.scheduled_eq (h.uncancelled e he)] at hmem
  inOrder := h.executedInOrder
  executedOrPending _ he hcancelled := h.executed_or_pending he hcancelled
  uncancelled := h.uncancelled
  returned := h.returnedPast

/-! ## The clock -/

theorem now_scheduleAt (hcall : s.scheduleAt time callback = .ok s') : s'.now = s.now := by
  obtain ⟨-, rfl⟩ := scheduleAt_cases hcall
  rfl

/-- No turn sets the clock back. -/
theorem Turns.now_le {t : Turn κ} (h : s.Valid) (hturn : Turns s untilTime t s') :
    s.now ≤ s'.now := by
  cases hturn with
  | returns _ => exact le_max_left _ _
  | executes e heap hheap _ _ => exact h.future e (hheap ▸ List.mem_cons_self)
  | skips _ _ _ _ _ => exact le_rfl

end RoboTele.Sim.Scheduler
