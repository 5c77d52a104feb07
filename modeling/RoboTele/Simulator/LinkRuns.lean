import RoboTele.Runs.Machine
import RoboTele.Simulator.Link
import RoboTele.Simulator.SchedulerOrder

/-!
# Every datagram is reported once

A datagram that was enqueued waits, or it is carried by one event of the scheduler, or it was
reported (`Accounted`).  Between the event that finishes its service and what follows from it,
it is held by the code that runs.

The server is at work exactly if one event finishes a service, or if `on_deliver` hears of a
loss and the next service starts when it returns.  A server that is not at work has nothing
waiting (`Valid`).  Whatever runs next, both stay true (`Valid.step`), so a scheduler with
nothing left to execute has reported every datagram (`simulation_exact`).
-/

namespace RoboTele.Sim

open HeapQueue Runs

/-! ## What events carry -/

/-- The datagram of an event of the link. -/
def Callback.entry? : Callback → Option Entry
  | finishService entry => some entry
  | deliver entry _ => some entry
  | other => none

/-- The datagram in service. -/
def Callback.served? : Callback → Option Entry
  | finishService entry => some entry
  | deliver _ _ => none
  | other => none

/-- What the pending events carry. -/
def fetch (f : Callback → Option Entry) (heap : List (Event Callback)) : List Entry :=
  heap.filterMap fun e => f e.callback

/-- The datagrams that are being served. -/
def Simulation.inService (s : Simulation) : List Entry := fetch Callback.served? s.scheduler.heap

section Fetch

variable {f : Callback → Option Entry} {s s' : Scheduler Callback} {time : ℚ} {callback : Callback}

theorem fetch_cons (e : Event Callback) (heap : List (Event Callback)) :
    fetch f (e :: heap) = (f e.callback).toList ++ fetch f heap := by
  rw [fetch, List.filterMap_cons]
  cases f e.callback <;> rfl

/-- A scheduled callback joins those that wait. -/
theorem fetch_scheduleAt (h : s.scheduleAt time callback = .ok s') :
    (fetch f s'.heap).Perm ((f callback).toList ++ fetch f s.heap) := by
  obtain ⟨-, rfl⟩ := Scheduler.scheduleAt_cases h
  rw [← fetch_cons (⟨time, s.seq, callback, false⟩ : Event Callback)]
  exact (push_perm Event.key _ s.heap).filterMap _

/-- A cancelled one still waits, to be passed over. -/
theorem fetch_cancel (s : Scheduler Callback) (seq : ℕ) :
    fetch f (s.cancel seq).heap = fetch f s.heap := by
  rw [fetch, Scheduler.cancel, List.filterMap_map]
  refine List.filterMap_congr fun e _ => ?_
  simp only [Function.comp_apply]
  split <;> rfl

end Fetch

/-- Among datagrams of one priority the order of the queue is that of the calls. -/
theorem seq_lt_of_key_lt {a b : Entry} (h : a.key < b.key)
    (hpriority : a.datagram.priority = b.datagram.priority) : a.seq < b.seq := by
  rcases Prod.Lex.toLex_lt_toLex.mp h with hless | ⟨-, hless⟩
  · exact absurd (congrArg Priority.toNat hpriority) hless.ne
  · exact hless

theorem serviceTime_nonneg (c : Conditions) (datagram : Datagram) :
    0 ≤ serviceTime c datagram := by
  have hbw : (0 : ℚ) ≤ max c.bandwidthMbps minBandwidthMbps :=
    le_max_of_le_right (by norm_num [minBandwidthMbps])
  exact div_nonneg (Nat.cast_nonneg _) (mul_nonneg hbw (by norm_num))

/-- Nothing arrives in the past. -/
theorem le_arrivalTime (c : Conditions) (now : ℚ) : now ≤ arrivalTime c now := by
  have howd : (0 : ℚ) ≤ max (1 / 10) (c.owdMs + c.jitterMs) := le_max_of_le_left (by norm_num)
  exact le_add_of_nonneg_right (div_nonneg howd (by norm_num))

namespace Simulation

variable {s s' : Simulation} {held held' : List Entry} {entry : Entry} {c : Conditions}

/-! ## Where the datagrams are -/

/-- Every datagram waits, or it entered service and is carried, held or reported. -/
structure Accounted (held : List Entry) (s : Simulation) : Prop where
  scheduler : s.scheduler.Valid
  uncancelled : ∀ e ∈ s.scheduler.heap, e.callback ≠ .other → e.cancelled = false
  noError : s.error = none
  inOrder : InOrder Entry.key s.link.queue
  numbered : s.link.history.enqueued.map Entry.seq = List.range s.link.seq
  waits : (s.link.queue ++ s.link.history.entered.map Prod.fst).Perm s.link.history.enqueued
  travels :
    (fetch Callback.entry? s.scheduler.heap ++ held ++
      s.link.history.reported.map Report.entry).Perm (s.link.history.entered.map Prod.fst)
  enteredFirst : ∀ a ∈ s.link.history.entered, ∀ w ∈ s.link.queue,
    a.1.datagram.priority = w.datagram.priority → a.1.seq < w.seq
  enteredInOrder : s.link.history.entered.Pairwise fun a b =>
    a.1.datagram.priority = b.1.datagram.priority → a.1.seq < b.1.seq
  enteredLeast : ∀ a ∈ s.link.history.entered, ∀ w ∈ a.2, a.1.key < w.key

/-- How many datagrams are in service, or will be when `on_deliver` returns. -/
def serving (s : Simulation) : ℕ := s.inService.length + s.frames.count .lossReport

/-- While the link drains, one event or call serves it, and else its queue is empty. -/
structure Valid (s : Simulation) : Prop extends Accounted [] s where
  idle : s.link.draining = false → s.link.queue = []
  serves : s.serving = if s.link.draining then 1 else 0

theorem valid_new : new.Valid where
  scheduler := Scheduler.valid_new
  uncancelled _ he := absurd he List.not_mem_nil
  noError := rfl
  inOrder := List.Pairwise.nil
  numbered := rfl
  waits := List.Perm.nil
  travels := List.Perm.nil
  enteredFirst _ ha := absurd ha List.not_mem_nil
  enteredInOrder := List.Pairwise.nil
  enteredLeast _ ha := absurd ha List.not_mem_nil
  idle _ := rfl
  serves := rfl

namespace Accounted

theorem enqueued_nodup (h : Accounted held s) : s.link.history.enqueued.Nodup := by
  refine List.Nodup.of_map Entry.seq ?_
  rw [h.numbered]
  exact List.nodup_range

theorem entry_lt (h : Accounted held s) (hentry : entry ∈ s.link.history.enqueued) :
    entry.seq < s.link.seq := by
  have hmem := List.mem_map_of_mem (f := Entry.seq) hentry
  rw [h.numbered] at hmem
  exact List.mem_range.mp hmem

theorem queued_lt (h : Accounted held s) (hentry : entry ∈ s.link.queue) :
    entry.seq < s.link.seq :=
  h.entry_lt (h.waits.mem_iff.mp (List.mem_append_left _ hentry))

theorem entered_lt (h : Accounted held s) {a : Entry × List Entry}
    (ha : a ∈ s.link.history.entered) : a.1.seq < s.link.seq :=
  h.entry_lt (h.waits.mem_iff.mp (List.mem_append_right _ (List.mem_map_of_mem ha)))

/-- What is held may pass to an event, and what an event carries may be held. -/
theorem withScheduler {scheduler : Scheduler Callback} (h : Accounted held s)
    (hvalid : scheduler.Valid)
    (huncancelled : ∀ e ∈ scheduler.heap, e.callback ≠ .other → e.cancelled = false)
    (hcarried : (fetch Callback.entry? scheduler.heap ++ held').Perm
      (fetch Callback.entry? s.scheduler.heap ++ held)) :
    Accounted held' { s with scheduler } :=
  { h with
    scheduler := hvalid
    uncancelled := huncancelled
    travels := (hcarried.append_right _).trans h.travels }

/-- A new event takes what is held. -/
theorem scheduleAt {scheduler : Scheduler Callback} {time : ℚ} {callback : Callback}
    (h : Accounted held s) (hheld : held = callback.entry?.toList ++ held')
    (hcall : s.scheduler.scheduleAt time callback = .ok scheduler) :
    Accounted held' { s with scheduler } := by
  refine h.withScheduler (h.scheduler.scheduleAt hcall) ?_ ?_
  · obtain ⟨-, rfl⟩ := Scheduler.scheduleAt_cases hcall
    exact forall_mem_push (fun _ => rfl) h.uncancelled
  · refine ((fetch_scheduleAt hcall).append_right held').trans ?_
    rw [hheld, ← List.append_assoc]
    exact List.perm_append_comm.append_right held'

/-- `on_deliver` is told of what is held. -/
theorem report (told : Report) (frame : Frame) (h : Accounted [told.entry] s) :
    Accounted [] (s.report told frame) :=
  { h with
    travels := by
      refine List.Perm.trans ?_ h.travels
      rw [Simulation.report, List.map_append, List.append_nil, List.append_assoc]
      exact List.perm_append_comm.append_left _ }

theorem accept (h : Accounted [] s) (datagram : Datagram) :
    Accounted [] (s.accept datagram) :=
  { h with
    inOrder := h.inOrder.push fun e he heq =>
      (h.queued_lt he).ne (congrArg Prod.snd (toLex.injective heq))
    numbered := by
      rw [Simulation.accept, List.map_append, h.numbered, List.range_succ]
      rfl
    waits := by
      refine ((push_perm Entry.key ⟨s.link.seq, datagram⟩ s.link.queue).append_right _).trans ?_
      exact (h.waits.cons _).trans (List.perm_append_singleton _ _).symm
    enteredFirst := fun a ha => forall_mem_push (fun _ => h.entered_lt ha) (h.enteredFirst a ha) }

/-- The first one in the queue is held. -/
theorem enter {queue : List Entry} (samples : List (ℚ × ℕ)) (h : Accounted [] s)
    (hqueue : s.link.queue = entry :: queue) :
    Accounted [entry]
      { s with
        link :=
          { s.link with
            queue
            draining := true
            queueDepthSamples := samples
            history :=
              { s.link.history with
                entered := s.link.history.entered ++ [(entry, queue)] } } } := by
  have hlt : ∀ w ∈ queue, entry.key < w.key := (hqueue ▸ h.inOrder).head_lt
  have hfirst : ∀ w ∈ queue, entry.datagram.priority = w.datagram.priority →
      entry.seq < w.seq := fun w hw => seq_lt_of_key_lt (hlt w hw)
  have hentry : entry ∈ s.link.queue := hqueue ▸ List.mem_cons_self
  have hqueue' : ∀ w ∈ queue, w ∈ s.link.queue := fun w hw => hqueue ▸ List.mem_cons_of_mem _ hw
  exact
    { scheduler := h.scheduler
      uncancelled := h.uncancelled
      noError := h.noError
      inOrder := (hqueue ▸ h.inOrder).tail
      numbered := h.numbered
      waits := by
        refine List.Perm.trans ?_ h.waits
        rw [hqueue, List.map_append, ← List.append_assoc]
        exact List.perm_append_singleton _ _
      travels := by
        rw [List.map_append]
        refine List.Perm.trans ?_ (h.travels.append_right [entry])
        rw [List.append_nil, List.append_assoc, List.append_assoc]
        exact List.perm_append_comm.append_left _
      enteredFirst := List.forall_mem_append.mpr
        ⟨fun a ha w hw => h.enteredFirst a ha w (hqueue' w hw),
          List.forall_mem_singleton.mpr hfirst⟩
      enteredInOrder := List.pairwise_append.mpr ⟨h.enteredInOrder, List.pairwise_singleton _ _,
        fun a ha => List.forall_mem_singleton.mpr (h.enteredFirst a ha entry hentry)⟩
      enteredLeast := List.forall_mem_append.mpr
        ⟨h.enteredLeast, List.forall_mem_singleton.mpr hlt⟩ }

/-- A server that is not at work takes the next one. -/
theorem drain (h : Accounted [] s) (hserving : s.serving = 0) (c : Conditions) :
    (s.drain c).Valid := by
  rw [Simulation.drain]
  split
  · next hqueue =>
      exact { h with idle := fun _ => hqueue, serves := hserving }
  · next entry queue hqueue =>
      obtain ⟨scheduler, hcall⟩ := s.scheduler.schedule_eq_ok (.finishService entry)
        (serviceTime_nonneg c entry.datagram)
      have hat := Scheduler.schedule_cases hcall
      have hserved : (fetch Callback.served? scheduler.heap).length =
          1 + (fetch Callback.served? s.scheduler.heap).length :=
        (fetch_scheduleAt hat).length_eq.trans List.length_append
      have hentered :=
        h.enter (s.link.queueDepthSamples ++ [(s.scheduler.now, queue.length)]) hqueue
      rw [hcall]
      refine
        { hentered.scheduleAt rfl hat with
          idle := fun hfalse => absurd hfalse.symm Bool.false_ne_true
          serves := ?_ }
      rw [serving, inService, hserved, Nat.add_assoc]
      exact congrArg (1 + ·) hserving

/-- What was served is on its way. -/
theorem propagate (h : Accounted [entry] s) (c : Conditions) :
    Accounted [] (s.propagate c entry) ∧ (s.propagate c entry).serving = s.serving := by
  obtain ⟨scheduler, hcall⟩ := Scheduler.scheduleAt_eq_ok
    (.deliver entry (arrivalTime c s.scheduler.now)) (le_arrivalTime c s.scheduler.now)
  have hserved : (fetch Callback.served? scheduler.heap).length =
      (fetch Callback.served? s.scheduler.heap).length := (fetch_scheduleAt hcall).length_eq
  rw [Simulation.propagate, hcall]
  refine ⟨h.scheduleAt rfl hcall, ?_⟩
  rw [serving, serving, inService, hserved]
  rfl

/-- The end of a service. -/
theorem finishService (h : Accounted [entry] s) (hserving : s.serving = 0)
    (hdraining : s.link.draining = true) (c : Conditions) : (s.finishService c entry).Valid := by
  rw [Simulation.finishService]
  split
  · refine
      { Accounted.report ⟨entry, false, none⟩ .lossReport h with
        idle := fun hfalse => absurd (hdraining.symm.trans hfalse).symm Bool.false_ne_true
        serves := ?_ }
    have hinService : s.inService.length = 0 := (Nat.add_eq_zero_iff.mp hserving).1
    have hframes : s.frames.count .lossReport = 0 := (Nat.add_eq_zero_iff.mp hserving).2
    change s.inService.length + (Frame.lossReport :: s.frames).count .lossReport =
      if s.link.draining then 1 else 0
    rw [List.count_cons_self, hinService, hframes, hdraining]
    rfl
  · obtain ⟨haccounted, hserved⟩ := h.propagate c
    exact haccounted.drain (hserved.trans hserving) c

end Accounted

/-! ## What one operation keeps -/

/-- `schedule` raises, or it is `schedule_at`. -/
theorem attempt_schedule (s : Simulation) (delay : ℚ) :
    s.attempt (s.scheduler.schedule delay .other) =
      if delay < 0 then s
      else s.attempt (s.scheduler.scheduleAt (s.scheduler.now + delay) .other) := by
  rw [Scheduler.schedule]
  split <;> rfl

namespace Valid

/-- A datagram that is sent keeps the simulation valid. -/
theorem enqueue (h : s.Valid) (c : Conditions) (datagram : Datagram) :
    (s.enqueue c datagram).Valid := by
  have haccepted := h.toAccounted.accept datagram
  rw [Simulation.enqueue]
  split
  · next hdraining =>
      exact
        { haccepted with
          idle := fun hfalse => absurd (hdraining.symm.trans hfalse).symm Bool.false_ne_true
          serves := h.serves }
  · next hdraining => exact haccepted.drain (h.serves.trans (if_neg hdraining)) c

/-- The scheduler may change in what does not concern the link. -/
theorem withScheduler {scheduler : Scheduler Callback} (h : s.Valid) (hvalid : scheduler.Valid)
    (huncancelled : ∀ e ∈ scheduler.heap, e.callback ≠ .other → e.cancelled = false)
    (hfetch : ∀ f : Callback → Option Entry, f .other = none →
      (fetch f scheduler.heap).Perm (fetch f s.scheduler.heap)) :
    ({ s with scheduler } : Simulation).Valid :=
  { h.toAccounted.withScheduler hvalid huncancelled ((hfetch _ rfl).append_right _) with
    idle := h.idle
    serves := by
      rw [serving, inService, (hfetch Callback.served? rfl).length_eq]
      exact h.serves }

/-- Frames that are not of the link. -/
theorem withFrames {frames : List Frame} (h : s.Valid)
    (hframes : frames.count .lossReport = s.frames.count .lossReport) :
    ({ s with frames } : Simulation).Valid :=
  { h with
    serves := by
      rw [serving, hframes]
      exact h.serves }

theorem scheduleAt {scheduler : Scheduler Callback} {time : ℚ} (h : s.Valid)
    (hcall : s.scheduler.scheduleAt time .other = .ok scheduler) :
    ({ s with scheduler } : Simulation).Valid := by
  refine h.withScheduler (h.scheduler.scheduleAt hcall) ?_ fun f hf => ?_
  · exact (h.toAccounted.scheduleAt rfl hcall).uncancelled
  · have hperm := fetch_scheduleAt (f := f) hcall
    rwa [hf] at hperm

/-- So does a handle that is cancelled. -/
theorem cancel (h : s.Valid) {seq : ℕ} (hhandle : s.hasHandle seq = true) :
    ({ s with scheduler := s.scheduler.cancel seq } : Simulation).Valid := by
  refine h.withScheduler (h.scheduler.cancel seq) (List.forall_mem_map.mpr fun e he => ?_)
    fun f _ => List.Perm.of_eq (fetch_cancel s.scheduler seq)
  have hother := List.all_eq_true.mp (Bool.and_eq_true_iff.mp hhandle).2 e he
  split
  · next heq =>
      have hcallback : e.callback = .other := by
        simpa only [heq, bne_self_eq_false, Bool.false_or, beq_iff_eq] using hother
      exact fun hne => absurd hcallback hne
  · exact h.uncancelled e he

/-- Only a server that is at work finishes a service, and then nothing else is in service. -/
theorem serving_eq_zero {scheduler : Scheduler Callback} (h : s.Valid)
    (hserved : s.inService = entry :: fetch Callback.served? scheduler.heap) :
    s.link.draining = true ∧ ({ s with scheduler } : Simulation).serving = 0 := by
  have hserves : 1 + ({ s with scheduler } : Simulation).serving =
      if s.link.draining then 1 else 0 := by
    rw [← h.serves, serving, serving, hserved, List.length_cons, Nat.add_right_comm, Nat.add_comm 1]
    rfl
  cases hdraining : s.link.draining with
  | true =>
      rw [hdraining, if_pos rfl] at hserves
      exact ⟨rfl, Nat.add_left_cancel hserves⟩
  | false =>
      rw [hdraining, if_neg Bool.false_ne_true] at hserves
      omega

/-- The event that is executed is the first one. -/
theorem call {e : Event Callback} {heap : List (Event Callback)} {scheduler : Scheduler Callback}
    (h : s.Valid) (hheap : s.scheduler.heap = e :: heap) (hvalid : scheduler.Valid)
    (hrest : scheduler.heap = heap) (c : Conditions) :
    (({ s with scheduler } : Simulation).call c e.callback).Valid := by
  have huncancelled : ∀ f ∈ scheduler.heap, f.callback ≠ .other → f.cancelled = false :=
    fun f hf => h.uncancelled f (hheap ▸ List.mem_cons_of_mem e (hrest ▸ hf))
  have hfetch : ∀ f,
      fetch f s.scheduler.heap = (f e.callback).toList ++ fetch f scheduler.heap := by
    intro f
    rw [hheap, fetch_cons, hrest]
  have haccounted : Accounted e.callback.entry?.toList { s with scheduler } := by
    refine h.toAccounted.withScheduler hvalid huncancelled ?_
    rw [hfetch, List.append_nil]
    exact List.perm_append_comm
  cases hcallback : e.callback with
  | other =>
      have hother : ({ s with scheduler } : Simulation).Valid :=
        h.withScheduler hvalid huncancelled fun f hf => by
          rw [hfetch, hcallback, hf]
          exact List.Perm.refl _
      exact hother.withFrames (List.count_cons_of_ne (by decide))
  | deliver entry arrival =>
      rw [hcallback] at haccounted
      have hserved : fetch Callback.served? s.scheduler.heap =
          fetch Callback.served? scheduler.heap := by
        rw [hfetch, hcallback]
        rfl
      refine
        { Accounted.report ⟨entry, true, some arrival⟩ .callback haccounted with
          idle := h.idle
          serves := ?_ }
      have hserves := h.serves
      rw [serving, inService, hserved] at hserves
      exact hserves
  | finishService entry =>
      rw [hcallback] at haccounted
      have hserved : s.inService = entry :: fetch Callback.served? scheduler.heap := by
        rw [inService, hfetch, hcallback]
        rfl
      obtain ⟨hdraining, hserving⟩ := h.serving_eq_zero hserved
      exact haccounted.finishService hserving hdraining c

/-- So does a turn of the scheduler. -/
theorem runTurn {untilTime : ℚ} {frames : List Frame} (h : s.Valid)
    (hframes : s.frames = .run untilTime :: frames) (c : Conditions) :
    (s.runTurn c untilTime frames).Valid := by
  have hturn := s.scheduler.turn_cases untilTime
  have hvalid := h.scheduler.turns hturn
  rw [Simulation.runTurn]
  generalize s.scheduler.turn untilTime = r at hturn hvalid ⊢
  obtain ⟨t, scheduler⟩ := r
  cases hturn with
  | returns hhead =>
      refine (h.withScheduler hvalid h.uncancelled fun f _ => List.Perm.refl _).withFrames ?_
      rw [hframes]
      exact (List.count_cons_of_ne Frame.noConfusion).symm
  | skips e heap hheap hdue hcancelled =>
      have hother : e.callback = .other := by
        by_contra hne
        have hflag := h.uncancelled e (hheap ▸ List.mem_cons_self) hne
        exact Bool.false_ne_true (hflag.symm.trans hcancelled)
      refine h.withScheduler hvalid
        (fun f hf => h.uncancelled f (hheap ▸ List.mem_cons_of_mem e hf)) fun f hf => ?_
      rw [hheap, fetch_cons, hother, hf]
      exact List.Perm.refl _
  | executes e heap hheap hdue hcancelled => exact h.call hheap hvalid rfl c

theorem attempt {time : ℚ} (h : s.Valid) :
    (s.attempt (s.scheduler.scheduleAt time .other)).Valid := by
  cases hcall : s.scheduler.scheduleAt time .other with
  | error _ => exact h
  | ok scheduler => exact h.scheduleAt hcall

theorem attempt_schedule {delay : ℚ} (h : s.Valid) :
    (s.attempt (s.scheduler.schedule delay .other)).Valid := by
  rw [Simulation.attempt_schedule]
  split
  · exact h
  · exact h.attempt

/-- So does a callback that returns. -/
theorem returns (h : s.Valid) (c : Conditions) : (s.step (.returns c)).Valid := by
  rw [Simulation.step]
  split
  · next frames hframes =>
      refine h.withFrames ?_
      rw [hframes]
      exact (List.count_cons_of_ne (by decide)).symm
  · next frames hframes =>
      have haccounted : Accounted [] { s with frames } := { h with noError := h.noError }
      refine haccounted.drain ?_ c
      have hserves := h.serves
      rw [serving, hframes, List.count_cons_self] at hserves
      change s.inService.length + frames.count .lossReport = 0
      split at hserves <;> omega
  · exact h

/-- So does every operation. -/
theorem step (h : s.Valid) (op : Op) : (s.step op).Valid := by
  cases op with
  | turn c =>
      rw [Simulation.step]
      split
      · next hframes => exact h.runTurn hframes c
      · exact h
  | returns c => exact h.returns c
  | enqueue c datagram =>
      rw [Simulation.step]
      split
      · exact h.enqueue c datagram
      · exact h
  | schedule delay =>
      rw [Simulation.step]
      split
      · exact h.attempt_schedule
      · exact h
  | scheduleAt time =>
      rw [Simulation.step]
      split
      · exact h.attempt
      · exact h
  | cancel seq =>
      rw [Simulation.step]
      split
      · next hhandle => exact h.cancel hhandle.2
      · exact h
  | run untilTime =>
      rw [Simulation.step]
      split
      · exact h.withFrames (List.count_cons_of_ne Frame.noConfusion)
      · exact h

end Valid

/-! ## The clock -/

theorem now_drain (c : Conditions) (s : Simulation) :
    (s.drain c).scheduler.now = s.scheduler.now := by
  rw [drain]
  split
  · rfl
  · next entry queue _ =>
      cases hcall : s.scheduler.schedule (serviceTime c entry.datagram) (.finishService entry) with
      | error _ => rfl
      | ok scheduler => exact Scheduler.now_scheduleAt (Scheduler.schedule_cases hcall)

theorem now_enqueue (c : Conditions) (datagram : Datagram) (s : Simulation) :
    (s.enqueue c datagram).scheduler.now = s.scheduler.now := by
  rw [enqueue]
  split
  · rfl
  · exact now_drain c (s.accept datagram)

theorem now_propagate (c : Conditions) (entry : Entry) (s : Simulation) :
    (s.propagate c entry).scheduler.now = s.scheduler.now := by
  rw [propagate]
  split
  · next hcall => exact Scheduler.now_scheduleAt hcall
  · rfl

theorem now_call (c : Conditions) (s : Simulation) (callback : Callback) :
    (s.call c callback).scheduler.now = s.scheduler.now := by
  cases callback with
  | other => rfl
  | deliver entry arrival => rfl
  | finishService entry =>
      rw [call, finishService]
      split
      · rfl
      · rw [now_drain, now_propagate]

theorem now_runTurn (c : Conditions) (untilTime : ℚ) (frames : List Frame) (s : Simulation) :
    (s.runTurn c untilTime frames).scheduler.now = (s.scheduler.turn untilTime).2.now := by
  rw [runTurn]
  generalize s.scheduler.turn untilTime = r
  obtain ⟨t, scheduler⟩ := r
  cases t with
  | executes callback => exact now_call c _ callback
  | skips => rfl
  | returns => rfl

theorem now_attempt (s : Simulation) (time : ℚ) :
    (s.attempt (s.scheduler.scheduleAt time .other)).scheduler.now = s.scheduler.now := by
  cases hcall : s.scheduler.scheduleAt time .other with
  | error _ => rfl
  | ok scheduler => exact Scheduler.now_scheduleAt hcall

/-- The clock is not set back. -/
theorem Valid.now_le_step (h : s.Valid) (op : Op) :
    s.scheduler.now ≤ (s.step op).scheduler.now := by
  cases op with
  | turn c =>
      rw [Simulation.step]
      split
      · next untilTime frames _ =>
          rw [now_runTurn]
          exact (s.scheduler.turn_cases untilTime).now_le h.scheduler
      · exact le_rfl
  | returns c =>
      rw [Simulation.step]
      split
      · exact le_rfl
      · exact (now_drain c _).ge
      · exact le_rfl
  | enqueue c datagram =>
      rw [Simulation.step]
      split
      · exact (now_enqueue c datagram s).ge
      · exact le_rfl
  | schedule delay =>
      rw [Simulation.step, Simulation.attempt_schedule]
      split
      · split
        · exact le_rfl
        · exact (now_attempt s _).ge
      · exact le_rfl
  | scheduleAt time =>
      rw [Simulation.step]
      split
      · exact (now_attempt s time).ge
      · exact le_rfl
  | cancel seq =>
      rw [Simulation.step]
      split <;> exact le_rfl
  | run untilTime =>
      rw [Simulation.step]
      split <;> exact le_rfl

/-! ## Runs -/

/-- So does every run. -/
theorem Valid.exec (h : s.Valid) (ops : List Op) : (Runs.exec Simulation.step s ops).Valid :=
  exec_inv (fun _ op hs => hs.step op) ops h

/-- The clock is never set back. -/
theorem Valid.now_le_exec (h : s.Valid) (ops : List Op) :
    s.scheduler.now ≤ (Runs.exec Simulation.step s ops).scheduler.now := by
  induction ops generalizing s with
  | nil => exact le_rfl
  | cons op ops ih => exact (h.now_le_step op).trans (ih (h.step op))

/-- What is promised of the datagrams. -/
structure ReportsOnce (s : Simulation) : Prop where
  /-- Every call of `enqueue` has its number. -/
  calls : s.link.history.enqueued.map Entry.seq = List.range s.link.seq
  onlyEnqueued : ∀ r ∈ s.link.history.reported, r.entry ∈ s.link.history.enqueued
  atMostOnce : (s.link.history.reported.map Report.entry).Nodup
  /-- When nothing runs and nothing is left to execute, everything is reported. -/
  exactlyOnce : s.frames = [] → (∀ e ∈ s.scheduler.heap, e.cancelled = true) →
    (s.link.history.reported.map Report.entry).Perm s.link.history.enqueued
  oneInService : s.inService.length ≤ 1
  /-- Datagrams of one priority enter service in the order of their calls. -/
  fifo : s.link.history.entered.Pairwise fun a b =>
    a.1.datagram.priority = b.1.datagram.priority → a.1.seq < b.1.seq
  nonePassed : ∀ a ∈ s.link.history.entered, ∀ w ∈ a.2,
    a.1.datagram.priority = w.datagram.priority → a.1.seq < w.seq
  controlFirst : ∀ a ∈ s.link.history.entered, a.1.datagram.priority = .media →
    ∀ w ∈ a.2, w.datagram.priority ≠ .control
  neverRaises : s.error = none

theorem Valid.entered_nodup (h : s.Valid) : (s.link.history.entered.map Prod.fst).Nodup :=
  (List.nodup_append.mp (h.waits.nodup_iff.mpr h.enqueued_nodup)).2.1

/-- A pending event that is not cancelled carries no datagram if all are. -/
theorem Valid.fetch_eq_nil (h : s.Valid) (hcancelled : ∀ e ∈ s.scheduler.heap, e.cancelled = true)
    {f : Callback → Option Entry} (hf : f .other = none) : fetch f s.scheduler.heap = [] := by
  refine List.filterMap_eq_nil_iff.mpr fun e he => ?_
  have hother : e.callback = .other := by
    by_contra hne
    exact Bool.false_ne_true ((h.uncancelled e he hne).symm.trans (hcancelled e he))
  rw [hother, hf]

/-- A server with nothing to come is not at work. -/
theorem Valid.queue_eq_nil (h : s.Valid) (hframes : s.frames = [])
    (hcancelled : ∀ e ∈ s.scheduler.heap, e.cancelled = true) : s.link.queue = [] := by
  refine h.idle (Bool.eq_false_of_not_eq_true fun hdraining => ?_)
  have hserves := h.serves
  rw [serving, inService, h.fetch_eq_nil hcancelled rfl, hframes, if_pos hdraining] at hserves
  exact absurd hserves (by decide)

/-- Every datagram of a valid simulation is reported once. -/
theorem Valid.reportsOnce (h : s.Valid) : s.ReportsOnce where
  calls := h.numbered
  onlyEnqueued r hr := by
    have hentered := h.travels.mem_iff.mp (List.mem_append_right _ (List.mem_map_of_mem hr))
    exact h.waits.mem_iff.mp (List.mem_append_right _ hentered)
  atMostOnce := (List.nodup_append.mp (h.travels.nodup_iff.mpr h.entered_nodup)).2.1
  exactlyOnce hframes hcancelled := by
    have hwaits := h.waits
    have htravels := h.travels
    rw [h.queue_eq_nil hframes hcancelled] at hwaits
    rw [h.fetch_eq_nil hcancelled rfl] at htravels
    exact htravels.trans hwaits
  oneInService := by
    have hserves := h.serves
    rw [serving] at hserves
    split at hserves <;> omega
  fifo := h.enteredInOrder
  nonePassed a ha _ hw := seq_lt_of_key_lt (h.enteredLeast a ha _ hw)
  controlFirst a ha hmedia w hw hcontrol := by
    rcases Prod.Lex.toLex_lt_toLex.mp (h.enteredLeast a ha w hw) with hless | ⟨heq, -⟩
    · rw [hmedia, hcontrol] at hless
      exact absurd hless (Nat.not_lt_zero _)
    · rw [hmedia, hcontrol] at heq
      exact absurd heq Nat.one_ne_zero
  neverRaises := h.noError

/-- A datagram is served and arrives, and nothing is left. -/
example :
    let c : Conditions :=
      { bandwidthMbps := 8, lossProb := 0, owdMs := 20, jitterMs := 5, random := 1 / 2 }
    let s := Runs.exec Simulation.step new
      [.enqueue c ⟨1000, .control⟩, .run 1, .turn c, .turn c, .returns c, .turn c]
    s.frames = [] ∧ s.scheduler.heap = [] ∧
      s.link.history.reported = [⟨⟨0, 1000, .control⟩, true, some (26 / 1000)⟩] := by
  decide +kernel

end Simulation

end RoboTele.Sim
