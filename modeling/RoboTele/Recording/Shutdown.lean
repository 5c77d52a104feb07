import RoboTele.Recording.Writer

/-!
# Dropping the recorder

Records wait in a ring between the threads that push them and the writer's thread.  The
writer drains the ring and then reads the shutdown flag, in two steps.  It exits when
the flag is set and the drain came back empty.

A drain that times out comes back empty as well.  A record pushed right after it, with
the recorder dropped before the writer reads the flag, stays in the ring
(`not_lossless_lateRecord`).  `lossless_iff` says that this is the only way to lose one.

Every step is atomic, and any thread may take the next one.  Records are numbered in the
order of their pushes to tell them apart.
-/

namespace RoboTele

open Runs

/-- A record in the ring. -/
structure Enqueued where
  seq : Nat
  record : Record
deriving DecidableEq

/-- What the threads of a category share.  The counters do not come near `2 ^ 64`. -/
structure CategoryState where
  ring : List Enqueued
  capacity : Nat
  dropped : Nat
  bytesEnqueued : Nat
  shutdown : Bool
deriving DecidableEq

namespace CategoryState

def new (capacity : Nat) : CategoryState where
  ring := []
  capacity := max capacity 1
  dropped := 0
  bytesEnqueued := 0
  shutdown := false

/-- The ring has no room for one more record. -/
def full (s : CategoryState) : Bool := decide (s.capacity ≤ s.ring.length)

/-- Enqueue a record.  A full ring loses its oldest one. -/
def push (s : CategoryState) (e : Enqueued) : CategoryState :=
  { s with
    ring := (if s.full then s.ring.tail else s.ring) ++ [e]
    dropped := if s.full then s.dropped + 1 else s.dropped
    bytesEnqueued := s.bytesEnqueued + e.record.payload.length }

/-- Take everything out of the ring.  Nothing is there if the wait timed out, or if a
shutdown ended it. -/
def drain (s : CategoryState) : CategoryState × List Enqueued := ({ s with ring := [] }, s.ring)

end CategoryState

/-- Where the writer's thread is in its loop. -/
inductive WriterPc where
  | drain
  /-- The flag is read next. -/
  | load (batch : List Enqueued)
  | write (batch : List Enqueued)
  | exited
deriving DecidableEq

/-- What was drained and not written yet. -/
def WriterPc.batch : WriterPc → List Enqueued
  | load batch | write batch => batch
  | drain | exited => []

/-- The ring and the writer.  `pushed`, `evicted` and `written` record the run. -/
structure CategoryRun where
  state : CategoryState
  writer : WriterPc
  pushed : List Enqueued
  evicted : List Enqueued
  written : List Enqueued
deriving DecidableEq

namespace CategoryRun

/-- A step of a recording thread, of the last drop, or of the writer's thread. -/
inductive Event where
  | push (record : Record)
  /-- The last recorder is dropped. -/
  | shutdown
  | wake
  /-- The writer's thread takes its next step. -/
  | writer
deriving DecidableEq

/-- A writer's thread that has just been started. -/
def start (capacity : Nat) : CategoryRun where
  state := CategoryState.new capacity
  writer := .drain
  pushed := []
  evicted := []
  written := []

/-- A recorder that was dropped pushes nothing. -/
def push (s : CategoryRun) (record : Record) : CategoryRun :=
  if s.state.shutdown then s
  else
    let e : Enqueued := { seq := s.pushed.length, record }
    { s with
      state := s.state.push e
      pushed := s.pushed ++ [e]
      evicted := if s.state.full then s.evicted ++ s.state.ring.take 1 else s.evicted }

/-- One step of the writer's loop. -/
def runWriter (s : CategoryRun) : CategoryRun :=
  match s.writer with
  | .drain => { s with state := s.state.drain.1, writer := .load s.state.drain.2 }
  | .load batch =>
      if s.state.shutdown && batch.isEmpty then { s with writer := .exited }
      else { s with writer := .write batch }
  | .write (e :: batch) => { s with writer := .write batch, written := s.written ++ [e] }
  | .write [] => { s with writer := .drain }
  | .exited => s

/-- A wake-up only ends a wait early, and a drain may end at any time. -/
def step (s : CategoryRun) : Event → CategoryRun
  | .push record => s.push record
  | .shutdown => { s with state := { s.state with shutdown := true } }
  | .wake => s
  | .writer => s.runWriter

/-- The records that were pushed and that no full ring lost. -/
def survivors (s : CategoryRun) : List Enqueued := s.pushed.filter (· ∉ s.evicted)

/-- Every record that was not counted as dropped is written once, in the order of the
pushes, by the time the writer exits. -/
def Lossless (s : CategoryRun) : Prop :=
  s.state.dropped = s.evicted.length ∧ (s.writer = .exited → s.written = s.survivors)

/-- When the writer finds the shutdown after a drain that came back empty, nothing was
pushed since that drain. -/
def NoLatePush (s : CategoryRun) (e : Event) : Prop :=
  e = .writer → s.writer = .load [] → s.state.shutdown = true → s.state.ring = []

/-! ## What every run keeps -/

/-- A record that survives is written, drained, or in the ring. -/
structure Consistent (s : CategoryRun) : Prop where
  seq_lt : ∀ e ∈ s.pushed, e.seq < s.pushed.length
  nodup : s.pushed.Nodup
  evicted_subset : s.evicted ⊆ s.pushed
  survivors_eq : s.survivors = s.written ++ s.writer.batch ++ s.state.ring
  dropped_eq : s.state.dropped = s.evicted.length
  capacity_pos : 0 < s.state.capacity
  shutdown_of_exited : s.writer = .exited → s.state.shutdown = true

/-- The invariant holds when the recorder starts. -/
theorem consistent_start (capacity : Nat) : Consistent (start capacity) where
  seq_lt := nofun
  nodup := List.nodup_nil
  evicted_subset := List.Subset.refl _
  survivors_eq := rfl
  dropped_eq := rfl
  capacity_pos := Nat.lt_of_lt_of_le Nat.one_pos (Nat.le_max_right _ _)
  shutdown_of_exited := nofun

section

variable {s : CategoryRun}

/-- Without some elements in the middle there are those on either side. -/
theorem filter_notMem_middle {front lost kept : List Enqueued}
    (h : (front ++ (lost ++ kept)).Nodup) :
    (front ++ (lost ++ kept)).filter (· ∉ lost) = front ++ kept := by
  have hfront := List.disjoint_of_nodup_append h
  have hkept := List.disjoint_of_nodup_append (List.nodup_append.mp h).2.1
  rw [List.filter_append, List.filter_append, List.filter_eq_self.mpr, List.filter_eq_nil_iff.mpr,
    List.filter_eq_self.mpr, List.nil_append]
  · exact fun e he => decide_eq_true fun hlost => hkept hlost he
  · exact fun e he => by simp [he]
  · exact fun e he => decide_eq_true fun hlost => hfront he (List.mem_append_left _ hlost)

theorem Consistent.lost_subset (h : Consistent s) {lost kept : List Enqueued}
    (hring : s.state.ring = lost ++ kept) : lost ⊆ s.pushed := by
  intro e he
  refine List.mem_of_mem_filter (p := (· ∉ s.evicted)) ?_
  show e ∈ s.survivors
  rw [h.survivors_eq, hring]
  exact List.mem_append_right _ (List.mem_append_left _ he)

/-- One more record, and those that a full ring lost for it. -/
theorem Consistent.filter_push (h : Consistent s) {e : Enqueued} (he : e.seq = s.pushed.length)
    {lost kept : List Enqueued} (hring : s.state.ring = lost ++ kept) :
    (s.pushed ++ [e]).filter (· ∉ s.evicted ++ lost) =
      s.written ++ s.writer.batch ++ (kept ++ [e]) := by
  have hnew : e ∉ s.pushed := fun hmem => absurd (h.seq_lt e hmem) (by omega)
  have hsurvivors := h.survivors_eq
  have hlost := h.lost_subset hring
  rw [hring] at hsurvivors
  have hnodup : s.survivors.Nodup := h.nodup.filter _
  have hold : s.pushed.filter (· ∉ s.evicted ++ lost) = s.survivors.filter (· ∉ lost) := by
    rw [survivors, List.filter_filter]
    refine List.filter_congr fun x _ => ?_
    simp [and_comm]
  have hlast : [e].filter (· ∉ s.evicted ++ lost) = [e] := by
    refine List.filter_eq_self.mpr fun x hx => decide_eq_true ?_
    obtain rfl := List.mem_singleton.mp hx
    rw [List.mem_append, not_or]
    exact ⟨fun hmem => hnew (h.evicted_subset hmem), fun hmem => hnew (hlost hmem)⟩
  rw [List.filter_append, hold, hlast, hsurvivors,
    filter_notMem_middle (hsurvivors ▸ hnodup), List.append_assoc]

/-- A push adds a record, and what a full ring loses for it is its oldest one. -/
theorem push_eq (hcapacity : 0 < s.state.capacity) (hopen : s.state.shutdown = false)
    (record : Record) :
    ∃ lost kept, s.state.ring = lost ++ kept ∧ s.push record =
      { s with
        state := { s.state with
          ring := kept ++ [{ seq := s.pushed.length, record }]
          dropped := s.state.dropped + lost.length
          bytesEnqueued := s.state.bytesEnqueued + record.payload.length }
        pushed := s.pushed ++ [{ seq := s.pushed.length, record }]
        evicted := s.evicted ++ lost } := by
  by_cases hfull : s.state.full = true
  · have hlength : 0 < s.state.ring.length := hcapacity.trans_le (of_decide_eq_true hfull)
    obtain ⟨oldest, kept, hring⟩ := List.exists_cons_of_length_pos hlength
    refine ⟨[oldest], kept, hring, ?_⟩
    simp [CategoryRun.push, CategoryState.push, hopen, hfull, hring]
  · refine ⟨[], s.state.ring, rfl, ?_⟩
    simp [CategoryRun.push, CategoryState.push, hopen, hfull]

/-- A record is pushed to the ring. -/
theorem Consistent.push (h : Consistent s) (record : Record) : Consistent (s.push record) := by
  cases hshutdown : s.state.shutdown with
  | true => rwa [CategoryRun.push, if_pos hshutdown]
  | false =>
      obtain ⟨lost, kept, hring, heq⟩ := push_eq h.capacity_pos hshutdown record
      have hnew := h.filter_push (e := ⟨s.pushed.length, record⟩) rfl hring
      rw [heq]
      refine ⟨?_, ?_, ?_, hnew, ?_, h.capacity_pos, h.shutdown_of_exited⟩
      · intro e he
        rw [List.length_append, List.length_singleton]
        rcases List.mem_append.mp he with he | he
        · exact Nat.lt_succ_of_lt (h.seq_lt e he)
        · obtain rfl := List.mem_singleton.mp he
          exact Nat.lt_succ_self _
      · refine List.Nodup.append h.nodup (List.nodup_singleton _) ?_
        intro e he hnew
        obtain rfl := List.mem_singleton.mp hnew
        exact absurd (h.seq_lt _ he) (Nat.lt_irrefl _)
      · intro e he
        rcases List.mem_append.mp he with he | he
        · exact List.mem_append_left _ (h.evicted_subset he)
        · exact List.mem_append_left _ (h.lost_subset hring he)
      · rw [List.length_append, h.dropped_eq]

/-- The writer's steps move the records on. -/
theorem Consistent.runWriter (h : Consistent s) : Consistent s.runWriter := by
  have hsurvivors := h.survivors_eq
  rw [CategoryRun.runWriter]
  split
  · rename_i hpc
    rw [hpc, WriterPc.batch, List.append_nil] at hsurvivors
    refine { h with survivors_eq := ?_, shutdown_of_exited := nofun }
    exact hsurvivors.trans (List.append_nil _).symm
  · rename_i batch hpc
    rw [hpc] at hsurvivors
    split_ifs with hexit
    · rw [Bool.and_eq_true, List.isEmpty_iff] at hexit
      obtain ⟨hshutdown, rfl⟩ := hexit
      exact { h with survivors_eq := hsurvivors, shutdown_of_exited := fun _ => hshutdown }
    · exact { h with survivors_eq := hsurvivors, shutdown_of_exited := nofun }
  · rename_i e batch hpc
    rw [hpc, WriterPc.batch] at hsurvivors
    refine { h with survivors_eq := ?_, shutdown_of_exited := nofun }
    refine hsurvivors.trans ?_
    simp [WriterPc.batch]
  · rename_i hpc
    rw [hpc] at hsurvivors
    exact { h with survivors_eq := hsurvivors, shutdown_of_exited := nofun }
  · exact h

/-- Every event keeps the invariant. -/
theorem Consistent.step (h : Consistent s) (e : Event) : Consistent (s.step e) := by
  cases e with
  | push record => exact h.push record
  | shutdown => exact { h with shutdown_of_exited := fun _ => rfl }
  | wake => exact h
  | writer => exact h.runWriter

/-! ## Losing the last records -/

/-- The writer did not leave records in the ring. -/
def LeftNone (s : CategoryRun) : Prop := s.writer = .exited → s.state.ring = []

/-- Nothing is lost exactly when nothing is left. -/
theorem Consistent.lossless_iff_leftNone (h : Consistent s) : Lossless s ↔ LeftNone s := by
  have hsurvivors := h.survivors_eq
  constructor
  · intro hlossless hexited
    rw [hexited, ← hlossless.2 hexited, WriterPc.batch, List.append_nil] at hsurvivors
    exact List.append_right_eq_self.mp hsurvivors.symm
  · intro hleft
    refine ⟨h.dropped_eq, fun hexited => ?_⟩
    rw [hsurvivors, hleft hexited, hexited, WriterPc.batch, List.append_nil, List.append_nil]

/-- Records are left exactly by the step that exits, and nothing takes them later. -/
theorem leftNone_step (h : Consistent s) (e : Event) :
    LeftNone (s.step e) ↔ LeftNone s ∧ NoLatePush s e := by
  cases e with
  | push record =>
      refine Iff.trans ?_ (and_iff_left nofun).symm
      cases hshutdown : s.state.shutdown with
      | true => rw [step, push, if_pos hshutdown]
      | false =>
          obtain ⟨lost, kept, -, heq⟩ := push_eq h.capacity_pos hshutdown record
          have hrunning : s.writer ≠ .exited := by
            intro hexited
            rw [h.shutdown_of_exited hexited] at hshutdown
            cases hshutdown
          rw [step, heq]
          exact iff_of_true (fun hexited => absurd hexited hrunning)
            fun hexited => absurd hexited hrunning
  | shutdown => exact (and_iff_left nofun).symm
  | wake => exact (and_iff_left nofun).symm
  | writer =>
      rw [step, runWriter]
      split
      · rename_i hpc
        simp [LeftNone, NoLatePush, hpc]
      · rename_i batch hpc
        have hrunning : LeftNone s := by
          intro hexited
          rw [hpc] at hexited
          cases hexited
        split_ifs with hexit
        · rw [Bool.and_eq_true, List.isEmpty_iff] at hexit
          obtain ⟨hshutdown, rfl⟩ := hexit
          constructor
          · exact fun hleft => ⟨hrunning, fun _ _ _ => hleft rfl⟩
          · exact fun hleft _ => hleft.2 rfl hpc hshutdown
        · refine iff_of_true nofun ⟨hrunning, fun _ hload hshutdown => ?_⟩
          obtain rfl := WriterPc.load.inj (hpc.symm.trans hload)
          exact absurd (by rw [hshutdown]; rfl) hexit
      · rename_i hpc
        simp [LeftNone, NoLatePush, hpc]
      · rename_i hpc
        simp [LeftNone, NoLatePush, hpc]
      · rename_i hpc
        simp [LeftNone, NoLatePush, hpc]

/-- No record is lost exactly if no record is pushed between the writer's last drain and
its reading of the shutdown. -/
theorem lossless_iff (capacity : Nat) (events : List Event) :
    Lossless (exec step (start capacity) events) ↔
      Along step NoLatePush (start capacity) events := by
  have hstart := consistent_start capacity
  have hinv := exec_inv (I := Consistent) (fun _ e h => h.step e) events hstart
  rw [hinv.lossless_iff_leftNone, along_iff_exec (I := Consistent) (fun _ e h => h.step e)
    (fun _ e h => leftNone_step h e) events hstart]
  exact and_iff_right nofun

/-- The drain times out, a record is pushed and the recorder dropped, and the writer
exits. -/
theorem not_lossless_lateRecord :
    ¬ ∀ (capacity : Nat) (events : List Event),
      Lossless (exec step (start capacity) events) := by
  intro h
  have hlost := h 64 [.writer, .push { captureUs := 1, controlSource := 0xff, payload := [1] },
    .shutdown, .wake, .writer]
  exact absurd (hlost.2 rfl) (by decide)

end

end CategoryRun

end RoboTele
