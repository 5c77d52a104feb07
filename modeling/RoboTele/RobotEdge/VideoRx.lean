import RoboTele.Core.Video
import RoboTele.Queues.LaneSchedule

/-!
# NALs from the encoder to the session

The encoder task hands a critical NAL to an unbounded queue and any other one
to a watch cell, where it replaces what the session has not read yet.  The
session's `recv` is a biased select: it polls the queue, then asks whether the
cell has changed, and only then reads the cell.  The encoder task runs on a
thread of its own, so it may act between any two of these.

`VideoRx.WellFormed` holds whatever the schedule.  The cell is only read when it
holds something new, and only after a poll that found the queue empty, so the lanes
are those of a schedule (`scheduled_recv`).
-/

namespace RoboTele

open Queues

/-- The NAL of a numbered one is critical. -/
def Nal.isCritical (n : Nal) : Bool := nalIsCritical n.nal

/-- How far a poll of `recv` has come. -/
inductive RecvPc where
  | critical
  | changed
  | read
deriving DecidableEq

/-- The receiver, its two lanes with what was returned, and the watch flag. -/
structure VideoRx where
  lane : TwoLane Nal
  changed : Bool
  pc : RecvPc

namespace VideoRx

def new : VideoRx where
  lane := .empty
  changed := false
  pc := .critical

/-- The encoder hands a NAL over. -/
def send (rx : VideoRx) (x : Nat × Nal) : VideoRx :=
  if x.2.isCritical then { rx with lane := rx.lane.sendCritical x }
  else { rx with lane := rx.lane.sendLatest x, changed := true }

/-- The queue comes first. -/
def pollCritical (rx : VideoRx) : VideoRx × Option (Nat × Nal) :=
  match rx.lane.critical with
  | x :: rest => ({ rx with lane := rx.lane.recvCritical x rest }, some x)
  | [] => ({ rx with pc := .changed }, none)

/-- `changed` takes note of the change.  If there is none the future waits, and
its next poll starts over. -/
def pollChanged (rx : VideoRx) : VideoRx × Option (Nat × Nal) :=
  if rx.changed then ({ rx with changed := false, pc := .read }, none)
  else ({ rx with pc := .critical }, none)

/-- `borrow_and_update` reads what the cell holds by now. -/
def readLatest (rx : VideoRx) : VideoRx × Option (Nat × Nal) :=
  match rx.lane.latest with
  | some x => ({ lane := rx.lane.recvLatest x, changed := false, pc := .critical }, some x)
  | none => ({ rx with changed := false, pc := .critical }, none)

/-- One step of `recv`, with the NAL it returns. -/
def recv (rx : VideoRx) : VideoRx × Option (Nat × Nal) :=
  match rx.pc with
  | .critical => rx.pollCritical
  | .changed => rx.pollChanged
  | .read => rx.readLatest

/-- The step of the schedule that a step of `recv` is.  A look at the watch flag is
none. -/
def recvOp (rx : VideoRx) : Option (TwoLane.Op Nal) :=
  match rx.pc with
  | .critical => some .poll
  | .changed => none
  | .read => some .read

/-- The last poll found the queue empty. -/
def polled (rx : VideoRx) : Bool := rx.pc != .critical

/-- The lanes are well-formed, and a change or a read under way means that the
cell holds something new. -/
structure WellFormed (source : List (Nat × Nal)) (n : Nat) (rx : VideoRx) : Prop where
  lane : rx.lane.WellFormed Nal.isCritical source n
  changed : rx.changed = true → rx.lane.unread = true
  read : rx.pc = .read → rx.lane.unread = true

section

variable {source : List (Nat × Nal)} {n : Nat} {rx : VideoRx}

theorem WellFormed.new : WellFormed source n VideoRx.new where
  lane := .empty
  changed := nofun
  read := nofun

/-- A longer source changes nothing. -/
theorem WellFormed.mono {source' : List (Nat × Nal)} {n' : Nat} (h : rx.WellFormed source n)
    (hsource : ∀ x ∈ source, x ∈ source') (hn : n ≤ n') : rx.WellFormed source' n' where
  lane := h.lane.mono hsource hn
  changed := h.changed
  read := h.read

/-- A NAL of the encoder is put in its lane. -/
theorem WellFormed.send (h : rx.WellFormed source n) {x : Nat × Nal} (hx : x ∈ source)
    (hn : n ≤ x.1) : (rx.send x).WellFormed source (x.1 + 1) := by
  rw [VideoRx.send]
  split_ifs with hcritical
  · exact ⟨h.lane.sendCritical hx hn hcritical, h.changed, h.read⟩
  · exact ⟨h.lane.sendLatest hx hn (Bool.not_eq_true _ ▸ hcritical), fun _ => rfl, fun _ => rfl⟩

/-- A read takes one from a lane. -/
theorem WellFormed.recv (h : rx.WellFormed source n) : rx.recv.1.WellFormed source n := by
  rw [VideoRx.recv]
  cases hpc : rx.pc with
  | critical =>
      show rx.pollCritical.1.WellFormed source n
      rw [pollCritical]
      cases hcritical : rx.lane.critical with
      | nil => exact ⟨h.lane, h.changed, nofun⟩
      | cons x rest => exact ⟨h.lane.recvCritical hcritical, h.changed, h.read⟩
  | changed =>
      show rx.pollChanged.1.WellFormed source n
      rw [pollChanged]
      split_ifs with hchanged
      · exact ⟨h.lane, nofun, fun _ => h.changed hchanged⟩
      · exact ⟨h.lane, h.changed, nofun⟩
  | read =>
      show rx.readLatest.1.WellFormed source n
      rw [readLatest]
      cases hlatest : rx.lane.latest with
      | none => exact ⟨h.lane, nofun, nofun⟩
      | some x => exact ⟨h.lane.recvLatest hlatest (h.read hpc), nofun, nofun⟩

variable {ops : List (TwoLane.Op Nal)}

/-- The schedule follows a NAL that is sent. -/
theorem scheduled_send (h : rx.WellFormed source n)
    (hops : TwoLane.Scheduled Nal.isCritical ops rx.polled rx.lane) {x : Nat × Nal}
    (hn : n ≤ x.1) :
    TwoLane.Scheduled Nal.isCritical (ops ++ [.send x]) (rx.send x).polled (rx.send x).lane := by
  rw [VideoRx.send]
  split_ifs with hcritical
  · exact hops.sendCritical h.lane hn hcritical
  · exact hops.sendLatest h.lane hn (Bool.not_eq_true _ ▸ hcritical)

/-- The schedule follows a read, in its two halves. -/
theorem scheduled_recv (h : rx.WellFormed source n) (hsource : source.Pairwise TwoLane.Before)
    (hops : TwoLane.Scheduled Nal.isCritical ops rx.polled rx.lane) :
    TwoLane.Scheduled Nal.isCritical (ops ++ rx.recvOp.toList) rx.recv.1.polled
      rx.recv.1.lane := by
  rw [VideoRx.recv, recvOp]
  cases hpc : rx.pc with
  | critical =>
      show TwoLane.Scheduled Nal.isCritical (ops ++ [.poll]) rx.pollCritical.1.polled
        rx.pollCritical.1.lane
      rw [pollCritical]
      cases hcritical : rx.lane.critical with
      | nil => exact hops.pollEmpty hcritical
      | cons x rest =>
          show TwoLane.Scheduled Nal.isCritical (ops ++ [.poll]) rx.polled _
          rw [polled, hpc]
          exact hops.take h.lane hcritical
  | changed =>
      have hpolled : rx.polled = true := by rw [polled, hpc]; rfl
      show TwoLane.Scheduled Nal.isCritical (ops ++ []) rx.pollChanged.1.polled
        rx.pollChanged.1.lane
      rw [List.append_nil, pollChanged]
      split_ifs
      · rw [hpolled] at hops
        exact hops
      · exact hops.again
  | read =>
      have hpolled : rx.polled = true := by rw [polled, hpc]; rfl
      rw [hpolled] at hops
      show TwoLane.Scheduled Nal.isCritical (ops ++ [.read]) rx.readLatest.1.polled
        rx.readLatest.1.lane
      rw [readLatest]
      cases hlatest : rx.lane.latest with
      | none => exact absurd hlatest (hops.held (h.read hpc))
      | some x => exact hops.read h.lane hsource hlatest (h.read hpc)

end

/-- What a step of `recv` returns is what it adds to the returned NALs. -/
theorem recv_returned (rx : VideoRx) :
    rx.recv.1.lane.returned = rx.lane.returned ++ rx.recv.2.toList := by
  rw [VideoRx.recv]
  cases rx.pc with
  | critical =>
      show rx.pollCritical.1.lane.returned = _ ++ rx.pollCritical.2.toList
      rw [pollCritical]
      cases rx.lane.critical with
      | nil => simp
      | cons x rest => rfl
  | changed =>
      show rx.pollChanged.1.lane.returned = _ ++ rx.pollChanged.2.toList
      rw [pollChanged]
      split_ifs <;> simp
  | read =>
      show rx.readLatest.1.lane.returned = _ ++ rx.readLatest.2.toList
      rw [readLatest]
      cases rx.lane.latest with
      | none => simp
      | some x => rfl

end VideoRx

end RoboTele
