import RoboTele.RobotEdge.SessionRuns
import RoboTele.Runs.Past

/-!
# Who holds Full Teleoperation

An operator shows that it is there by Command frames and by heartbeats, and
only the first are meant to keep Full Teleoperation: the console sends
heartbeats so that "`deadman_held`/`command_fresh` are never asserted for as
long as this holds".  `FollowsCommands` is that rule on a session's log.

The session only ever sets the two flags.  What an arbitration returns then
depends on whether a command was accepted at any time before, not on what the
operator sent last (`full_iff_everCommanded`), and the rule holds exactly in
the logs where the difference never shows.
-/

namespace RoboTele

open Runs Past

/-- The two datagrams that show an operator to be there. -/
inductive Liveness where
  | command
  | heartbeat
deriving DecidableEq

namespace Act

/-- What an entry of the log says of the operator. -/
def liveness? : Act → Option Liveness
  | .commandAccepted _ => some .command
  | .heartbeatAccepted => some .heartbeat
  | _ => none

/-- A command was accepted. -/
def isCommandAccepted : Act → Bool
  | .commandAccepted _ => true
  | _ => false

end Act

/-- A command was accepted at some time. -/
def EverCommanded (past : List Act) : Prop := past.any Act.isCommandAccepted = true

instance (past : List Act) : Decidable (EverCommanded past) :=
  inferInstanceAs (Decidable (_ = true))

/-- Full Teleoperation is granted only while the newest liveness datagram is a
Command frame. -/
def FollowsCommands (log : List Act) : Prop :=
  Always (fun past a => ∀ i ∈ a.arbitrated?,
    arbitrate i = .fullTeleoperation → latest Act.liveness? past = some .command) log

/-- Wherever the newest liveness datagram is a heartbeat, the latch is set or no
command was ever accepted. -/
def HeartbeatsHarmless (log : List Act) : Prop :=
  Always (fun past a => ∀ i ∈ a.arbitrated?,
    latest Act.liveness? past = some .heartbeat → i.estopLatched = true ∨ ¬ EverCommanded past) log

instance (log : List Act) : Decidable (FollowsCommands log) :=
  inferInstanceAs (Decidable (Always _ _))

instance (log : List Act) : Decidable (HeartbeatsHarmless log) :=
  inferInstanceAs (Decidable (Always _ _))

/-! ## What the flags remember -/

theorem everCommanded_iff {past : List Act} :
    EverCommanded past ↔ ∃ seq, Act.commandAccepted seq ∈ past := by
  constructor
  · intro h
    obtain ⟨a, ha, hcommand⟩ := List.any_eq_true.mp h
    cases a with
    | commandAccepted seq => exact ⟨seq, ha⟩
    | _ => simp [Act.isCommandAccepted] at hcommand
  · rintro ⟨seq, hseq⟩
    exact List.any_eq_true.mpr ⟨_, hseq, rfl⟩

/-- With no liveness datagram there was no command. -/
theorem not_everCommanded_of_latest {past : List Act} (h : latest Act.liveness? past = none) :
    ¬ EverCommanded past := by
  rw [everCommanded_iff]
  rintro ⟨seq, hseq⟩
  have hnone := latest_eq_none_iff.mp h _ hseq
  cases hnone

/-- Every arbitration in the log grants Full Teleoperation exactly if the latch
is open and a command was accepted before. -/
def GrantsByHistory (log : List Act) : Prop :=
  Always (fun past a => ∀ i ∈ a.arbitrated?,
    (arbitrate i = .fullTeleoperation ↔ i.estopLatched = false ∧ EverCommanded past)) log

/-- A move arbitrates by the flags, which the log determines. -/
theorem grantsByHistory_apply {v : SafetyView} (hv : v.Unmeasured)
    (h : GrantsByHistory v.log) (m : SafetyMove) : GrantsByHistory (m.apply v).log := by
  cases m with
  | note a =>
      exact (always_concat _ _ _).mpr ⟨h, by simp [Act.quiet_arbitrated? a.2]⟩
  | activity now => exact h
  | accept seq => exact (always_concat _ _ _).mpr ⟨h, by simp [Act.arbitrated?]⟩
  | arbitrate now asserted =>
      refine (always_concat _ _ _).mpr ⟨h, ?_⟩
      intro i hi
      obtain rfl : (v.safety.poll now).inputs asserted = i := by
        simpa [Act.arbitrated?] using hi
      rw [hv.arbitrate_eq, hv.inputs_eq, everCommanded_iff, ← hv.held]
      cases (v.safety.poll now).isEstopped <;> cases v.safety.deadmanHeld <;>
        cases asserted <;> simp
  | dispatch seq => exact (always_concat _ _ _).mpr ⟨h, by simp [Act.arbitrated?]⟩
  | trigger => exact (always_concat _ _ _).mpr ⟨h, by simp [Act.arbitrated?]⟩
  | clear now => exact (always_concat _ _ _).mpr ⟨h, by simp [Act.arbitrated?]⟩
  | relay active => exact h
  | order cmd => exact (always_concat _ _ _).mpr ⟨h, by simp [Act.arbitrated?]⟩
  | done i => exact (always_concat _ _ _).mpr ⟨h, by simp [Act.arbitrated?]⟩

/-- Every run grants Full Teleoperation by "a command was accepted at some
time". -/
theorem full_iff_everCommanded (fb : FlatBuffers) (args : ServerArgs) (goal : AutonomyGoal)
    (t₀ : Instant) (es : List Session.Event) :
    GrantsByHistory (Session.after fb args goal t₀ es).log := by
  have h := Session.after_view_inv fb args goal t₀
    (I := fun v => v.Unmeasured ∧ GrantsByHistory v.log)
    ⟨.new args goal t₀, always_nil _⟩
    (fun v m hv => ⟨hv.1.apply m, grantsByHistory_apply hv.1 hv.2 m⟩) es
  exact h.2

/-! ## The rule -/

/-- In every run, Full Teleoperation follows the newest liveness datagram
exactly if no arbitration after a heartbeat finds both the latch open and an
old command. -/
theorem followsCommands_iff (fb : FlatBuffers) (args : ServerArgs) (goal : AutonomyGoal)
    (t₀ : Instant) (es : List Session.Event) :
    FollowsCommands (Session.after fb args goal t₀ es).log ↔
      HeartbeatsHarmless (Session.after fb args goal t₀ es).log := by
  apply always_congr
  refine (full_iff_everCommanded fb args goal t₀ es).imp fun past a hgrant => ?_
  refine forall₂_congr fun i hi => ?_
  rw [hgrant i hi]
  cases hlatest : latest Act.liveness? past with
  | none => simp [not_everCommanded_of_latest hlatest]
  | some kind =>
      cases kind with
      | command => simp
      | heartbeat =>
          cases i.estopLatched <;> simp

/-- A Command frame, then a heartbeat, then a tick that still grants Full
Teleoperation. -/
def observerRun : List Session.Event :=
  let clk := Clock.const 0
  Session.opening .fixedLayout sampleArgs [] 0 ++
    [.datagram (commandDatagram .fixedLayout 0 1 (.forward 0)) clk,
      .datagram (heartbeatDatagram 2) clk,
      .tick clk { established := true, estopStreamOk := true, captureUs := 0 }]

/-- A heartbeat keeps what an earlier Command granted. -/
theorem followsCommands_fails_for_observer :
    ¬ FollowsCommands
      (Session.after .fixedLayout sampleArgs (.new 0) 0 observerRun).log := by
  decide +kernel

end RoboTele
