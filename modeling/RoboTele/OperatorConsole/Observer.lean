import RoboTele.OperatorConsole.Client
import RoboTele.Runs.Machine
import RoboTele.Runs.Past

/-!
# Handing control over

With `--observer` a client whose operator lets go sends heartbeats in place of
Command frames, and robot-edge gives the robot to an autonomy source.
`HandsOverAtRest` is the rule that the robot was told to stop first: the last
Command frame before a heartbeat carries no velocity.

Letting go is one staleness check, and the tick that finds it both zeroes the
held velocity and sends the heartbeat.  So the zeroed command is never sent.  A
frame carries what the operator held at a tick that was still fresh
(`freshCommand?`), and the rule holds exactly if that was zero already.
-/

namespace RoboTele

open Runs Past

/-! ## The last frame of a session -/

/-- A Command frame, or the mark that starts a session without one. -/
def Sent.sessionCommand? : Sent → Option (Option TeleopCommand)
  | .command _ _ cmd => some (some cmd)
  | .reconnected => some none
  | _ => none

/-- The entry is a heartbeat. -/
def Sent.isHeartbeat : Sent → Bool
  | .heartbeat _ => true
  | _ => false

/-- The last Command frame of the session the log ends in. -/
def lastCommandFrame (log : List Sent) : Option TeleopCommand :=
  (latest Sent.sessionCommand? log).join

/-- A heartbeat is preceded by a frame without velocity, if by any. -/
def HandsOverAtRest (log : List Sent) : Prop :=
  Always (fun past x => x.isHeartbeat = true →
    ∀ cmd ∈ lastCommandFrame past, cmd.isIdle = true) log

instance (log : List Sent) : Decidable (HandsOverAtRest log) :=
  inferInstanceAs (Decidable (Always _ _))

namespace Client

/-- The client after a run. -/
def after (args : ClientArgs) (es : List Event) : Client := exec step (.new args) es

@[simp] theorem after_concat (args : ClientArgs) (es : List Event) (e : Event) :
    after args (es ++ [e]) = (after args es).step e :=
  exec_concat _ _ _ _

/-! ## Steps that send no frame and no heartbeat -/

/-- `t` has sent more than `s`, but no Command frame and no heartbeat, and stays
in the same session. -/
def Quietly (s t : Client) : Prop :=
  ∃ xs : List Sent, (∀ x ∈ xs, x.sessionCommand? = none ∧ x.isHeartbeat = false) ∧
    t.log = s.log ++ xs

namespace Quietly

variable {s t u : Client}

/-- The same log is quiet. -/
theorem of_log (h : t.log = s.log) : Quietly s t := ⟨[], by simp, by simp [h]⟩

theorem trans (hst : Quietly s t) (htu : Quietly t u) : Quietly s u := by
  obtain ⟨xs, hxs, ht⟩ := hst
  obtain ⟨ys, hys, hu⟩ := htu
  refine ⟨xs ++ ys, ?_, by rw [hu, ht, List.append_assoc]⟩
  intro x hx
  exact (List.mem_append.mp hx).elim (hxs x) (hys x)

/-- An entry that is no Command of the session, and no heartbeat, is quiet. -/
theorem record (s : Client) {x : Sent} (hx : x.sessionCommand? = none)
    (hb : x.isHeartbeat = false) : Quietly s (s.record x) :=
  ⟨[x], by simp [hx, hb], rfl⟩

/-- What is quiet leaves the latest Command. -/
theorem latest_eq (h : Quietly s t) :
    latest Sent.sessionCommand? t.log = latest Sent.sessionCommand? s.log := by
  obtain ⟨xs, hxs, ht⟩ := h
  rw [ht, latest_append, latest_eq_none_iff.mpr fun x hx => (hxs x hx).1, Option.none_or]

/-- What is quiet hands nothing over. -/
theorem handsOver_iff (h : Quietly s t) : HandsOverAtRest t.log ↔ HandsOverAtRest s.log := by
  obtain ⟨xs, hxs, ht⟩ := h
  rw [ht]
  refine ⟨Always.of_append, ?_⟩
  intro h
  apply Always.append h
  intro past x hx hbeat
  rw [(hxs x hx).2] at hbeat
  exact Bool.noConfusion hbeat

theorem sendActionTrigger (s : Client) (id : UInt8) : Quietly s (s.sendActionTrigger id) := by
  rw [Client.sendActionTrigger]
  dsimp only
  split_ifs
  · exact of_log rfl
  · exact ⟨[_], by simp [Sent.sessionCommand?, Sent.isHeartbeat], rfl⟩

theorem sendCameraControl (s : Client) : Quietly s s.sendCameraControl := by
  rw [Client.sendCameraControl]
  dsimp only
  split_ifs
  · exact of_log rfl
  · exact ⟨[_], by simp [Sent.sessionCommand?, Sent.isHeartbeat], rfl⟩

theorem sendEstop (s : Client) (latched : Bool) : Quietly s (s.sendEstop latched) :=
  ⟨[_], by simp [Sent.sessionCommand?, Sent.isHeartbeat], rfl⟩

theorem refreshMoveInput (s : Client) (input : TeleopInput) (now : Instant) :
    Quietly s (s.refreshMoveInput input now) := by
  rw [Client.refreshMoveInput]
  split_ifs <;> exact of_log rfl

theorem onInput (s : Client) (input : TeleopInput) (clk : Clock) :
    Quietly s (s.onInput input clk) := by
  refine (refreshMoveInput s input (clk.read 0)).trans ?_
  unfold Client.onInput
  generalize s.refreshMoveInput input (clk.read 0) = u
  cases input with
  | action id => exact sendActionTrigger u id
  | estop => exact sendEstop u true
  | estopClear => exact sendEstop u false
  | estopToggle => exact sendEstop u _
  | cameraNudge param delta => exact (of_log rfl).trans (sendCameraControl _)
  | cameraReset => exact (of_log rfl).trans (sendCameraControl _)
  | _ => exact of_log rfl

theorem autoZero (s : Client) (now : Instant) : Quietly s (s.autoZero now) := by
  rw [Client.autoZero]
  split_ifs <;> exact of_log rfl

theorem fireDemoAction (s : Client) : Quietly s s.fireDemoAction := by
  rw [Client.fireDemoAction]
  split
  · exact (of_log rfl).trans (sendActionTrigger _ _)
  · exact of_log rfl

end Quietly

/-! ## Ticks -/

/-- What the operator holds.  A demo action that is still due halts it. -/
def heldCommand (s : Client) : TeleopCommand :=
  if s.demoAction.isSome then s.lastCommand.halted else s.lastCommand

/-- The tick sends a heartbeat. -/
def observes (s : Client) : Event → Bool
  | .tick clk _ => decide (s.phase = .operating) && s.observing (clk.read 1)
  | _ => false

/-- What the operator holds at a tick that still counts as fresh.  A reconnect
starts over. -/
def freshCommand? (s : Client) : Event → Option (Option TeleopCommand)
  | .tick clk _ =>
      if s.phase = .operating ∧ s.observing (clk.read 1) = false then some (some s.heldCommand)
      else none
  | .reconnect => some none
  | _ => none

/-- The fields a tick decides by. -/
structure SameWatch (s t : Client) : Prop where
  observer : t.observer = s.observer
  moveStale : t.moveStale = s.moveStale
  lastMoveInputAt : t.lastMoveInputAt = s.lastMoveInputAt
  channelBSeq : t.channelBSeq = s.channelBSeq

/-- Observation depends on the watch only. -/
theorem SameWatch.observing_eq {s t : Client} (h : SameWatch s t) (now : Instant) :
    t.observing now = s.observing now := by
  simp [observing, stale, h.observer, h.moveStale, h.lastMoveInputAt]

theorem sameWatch_autoZero (s : Client) (now : Instant) : SameWatch s (s.autoZero now) := by
  rw [autoZero]
  split_ifs <;> exact ⟨rfl, rfl, rfl, rfl⟩

theorem sameWatch_sendActionTrigger (s : Client) (id : UInt8) :
    SameWatch s (s.sendActionTrigger id) := by
  rw [sendActionTrigger]
  dsimp only
  split_ifs <;> exact ⟨rfl, rfl, rfl, rfl⟩

theorem sameWatch_fireDemoAction (s : Client) : SameWatch s s.fireDemoAction := by
  rw [fireDemoAction]
  split
  · obtain ⟨h1, h2, h3, h4⟩ := sameWatch_sendActionTrigger { s with demoAction := none } ‹_›
    exact ⟨h1, h2, h3, h4⟩
  · exact ⟨rfl, rfl, rfl, rfl⟩

theorem SameWatch.trans {s t u : Client} (hst : SameWatch s t) (htu : SameWatch t u) :
    SameWatch s u :=
  ⟨htu.observer.trans hst.observer, htu.moveStale.trans hst.moveStale,
    htu.lastMoveInputAt.trans hst.lastMoveInputAt, htu.channelBSeq.trans hst.channelBSeq⟩

/-- Movement that is fresh at a later reading was fresh at an earlier one. -/
theorem stale_mono {s : Client} {a b : Instant} (hab : a ≤ b) (h : s.stale a = true) :
    s.stale b = true := by
  unfold stale at h ⊢
  cases hlast : s.lastMoveInputAt with
  | none => rfl
  | some t =>
      rw [hlast] at h
      have hearlier : s.moveStale ≤ a - t := of_decide_eq_true h
      exact decide_eq_true (hearlier.trans (Nat.sub_le_sub_right hab t))

/-- In a tick that sends a command, nothing was auto-zeroed. -/
theorem autoZero_of_fresh {s : Client} (hobserver : s.observer = true) (clk : Clock)
    (h : s.observing (clk.read 1) = false) : s.autoZero (clk.read 0) = s := by
  have hfresh : s.stale (clk.read 0) = false := by
    by_contra hstale
    rw [Bool.not_eq_false] at hstale
    rw [observing, hobserver, stale_mono (clk.mono (Nat.zero_le 1)) hstale] at h
    exact Bool.noConfusion h
  simp [autoZero, hfresh]

/-- The demo action holds the command it leaves. -/
theorem fireDemoAction_lastCommand {s : Client} (h : s.phase = .operating) :
    s.fireDemoAction.lastCommand = s.heldCommand := by
  rw [fireDemoAction, heldCommand]
  cases hdemo : s.demoAction with
  | none => rfl
  | some id => simp [sendActionTrigger, h, record]

/-- An observing tick sends a heartbeat after at most a demo action. -/
theorem onTick_observing {s : Client} {clk : Clock} (wallUs : UInt64)
    (hphase : s.phase = .operating) (h : s.observing (clk.read 1) = true) :
    ∃ t, Quietly s t ∧ (s.onTick clk wallUs).log = t.log ++ [.heartbeat (s.channelBSeq + 1)] := by
  have hsame := (sameWatch_autoZero s (clk.read 0)).trans (sameWatch_fireDemoAction _)
  refine ⟨(s.autoZero (clk.read 0)).fireDemoAction,
    (Quietly.autoZero s _).trans (.fireDemoAction _), ?_⟩
  rw [onTick, if_neg (by simp [hphase])]
  dsimp only
  rw [if_pos (by rw [hsame.observing_eq, h]), sendHeartbeat, hsame.channelBSeq]
  rfl

/-- A fresh tick sends what the operator holds. -/
theorem onTick_fresh {s : Client} {clk : Clock} (wallUs : UInt64) (hobserver : s.observer = true)
    (hphase : s.phase = .operating) (h : s.observing (clk.read 1) = false) :
    ∃ t, Quietly s t ∧ (s.onTick clk wallUs).log =
      t.log ++ [.command wallUs (s.channelBSeq + 1) s.heldCommand] := by
  have hsame := sameWatch_fireDemoAction s
  refine ⟨s.fireDemoAction, .fireDemoAction s, ?_⟩
  rw [onTick, if_neg (by simp [hphase])]
  dsimp only
  rw [autoZero_of_fresh hobserver clk h, if_neg (by rw [hsame.observing_eq, h]; simp), sendCommand,
    hsame.channelBSeq, fireDemoAction_lastCommand hphase]
  rfl

theorem sendActionTrigger_observer (s : Client) (id : UInt8) :
    (s.sendActionTrigger id).observer = s.observer :=
  (sameWatch_sendActionTrigger s id).observer

theorem sendCameraControl_observer (s : Client) :
    s.sendCameraControl.observer = s.observer := by
  rw [sendCameraControl]
  dsimp only
  split_ifs <;> rfl

theorem onInput_observer (s : Client) (input : TeleopInput) (clk : Clock) :
    (s.onInput input clk).observer = s.observer := by
  have hrefresh : (s.refreshMoveInput input (clk.read 0)).observer = s.observer := by
    rw [refreshMoveInput]
    split_ifs <;> rfl
  rw [← hrefresh]
  unfold onInput
  generalize s.refreshMoveInput input (clk.read 0) = u
  cases input with
  | action id => exact sendActionTrigger_observer u id
  | cameraNudge param delta => exact sendCameraControl_observer _
  | cameraReset => exact sendCameraControl_observer _
  | _ => rfl

theorem onTick_observer (s : Client) (clk : Clock) (wallUs : UInt64) :
    (s.onTick clk wallUs).observer = s.observer := by
  have hsame := (sameWatch_autoZero s (clk.read 0)).trans (sameWatch_fireDemoAction _)
  rw [onTick]
  dsimp only
  split_ifs
  · rfl
  · exact hsame.observer
  · exact hsame.observer

/-- Observer mode is fixed for the client's life. -/
theorem step_observer (s : Client) (e : Event) : (s.step e).observer = s.observer := by
  cases e with
  | input i clk => exact onInput_observer s i clk
  | tick clk wallUs => exact onTick_observer s clk wallUs
  | estopReport latched => rfl
  | helloNegotiated =>
      rw [step]
      split_ifs <;> rfl
  | sessionDescribed =>
      rw [step]
      split_ifs <;> rfl
  | reconnect => rfl

/-! ## The rule -/

/-- What one step adds to the frames and to the rule. -/
structure StepAdds (s t : Client) (fresh : Option (Option TeleopCommand)) (observes : Bool) :
    Prop where
  latest : latest Sent.sessionCommand? t.log = fresh.or (latest Sent.sessionCommand? s.log)
  rule : HandsOverAtRest t.log ↔ HandsOverAtRest s.log ∧
    (observes = true → ∀ cmd ∈ lastCommandFrame s.log, cmd.isIdle = true)

/-- What is quiet adds nothing. -/
theorem stepAdds_of_quietly {s t : Client} (h : Quietly s t) : StepAdds s t none false where
  latest := by rw [h.latest_eq, Option.none_or]
  rule := by simp [h.handsOver_iff]

/-- One more entry after quiet ones. -/
theorem stepAdds_concat {s t u : Client} {x : Sent} (h : Quietly s t) (hu : u.log = t.log ++ [x]) :
    StepAdds s u x.sessionCommand? x.isHeartbeat where
  latest := by rw [hu, latest_append, latest_singleton, h.latest_eq]
  rule := by
    rw [hu, HandsOverAtRest, always_concat, lastCommandFrame, h.latest_eq]
    exact and_congr_left' h.handsOver_iff

/-- An event adds its fresh Command, or its heartbeat. -/
theorem stepAdds_step {s : Client} (hobserver : s.observer = true) (e : Event) :
    StepAdds s (s.step e) (s.freshCommand? e) (s.observes e) := by
  cases e with
  | input i clk => exact stepAdds_of_quietly (.onInput s i clk)
  | tick clk wallUs =>
      by_cases hphase : s.phase = .operating
      · cases hobserving : s.observing (clk.read 1) with
        | true =>
            obtain ⟨t, hquiet, hlog⟩ := onTick_observing wallUs hphase hobserving
            have hfresh : s.freshCommand? (.tick clk wallUs) = none := by
              simp [freshCommand?, hobserving]
            have hobserves : s.observes (.tick clk wallUs) = true := by
              simp [observes, hphase, hobserving]
            rw [hfresh, hobserves]
            exact stepAdds_concat hquiet hlog
        | false =>
            obtain ⟨t, hquiet, hlog⟩ := onTick_fresh wallUs hobserver hphase hobserving
            have hfresh : s.freshCommand? (.tick clk wallUs) = some (some s.heldCommand) := by
              simp [freshCommand?, hphase, hobserving]
            have hobserves : s.observes (.tick clk wallUs) = false := by
              simp [observes, hobserving]
            rw [hfresh, hobserves]
            exact stepAdds_concat hquiet hlog
      · have hfresh : s.freshCommand? (.tick clk wallUs) = none := by
          simp [freshCommand?, hphase]
        have hobserves : s.observes (.tick clk wallUs) = false := by
          simp [observes, hphase]
        rw [hfresh, hobserves, step, onTick, if_pos hphase]
        exact stepAdds_of_quietly (.of_log rfl)
  | estopReport latched => exact stepAdds_of_quietly (.of_log rfl)
  | helloNegotiated =>
      refine stepAdds_of_quietly (.of_log ?_)
      rw [step]
      split_ifs <;> rfl
  | sessionDescribed =>
      refine stepAdds_of_quietly (.of_log ?_)
      rw [step]
      split_ifs <;> rfl
  | reconnect =>
      exact stepAdds_concat (t := s) (.of_log rfl) (x := .reconnected) rfl

/-- What the operator held at the last fresh tick of the session. -/
def lastFresh (args : ClientArgs) (es : List Event) : Option TeleopCommand :=
  (trace step freshCommand? (.new args) es).getLast?.join

/-- At every observing tick, the operator held no velocity at the last fresh
one. -/
def HaltedBeforeStale (args : ClientArgs) (es : List Event) : Prop :=
  Always (fun past e => (after args past).observes e = true →
    ∀ cmd ∈ lastFresh args past, cmd.isIdle = true) es

/-- The last frame sent is what was held at the last fresh tick. -/
theorem latest_after (args : ClientArgs) (hobserver : args.observer = true) (es : List Event) :
    (after args es).observer = true ∧
      latest Sent.sessionCommand? (after args es).log =
        (trace step freshCommand? (.new args) es).getLast? := by
  induction es using List.reverseRecOn with
  | nil => exact ⟨hobserver, rfl⟩
  | append_singleton es e ih =>
      obtain ⟨hobs, hlatest⟩ := ih
      rw [after_concat, trace_concat, List.getLast?_append, (stepAdds_step hobs e).latest, hlatest]
      refine ⟨(step_observer _ e).trans hobs, ?_⟩
      show _ = Option.or ((after args es).freshCommand? e).toList.getLast? _
      cases (after args es).freshCommand? e <;> rfl

/-- In every run of an observer, control is handed over at rest exactly if the
operator held no velocity at the last fresh tick before each handover. -/
theorem handsOverAtRest_iff (moveStaleMs : Nat) (demoAction : Option UInt8) (es : List Event) :
    let args : ClientArgs := { moveStaleMs, observer := true, demoAction }
    HandsOverAtRest (after args es).log ↔ HaltedBeforeStale args es := by
  intro args
  induction es using List.reverseRecOn with
  | nil => simp [HandsOverAtRest, HaltedBeforeStale, after, exec, new]
  | append_singleton es e ih =>
      obtain ⟨hobs, hlatest⟩ := latest_after args rfl es
      rw [after_concat, (stepAdds_step hobs e).rule, ih, lastCommandFrame, hlatest]
      exact (always_concat _ _ _).symm

/-- The operator holds a forward key for one tick and lets go. -/
def letGoRun : List Event :=
  [.helloNegotiated, .sessionDescribed,
    .input (.move 10 0) (.const 0),
    .tick (.const 0) 0,
    .tick (.const (fromMillis 500)) 0]

/-- A key that is let go without a zero hands over at its last speed. -/
theorem handsOverAtRest_fails_for_letGo :
    ¬ HandsOverAtRest
      (after { moveStaleMs := 300, observer := true, demoAction := none } letGoRun).log := by
  decide +kernel

end Client

end RoboTele
