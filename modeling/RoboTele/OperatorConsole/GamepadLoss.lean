import RoboTele.OperatorConsole.Gamepad
import RoboTele.OperatorConsole.Observer

/-!
# Losing the gamepad

A stick that is held reports nothing new, so the thread sends what it kept again
and again.  When the last pad goes away that should end, and the console then
zeroes a velocity that nothing refreshes (`Releases`).

The thread keeps its state when a pad goes away.  So it goes on with what was
held, and the velocity with it.  The rule holds of a run exactly if the pad was
let go before it went away (`IdleAtLoss`, `releases_iff_idleAtLoss`).
-/

namespace RoboTele

open Runs Past

/-! ## The system -/

/-- The thread, what it sent that the client has not received, and the client. -/
structure PadConsole where
  thread : GamepadThread
  queue : List TeleopInput
  client : Client

namespace PadConsole

/-- `refresh` ends a round of the thread.  `client` is any step of the client but
receiving from the thread. -/
inductive Event where
  | gilrs (id : Nat) (event : EventType)
  | refresh
  | receive (clk : Clock)
  | client (event : Client.Event)

namespace Event

/-- A new axis or button event. -/
def isPadInput : Event → Bool
  | gilrs _ event => event.isInput
  | _ => false

/-- The thread's timer. -/
def isRefresh : Event → Bool
  | refresh => true
  | _ => false

/-- The operator does something, on a pad or elsewhere. -/
def isOperator : Event → Bool
  | gilrs _ event => event.isInput
  | client (.input _ _) => true
  | _ => false

end Event

/-- The thread, the channel and the client as they start. -/
def new (args : ClientArgs) (pads : Finset Nat) : PadConsole where
  thread := .new pads
  queue := []
  client := .new args

/-- The client takes the next input off the channel. -/
def receive (c : PadConsole) (clk : Clock) : PadConsole :=
  match c.queue with
  | [] => c
  | input :: queue => { c with queue := queue, client := c.client.onInput input clk }

/-- A step of the thread or of the client. -/
def step (c : PadConsole) : Event → PadConsole
  | .gilrs id event =>
      let (thread, sent) := c.thread.onEvent id event
      { c with thread := thread, queue := c.queue ++ sent }
  | .refresh => { c with queue := c.queue ++ c.thread.state.sendRefresh }
  | .receive clk => c.receive clk
  | .client event => { c with client := c.client.step event }

def after (args : ClientArgs) (pads : Finset Nat) (es : List Event) : PadConsole :=
  exec step (new args pads) es

/-! ## The rule -/

/-- The last pad goes away. -/
def Loses (c : PadConsole) : Event → Prop
  | .gilrs id .disconnected => c.thread.pads.erase id = ∅
  | _ => False

section

variable (args : ClientArgs) (pads : Finset Nat)

/-- The last pad went away, and no axis or button was reported since. -/
def Deserted : List Event → Prop :=
  Since (fun past e => (after args pads past).Loses e) fun e => e.isPadInput = true

/-- Without a pad a refresh sends nothing. -/
def Quiet : List Event → Prop :=
  Always fun past e => e.isRefresh = true → Deserted args pads past →
    (after args pads past).thread.state.sendRefresh = []

/-- Without a pad, once all that was sent is received, a tick that comes
`move_stale` after the last input leaves no velocity, unless the operator does
something in between. -/
def Zeroes (es : List Event) : Prop :=
  ∀ pre mid clk wallUs post, es = pre ++ mid ++ .client (.tick clk wallUs) :: post →
    Deserted args pads pre → (after args pads pre).queue = [] →
    (∀ e ∈ mid, e.isOperator = false) → (after args pads pre).client.stale (clk.read 0) = true →
    (after args pads (pre ++ mid)).client.phase = .operating →
      (after args pads (pre ++ mid ++ [.client (.tick clk wallUs)])).client.lastCommand.isIdle =
        true

/-- A pad that goes away stops the robot. -/
def Releases (es : List Event) : Prop := Quiet args pads es ∧ Zeroes args pads es

/-- Where the last pad goes away and a refresh follows before the next axis or
button event, nothing was deflected or held. -/
def IdleAtLoss (es : List Event) : Prop :=
  ∀ pre loss mid e post, es = pre ++ loss :: (mid ++ e :: post) →
    (after args pads pre).Loses loss → (∀ x ∈ mid, x.isPadInput = false) → e.isRefresh = true →
      (after args pads pre).thread.state.Idle

end

/-! ## What the thread keeps -/

/-- The loss of a gamepad is no input from it. -/
theorem not_isPadInput_of_loses {c : PadConsole} {e : Event} (h : c.Loses e) :
    e.isPadInput = false := by
  cases e with
  | gilrs id event => cases event <;> first | rfl | exact h.elim
  | _ => exact h.elim

/-- What is no input from a gamepad leaves the pad's state alone. -/
theorem state_step {c : PadConsole} {e : Event} (h : e.isPadInput = false) :
    (c.step e).thread.state = c.thread.state := by
  cases e with
  | gilrs id event => exact (c.thread.onEvent_of_not_isInput id h).1
  | refresh => rfl
  | receive clk =>
      rw [step, receive]
      split <;> rfl
  | client event => rfl

/-- So does a run without such input. -/
theorem state_exec {es : List Event} (c : PadConsole) (h : ∀ e ∈ es, e.isPadInput = false) :
    (exec step c es).thread.state = c.thread.state :=
  exec_inv_of_forall (I := fun d : PadConsole => d.thread.state = c.thread.state)
    (fun _ _ hd he => (state_step he).trans hd) es rfl h

section

variable {args : ClientArgs} {pads : Finset Nat} {es : List Event}

/-- Since the last pad went away the state is what it was. -/
theorem state_after_loss {pre mid : List Event} {loss : Event}
    (hloses : (after args pads pre).Loses loss) (hmid : ∀ e ∈ mid, e.isPadInput = false) :
    (after args pads (pre ++ loss :: mid)).thread.state = (after args pads pre).thread.state := by
  rw [after, exec_append, state_exec]
  · rfl
  · intro e he
    rcases List.mem_cons.mp he with rfl | he
    · exact not_isPadInput_of_loses hloses
    · exact hmid e he

/-- A refresh without a pad, where the rule's condition holds. -/
theorem IdleAtLoss.idle (h : IdleAtLoss args pads es) {past post : List Event} {e : Event}
    (hes : es = past ++ e :: post) (he : e.isRefresh = true) (hdeserted : Deserted args pads past) :
    (after args pads past).thread.state.Idle := by
  obtain ⟨pre, loss, mid, rfl, hloses, hmid⟩ := hdeserted
  have hmid' : ∀ x ∈ mid, x.isPadInput = false := fun x hx => Bool.eq_false_iff.mpr (hmid x hx)
  rw [state_after_loss hloses hmid']
  refine h pre loss mid e post ?_ hloses hmid' he
  rw [hes, List.append_assoc, List.cons_append]

/-- Nothing is sent after a loss exactly when the pad was idle at it. -/
theorem quiet_iff_idleAtLoss : Quiet args pads es ↔ IdleAtLoss args pads es := by
  constructor
  · intro hquiet pre loss mid e post hes hloses hmid he
    have hdeserted : Deserted args pads (pre ++ loss :: mid) :=
      ⟨pre, loss, mid, rfl, hloses, fun x hx => Bool.eq_false_iff.mp (hmid x hx)⟩
    have hnothing := hquiet (pre ++ loss :: mid) e post
      (by rw [hes, List.append_assoc, List.cons_append]) he hdeserted
    rwa [PadState.sendRefresh_eq_nil_iff, state_after_loss hloses hmid] at hnothing
  · intro hidle past e post hes he hdeserted
    exact (PadState.sendRefresh_eq_nil_iff _).mpr (hidle.idle hes he hdeserted)

end

/-! ## What the console zeroes -/

end PadConsole

namespace Client

/-- The staleness check is as before. -/
def SameStale (s t : Client) : Prop :=
  t.moveStale = s.moveStale ∧ t.lastMoveInputAt = s.lastMoveInputAt

theorem SameWatch.sameStale {s t : Client} (h : SameWatch s t) : SameStale s t :=
  ⟨h.moveStale, h.lastMoveInputAt⟩

theorem SameStale.stale_eq {s t : Client} (h : SameStale s t) (now : Instant) :
    t.stale now = s.stale now := by
  rw [stale, stale, h.1, h.2]

/-- A tick does not make a held command fresh. -/
theorem sameStale_onTick (s : Client) (clk : Clock) (wallUs : UInt64) :
    SameStale s (s.onTick clk wallUs) := by
  have hsame := (sameWatch_autoZero s (clk.read 0)).trans (sameWatch_fireDemoAction _)
  rw [onTick]
  dsimp only
  split_ifs
  · exact ⟨rfl, rfl⟩
  · exact hsame.sameStale
  · exact hsame.sameStale

/-- Only an input counts as one. -/
theorem sameStale_step {s : Client} {e : Event} (h : ∀ i clk, e ≠ .input i clk) :
    SameStale s (s.step e) := by
  cases e with
  | input i clk => exact absurd rfl (h i clk)
  | tick clk wallUs => exact sameStale_onTick s clk wallUs
  | estopReport latched => exact ⟨rfl, rfl⟩
  | helloNegotiated =>
      rw [step]
      split_ifs <;> exact ⟨rfl, rfl⟩
  | sessionDescribed =>
      rw [step]
      split_ifs <;> exact ⟨rfl, rfl⟩
  | reconnect => exact ⟨rfl, rfl⟩

/-- Before the first input there is no velocity. -/
def RestsAtFirst (s : Client) : Prop := s.lastMoveInputAt = none → s.lastCommand.isIdle = true

/-- The rest depends on the last move and on the held command. -/
theorem RestsAtFirst.of_eq {s t : Client} (h : s.RestsAtFirst)
    (hlast : t.lastMoveInputAt = s.lastMoveInputAt) (hcommand : t.lastCommand = s.lastCommand) :
    t.RestsAtFirst := by
  rw [RestsAtFirst, hlast, hcommand]
  exact h

theorem RestsAtFirst.sendActionTrigger {s : Client} (h : s.RestsAtFirst) (id : UInt8) :
    (s.sendActionTrigger id).RestsAtFirst := by
  rw [Client.sendActionTrigger]
  dsimp only
  split_ifs
  · exact h
  · exact fun _ => TeleopCommand.isIdle_halted _

theorem RestsAtFirst.sendCameraControl {s : Client} (h : s.RestsAtFirst) :
    s.sendCameraControl.RestsAtFirst := by
  rw [Client.sendCameraControl]
  dsimp only
  split_ifs
  · exact h
  · exact h

theorem RestsAtFirst.onInput {s : Client} (h : s.RestsAtFirst) (input : TeleopInput)
    (clk : Clock) : (s.onInput input clk).RestsAtFirst := by
  unfold Client.onInput
  cases input with
  | action id => exact h.sendActionTrigger id
  | cameraNudge param delta => exact RestsAtFirst.sendCameraControl h
  | cameraReset => exact RestsAtFirst.sendCameraControl h
  | estop | estopClear | estopToggle | saveFrame | toggleRecording | quit => exact h
  | move | turn | armNudge | attitudeNudge | attitudeReset | neutralPose | clawNudge =>
      exact fun hnone => absurd hnone (Option.some_ne_none _)

theorem RestsAtFirst.onTick {s : Client} (h : s.RestsAtFirst) (clk : Clock) (wallUs : UInt64) :
    (s.onTick clk wallUs).RestsAtFirst := by
  have hzero : (s.autoZero (clk.read 0)).RestsAtFirst := by
    rw [autoZero]
    split_ifs
    · exact fun _ => TeleopCommand.isIdle_halted _
    · exact h
  have hdemo : (s.autoZero (clk.read 0)).fireDemoAction.RestsAtFirst := by
    rw [fireDemoAction]
    split
    · have hnone : { s.autoZero (clk.read 0) with demoAction := none }.RestsAtFirst := hzero
      exact hnone.sendActionTrigger _
    · exact hzero
  rw [Client.onTick]
  dsimp only
  split_ifs
  · exact h
  · exact hdemo
  · exact hdemo

/-- Every event of the client keeps the first rest. -/
theorem RestsAtFirst.step {s : Client} (h : s.RestsAtFirst) (e : Event) :
    (s.step e).RestsAtFirst := by
  cases e with
  | input i clk => exact h.onInput i clk
  | tick clk wallUs => exact h.onTick clk wallUs
  | estopReport latched => exact h
  | helloNegotiated =>
      rw [Client.step]
      split_ifs <;> exact h
  | sessionDescribed =>
      rw [Client.step]
      split_ifs <;> exact h
  | reconnect => exact h

/-- A tick zeroes a velocity that went stale. -/
theorem isIdle_onTick {s : Client} {clk : Clock} (wallUs : UInt64) (hrests : s.RestsAtFirst)
    (hstale : s.stale (clk.read 0) = true) (hphase : s.phase = .operating) :
    (s.onTick clk wallUs).lastCommand.isIdle = true := by
  have hzero : (s.autoZero (clk.read 0)).lastCommand.isIdle = true := by
    rw [autoZero]
    split_ifs with hcond
    · exact TeleopCommand.isIdle_halted _
    · cases hlast : s.lastMoveInputAt with
      | none => exact hrests hlast
      | some t => simpa [hlast, hstale] using hcond
  have hphase' : (s.autoZero (clk.read 0)).phase = .operating := by
    rw [autoZero]
    split_ifs <;> exact hphase
  have hdemo : (s.autoZero (clk.read 0)).fireDemoAction.lastCommand.isIdle = true := by
    rw [fireDemoAction_lastCommand hphase', heldCommand]
    split_ifs
    · exact TeleopCommand.isIdle_halted _
    · exact hzero
  rw [Client.onTick, if_neg (not_not_intro hphase)]
  dsimp only
  split_ifs <;> exact hdemo

end Client

namespace PadConsole

/-- So does every event of the console. -/
theorem restsAtFirst_step (c : PadConsole) (e : Event) (h : c.client.RestsAtFirst) :
    (c.step e).client.RestsAtFirst := by
  cases e with
  | gilrs id event => exact h
  | refresh => exact h
  | receive clk =>
      rw [step, receive]
      split
      · exact h
      · exact h.onInput _ clk
  | client event => exact h.step event

section

variable {args : ClientArgs} {pads : Finset Nat} {es : List Event}

/-- So does every run. -/
theorem restsAtFirst_after (args : ClientArgs) (pads : Finset Nat) (es : List Event) :
    (after args pads es).client.RestsAtFirst :=
  exec_inv (I := fun c : PadConsole => c.client.RestsAtFirst) restsAtFirst_step es fun _ => by
    change TeleopCommand.initial.isIdle = true
    decide

/-- Nothing is on its way to the client, and nothing came since `s`. -/
structure Still (s : Client) (state : PadState) (c : PadConsole) : Prop where
  queue : c.queue = []
  state : c.thread.state = state
  client : Client.SameStale s c.client

/-- An idle pad stays still, whoever else acts. -/
theorem Still.step {s : Client} {state : PadState} {c : PadConsole} (h : Still s state c)
    {e : Event} (he : e.isOperator = false) (hrefresh : e.isRefresh = true → state.Idle) :
    Still s state (c.step e) := by
  cases e with
  | gilrs id event =>
      have hevent : event.isInput = false := he
      obtain ⟨hstate, hsent⟩ := c.thread.onEvent_of_not_isInput id hevent
      refine ⟨?_, hstate.trans h.state, h.client⟩
      change c.queue ++ (c.thread.onEvent id event).2 = []
      rw [hsent, h.queue, List.append_nil]
  | refresh =>
      refine ⟨?_, h.state, h.client⟩
      change c.queue ++ c.thread.state.sendRefresh = []
      rw [h.queue, h.state, (PadState.sendRefresh_eq_nil_iff state).mpr (hrefresh rfl),
        List.append_nil]
  | receive clk =>
      rw [PadConsole.step, receive, h.queue]
      exact h
  | client event =>
      have hsame : Client.SameStale c.client (c.client.step event) := by
        refine Client.sameStale_step fun i clk heq => ?_
        subst heq
        exact Bool.false_ne_true he.symm
      exact ⟨h.queue, h.state, hsame.1.trans h.client.1, hsame.2.trans h.client.2⟩

/-- So it does over a run. -/
theorem Still.exec {s : Client} {state : PadState} {es : List Event} {c : PadConsole}
    (h : Still s state c) (hes : ∀ e ∈ es, e.isOperator = false)
    (hrefresh : ∀ e ∈ es, e.isRefresh = true → state.Idle) :
    Still s state (Runs.exec PadConsole.step c es) :=
  exec_inv_of_forall (I := Still s state)
    (P := fun e => e.isOperator = false ∧ (e.isRefresh = true → state.Idle))
    (fun _ _ hd he => hd.step he.1 he.2) es h fun e he => ⟨hes e he, hrefresh e he⟩

theorem isPadInput_of_isOperator {e : Event} (h : e.isOperator = false) : e.isPadInput = false := by
  cases e with
  | gilrs id event => exact h
  | _ => rfl

/-- A pad that was let go before it went away leaves no velocity behind. -/
theorem IdleAtLoss.zeroes (h : IdleAtLoss args pads es) : Zeroes args pads es := by
  intro pre mid clk wallUs post hes hdeserted hqueue hmid hstale hphase
  set c := after args pads pre with hc
  -- every refresh in between finds the state of the loss
  have hrefresh : ∀ e ∈ mid, e.isRefresh = true → c.thread.state.Idle := by
    intro e he hrefresh
    obtain ⟨mid₁, mid₂, rfl⟩ := List.append_of_mem he
    have hpast : ∀ x ∈ mid₁, x.isPadInput = false := fun x hx =>
      isPadInput_of_isOperator (hmid x (List.mem_append_left _ hx))
    have hstate : (after args pads (pre ++ mid₁)).thread.state = c.thread.state := by
      rw [after, exec_append, state_exec _ hpast, hc, after]
    rw [← hstate]
    have hsplit : es = (pre ++ mid₁) ++ e :: (mid₂ ++ .client (.tick clk wallUs) :: post) := by
      rw [hes]
      simp only [List.append_assoc, List.cons_append]
    refine h.idle hsplit hrefresh ?_
    · obtain ⟨pre', loss, mid', rfl, hloses, hmid'⟩ := hdeserted
      refine ⟨pre', loss, mid' ++ mid₁, ?_, hloses, ?_⟩
      · rw [List.append_assoc, List.cons_append]
      · intro x hx
        rcases List.mem_append.mp hx with hx | hx
        · exact hmid' x hx
        · exact Bool.eq_false_iff.mp (hpast x hx)
  have hstill : Still c.client c.thread.state (after args pads (pre ++ mid)) := by
    rw [after, exec_append]
    exact Still.exec ⟨hqueue, rfl, rfl, rfl⟩ hmid hrefresh
  rw [after, exec_concat]
  refine Client.isIdle_onTick wallUs (restsAtFirst_after args pads (pre ++ mid)) ?_ hphase
  exact (hstill.client.stale_eq _).trans hstale

end

/-- The rule holds exactly of the runs where the last pad is let go before it
goes away. -/
theorem releases_iff_idleAtLoss (args : ClientArgs) (pads : Finset Nat) (es : List Event) :
    Releases args pads es ↔ IdleAtLoss args pads es :=
  ⟨fun h => quiet_iff_idleAtLoss.mp h.1, fun h => ⟨quiet_iff_idleAtLoss.mpr h, h.zeroes⟩⟩

/-- The left stick is full forward when the only pad goes away. -/
def heldAtLoss : List Event :=
  [.client .helloNegotiated, .client .sessionDescribed,
    .gilrs 0 (.axisChanged .leftStickY 1), .refresh, .receive (.const (fromMillis 0)),
    .gilrs 0 .disconnected, .refresh, .receive (.const (fromMillis 120)),
    .refresh, .receive (.const (fromMillis 240)), .refresh, .receive (.const (fromMillis 360)),
    .refresh, .receive (.const (fromMillis 480)), .client (.tick (.const (fromMillis 500)) 0)]

/-- The console as it is started without options. -/
def defaultArgs : ClientArgs where
  moveStaleMs := 400
  observer := false
  demoAction := none

/-- The refreshes go on, and the velocity is held after `move_stale`. -/
theorem not_releases_heldAtLoss :
    ¬ Releases defaultArgs {0} heldAtLoss ∧
      (after defaultArgs {0} heldAtLoss).client.lastCommand.vx = 15 := by
  refine ⟨fun h => ?_, by decide +kernel⟩
  have hloses : (after defaultArgs {0} (heldAtLoss.take 5)).Loses (.gilrs 0 .disconnected) := by
    change (after defaultArgs {0} (heldAtLoss.take 5)).thread.pads.erase 0 = ∅
    decide +kernel
  have hidle := quiet_iff_idleAtLoss.mp h.1 (heldAtLoss.take 5) (.gilrs 0 .disconnected) []
    .refresh (heldAtLoss.drop 7) rfl hloses nofun rfl
  exact hidle.leftY (by decide +kernel)

end PadConsole

end RoboTele
