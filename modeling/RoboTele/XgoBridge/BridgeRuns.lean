import RoboTele.XgoBridge.Bridge
import RoboTele.Runs.Machine
import RoboTele.Runs.Past

/-!
# What the bridge lets through while it is latched

Two threads share the bridge's lock, so a run is a list of `handle_line` calls
and watchdog polls in any order, with any lines and a backend that may raise on
any call.  A `handle_line` that raises has touched nothing.

`messageCalls` gives the backend methods one message calls.  `LatchedSince` says
by the run alone, without the flag, that the bridge latched and no `estop_clear`
came after, and `Tracks.latched` ties the flag to it.
-/

namespace RoboTele

open Runs Past

theorem Json.not_is_of_is {v : Json} {s t : String} (h : v.is s = true)
    (hst : s ≠ t) : v.is t = false := by
  cases v with
  | str u =>
      have hu : u = s := by simpa [Json.is] using h
      simpa [Json.is, hu] using hst
  | _ => rfl

namespace Bridge

/-- One step of either thread, with the lock held. -/
inductive Event where
  | line (line : Line) (clk : Clock) (io : BackendIo)
  | poll (now : Instant) (io : BackendIo)

/-- A line is handled, or the watchdog's thread polls. -/
def step (py : Builtins) (b : Bridge) : Event → Bridge
  | .line line clk io => (b.handleLine py line clk io).getD b
  | .poll now io => b.poll now io

/-- The bridge after a run. -/
def after (py : Builtins) (watchdogMs : ℚ) (t₀ : Instant) (es : List Event) : Bridge :=
  exec (step py) (new watchdogMs t₀) es

@[simp] theorem after_concat (py : Builtins) (watchdogMs : ℚ) (t₀ : Instant) (es : List Event)
    (e : Event) : after py watchdogMs t₀ (es ++ [e]) = (after py watchdogMs t₀ es).step py e :=
  exec_concat _ _ _ _

/-- The backend methods that a step calls. -/
def stepCalls (py : Builtins) (b : Bridge) (e : Event) : List BackendCall :=
  (b.step py e).calls.drop b.calls.length

/-! ## What a run says by itself -/

/-- The event hands over a message with this command. -/
def Event.commands (name : String) : Event → Prop
  | .line (.value (.obj msg)) _ _ => (Json.get msg "cmd").is name = true
  | _ => False

/-- The instant at which a line is accepted: the last reading of the clock that
its handler stores, the second one of an `estop_clear`. -/
def Event.acceptedAt? : Event → Option Instant
  | .line (.value (.obj msg)) clk _ =>
      some (clk.read (if (Json.get msg "cmd").is "estop_clear" then 1 else 0))
  | _ => none

/-- The last accepted line, or the construction. -/
def lastLine (t₀ : Instant) (es : List Event) : Instant :=
  (latest Event.acceptedAt? es).getD t₀

/-- The event latches: an `estop` command, or a poll that trips. -/
def Latches (b : Bridge) : Event → Prop
  | .poll now _ => b.trips now = true
  | e => e.commands "estop"

section

variable (py : Builtins) (watchdogMs : ℚ) (t₀ : Instant)

/-- The bridge latched, and no `estop_clear` came after. -/
def LatchedSince (es : List Event) : Prop :=
  Since (fun past e => (after py watchdogMs t₀ past).Latches e)
    (fun e => e.commands "estop_clear") es

/-- From the moment it latches to the next `estop_clear`, the bridge calls
nothing but `stop` and `read_telemetry`. -/
def OnlyStopsWhileLatched (es : List Event) : Prop :=
  Always (fun past e => LatchedSince py watchdogMs t₀ past →
    ∀ c ∈ (after py watchdogMs t₀ past).stepCalls py e, c = .stop ∨ c = .readTelemetry) es

/-- Whatever latches the bridge stops the robot, and nothing else is called. -/
def LatchingStops (es : List Event) : Prop :=
  Always (fun past e => (after py watchdogMs t₀ past).Latches e →
    (after py watchdogMs t₀ past).stepCalls py e = [.stop]) es

/-- A poll that comes at least `watchdog_s` after the last accepted line
latches an unlatched bridge and stops the robot. -/
def SilenceLatches (es : List Event) : Prop :=
  Always (fun past e => ∀ now io, e = .poll now io →
    (after py watchdogMs t₀ past).estopped = false →
    watchdogMs / 1000 ≤ asSecs (now.durationSince (lastLine t₀ past)) →
    (after py watchdogMs t₀ (past ++ [e])).estopped = true ∧
      (after py watchdogMs t₀ past).stepCalls py e = [.stop]) es

end

/-! ## The calls of a step -/

/-- The backend methods that a message calls. -/
def messageCalls (py : Builtins) (b : Bridge) (msg : List (String × Json)) : List BackendCall :=
  let cmd := Json.get msg "cmd"
  if cmd.is "estop" then [.stop]
  else if cmd.is "estop_clear" then []
  else if cmd.is "heartbeat" then []
  else if cmd.is "query" then [.readTelemetry]
  else if b.estopped && motionCommands.any (fun name => cmd.is name) then []
  else
    match motionCall py cmd msg with
    | .ok c => [c]
    | .error _ => []

theorem dispatchMotion_eq (b : Bridge) (py : Builtins) (cmd : Json)
    (msg : List (String × Json)) (seq : Json) (io : BackendIo) :
    b.dispatchMotion py cmd msg seq io =
      { b with
        calls := b.calls ++ match motionCall py cmd msg with
          | .ok c => [c]
          | .error _ => []
        emitted := (b.dispatchMotion py cmd msg seq io).emitted } := by
  rw [dispatchMotion]
  cases motionCall py cmd msg with
  | error e => simp [ackError, emit]
  | ok c =>
      dsimp only
      cases io.call c with
      | error e => rfl
      | ok u => rfl

/-- What a message does: it moves the watchdog's clock, decides the latch, makes
its calls and emits. -/
theorem handleMessage_eq (b : Bridge) (py : Builtins) (msg : List (String × Json))
    (clk : Clock) (io : BackendIo) :
    b.handleMessage py msg clk io =
      { b with
        lastCommandTime := clk.read (if (Json.get msg "cmd").is "estop_clear" then 1 else 0)
        estopped :=
          if (Json.get msg "cmd").is "estop" then true
          else if (Json.get msg "cmd").is "estop_clear" then false
          else b.estopped
        calls := b.calls ++ b.messageCalls py msg
        emitted := (b.handleMessage py msg clk io).emitted } := by
  simp only [handleMessage, messageCalls]
  split_ifs with hestop hclear hclear
  · rw [Json.not_is_of_is hestop (by decide)] at hclear
    exact Bool.noConfusion hclear
  · rfl
  · simp [ackOk, emit]
  · simp [ackOk, emit]
  · cases io.telemetry with
    | error e => rfl
    | ok t => rfl
  · simp [ackError, emit]
  · exact dispatchMotion_eq _ py _ msg _ io

/-- What a poll does: nothing, or it latches and stops the robot. -/
theorem poll_eq (b : Bridge) (now : Instant) (io : BackendIo) :
    b.poll now io =
      { b with
        estopped := b.estopped || b.trips now
        calls := b.calls ++ if b.trips now then [.stop] else []
        emitted := (b.poll now io).emitted } := by
  rw [poll]
  split_ifs with htrips
  · dsimp only
    rw [htrips, Bool.or_true]
    cases io.call .stop with
    | error e => rfl
    | ok u => rfl
  · rw [Bool.eq_false_iff.mpr htrips, Bool.or_false, List.append_nil]

/-- The only call of `_dispatch_motion` that is no motion is `stop`. -/
theorem motionCall_eq_stop {py : Builtins} {cmd : Json} {msg : List (String × Json)}
    {c : BackendCall} (hcmd : motionCommands.any (fun name => cmd.is name) = false)
    (hcall : motionCall py cmd msg = .ok c) : c = .stop := by
  simp only [motionCommands, List.any_cons, List.any_nil, Bool.or_eq_false_iff] at hcmd
  obtain ⟨hmove, hturn, hattitude, haction, hmotor, harm, hclaw, -⟩ := hcmd
  simp only [motionCall, hmove, hturn, hattitude, haction, hmotor, harm, hclaw] at hcall
  cases hstop : cmd.is "stop" with
  | true =>
      rw [hstop] at hcall
      exact (Except.ok.inj hcall).symm
  | false =>
      rw [hstop] at hcall
      cases hcall

/-- A latched bridge answers a message with `stop` or `read_telemetry`, if it
calls the backend at all. -/
theorem messageCalls_of_estopped {b : Bridge} (hlatched : b.estopped = true) (py : Builtins)
    (msg : List (String × Json)) {c : BackendCall} (hc : c ∈ b.messageCalls py msg) :
    c = .stop ∨ c = .readTelemetry := by
  simp only [messageCalls, hlatched, Bool.true_and] at hc
  split_ifs at hc with hestop hclear hbeat hquery hmotion
  · exact Or.inl (List.mem_singleton.mp hc)
  · cases hc
  · cases hc
  · exact Or.inr (List.mem_singleton.mp hc)
  · cases hc
  · cases hcall : motionCall py (Json.get msg "cmd") msg with
    | error e =>
        rw [hcall] at hc
        cases hc
    | ok call =>
        rw [hcall] at hc
        rw [List.mem_singleton.mp hc]
        exact Or.inl (motionCall_eq_stop (Bool.eq_false_iff.mpr hmotion) hcall)

theorem stepCalls_poll (py : Builtins) (b : Bridge) (now : Instant) (io : BackendIo) :
    b.stepCalls py (.poll now io) = if b.trips now then [.stop] else [] := by
  show (b.poll now io).calls.drop b.calls.length = _
  rw [poll_eq, List.drop_left]

theorem stepCalls_message (py : Builtins) (b : Bridge) (msg : List (String × Json)) (clk : Clock)
    (io : BackendIo) :
    b.stepCalls py (.line (.value (.obj msg)) clk io) = b.messageCalls py msg := by
  show (b.handleMessage py msg clk io).calls.drop b.calls.length = _
  rw [handleMessage_eq, List.drop_left]

/-! ## What the bridge remembers -/

section

variable {py : Builtins} {watchdogMs : ℚ} {t₀ : Instant}

variable (py watchdogMs t₀) in
/-- The state of the bridge is what the run says it is. -/
structure Tracks (es : List Event) (b : Bridge) : Prop where
  state : b = after py watchdogMs t₀ es
  running : b.exited = false
  watchdogS_eq : b.watchdogS = watchdogMs / 1000
  lastCommandTime_eq : b.lastCommandTime = lastLine t₀ es
  latched : b.estopped = true ↔ LatchedSince py watchdogMs t₀ es

theorem Tracks.new : Tracks py watchdogMs t₀ [] (new watchdogMs t₀) where
  state := rfl
  running := rfl
  watchdogS_eq := rfl
  lastCommandTime_eq := rfl
  latched := by simp [LatchedSince, Bridge.new]

/-- An event that is no message and no poll that trips changes nothing that the
run speaks of. -/
theorem Tracks.idle {es : List Event} {b : Bridge} {e : Event} (h : Tracks py watchdogMs t₀ es b)
    (hstep : b.step py e = { b with emitted := (b.step py e).emitted })
    (hlatches : ¬ b.Latches e) (hclear : ¬ e.commands "estop_clear")
    (haccepted : e.acceptedAt? = none) : Tracks py watchdogMs t₀ (es ++ [e]) (b.step py e) where
  state := by rw [after_concat, h.state]
  running := by rw [hstep]; exact h.running
  watchdogS_eq := by rw [hstep]; exact h.watchdogS_eq
  lastCommandTime_eq := by
    rw [hstep, lastLine, latest_append, latest_singleton, haccepted, Option.none_or]
    exact h.lastCommandTime_eq
  latched := by
    rw [hstep, LatchedSince, since_concat, ← h.state]
    simp only [hlatches, hclear, false_or, not_false_eq_true, and_true]
    exact h.latched

theorem Tracks.message {es : List Event} {b : Bridge} (h : Tracks py watchdogMs t₀ es b)
    (msg : List (String × Json)) (clk : Clock) (io : BackendIo) :
    Tracks py watchdogMs t₀ (es ++ [.line (.value (.obj msg)) clk io])
      (b.handleMessage py msg clk io) where
  state := by rw [after_concat, ← h.state]; rfl
  running := by rw [handleMessage_exited, h.running]
  watchdogS_eq := by rw [handleMessage_eq, h.watchdogS_eq]
  lastCommandTime_eq := by
    rw [handleMessage_eq, lastLine, latest_append, latest_singleton]
    rfl
  latched := by
    rw [handleMessage_estopped, LatchedSince, since_concat, ← h.state]
    show _ ↔ (Json.get msg "cmd").is "estop" = true ∨
      _ ∧ ¬ (Json.get msg "cmd").is "estop_clear" = true
    split_ifs with hestop hclear
    · simp [hestop]
    · simp [hestop, hclear]
    · simp only [hestop, hclear, Bool.false_eq_true, false_or, not_false_eq_true, and_true]
      exact h.latched

theorem Tracks.poll {es : List Event} {b : Bridge} (h : Tracks py watchdogMs t₀ es b)
    (now : Instant) (io : BackendIo) :
    Tracks py watchdogMs t₀ (es ++ [.poll now io]) (b.poll now io) where
  state := by rw [after_concat, ← h.state]; rfl
  running := by rw [poll_exited, h.running]
  watchdogS_eq := by rw [poll_eq, h.watchdogS_eq]
  lastCommandTime_eq := by
    rw [poll_eq, lastLine, latest_append, latest_singleton]
    exact h.lastCommandTime_eq
  latched := by
    rw [poll_estopped, Bool.or_eq_true, LatchedSince, since_concat, ← h.state, or_comm]
    show b.trips now = true ∨ _ ↔ b.trips now = true ∨ _ ∧ ¬ False
    rw [not_false_eq_true, and_true]
    exact or_congr_right h.latched

theorem Tracks.step {es : List Event} {b : Bridge} (h : Tracks py watchdogMs t₀ es b) (e : Event) :
    Tracks py watchdogMs t₀ (es ++ [e]) (b.step py e) := by
  cases e with
  | poll now io => exact h.poll now io
  | line line clk io =>
      cases line with
      | blank => exact h.idle rfl id id rfl
      | malformed error => exact h.idle rfl id id rfl
      | value msg =>
          cases msg with
          | obj fields => exact h.message fields clk io
          | _ => exact h.idle rfl id id rfl

end

theorem tracks_after (py : Builtins) (watchdogMs : ℚ) (t₀ : Instant) (es : List Event) :
    Tracks py watchdogMs t₀ es (after py watchdogMs t₀ es) := by
  induction es using List.reverseRecOn with
  | nil => exact .new
  | append_singleton es e ih =>
      rw [after_concat]
      exact ih.step e

/-! ## The rule -/

/-- A latched bridge calls `stop` and `read_telemetry` only. -/
theorem stepCalls_of_estopped (py : Builtins) {b : Bridge} (hlatched : b.estopped = true)
    (e : Event) : ∀ c ∈ b.stepCalls py e, c = .stop ∨ c = .readTelemetry := by
  intro c hc
  cases e with
  | poll now io =>
      rw [stepCalls_poll] at hc
      split_ifs at hc
      · exact Or.inl (List.mem_singleton.mp hc)
      · cases hc
  | line line clk io =>
      cases line with
      | blank => simp [stepCalls, step, handleLine] at hc
      | malformed error => simp [stepCalls, step, handleLine, emit] at hc
      | value msg =>
          cases msg with
          | obj fields =>
              rw [stepCalls_message] at hc
              exact messageCalls_of_estopped hlatched py fields hc
          | _ => simp [stepCalls, step, handleLine] at hc

theorem stepCalls_of_latches (py : Builtins) {b : Bridge} {e : Event} (h : b.Latches e) :
    b.stepCalls py e = [.stop] := by
  cases e with
  | poll now io =>
      rw [stepCalls_poll]
      exact if_pos h
  | line line clk io =>
      cases line with
      | blank => exact h.elim
      | malformed error => exact h.elim
      | value msg =>
          cases msg with
          | obj fields =>
              rw [stepCalls_message, messageCalls]
              exact if_pos h
          | _ => exact h.elim

/-- In every run the latch holds: while latched the bridge calls nothing but
`stop` and `read_telemetry`, what latches it stops the robot, and silence of
`watchdog_s` latches it at the next poll. -/
theorem latchHolds (py : Builtins) (watchdogMs : ℚ) (t₀ : Instant) (es : List Event) :
    OnlyStopsWhileLatched py watchdogMs t₀ es ∧ LatchingStops py watchdogMs t₀ es ∧
      SilenceLatches py watchdogMs t₀ es := by
  refine ⟨?_, ?_, ?_⟩
  · intro past e rest _ hlatched
    exact stepCalls_of_estopped py ((tracks_after py watchdogMs t₀ past).latched.mpr hlatched) e
  · intro past e rest _ hlatches
    exact stepCalls_of_latches py hlatches
  · rintro past e rest - now io rfl hunlatched hsilent
    have htracks := tracks_after py watchdogMs t₀ past
    have htrips : (after py watchdogMs t₀ past).trips now = true := by
      rw [trips, htracks.running, hunlatched, elapsed, htracks.lastCommandTime_eq,
        htracks.watchdogS_eq, decide_eq_true hsilent]
      rfl
    refine ⟨?_, stepCalls_of_latches py htrips⟩
    rw [after_concat]
    show ((after py watchdogMs t₀ past).poll now io).estopped = true
    rw [poll_estopped, htrips, Bool.or_true]

end Bridge

end RoboTele
