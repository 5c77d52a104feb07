import RoboTele.RobotEdge.SessionQueue
import RoboTele.XgoBridge.Bridge

/-!
# A session with its bridge supervisor

`supervisor_task` of `process.rs` takes commands off the session's queue, writes
them to the stdin of a bridge process, and starts a new process when the old one
is gone.  `System` puts the session, the supervisor and the process next to each
other with what is on its way between them:

* the queue, the commands of the session that the supervisor has not taken,
* the stdin pipe of the process, the lines written and not yet handled,
* its stdout, the lines emitted and not yet read,
* the event channel back to the session.

One step is one step of one of them.  They interleave freely, so a line may wait
in the pipe for as long as a backend call of the line before it takes.

A process that has exited takes no more lines.  The supervisor learns of it by
end of file, by `wait`, or by a write that fails, and until then it goes on
writing.
-/

namespace RoboTele

open Runs

/-- How the supervisor runs the bridge. -/
structure BridgeConfig where
  maxRestartAttempts : Nat
  restartWindow : Nat
  /-- `--watchdog-ms` among the extra arguments. -/
  watchdogMs : ℚ

def BridgeConfig.default : BridgeConfig :=
  { maxRestartAttempts := 3, restartWindow := fromMillis 60000, watchdogMs := 400 }

/-- The bridge process, its pipes, and whether it has been cleared. -/
structure Child where
  bridge : Bridge
  /-- Lines written to stdin and not yet handled. -/
  stdin : List BridgeCommand
  /-- How many of the emitted lines the supervisor has read. -/
  reported : Nat
  /-- An `EstopClear` that answers the last death was written to this process. -/
  cleared : Bool

namespace Child

/-- A process that builds its `Bridge` at `now`. -/
def spawn (config : BridgeConfig) (now : Instant) : Child :=
  { bridge := (Bridge.new config.watchdogMs now).start
    stdin := []
    reported := 0
    cleared := false }

/-- A line to the process. -/
def write (c : Child) (cmd : BridgeCommand) (answers : Bool) : Child :=
  { c with stdin := c.stdin ++ [cmd], cleared := c.cleared || answers }

/-- The main thread takes the next line. -/
def onLine (c : Child) (py : Builtins) (clk : Clock) (io : BackendIo) : Child :=
  match c.stdin with
  | [] => c
  | cmd :: rest =>
      { c with bridge := c.bridge.onLine py (.value (.obj cmd.toLine)) clk io, stdin := rest }

/-- The process checks its watchdog. -/
def poll (c : Child) (now : Instant) (io : BackendIo) : Child :=
  { c with bridge := c.bridge.poll now io }

end Child

/-- Where `supervisor_task` stands. -/
inductive SupervisorPhase where
  /-- Before a spawn, and no earlier than the end of the backoff. -/
  | restarting (notBefore : Instant)
  | running (child : Child)
  /-- It has returned: after a deliberate shutdown, or having given up. -/
  | returned

/-- How often the bridge was started in this window, and what the supervisor is waiting for. -/
structure Supervisor where
  attempts : Nat
  windowStart : Instant
  phase : SupervisorPhase

/-- How long the supervisor waits before another attempt. -/
def backoffFor (attempt : Nat) : Nat := fromMillis (200 * 2 ^ min attempt 5)

namespace Supervisor

def new (now : Instant) : Supervisor :=
  { attempts := 0, windowStart := now, phase := .restarting now }

/-- `record_failure_and_maybe_give_up`, the event it sends, and the backoff. -/
def recordFailure (config : BridgeConfig) (s : Supervisor) (clk : Clock) :
    Supervisor × SupervisorEvent :=
  let expired := config.restartWindow < (clk.read 0).durationSince s.windowStart
  let attempts := (if expired then 0 else s.attempts) + 1
  let windowStart := if expired then clk.read 1 else s.windowStart
  if config.maxRestartAttempts < attempts then
    ({ attempts, windowStart, phase := .returned }, .gaveUp)
  else
    ({ attempts, windowStart, phase := .restarting (clk.read 2 + backoffFor attempts) },
      .processDied attempts true)

end Supervisor

/-- The event that a line of stdout parses to. -/
def Output.event? : Output → Option BridgeEvent
  | .ack .null ok error => some (.ack none ok error)
  | .ack (.num seq) ok error =>
      if 0 ≤ seq ∧ seq < 2 ^ 64 ∧ seq.den = 1 then some (.ack (some seq.num.toNat) ok error)
      else none
  | .ack _ _ _ => none
  | .telemetry ts t =>
      if 0 ≤ t.battery ∧ t.battery < 256 then
        some (.telemetry ts t.motors (.ofNat t.battery.toNat) t.roll t.pitch t.yaw)
      else none
  | .status state detail => some (.status state detail)
  | .log level msg => some (.log level msg)

/-- The last death of a bridge process, as the session knows it. -/
inductive Death where
  | none
  /-- Its event waits in the channel behind this many others. -/
  | unseen (ahead : Nat)
  /-- The session handled the event after sending this many commands. -/
  | seen (mark : Nat)
deriving DecidableEq

/-- The death has been reported to the session. -/
def Death.isSeen : Death → Bool
  | .seen _ => true
  | _ => false

/-- A session and the supervisor of its bridge, with the channels between them. -/
structure System where
  session : Session
  /-- How many commands the supervisor has taken off the queue. -/
  taken : Nat
  supervisor : Supervisor
  /-- The channel to the session. -/
  events : List SupervisorEvent
  death : Death

/-- The event does not come from the supervisor. -/
def Session.Event.external : Session.Event → Bool
  | .bridgeEvent _ => false
  | _ => true

namespace System

/-- The commands that wait for the supervisor. -/
def queue (s : System) : List BridgeCommand := s.session.commands.drop s.taken

/-- The process that runs. -/
def child? (s : System) : Option Child :=
  match s.supervisor.phase with
  | .running child => some child
  | _ => none

/-- The supervisor takes the next command. -/
def take (s : System) : System := { s with taken := s.taken + 1 }

/-- The supervisor goes on to another phase. -/
def setPhase (s : System) (phase : SupervisorPhase) : System :=
  { s with supervisor := { s.supervisor with phase } }

/-- The supervisor notes a failure and tells the session. -/
def fail (config : BridgeConfig) (s : System) (clk : Clock) : System :=
  let (supervisor, event) := s.supervisor.recordFailure config clk
  { s with supervisor, events := s.events ++ [event] }

/-- The supervisor finds its process gone. -/
def die (config : BridgeConfig) (s : System) (clk : Clock) : System :=
  { s.fail config clk with death := .unseen s.events.length }

/-- A command written now answers the last death: an `EstopClear` that the
session sent after it knew. -/
def answers (s : System) (cmd : BridgeCommand) : Bool :=
  match s.death with
  | .seen mark => cmd.isEstopClear && decide (mark ≤ s.taken)
  | _ => false

/-- A step of the session or of the supervisor. -/
inductive Event where
  /-- Anything the session reacts to but the supervisor's events. -/
  | session (e : {e : Session.Event // e.external = true})
  /-- The session takes the next event off the channel. -/
  | observe
  /-- The supervisor spawns a process, and fails if not `ok`. -/
  | spawn (ok : Bool) (clk : Clock)
  /-- The supervisor takes a command and writes it, and fails if not `ok`. -/
  | write (ok : Bool) (clk : Clock)
  /-- The supervisor finds the process gone. -/
  | gone (clk : Clock)
  /-- The supervisor finds the queue closed and empty. -/
  | hangUp
  /-- The supervisor reads a line of stdout. -/
  | report
  /-- The bridge takes a line of stdin. -/
  | line (clk : Clock) (io : BackendIo)
  /-- The bridge polls its watchdog. -/
  | poll (now : Instant) (io : BackendIo)

/-- A run of the session alone. -/
def Event.ofSession (es : List Session.Event) : List Event :=
  es.filterMap fun e => if h : e.external = true then some (.session ⟨e, h⟩) else none

/-- The session takes the next event off the channel. -/
def observe (fb : FlatBuffers) (s : System) : System :=
  match s.events with
  | [] => s
  | event :: rest =>
      let session := s.session.step fb (.bridgeEvent event)
      let death :=
        match s.death with
        | .unseen 0 => .seen session.commands.length
        | .unseen (ahead + 1) => .unseen ahead
        | death => death
      { s with session, events := rest, death }

/-- A new process, or another failed attempt. -/
def spawn (config : BridgeConfig) (s : System) (ok : Bool) (clk : Clock) : System :=
  match s.supervisor.phase with
  | .restarting notBefore =>
      if clk.read 0 < notBefore then s
      else if ok then s.setPhase (.running (.spawn config (clk.read 1)))
      else s.fail config clk
  | _ => s

/-- The next command goes to the process. -/
def write (config : BridgeConfig) (s : System) (ok : Bool) (clk : Clock) : System :=
  match s.supervisor.phase, s.queue with
  | .running child, cmd :: _ =>
      if ok then s.take.setPhase (.running (child.write cmd (s.answers cmd)))
      else s.take.die config clk
  | _, _ => s

/-- The process has exited. -/
def gone (config : BridgeConfig) (s : System) (clk : Clock) : System :=
  match s.supervisor.phase with
  | .running _ => s.die config clk
  | _ => s

/-- The session has ended and its commands are written. -/
def hangUp (s : System) : System :=
  match s.supervisor.phase with
  | .running _ =>
      if s.session.ended.isSome && s.queue.isEmpty then s.setPhase .returned else s
  | _ => s

/-- The next line of the process goes to the session. -/
def report (s : System) : System :=
  match s.supervisor.phase with
  | .running child =>
      match child.bridge.emitted[child.reported]? with
      | none => s
      | some line =>
          { s.setPhase (.running { child with reported := child.reported + 1 }) with
            events := s.events ++ (line.event?.map SupervisorEvent.fromBridge).toList }
  | _ => s

/-- A step of the bridge process. -/
def onChild (s : System) (f : Child → Child) : System :=
  match s.supervisor.phase with
  | .running child => s.setPhase (.running (f child))
  | _ => s

def new (args : ServerArgs) (goal : AutonomyGoal) (now : Instant) : System :=
  { session := .new args goal now
    taken := 0
    supervisor := .new now
    events := []
    death := .none }

/-- An event of the system. -/
def step (fb : FlatBuffers) (py : Builtins) (config : BridgeConfig) (s : System) :
    Event → System
  | .session e => { s with session := s.session.step fb e.1 }
  | .observe => s.observe fb
  | .spawn ok clk => s.spawn config ok clk
  | .write ok clk => s.write config ok clk
  | .gone clk => s.gone config clk
  | .hangUp => s.hangUp
  | .report => s.report
  | .line clk io => s.onChild fun c => c.onLine py clk io
  | .poll now io => s.onChild fun c => c.poll now io

/-! ## The process and the queue -/

theorem child?_of_running {s : System} {child : Child} (h : s.supervisor.phase = .running child) :
    s.child? = some child := by
  rw [child?, h]

@[simp] theorem child?_setPhase_running (s : System) (child : Child) :
    (s.setPhase (.running child)).child? = some child := rfl

@[simp] theorem queue_setPhase (s : System) (phase : SupervisorPhase) :
    (s.setPhase phase).queue = s.queue := rfl

/-- A failure leaves no process. -/
@[simp] theorem child?_fail (config : BridgeConfig) (s : System) (clk : Clock) :
    (s.fail config clk).child? = none := by
  rw [fail, Supervisor.recordFailure]
  dsimp only
  split_ifs <;> rfl

@[simp] theorem queue_fail (config : BridgeConfig) (s : System) (clk : Clock) :
    (s.fail config clk).queue = s.queue := rfl

@[simp] theorem child?_die (config : BridgeConfig) (s : System) (clk : Clock) :
    (s.die config clk).child? = none := child?_fail config s clk

@[simp] theorem queue_die (config : BridgeConfig) (s : System) (clk : Clock) :
    (s.die config clk).queue = s.queue := rfl

/-- Taking a command leaves the rest of the queue. -/
theorem take_of_queue {s : System} {cmd : BridgeCommand} {rest : List BridgeCommand}
    (h : s.queue = cmd :: rest) :
    s.taken < s.session.commands.length ∧ s.take.queue = rest := by
  refine ⟨?_, ?_⟩
  · by_contra hle
    rw [queue, List.drop_eq_nil_of_le (Nat.le_of_not_lt hle)] at h
    exact List.cons_ne_nil _ _ h.symm
  · show s.session.commands.drop (s.taken + 1) = rest
    rw [← List.drop_drop, ← queue, h]
    rfl

/-- What the session sends joins the end of the queue. -/
theorem queue_append {s t : System} {new : List BridgeCommand} (htaken : t.taken = s.taken)
    (hcommands : t.session.commands = s.session.commands ++ new)
    (hle : s.taken ≤ s.session.commands.length) : t.queue = s.queue ++ new := by
  rw [queue, htaken, hcommands, List.drop_append_of_le_length hle, queue]

end System

end RoboTele
