import Mathlib.Algebra.Order.Round
import RoboTele.Core.Clock
import RoboTele.RobotEdge.BridgeProtocol

/-!
# The bridge process

`Bridge` of `xgo_bridge.py`.  Its main thread hands each line of stdin to
`handleLine`, and a second thread polls the local watchdog.  Both hold the lock
for a whole line or poll, so each is one step here.

A step records the backend methods it calls and the objects it emits.  What a
backend method answers is an input of the step (`BackendIo`), as are the
readings of the monotonic clock.  Time passes during a backend call, and the
next step reads the clock after it.

The conversions `float`, `int`, `str` and `repr` are Python's own.  They decide
which number or error text a field becomes and nothing else, so they are taken
as they are (`Builtins`).
-/

namespace RoboTele

/-- What `json.loads` returns. -/
inductive Json where
  | null
  | bool (b : Bool)
  | num (q : ℚ)
  | str (s : String)
  | arr (items : List Json)
  | obj (fields : List (String × Json))

namespace Json

/-- The value equals a string. -/
def is (s : String) : Json → Bool
  | str t => t == s
  | _ => false

/-- `msg[key]`.  A key that is there twice has its last value. -/
def field? (fields : List (String × Json)) (key : String) : Option Json :=
  (fields.reverse.find? fun f => f.1 == key).map Prod.snd

/-- `msg.get(key)`. -/
def get (fields : List (String × Json)) (key : String) : Json := (field? fields key).getD null

end Json

/-- The serde tag of a command. -/
def BridgeCommand.cmd : BridgeCommand → String
  | move .. => "move"
  | turn .. => "turn"
  | attitude .. => "attitude"
  | action .. => "action"
  | motor .. => "motor"
  | arm .. => "arm"
  | claw .. => "claw"
  | stop _ => "stop"
  | heartbeat _ => "heartbeat"
  | query _ => "query"
  | estop _ => "estop"
  | estopClear _ => "estop_clear"

/-- The fields of a command between its tag and its sequence number. -/
def BridgeCommand.fields : BridgeCommand → List (String × Json)
  | move x y _ => [("x", .num x), ("y", .num y)]
  | turn step _ => [("step", .num step)]
  | attitude axis data _ => [("axis", .str (.singleton axis)), ("data", .num data)]
  | action id _ => [("id", .num id.toNat)]
  | motor id angle _ => [("id", .num id.toNat), ("angle", .num angle)]
  | arm x z _ => [("x", .num x), ("z", .num z)]
  | claw pos _ => [("pos", .num pos.toNat)]
  | stop _ | heartbeat _ | query _ | estop _ | estopClear _ => []

/-- `BridgeCommand::to_line`, as the object that the line holds. -/
def BridgeCommand.toLine (c : BridgeCommand) : List (String × Json) :=
  ("cmd", .str c.cmd) :: c.fields ++ [("seq", .num c.seq)]

/-- A line of stdin, stripped and parsed. -/
inductive Line where
  | blank
  /-- `json.loads` raises, with this text. -/
  | malformed (error : String)
  | value (msg : Json)

/-- A call of a backend method. -/
inductive BackendCall where
  | move (x y : ℚ)
  | turn (step : ℚ)
  | attitude (axis : String) (data : ℚ)
  | action (id : ℤ)
  | motor (id : ℤ) (angle : ℚ)
  | arm (x z : ℚ)
  | claw (pos : ℤ)
  | stop
  | readTelemetry
deriving DecidableEq

/-- What `read_telemetry` returns. -/
structure BackendTelemetry where
  motors : List ℚ
  battery : ℤ
  roll : ℚ
  pitch : ℚ
  yaw : ℚ

/-- How the backend answers during one step, and the wall clock. -/
structure BackendIo where
  /-- Whether a call raises, and with which text. -/
  call : BackendCall → Except String Unit
  telemetry : Except String BackendTelemetry
  /-- `time.time()`. -/
  wallTime : ℚ

/-- A backend that never raises, like the stub. -/
def BackendIo.stub : BackendIo :=
  { call := fun _ => .ok ()
    telemetry :=
      .ok { motors := List.replicate 15 0, battery := 100, roll := 0, pitch := 0, yaw := 0 }
    wallTime := 0 }

/-- Python's conversions of a field.  The first two raise with a text. -/
structure Builtins where
  float : Json → Except String ℚ
  int : Json → Except String ℤ
  str : Json → String
  repr : Json → String

/-- The conversions on plain values: `float` and `int` of a number, `str` and
`repr` of a string. -/
def Builtins.plain : Builtins where
  float
    | .num q => .ok q
    | _ => .error "float() argument must be a string or a real number"
  int
    | .num q => .ok (if 0 ≤ q then q.floor else -(-q).floor)
    | _ => .error "int() argument must be a string, a bytes-like object or a real number"
  str
    | .str s => s
    | _ => ""
  repr
    | .str s => "'" ++ s ++ "'"
    | _ => ""

/-- A line the bridge writes to stdout. -/
inductive Output where
  | ack (seq : Json) (ok : Bool) (error : Option String)
  | telemetry (ts : ℚ) (telemetry : BackendTelemetry)
  | status (state : String) (detail : Option String)
  | log (level msg : String)

/-- The bridge process: its latch and its watchdog, and what it did so far. -/
structure Bridge where
  watchdogS : ℚ
  estopped : Bool
  lastCommandTime : Instant
  /-- The backend methods called so far. -/
  calls : List BackendCall
  /-- The lines written to stdout so far. -/
  emitted : List Output
  /-- The main thread has left its loop. -/
  exited : Bool

/-- `f"{q:.<digits>f}"`: rounded half to even. -/
def formatFixed (digits : Nat) (q : ℚ) : String :=
  let scaled := |q| * 10 ^ digits
  let down := scaled.floor
  let half : ℚ := 1 / 2
  let n :=
    if scaled - down < half ∨ (scaled - down = half ∧ down % 2 = 0) then down.toNat
    else down.toNat + 1
  let sign := if q < 0 then "-" else ""
  let whole := sign ++ toString (n / 10 ^ digits)
  if digits = 0 then whole
  else
    let tail := toString (n % 10 ^ digits)
    whole ++ "." ++ "".pushn '0' (digits - tail.length) ++ tail

/-- What is refused while the latch is set. -/
def motionCommands : List String := ["move", "turn", "attitude", "action", "motor", "arm", "claw"]

/-- The error of a refused command. -/
def estoppedError : String := "estopped: motion commands refused until estop_clear"

namespace Bridge

/-- A bridge as built, with no lines written yet. -/
def new (watchdogMs : ℚ) (now : Instant) : Bridge :=
  { watchdogS := watchdogMs / 1000
    estopped := false
    lastCommandTime := now
    calls := []
    emitted := []
    exited := false }

/-- A line to stdout. -/
def emit (b : Bridge) (o : Output) : Bridge := { b with emitted := b.emitted ++ [o] }

/-- The first line that the bridge writes. -/
def start (b : Bridge) : Bridge := b.emit (.status "ready" none)

/-- A call of the backend. -/
def call (b : Bridge) (c : BackendCall) : Bridge := { b with calls := b.calls ++ [c] }

/-- The end of `main`: the robot is stopped, whatever `stop` answers. -/
def shutdown (b : Bridge) : Bridge := { b.call .stop with exited := true }

/-! ## The watchdog -/

/-- The time since the last line, in seconds. -/
def elapsed (b : Bridge) (now : Instant) : ℚ := asSecs (now.durationSince b.lastCommandTime)

/-- A poll latches.  The polls end with the loop of `main`. -/
def trips (b : Bridge) (now : Instant) : Bool :=
  !b.exited && !b.estopped && decide (b.watchdogS ≤ b.elapsed now)

/-- The detail of the status that a trip writes. -/
def watchdogDetail (b : Bridge) (now : Instant) : String :=
  "local watchdog: " ++ formatFixed 1 (b.elapsed now * 1000) ++ "ms since last command (threshold "
    ++ formatFixed 0 (b.watchdogS * 1000) ++ "ms)"

/-- One round of `_watchdog_loop`. -/
def poll (b : Bridge) (now : Instant) (io : BackendIo) : Bridge :=
  if b.trips now then
    let detail := b.watchdogDetail now
    let b := { b with estopped := true }.call .stop
    let b :=
      match io.call .stop with
      | .ok _ => b
      | .error e => b.emit (.log "error" ("watchdog stop() failed: " ++ e))
    b.emit (.status "estopped" (some detail))
  else b

/-! ## Lines -/

/-- The backend call of `_dispatch_motion`, or the text of what it raises. -/
def motionCall (py : Builtins) (cmd : Json) (msg : List (String × Json)) :
    Except String BackendCall := do
  let get (key : String) : Except String ℚ := py.float ((Json.field? msg key).getD (.num 0))
  let require (key : String) : Except String Json :=
    match Json.field? msg key with
    | some v => .ok v
    | none => .error ("'" ++ key ++ "'")
  if cmd.is "move" then return .move (← get "x") (← get "y")
  else if cmd.is "turn" then return .turn (← get "step")
  else if cmd.is "attitude" then return .attitude (py.str (← require "axis")) (← get "data")
  else if cmd.is "action" then return .action (← py.int (← require "id"))
  else if cmd.is "motor" then
    return .motor (← py.int (← require "id")) (← py.float (← require "angle"))
  else if cmd.is "arm" then return .arm (← get "x") (← get "z")
  else if cmd.is "claw" then return .claw (← py.int (← require "pos"))
  else if cmd.is "stop" then return .stop
  else .error ("unknown cmd: " ++ py.repr cmd)

/-- The answer to a command that was carried out. -/
def ackOk (b : Bridge) (seq : Json) : Bridge := b.emit (.ack seq true none)

/-- The answer to a command that was not. -/
def ackError (b : Bridge) (seq : Json) (error : String) : Bridge :=
  b.emit (.ack seq false (some error))

/-- `_dispatch_motion` and the acknowledgement of what came of it. -/
def dispatchMotion (b : Bridge) (py : Builtins) (cmd : Json) (msg : List (String × Json))
    (seq : Json) (io : BackendIo) : Bridge :=
  match motionCall py cmd msg with
  | .error e => b.ackError seq e
  | .ok c =>
      match io.call c with
      | .error e => (b.call c).ackError seq e
      | .ok _ => (b.call c).ackOk seq

/-- A parsed object, with the lock held. -/
def handleMessage (b : Bridge) (py : Builtins) (msg : List (String × Json)) (clk : Clock)
    (io : BackendIo) : Bridge :=
  let seq := Json.get msg "seq"
  let cmd := Json.get msg "cmd"
  let b := { b with lastCommandTime := clk.read 0 }
  if cmd.is "estop" then
    let b := { b with estopped := true }.call .stop
    (b.ackOk seq).emit (.status "estopped" (some "explicit estop command"))
  else if cmd.is "estop_clear" then
    let b := { b with estopped := false, lastCommandTime := clk.read 1 }
    (b.ackOk seq).emit (.status "ready" none)
  else if cmd.is "heartbeat" then b.ackOk seq
  else if cmd.is "query" then
    let b := b.call .readTelemetry
    match io.telemetry with
    | .error e => b.ackError seq e
    | .ok t => (b.ackOk seq).emit (.telemetry io.wallTime t)
  else if b.estopped && motionCommands.any (fun name => cmd.is name) then
    b.ackError seq estoppedError
  else b.dispatchMotion py cmd msg seq io

/-- `handle_line`.  A value that is no object has no `get`, which raises before
anything happens. -/
def handleLine (b : Bridge) (py : Builtins) (line : Line) (clk : Clock) (io : BackendIo) :
    Option Bridge :=
  match line with
  | .blank => some b
  | .malformed e => some (b.emit (.log "error" ("malformed JSON line: " ++ e)))
  | .value (.obj msg) => some (b.handleMessage py msg clk io)
  | .value _ => none

/-- One line through the loop of `main`.  What `handle_line` raises ends it. -/
def onLine (b : Bridge) (py : Builtins) (line : Line) (clk : Clock) (io : BackendIo) : Bridge :=
  if b.exited then b else (b.handleLine py line clk io).getD b.shutdown

/-! ## The latch -/

@[simp] theorem emit_estopped (b : Bridge) (o : Output) : (b.emit o).estopped = b.estopped := rfl

@[simp] theorem call_estopped (b : Bridge) (c : BackendCall) :
    (b.call c).estopped = b.estopped := rfl

@[simp] theorem ackOk_estopped (b : Bridge) (seq : Json) :
    (b.ackOk seq).estopped = b.estopped := rfl

@[simp] theorem ackError_estopped (b : Bridge) (seq : Json) (e : String) :
    (b.ackError seq e).estopped = b.estopped := rfl

@[simp] theorem dispatchMotion_estopped (b : Bridge) (py : Builtins) (cmd : Json)
    (msg : List (String × Json)) (seq : Json) (io : BackendIo) :
    (b.dispatchMotion py cmd msg seq io).estopped = b.estopped := by
  rw [dispatchMotion]
  split
  · rfl
  · split <;> rfl

/-- A poll latches a bridge that trips and clears none. -/
theorem poll_estopped (b : Bridge) (now : Instant) (io : BackendIo) :
    (b.poll now io).estopped = (b.estopped || b.trips now) := by
  rw [poll]
  split_ifs with htrips
  · dsimp only
    rw [htrips, Bool.or_true]
    split <;> rfl
  · rw [Bool.eq_false_iff.mpr htrips, Bool.or_false]

/-- `estop` latches, `estop_clear` releases, and no other message changes the
latch. -/
theorem handleMessage_estopped (b : Bridge) (py : Builtins) (msg : List (String × Json))
    (clk : Clock) (io : BackendIo) :
    (b.handleMessage py msg clk io).estopped =
      if (Json.get msg "cmd").is "estop" then true
      else if (Json.get msg "cmd").is "estop_clear" then false
      else b.estopped := by
  rw [handleMessage]
  dsimp only
  split_ifs
  · rfl
  · rfl
  · rfl
  · split <;> rfl
  · rfl
  · exact dispatchMotion_estopped _ py _ _ _ io

/-! ## The loop goes on -/

@[simp] theorem poll_exited (b : Bridge) (now : Instant) (io : BackendIo) :
    (b.poll now io).exited = b.exited := by
  rw [poll]
  split_ifs
  · dsimp only
    split <;> rfl
  · rfl

@[simp] theorem handleMessage_exited (b : Bridge) (py : Builtins) (msg : List (String × Json))
    (clk : Clock) (io : BackendIo) : (b.handleMessage py msg clk io).exited = b.exited := by
  rw [handleMessage, dispatchMotion]
  dsimp only
  split_ifs
  · rfl
  · rfl
  · rfl
  · split <;> rfl
  · rfl
  · split
    · rfl
    · split <;> rfl

end Bridge

/-- What a command does to the latch of the bridge that handles it. -/
def BridgeCommand.latch (estopped : Bool) : BridgeCommand → Bool
  | estop _ => true
  | estopClear _ => false
  | _ => estopped

/-- The object of a command carries its tag. -/
theorem BridgeCommand.toLine_cmd (c : BridgeCommand) : Json.get c.toLine "cmd" = .str c.cmd := by
  cases c <;> rfl

theorem BridgeCommand.latch_eq (c : BridgeCommand) (estopped : Bool) :
    c.latch estopped =
      if c.cmd = "estop" then true else if c.cmd = "estop_clear" then false else estopped := by
  cases c <;> rfl

theorem Bridge.onLine_toLine (b : Bridge) (py : Builtins) (c : BridgeCommand) (clk : Clock)
    (io : BackendIo) (hexited : b.exited = false) :
    b.onLine py (.value (.obj c.toLine)) clk io = b.handleMessage py c.toLine clk io := by
  simp [Bridge.onLine, Bridge.handleLine, hexited]

/-- The line of a command does to the latch what the command means. -/
theorem Bridge.onLine_toLine_estopped (b : Bridge) (py : Builtins) (c : BridgeCommand)
    (clk : Clock) (io : BackendIo) (hexited : b.exited = false) :
    (b.onLine py (.value (.obj c.toLine)) clk io).estopped = c.latch b.estopped := by
  rw [Bridge.onLine_toLine b py c clk io hexited, Bridge.handleMessage_estopped, c.toLine_cmd,
    c.latch_eq]
  simp [Json.is]

/-- The bridge survives every command of `robot-edge`. -/
theorem Bridge.onLine_toLine_exited (b : Bridge) (py : Builtins) (c : BridgeCommand)
    (clk : Clock) (io : BackendIo) (hexited : b.exited = false) :
    (b.onLine py (.value (.obj c.toLine)) clk io).exited = false := by
  rw [Bridge.onLine_toLine b py c clk io hexited, Bridge.handleMessage_exited, hexited]

end RoboTele
