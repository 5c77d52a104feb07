import RoboTele.Runs.Machine
import RoboTele.Handshake.Console
import RoboTele.Handshake.RobotView

/-!
# The handshake between a robot and a console

A robot's session and a console, with what each has written and the other has not read.  Stream
0 has a HELLO each way, stream 1 has SESSION_DESCRIBE to the console and SESSION_ACCEPT back.
QUIC delivers each stream in order, and says nothing about the order between the two.

A write takes the whole message or none of it: the messages are far below the window that a
stream starts with.  A read returns some of the messages that wait.  SESSION_DESCRIBE may span
packets, so a read returns some of its bytes, and its end comes with a FIN.

What else the robot and the console do may happen in between.
-/

namespace RoboTele

open Runs

/-- What a robot describes, with sensors that pass their check. -/
structure RobotDescription where
  robotId : String
  profile : RobotProfile
  cameras : List CameraDescriptor
  sensors : List SensorDescriptor
  valid : ∀ s ∈ sensors, s.validate = .ok ()

namespace RobotDescription

/-- The description as the robot sends it. -/
def encode (fb : SessionBuffers) (d : RobotDescription) : Bytes :=
  encodeSessionDescribe fb d.robotId d.profile d.cameras d.sensors

/-- The description as the console has to understand it. -/
def info (d : RobotDescription) : SessionDescribeInfo :=
  { robotId := d.robotId
    profileHash := d.profile.profileHash
    profile := d.profile
    cameras := d.cameras
    sensors := d.sensors }

theorem decode_encode {fb : SessionBuffers} (hfb : fb.Lawful) (d : RobotDescription) :
    decodeSessionDescribe fb (d.encode fb) = .ok d.info :=
  decode_encodeSessionDescribe hfb d.robotId d.profile d.cameras d.valid

end RobotDescription

/-- What a `stream_send` does. -/
inductive MessageWrite where
  | whole
  /-- `Done`: there is no room. -/
  | refused
  | failed
deriving DecidableEq

namespace MessageWrite

/-- What the robot's code is told of a write. -/
def answer (w : MessageWrite) (len : Nat) : Session.StreamWrite :=
  match w with
  | .whole => .written len
  | .refused => .done
  | .failed => .error

/-- What is on the stream afterwards. -/
def sends (w : MessageWrite) (message : Bytes) : List Bytes :=
  match w with
  | .whole => [message]
  | .refused | .failed => []

end MessageWrite

/-- What is written and not read. -/
structure HandshakeWire where
  helloToRobot : List Bytes
  acceptToRobot : List Bytes
  helloToConsole : List Bytes
  /-- The bytes of SESSION_DESCRIBE, as long as its FIN is not read. -/
  describeToConsole : Option Bytes

/-- What became of the messages so far. -/
structure HandshakeHistory where
  consoleHelloWritten : Bool
  robotHelloWritten : Bool
  describeWritten : Bool
  /-- The phase in which the console read the FIN of SESSION_DESCRIBE. -/
  describeReadIn : Option ClientPhase
  acceptWritten : Bool

/-- The two hosts, what is on the way between them, and what was written and read so far. -/
structure HandshakeLink where
  robot : Session
  console : Console
  wire : HandshakeWire
  history : HandshakeHistory

namespace HandshakeLink

/-- Two hosts that have just been connected. -/
def new (fb : SessionBuffers) (d : RobotDescription) (args : ServerArgs) (goal : AutonomyGoal)
    (now : Instant) (consoleArgs : ConsoleArgs) : HandshakeLink :=
  { robot := .new { args with describe := d.encode fb } goal now
    console := .new consoleArgs
    wire :=
      { helloToRobot := [], acceptToRobot := [], helloToConsole := [], describeToConsole := none }
    history :=
      { consoleHelloWritten := false, robotHelloWritten := false, describeWritten := false
        describeReadIn := none, acceptWritten := false } }

/-! ## The HELLOs -/

/-- A console that awaits a HELLO writes its own each time that it has received something. -/
def consoleHello (fb : SessionBuffers) (l : HandshakeLink) (write : MessageWrite) :
    HandshakeLink :=
  if l.console.client.phase = .awaitingHello then
    let hello := encodeHello fb.toFlatBuffers l.console.localHelloCapabilities
    { l with
      wire := { l.wire with helloToRobot := l.wire.helloToRobot ++ write.sends hello }
      history :=
        { l.history with
          consoleHelloWritten := l.history.consoleHelloWritten || write = .whole } }
  else l

/-- A robot writes its HELLO once. -/
def robotHello (fb : SessionBuffers) (l : HandshakeLink) (write : MessageWrite) :
    HandshakeLink :=
  if l.robot.ended.isSome || l.robot.helloSent then l
  else
    let hello := encodeHello fb.toFlatBuffers l.robot.localHelloCapabilities
    { l with
      robot := l.robot.step fb.toFlatBuffers (.established (write.answer hello.length))
      wire := { l.wire with helloToConsole := l.wire.helloToConsole ++ write.sends hello }
      history :=
        { l.history with
          robotHelloWritten := l.history.robotHelloWritten || write = .whole } }

/-- A read returns `n + 1` of the console's HELLOs, or what there is.  The robot answers the
first with its description. -/
def robotReadsHello (fb : SessionBuffers) (l : HandshakeLink) (n : Nat) (clk : Clock)
    (write : MessageWrite) : HandshakeLink :=
  let read := l.wire.helloToRobot.take (n + 1)
  if l.robot.ended.isSome || read.isEmpty then l
  else
    let robot := l.robot.step fb.toFlatBuffers
      (.streamData 0 read.flatten clk (write.answer l.robot.describe.length))
    let written := robot.sessionDescribeSent && !l.robot.sessionDescribeSent
    { l with
      robot
      wire :=
        { l.wire with
          helloToRobot := l.wire.helloToRobot.drop (n + 1)
          describeToConsole :=
            if written then some l.robot.describe else l.wire.describeToConsole }
      history := { l.history with describeWritten := l.history.describeWritten || written } }

/-- The console reads some of the robot's HELLOs. -/
def consoleReadsHello (fb : SessionBuffers) (l : HandshakeLink) (n : Nat) : HandshakeLink :=
  let read := l.wire.helloToConsole.take (n + 1)
  if read.isEmpty then l
  else
    { l with
      console := l.console.onHello fb.toFlatBuffers read.flatten
      wire := { l.wire with helloToConsole := l.wire.helloToConsole.drop (n + 1) } }

/-! ## The description and its answer -/

/-- A read returns `n` bytes of the description, and the FIN if these are the last. -/
def consoleReadsDescribe (fb : SessionBuffers) (l : HandshakeLink) (n : Nat) (fin : Bool)
    (disk : SessionCache.DiskOutcome) (write : MessageWrite) : HandshakeLink :=
  match l.wire.describeToConsole with
  | none => l
  | some unread =>
      let rest := unread.drop n
      let fin := fin && rest.isEmpty
      let (console, accept) := l.console.onDescribeBytes fb (unread.take n) fin disk
      { l with
        console
        wire :=
          { l.wire with
            describeToConsole := if fin then none else some rest
            acceptToRobot := l.wire.acceptToRobot ++ accept.elim [] write.sends }
        history :=
          { l.history with
            describeReadIn :=
              if fin then some l.console.client.phase else l.history.describeReadIn
            acceptWritten :=
              l.history.acceptWritten || (accept.isSome && write = .whole) } }

/-- The robot reads some of SESSION_ACCEPT. -/
def robotReadsAccept (fb : SessionBuffers) (l : HandshakeLink) (n : Nat) (clk : Clock) :
    HandshakeLink :=
  let read := l.wire.acceptToRobot.take (n + 1)
  if l.robot.ended.isSome || read.isEmpty then l
  else
    { l with
      robot := l.robot.step fb.toFlatBuffers (.streamData 1 read.flatten clk .done)
      wire := { l.wire with acceptToRobot := l.wire.acceptToRobot.drop (n + 1) } }

/-! ## Runs -/

/-- A message is written or read at one end, or something else happens there. -/
inductive Event where
  | consoleHello (write : MessageWrite)
  | robotHello (write : MessageWrite)
  | robotReadsHello (n : Nat) (clk : Clock) (write : MessageWrite)
  | consoleReadsHello (n : Nat)
  | consoleReadsDescribe (n : Nat) (fin : Bool) (disk : SessionCache.DiskOutcome)
      (write : MessageWrite)
  | robotReadsAccept (n : Nat) (clk : Clock)
  /-- Anything else that happens to the robot. -/
  | robot (e : Session.Event)
  /-- Anything else that happens to the console, in this connection. -/
  | console (e : Client.Event)

/-- The events of a client that the handshake brings about, and a reconnect. -/
def clientHandshakes : Client.Event → Bool
  | .helloNegotiated | .sessionDescribed | .reconnect => true
  | _ => false

/-- An event at one of the ends. -/
def step (fb : SessionBuffers) (l : HandshakeLink) : Event → HandshakeLink
  | .consoleHello write => l.consoleHello fb write
  | .robotHello write => l.robotHello fb write
  | .robotReadsHello n clk write => l.robotReadsHello fb n clk write
  | .consoleReadsHello n => l.consoleReadsHello fb n
  | .consoleReadsDescribe n fin disk write => l.consoleReadsDescribe fb n fin disk write
  | .robotReadsAccept n clk => l.robotReadsAccept fb n clk
  | .robot e =>
      if e.handshakes then l else { l with robot := l.robot.step fb.toFlatBuffers e }
  | .console e =>
      if clientHandshakes e then l
      else { l with console := { l.console with client := l.console.client.step e } }

end HandshakeLink

end RoboTele
