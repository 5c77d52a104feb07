import RoboTele.Handshake.Link

/-!
# What the two sides agree on

Each side is seen as the fields that the handshake is about, so that everything else that
happens is no step (`Valid`).  One lemma for each event says that it keeps the invariant.

Both sides get to Operating exactly if every message was written and the console had the HELLO
when it read the end of the description (`handshake_exact`).  The two are on different streams.
A console that reads the description first drops it, and no later event makes up for that.
-/

namespace RoboTele

open Runs

/-! ## The console's view -/

namespace Console

/-- What session setup reads and writes of the console. -/
structure HandshakeView where
  phase : ClientPhase
  capabilities : HelloCapabilities
  topicsNegotiated : Bool
  describeBuf : Bytes
  sessionInfo : Option SessionDescribeInfo
  sensors : List SensorDescriptor

/-- What session setup sees of a console. -/
def handshake (c : Console) : HandshakeView :=
  { phase := c.client.phase
    capabilities := c.localHelloCapabilities
    topicsNegotiated := c.topicsNegotiated
    describeBuf := c.describeBuf
    sessionInfo := c.sessionInfo
    sensors := c.sensors }

end Console

namespace Client

@[simp] theorem phase_sendActionTrigger (s : Client) (actionId : UInt8) :
    (s.sendActionTrigger actionId).phase = s.phase := by
  rw [sendActionTrigger]
  split_ifs <;> rfl

@[simp] theorem phase_sendCameraControl (s : Client) : s.sendCameraControl.phase = s.phase := by
  rw [sendCameraControl]
  split_ifs <;> rfl

@[simp] theorem phase_refreshMoveInput (s : Client) (input : TeleopInput) (now : Instant) :
    (s.refreshMoveInput input now).phase = s.phase := by
  rw [refreshMoveInput]
  split_ifs <;> rfl

@[simp] theorem phase_fireDemoAction (s : Client) : s.fireDemoAction.phase = s.phase := by
  rw [fireDemoAction]
  cases s.demoAction with
  | none => rfl
  | some id => exact phase_sendActionTrigger _ id

@[simp] theorem phase_autoZero (s : Client) (now : Instant) : (s.autoZero now).phase = s.phase := by
  rw [autoZero]
  split_ifs <;> rfl

theorem phase_onInput (s : Client) (input : TeleopInput) (clk : Clock) :
    (s.onInput input clk).phase = s.phase := by
  simp only [onInput]
  cases input with
  | action id => rw [phase_sendActionTrigger, phase_refreshMoveInput]
  | cameraNudge param delta =>
      exact (phase_sendCameraControl _).trans (phase_refreshMoveInput s _ _)
  | cameraReset => exact (phase_sendCameraControl _).trans (phase_refreshMoveInput s _ _)
  | _ => exact phase_refreshMoveInput s _ _

theorem phase_onTick (s : Client) (clk : Clock) (wallUs : UInt64) :
    (s.onTick clk wallUs).phase = s.phase := by
  simp only [onTick]
  split_ifs
  · rfl
  · exact (phase_fireDemoAction _).trans (phase_autoZero s _)
  · exact (phase_fireDemoAction _).trans (phase_autoZero s _)

/-- Only the handshake moves the phase. -/
theorem phase_step (s : Client) {e : Client.Event} (he : HandshakeLink.clientHandshakes e = false) :
    (s.step e).phase = s.phase := by
  cases e with
  | input i clk => exact phase_onInput s i clk
  | tick clk wallUs => exact phase_onTick s clk wallUs
  | estopReport latched => rfl
  | helloNegotiated => cases he
  | sessionDescribed => cases he
  | reconnect => cases he

end Client

/-! ## One step of a side -/

namespace Session

variable {fb : FlatBuffers} {s : Session}

/-- A connection that is up sends the robot's HELLO. -/
theorem handshake_established (hended : s.ended.isSome = false) (hsent : s.helloSent = false)
    (write : MessageWrite) (len : Nat) :
    (s.step fb (.established (write.answer len))).handshake =
      { s.handshake with helloSent := write != .failed } := by
  have hview : s.handshake.helloSent = false := hsent
  rw [step, hended]
  simp only [Bool.false_eq_true, if_false, handle, sendHello, hsent]
  cases write with
  | whole => rfl
  | refused => rfl
  | failed => exact congrArg (fun b => { s.handshake with helloSent := b }) hview

/-- SESSION_DESCRIBE is written whole, or not at all. -/
theorem handshake_sendSessionDescribe (hsent : s.sessionDescribeSent = false)
    (write : MessageWrite) :
    (s.sendSessionDescribe (write.answer s.describe.length)).handshake =
      { s.handshake with sessionDescribeSent := write == .whole } := by
  have hview : s.handshake.sessionDescribeSent = false := hsent
  have hunsent : s.handshake = { s.handshake with sessionDescribeSent := false } :=
    congrArg (fun b => { s.handshake with sessionDescribeSent := b }) hview
  simp only [sendSessionDescribe, hsent, Bool.false_eq_true, if_false]
  cases write with
  | whole => exact congrArg handshake (if_pos rfl)
  | refused => exact hunsent
  | failed => exact hunsent

/-- HELLOs of one version negotiate what both have. -/
theorem negotiate_localHelloCapabilities (s : Session) {caps : HelloCapabilities}
    (hversion : caps.protocolVersion = ⟨1, 0⟩) :
    ∃ negotiated, negotiate s.localHelloCapabilities caps = .ok negotiated ∧
      negotiated.capabilityBitmask =
        s.localHelloCapabilities.capabilityBitmask &&& caps.capabilityBitmask := by
  have hmajor : s.localHelloCapabilities.protocolVersion.major = caps.protocolVersion.major := by
    rw [hversion]
    rfl
  rw [negotiate, if_neg (not_not.mpr hmajor)]
  exact ⟨_, rfl, rfl⟩

/-- The robot answers the first HELLO that it reads. -/
theorem handshake_readsHello (hended : s.ended.isSome = false)
    (hphase : s.phase = .awaitingHello) (hsent : s.sessionDescribeSent = false) {data : Bytes}
    {caps : HelloCapabilities} (hdata : decodeHello fb data = caps)
    (hversion : caps.protocolVersion = ⟨1, 0⟩) (clk : Clock) (write : MessageWrite) :
    (s.step fb (.streamData 0 data clk (write.answer s.describe.length))).handshake =
      { s.handshake with
        phase := .awaitingSessionAccept
        topicsNegotiated :=
          s.localHelloCapabilities.capabilityBitmask &&& caps.capabilityBitmask &&&
            topicForwarding != 0
        sessionDescribeSent := write == .whole } := by
  obtain ⟨negotiated, hok, hbits⟩ := negotiate_localHelloCapabilities s hversion
  have hhello : s.onHello fb data (write.answer s.describe.length) =
      { s with
        topicsNegotiated :=
          s.localHelloCapabilities.capabilityBitmask &&& caps.capabilityBitmask &&&
            topicForwarding != 0
        phase := .awaitingSessionAccept }.sendSessionDescribe
          (write.answer s.describe.length) := by
    rw [onHello, hdata, hok]
    dsimp only
    rw [hbits]
  have hread : s.step fb (.streamData 0 data clk (write.answer s.describe.length)) =
      s.onHello fb data (write.answer s.describe.length) := by
    rw [step, hended, if_neg Bool.false_ne_true, handle, if_neg (by decide), onStreamData,
      if_pos ⟨rfl, hphase⟩]
  rw [hread, hhello]
  refine handshake_sendSessionDescribe ?_ write
  exact hsent

/-- Later ones are ignored. -/
theorem handshake_hello_of_ne (hphase : s.phase ≠ .awaitingHello) (data : Bytes) (clk : Clock)
    (write : StreamWrite) :
    (s.step fb (.streamData 0 data clk write)).handshake = s.handshake := by
  rw [step]
  split_ifs
  · rfl
  · rw [handle, if_neg (by decide), onStreamData, if_neg fun h => hphase h.2,
      if_neg fun h => absurd h.1 (by decide), if_neg (by decide),
      if_neg fun h => absurd h.1 (by decide), if_neg fun h => absurd h.1 (by decide)]

/-- SESSION_ACCEPT starts the robot's operation. -/
theorem handshake_readsAccept (hended : s.ended.isSome = false)
    (hphase : s.phase = .awaitingSessionAccept) (data : Bytes) (clk : Clock)
    (write : StreamWrite) :
    (s.step fb (.streamData 1 data clk write)).handshake =
      { s.handshake with
        phase := .operating
        selectedSensors := (decodeSessionAccept fb data).selectedSensors } := by
  rw [step, hended, if_neg Bool.false_ne_true, handle, if_neg (by decide), onStreamData,
    if_neg fun h => absurd h.1 (by decide), if_pos ⟨rfl, hphase⟩]
  rfl

end Session

namespace Console

variable {c : Console}

/-- The robot's HELLO moves the console on. -/
theorem handshake_onHello {fb : FlatBuffers} (hphase : c.client.phase = .awaitingHello)
    {data : Bytes} {caps : HelloCapabilities} (hdata : decodeHello fb data = caps)
    (hversion : caps.protocolVersion = ⟨1, 0⟩) :
    (c.onHello fb data).handshake =
      { c.handshake with
        phase := .awaitingSessionDescribe
        topicsNegotiated :=
          c.localHelloCapabilities.capabilityBitmask &&& caps.capabilityBitmask &&&
            topicForwarding != 0 } := by
  have hmajor : c.localHelloCapabilities.protocolVersion.major = caps.protocolVersion.major := by
    rw [hversion]
    rfl
  rw [onHello, if_pos hphase, hdata, negotiate, if_neg (not_not.mpr hmajor)]
  simp only [handshake, Client.step, hphase, if_true]
  rfl

/-- A description that is read while the console waits for it. -/
theorem handshake_onSessionDescribe {fb : SessionBuffers}
    (hphase : c.client.phase = .awaitingSessionDescribe) {describe : Bytes}
    {info : SessionDescribeInfo} (hdescribe : decodeSessionDescribe fb describe = .ok info)
    (disk : SessionCache.DiskOutcome) :
    (c.onSessionDescribe fb describe disk).1.handshake =
        { c.handshake with
          phase := .operating
          sessionInfo := some info
          sensors := info.sensors } ∧
      ∃ cached, (c.onSessionDescribe fb describe disk).2 =
        some (encodeSessionAcceptFull fb info cached) := by
  rw [onSessionDescribe, if_pos hphase, hdescribe]
  constructor
  · simp only [handshake, Client.step, hphase, if_true]
    rfl
  · exact ⟨_, rfl⟩

end Console

namespace HandshakeLink

/-! ## The invariant -/

/-- How far the description has got: whether it is written, what of it is not read, what the
console keeps of it, and the phase in which the console read its end. -/
inductive DescribeStage (describe : Bytes) :
    Bool → Option Bytes → Bytes → Option ClientPhase → Prop
  | unsent : DescribeStage describe false none [] none
  | underWay (buf rest : Bytes) (h : buf ++ rest = describe) :
      DescribeStage describe true (some rest) buf none
  | read (phase : ClientPhase) (h : phase ≠ .operating) :
      DescribeStage describe true none [] (some phase)

/-- How far the answer has got: whether it is written, what is not read, the robot's phase and
the sensors that it sends. -/
inductive AcceptStage (fb : SessionBuffers) (info : SessionDescribeInfo) :
    Bool → List Bytes → Phase → Bytes → Prop
  | unsent (phase : Phase) (sensors : Bytes) (h : phase ≠ .operating) :
      AcceptStage fb info false [] phase sensors
  | underWay (cached : Bool) (phase : Phase) (sensors : Bytes) (h : phase ≠ .operating) :
      AcceptStage fb info true [encodeSessionAcceptFull fb info cached] phase sensors
  | read : AcceptStage fb info true [] .operating (info.sensors.map (·.sensorId))

/-- A robot that does not operate yet may be in any phase before that. -/
theorem AcceptStage.waits {fb : SessionBuffers} {info : SessionDescribeInfo} {written : Bool}
    {unread : List Bytes} {phase phase' : Phase} {sensors : Bytes}
    (h : AcceptStage fb info written unread phase sensors) (hphase : phase ≠ .operating)
    (hphase' : phase' ≠ .operating) : AcceptStage fb info written unread phase' sensors := by
  cases h with
  | unsent => exact .unsent phase' sensors hphase'
  | underWay cached => exact .underWay cached phase' sensors hphase'
  | read => exact absurd rfl hphase

/-- A SESSION_ACCEPT that is not read was written. -/
theorem AcceptStage.of_unread {fb : SessionBuffers} {info : SessionDescribeInfo} {written : Bool}
    {unread : List Bytes} {phase : Phase} {sensors : Bytes}
    (h : AcceptStage fb info written unread phase sensors) (hunread : unread ≠ []) :
    written = true ∧ phase ≠ .operating ∧
      ∃ cached, unread = [encodeSessionAcceptFull fb info cached] := by
  cases h with
  | unsent => exact absurd rfl hunread
  | underWay cached phase sensors hphase => exact ⟨rfl, hphase, cached, rfl⟩
  | read => exact absurd rfl hunread

/-- Before it is written, the robot does not operate. -/
theorem AcceptStage.of_unwritten {fb : SessionBuffers} {info : SessionDescribeInfo}
    {unread : List Bytes} {phase : Phase} {sensors : Bytes}
    (h : AcceptStage fb info false unread phase sensors) : unread = [] ∧ phase ≠ .operating := by
  cases h with
  | unsent phase sensors hphase => exact ⟨rfl, hphase⟩

/-- A SESSION_DESCRIBE that is on its way was written, and no part is lost. -/
theorem DescribeStage.of_unread {describe unread buf : Bytes} {written : Bool}
    {readIn : Option ClientPhase} (h : DescribeStage describe written (some unread) buf readIn) :
    written = true ∧ buf ++ unread = describe ∧ readIn = none := by
  cases h with
  | underWay buf rest h => exact ⟨rfl, h, rfl⟩

/-- A robot that operates has read the console's choice. -/
theorem AcceptStage.of_operating {fb : SessionBuffers} {info : SessionDescribeInfo}
    {written : Bool} {unread : List Bytes} {sensors : Bytes}
    (h : AcceptStage fb info written unread .operating sensors) :
    written = true ∧ sensors = info.sensors.map (·.sensorId) := by
  cases h with
  | unsent _ _ hphase => exact absurd rfl hphase
  | underWay _ _ _ hphase => exact absurd rfl hphase
  | read => exact ⟨rfl, rfl⟩

/-- Once it is read, the robot operates. -/
theorem AcceptStage.operating_of_read {fb : SessionBuffers} {info : SessionDescribeInfo}
    {phase : Phase} {sensors : Bytes} (h : AcceptStage fb info true [] phase sensors) :
    phase = .operating := by
  cases h with
  | read => rfl

/-- Once SESSION_DESCRIBE is read, none of it is on its way. -/
theorem DescribeStage.unread_of_read {describe buf : Bytes} {written : Bool}
    {unread : Option Bytes} {phase : ClientPhase}
    (h : DescribeStage describe written unread buf (some phase)) : unread = none := by
  cases h with
  | read => rfl

/-- What was read was written. -/
theorem DescribeStage.written_of_read {describe buf : Bytes} {written : Bool}
    {unread : Option Bytes} {phase : ClientPhase}
    (h : DescribeStage describe written unread buf (some phase)) : written = true := by
  cases h with
  | read => rfl

/-- Both sides have a forwarder. -/
def bothForward (robotCaps consoleCaps : HelloCapabilities) : Bool :=
  robotCaps.capabilityBitmask &&& consoleCaps.capabilityBitmask &&& topicForwarding != 0

/-- Both ends agree on forwarding. -/
theorem bothForward_comm (a b : HelloCapabilities) : bothForward a b = bothForward b a := by
  rw [bothForward, bothForward, UInt64.and_comm a.capabilityBitmask]

/-- What was written, what is on the way and what the hosts have understood fit together. -/
structure Valid (fb : SessionBuffers) (d : RobotDescription)
    (robotCaps consoleCaps : HelloCapabilities) (r : Session.HandshakeView)
    (c : Console.HandshakeView) (w : HandshakeWire) (h : HandshakeHistory) : Prop where
  robotCapabilities : r.capabilities = robotCaps
  consoleCapabilities : c.capabilities = consoleCaps
  robotDescribe : r.describe = d.encode fb
  consoleHellos : ∀ m ∈ w.helloToRobot, m = encodeHello fb.toFlatBuffers consoleCaps
  robotHellos : ∀ m ∈ w.helloToConsole, m = encodeHello fb.toFlatBuffers robotCaps
  /-- The robot has the console's HELLO, or it is on its way. -/
  consoleHelloLasts :
    h.consoleHelloWritten = true → w.helloToRobot ≠ [] ∨ r.phase ≠ .awaitingHello
  robotHelloLasts :
    h.robotHelloWritten = true → w.helloToConsole ≠ [] ∨ c.phase ≠ .awaitingHello
  robotTopics : r.phase ≠ .awaitingHello → r.topicsNegotiated = bothForward robotCaps consoleCaps
  consoleTopics : c.phase ≠ .awaitingHello → c.topicsNegotiated = bothForward robotCaps consoleCaps
  describeSent : r.sessionDescribeSent = h.describeWritten
  /-- The description answers a HELLO. -/
  describeAnswers : r.phase = .awaitingHello → h.describeWritten = false
  describing :
    DescribeStage (d.encode fb) h.describeWritten w.describeToConsole c.describeBuf
      h.describeReadIn
  /-- The console operates exactly if it had the HELLO when it read the end of the description. -/
  operating : c.phase = .operating ↔ h.describeReadIn = some .awaitingSessionDescribe
  described : c.phase = .operating → c.sessionInfo = some d.info ∧ c.sensors = d.sensors
  accepting : AcceptStage fb d.info h.acceptWritten w.acceptToRobot r.phase r.selectedSensors
  acceptAnswers : h.acceptWritten = true → c.phase = .operating

variable {fb : SessionBuffers} {d : RobotDescription} {robotCaps consoleCaps : HelloCapabilities}

/-- The invariant of a link. -/
def Keeps (fb : SessionBuffers) (d : RobotDescription)
    (robotCaps consoleCaps : HelloCapabilities) (l : HandshakeLink) : Prop :=
  Valid fb d robotCaps consoleCaps l.robot.handshake l.console.handshake l.wire l.history

variable {l : HandshakeLink}

/-- The invariant holds before anything is sent. -/
theorem keeps_new (fb : SessionBuffers) (d : RobotDescription) (args : ServerArgs)
    (goal : AutonomyGoal) (now : Instant) (consoleArgs : ConsoleArgs) :
    Keeps fb d (new fb d args goal now consoleArgs).robot.localHelloCapabilities
      (new fb d args goal now consoleArgs).console.localHelloCapabilities
      (new fb d args goal now consoleArgs) where
  robotCapabilities := rfl
  consoleCapabilities := rfl
  robotDescribe := rfl
  consoleHellos _ hm := absurd hm List.not_mem_nil
  robotHellos _ hm := absurd hm List.not_mem_nil
  consoleHelloLasts h := absurd h Bool.false_ne_true
  robotHelloLasts h := absurd h Bool.false_ne_true
  robotTopics h := absurd rfl h
  consoleTopics h := absurd rfl h
  describeSent := rfl
  describeAnswers _ := rfl
  describing := .unsent
  operating := ⟨nofun, nofun⟩
  described := nofun
  accepting := .unsent _ _ nofun
  acceptAnswers := nofun

/-! ## The HELLOs -/

theorem mem_sends {write : MessageWrite} {message m : Bytes} (h : m ∈ write.sends message) :
    m = message := by
  cases write with
  | whole => exact List.mem_singleton.mp h
  | refused => cases h
  | failed => cases h

theorem sends_ne_nil {write : MessageWrite} (h : write = .whole) (message : Bytes) :
    write.sends message ≠ [] := by
  rw [h]
  exact List.cons_ne_nil _ _

/-- The console sends its HELLO. -/
theorem Keeps.consoleHello (h : Keeps fb d robotCaps consoleCaps l) (write : MessageWrite) :
    Keeps fb d robotCaps consoleCaps (l.consoleHello fb write) := by
  rw [HandshakeLink.consoleHello]
  split
  · exact
      { h with
        consoleHellos := fun m hm => by
          rcases List.mem_append.mp hm with hold | hnew
          · exact h.consoleHellos m hold
          · rw [mem_sends hnew]
            exact congrArg _ h.consoleCapabilities
        consoleHelloLasts := fun hwritten => by
          rcases Bool.or_eq_true_iff.mp hwritten with hold | hnew
          · exact (h.consoleHelloLasts hold).imp_left (List.append_ne_nil_of_left_ne_nil · _)
          · exact .inl (List.append_ne_nil_of_right_ne_nil _
              (sends_ne_nil (of_decide_eq_true hnew) _)) }
  · exact h

/-- The robot sends its HELLO. -/
theorem Keeps.robotHello (h : Keeps fb d robotCaps consoleCaps l) (write : MessageWrite) :
    Keeps fb d robotCaps consoleCaps (l.robotHello fb write) := by
  rw [HandshakeLink.robotHello]
  split
  · exact h
  · rename_i hguard
    obtain ⟨hended, hsent⟩ := Bool.or_eq_false_iff.mp (Bool.not_eq_true _ ▸ hguard)
    have hrobot := @Session.handshake_established fb.toFlatBuffers l.robot hended hsent write
      (encodeHello fb.toFlatBuffers l.robot.localHelloCapabilities).length
    rw [Keeps]
    dsimp only
    rw [hrobot]
    exact
      { h with
        robotHellos := fun m hm => by
          rcases List.mem_append.mp hm with hold | hnew
          · exact h.robotHellos m hold
          · rw [mem_sends hnew]
            exact congrArg _ h.robotCapabilities
        robotHelloLasts := fun hwritten => by
          rcases Bool.or_eq_true_iff.mp hwritten with hold | hnew
          · exact (h.robotHelloLasts hold).imp_left (List.append_ne_nil_of_left_ne_nil · _)
          · exact .inl (List.append_ne_nil_of_right_ne_nil _
              (sends_ne_nil (of_decide_eq_true hnew) _)) }

/-- Some of the messages are read, the first of them first. -/
theorem take_flatten {message : Bytes} {messages : List Bytes}
    (h : ∀ m ∈ messages, m = message) {n : Nat} (hread : (messages.take (n + 1)).isEmpty = false) :
    ∃ rest, (messages.take (n + 1)).flatten = message ++ rest := by
  cases messages with
  | nil => cases hread
  | cons m messages =>
      rw [List.take_succ_cons, List.flatten_cons, h m List.mem_cons_self]
      exact ⟨_, rfl⟩

/-- The robot reads the console's HELLO, and answers with SESSION_DESCRIBE. -/
theorem Keeps.robotReadsHello (hfront : fb.toFlatBuffers.ReadsFront)
    (h : Keeps fb d robotCaps consoleCaps l) (n : Nat) (clk : Clock) (write : MessageWrite) :
    Keeps fb d robotCaps consoleCaps (l.robotReadsHello fb n clk write) := by
  simp only [HandshakeLink.robotReadsHello]
  split
  · exact h
  · rename_i hguard
    obtain ⟨hended, hread⟩ := Bool.or_eq_false_iff.mp (Bool.not_eq_true _ ▸ hguard)
    have hcaps : l.console.localHelloCapabilities = consoleCaps := h.consoleCapabilities
    have hsent : l.robot.sessionDescribeSent = l.history.describeWritten := h.describeSent
    obtain ⟨rest, hflatten⟩ := take_flatten h.consoleHellos hread
    have hdata : decodeHello fb.toFlatBuffers (l.wire.helloToRobot.take (n + 1)).flatten =
        consoleCaps := by
      rw [hflatten]
      exact decodeHello_encodeHello hfront consoleCaps rest
    have hhellos : ∀ m ∈ l.wire.helloToRobot.drop (n + 1),
        m = encodeHello fb.toFlatBuffers consoleCaps :=
      fun m hm => h.consoleHellos m (List.mem_of_mem_drop hm)
    by_cases hphase : l.robot.phase = .awaitingHello
    · have hunwritten : l.history.describeWritten = false := h.describeAnswers hphase
      have hrobot := @Session.handshake_readsHello fb.toFlatBuffers l.robot hended hphase
        (hsent.trans hunwritten) _ consoleCaps hdata (hcaps ▸ rfl) clk write
      have hwritten := congrArg Session.HandshakeView.sessionDescribeSent hrobot
      have htopics : l.robot.localHelloCapabilities = robotCaps := h.robotCapabilities
      change Session.sessionDescribeSent _ = (write == .whole) at hwritten
      rw [Keeps]
      dsimp only
      rw [hrobot, hwritten, hsent, hunwritten]
      exact
        { h with
          consoleHellos := hhellos
          consoleHelloLasts := fun _ => .inr nofun
          robotTopics := fun _ => by rw [← htopics]; rfl
          describeSent := by cases write <;> rfl
          describeAnswers := nofun
          describing := by
            have hstage := h.describing
            rw [hunwritten] at hstage
            generalize l.wire.describeToConsole = unread at hstage
            generalize l.console.handshake.describeBuf = buf at hstage ⊢
            generalize l.history.describeReadIn = readIn at hstage ⊢
            cases hstage
            cases write with
            | whole => exact .underWay [] _ h.robotDescribe
            | refused => exact .unsent
            | failed => exact .unsent
          accepting := by
            have hwaits : l.robot.handshake.phase = .awaitingHello := hphase
            exact h.accepting.waits (hwaits ▸ nofun) nofun }
    · have hrobot := @Session.handshake_hello_of_ne fb.toFlatBuffers l.robot hphase
        (l.wire.helloToRobot.take (n + 1)).flatten clk (write.answer l.robot.describe.length)
      have hwritten := congrArg Session.HandshakeView.sessionDescribeSent hrobot
      change Session.sessionDescribeSent _ = l.robot.sessionDescribeSent at hwritten
      rw [Keeps]
      dsimp only
      rw [hrobot, hwritten, Bool.and_not_self, Bool.or_false, if_neg Bool.false_ne_true]
      exact { h with consoleHellos := hhellos, consoleHelloLasts := fun _ => .inr hphase }

/-- The console reads the robot's HELLO. -/
theorem Keeps.consoleReadsHello (hfront : fb.toFlatBuffers.ReadsFront)
    (h : Keeps fb d robotCaps consoleCaps l) (n : Nat) :
    Keeps fb d robotCaps consoleCaps (l.consoleReadsHello fb n) := by
  simp only [HandshakeLink.consoleReadsHello]
  split
  · exact h
  · rename_i hguard
    have hcaps : l.robot.localHelloCapabilities = robotCaps := h.robotCapabilities
    obtain ⟨rest, hflatten⟩ := take_flatten h.robotHellos (Bool.not_eq_true _ ▸ hguard)
    have hdata : decodeHello fb.toFlatBuffers (l.wire.helloToConsole.take (n + 1)).flatten =
        robotCaps := by
      rw [hflatten]
      exact decodeHello_encodeHello hfront robotCaps rest
    have hhellos : ∀ m ∈ l.wire.helloToConsole.drop (n + 1),
        m = encodeHello fb.toFlatBuffers robotCaps :=
      fun m hm => h.robotHellos m (List.mem_of_mem_drop hm)
    rw [Keeps]
    dsimp only
    by_cases hphase : l.console.client.phase = .awaitingHello
    · have hwaits : l.console.handshake.phase ≠ .operating := fun hop =>
        nomatch hphase.symm.trans hop
      have htopics : l.console.localHelloCapabilities = consoleCaps := h.consoleCapabilities
      rw [Console.handshake_onHello hphase hdata (hcaps ▸ rfl)]
      exact
        { h with
          robotHellos := hhellos
          robotHelloLasts := fun _ => .inr nofun
          consoleTopics := fun _ => by
            rw [bothForward_comm, ← htopics]
            rfl
          operating := ⟨nofun, fun hread => absurd (h.operating.mpr hread) hwaits⟩
          described := nofun
          acceptAnswers := fun hwritten => absurd (h.acceptAnswers hwritten) hwaits }
    · rw [Console.onHello_of_ne fb.toFlatBuffers hphase]
      exact { h with robotHellos := hhellos, robotHelloLasts := fun _ => .inr hphase }

/-! ## The description and its answer -/

/-- The end of the description. -/
theorem Keeps.consoleReadsEnd (hfb : fb.Lawful) (h : Keeps fb d robotCaps consoleCaps l)
    {unread : Bytes} (hunread : l.wire.describeToConsole = some unread)
    (disk : SessionCache.DiskOutcome) (write : MessageWrite) :
    let read := l.console.onDescribeBytes fb unread true disk
    Valid fb d robotCaps consoleCaps l.robot.handshake read.1.handshake
      { l.wire with
        describeToConsole := none
        acceptToRobot := l.wire.acceptToRobot ++ read.2.elim [] write.sends }
      { l.history with
        describeReadIn := some l.console.client.phase
        acceptWritten := l.history.acceptWritten || (read.2.isSome && write = .whole) } := by
  intro read
  have hstage := h.describing
  rw [hunread] at hstage
  obtain ⟨hwritten, hwhole, hreadIn⟩ := hstage.of_unread
  have hwaits : l.console.handshake.phase ≠ .operating := fun hop => by
    have hread := h.operating.mp hop
    rw [hreadIn] at hread
    cases hread
  have hunanswered : l.history.acceptWritten = false :=
    Bool.eq_false_iff.mpr fun haccept => hwaits (h.acceptAnswers haccept)
  have haccepting := h.accepting
  rw [hunanswered] at haccepting
  obtain ⟨hunsent, hrobot⟩ := haccepting.of_unwritten
  have hread : read = { l.console with describeBuf := [] }.onSessionDescribe fb
      (l.console.describeBuf ++ unread) disk := rfl
  by_cases hphase : l.console.client.phase = .awaitingSessionDescribe
  · have hbytes : l.console.describeBuf ++ unread = d.encode fb := hwhole
    have hdecode : decodeSessionDescribe fb (l.console.describeBuf ++ unread) = .ok d.info := by
      rw [hbytes]
      exact d.decode_encode hfb
    obtain ⟨hconsole, cached, haccept⟩ :=
      @Console.handshake_onSessionDescribe { l.console with describeBuf := [] } fb hphase _ _
        hdecode disk
    rw [← hread] at hconsole haccept
    rw [hconsole, haccept]
    exact
      { h with
        robotHelloLasts := fun _ => .inr nofun
        consoleTopics := fun _ => h.consoleTopics fun hhello => nomatch hphase.symm.trans hhello
        describing := by
          rw [hwritten]
          exact .read _ (hphase ▸ nofun)
        operating := ⟨fun _ => congrArg some hphase, fun _ => rfl⟩
        described := fun _ => ⟨rfl, rfl⟩
        accepting := by
          rw [hunanswered, hunsent]
          cases write with
          | whole => exact .underWay cached _ _ hrobot
          | refused => exact .unsent _ _ hrobot
          | failed => exact .unsent _ _ hrobot
        acceptAnswers := fun _ => rfl }
  · have hignored := @Console.onSessionDescribe_of_ne fb { l.console with describeBuf := [] }
      hphase (l.console.describeBuf ++ unread) disk
    rw [hread, hignored]
    exact
      { h with
        describing := by
          rw [hwritten]
          exact .read _ hwaits
        operating := ⟨fun hop => absurd hop hwaits, fun hread =>
          absurd (Option.some.inj hread) hphase⟩
        accepting := by
          rw [hunanswered, hunsent]
          exact .unsent _ _ hrobot
        acceptAnswers := fun haccept => by
          rw [hunanswered] at haccept
          cases haccept }

/-- The console reads SESSION_DESCRIBE, and answers with SESSION_ACCEPT. -/
theorem Keeps.consoleReadsDescribe (hfb : fb.Lawful) (h : Keeps fb d robotCaps consoleCaps l)
    (n : Nat) (fin : Bool) (disk : SessionCache.DiskOutcome) (write : MessageWrite) :
    Keeps fb d robotCaps consoleCaps (l.consoleReadsDescribe fb n fin disk write) := by
  simp only [HandshakeLink.consoleReadsDescribe]
  split
  · exact h
  · rename_i unread hunread
    cases hfin : (fin && (unread.drop n).isEmpty) with
    | true =>
        have hall : unread.take n = unread := by
          have hrest := List.isEmpty_iff.mp (Bool.and_eq_true_iff.mp hfin).2
          have happend := List.take_append_drop n unread
          rw [hrest, List.append_nil] at happend
          exact happend
        rw [hall]
        exact h.consoleReadsEnd hfb hunread disk write
    | false =>
        have hstage := h.describing
        rw [hunread] at hstage
        obtain ⟨hwritten, hwhole, hreadIn⟩ := hstage.of_unread
        have hnone : l.wire.acceptToRobot ++ (none : Option Bytes).elim [] write.sends =
            l.wire.acceptToRobot := List.append_nil _
        rw [Keeps, Console.onDescribeBytes, if_neg Bool.false_ne_true]
        dsimp only
        rw [hnone, if_neg Bool.false_ne_true, if_neg Bool.false_ne_true, Option.isSome_none,
          Bool.false_and, Bool.or_false]
        exact
          { h with
            describing := by
              have hparts : l.console.describeBuf ++ unread.take n ++ unread.drop n =
                  d.encode fb := by
                rw [List.append_assoc, List.take_append_drop]
                exact hwhole
              rw [hwritten, hreadIn]
              exact .underWay _ _ hparts }

/-- The robot reads SESSION_ACCEPT. -/
theorem Keeps.robotReadsAccept (hfb : fb.Lawful) (h : Keeps fb d robotCaps consoleCaps l)
    (n : Nat) (clk : Clock) :
    Keeps fb d robotCaps consoleCaps (l.robotReadsAccept fb n clk) := by
  simp only [HandshakeLink.robotReadsAccept]
  split
  · exact h
  · rename_i hguard
    obtain ⟨hended, hread⟩ := Bool.or_eq_false_iff.mp (Bool.not_eq_true _ ▸ hguard)
    have hunread : l.wire.acceptToRobot ≠ [] := by
      rintro hnil
      rw [hnil] at hread
      cases hread
    obtain ⟨hwritten, hrobot, cached, haccept⟩ := h.accepting.of_unread hunread
    -- an answer is to a description, which is to a HELLO
    have hoperates : l.console.handshake.phase = .operating := h.acceptAnswers hwritten
    have hdescribed : l.history.describeWritten = true := by
      have hstage := h.describing
      rw [h.operating.mp hoperates] at hstage
      exact hstage.written_of_read
    have hphase : l.robot.phase = .awaitingSessionAccept := by
      cases hcases : l.robot.phase with
      | awaitingHello => exact absurd hdescribed (Bool.eq_false_iff.mp (h.describeAnswers hcases))
      | awaitingSessionAccept => rfl
      | operating => exact absurd hcases hrobot
    have hall : l.wire.acceptToRobot.take (n + 1) = [encodeSessionAcceptFull fb d.info cached] := by
      rw [haccept]
      exact List.take_of_length_le (Nat.succ_le_succ (Nat.zero_le n))
    have hrest : l.wire.acceptToRobot.drop (n + 1) = [] := by
      rw [haccept]
      exact List.drop_of_length_le (Nat.succ_le_succ (Nat.zero_le n))
    rw [Keeps]
    dsimp only
    rw [hall, hrest, List.flatten_singleton, Session.handshake_readsAccept hended hphase,
      decode_encodeSessionAcceptFull hfb]
    exact
      { h with
        consoleHelloLasts := fun _ => .inr nofun
        robotTopics := fun _ => h.robotTopics fun hhello => nomatch hphase.symm.trans hhello
        describeAnswers := nofun
        accepting := by
          rw [hwritten]
          exact .read }

/-! ## Runs -/

/-- Every event keeps the invariant of the handshake. -/
theorem Keeps.step (hfb : fb.Lawful) (hfront : fb.toFlatBuffers.ReadsFront)
    (h : Keeps fb d robotCaps consoleCaps l) (e : Event) :
    Keeps fb d robotCaps consoleCaps (l.step fb e) := by
  cases e with
  | consoleHello write => exact h.consoleHello write
  | robotHello write => exact h.robotHello write
  | robotReadsHello n clk write => exact h.robotReadsHello hfront n clk write
  | consoleReadsHello n => exact h.consoleReadsHello hfront n
  | consoleReadsDescribe n fin disk write => exact h.consoleReadsDescribe hfb n fin disk write
  | robotReadsAccept n clk => exact h.robotReadsAccept hfb n clk
  | robot e =>
      cases he : e.handshakes with
      | true => rwa [HandshakeLink.step, he, if_pos rfl]
      | false =>
          rw [HandshakeLink.step, he, if_neg Bool.false_ne_true, Keeps,
            Session.handshake_step fb.toFlatBuffers l.robot he]
          exact h
  | console e =>
      cases he : clientHandshakes e with
      | true => rwa [HandshakeLink.step, he, if_pos rfl]
      | false =>
          have hconsole : { l.console with client := l.console.client.step e }.handshake =
              l.console.handshake :=
            congrArg (fun phase => { l.console.handshake with phase })
              (l.console.client.phase_step he)
          rw [HandshakeLink.step, he, if_neg Bool.false_ne_true, Keeps, hconsole]
          exact h

/-- The end of the description is read once. -/
theorem describeReadIn_step (h : Keeps fb d robotCaps consoleCaps l) {phase : ClientPhase}
    (hread : l.history.describeReadIn = some phase) (e : Event) :
    (l.step fb e).history.describeReadIn = some phase := by
  have hunread : l.wire.describeToConsole = none := by
    have hstage := h.describing
    rw [hread] at hstage
    exact hstage.unread_of_read
  cases e with
  | consoleHello write =>
      rw [HandshakeLink.step, HandshakeLink.consoleHello]
      split <;> exact hread
  | robotHello write =>
      rw [HandshakeLink.step, HandshakeLink.robotHello]
      split <;> exact hread
  | robotReadsHello n clk write =>
      simp only [HandshakeLink.step, HandshakeLink.robotReadsHello]
      split <;> exact hread
  | consoleReadsHello n =>
      simp only [HandshakeLink.step, HandshakeLink.consoleReadsHello]
      split <;> exact hread
  | consoleReadsDescribe n fin disk write =>
      rw [HandshakeLink.step, HandshakeLink.consoleReadsDescribe, hunread]
      exact hread
  | robotReadsAccept n clk =>
      simp only [HandshakeLink.step, HandshakeLink.robotReadsAccept]
      split <;> exact hread
  | robot e =>
      rw [HandshakeLink.step]
      split <;> exact hread
  | console e =>
      rw [HandshakeLink.step]
      split <;> exact hread

/-! ## What the sides agree on -/

/-- A side that is past the HELLOs knows whether both forward topics, the console operates with
the robot's own description, and the robot with the console's selection of it. -/
structure Agreed (d : RobotDescription) (forward : Bool) (l : HandshakeLink) : Prop where
  robotTopics : l.robot.phase ≠ .awaitingHello → l.robot.topicsNegotiated = forward
  consoleTopics : l.console.client.phase ≠ .awaitingHello → l.console.topicsNegotiated = forward
  described : l.console.client.phase = .operating →
    l.console.sessionInfo = some d.info ∧ l.console.sensors = d.sensors
  accepted : l.robot.phase = .operating →
    l.console.client.phase = .operating ∧
      l.robot.selectedSensors = d.sensors.map (·.sensorId)

/-- What both ends hold, they agree on. -/
theorem Keeps.agreed (h : Keeps fb d robotCaps consoleCaps l) :
    Agreed d (bothForward robotCaps consoleCaps) l where
  robotTopics := h.robotTopics
  consoleTopics := h.consoleTopics
  described := h.described
  accepted hoperating := by
    have hstage := h.accepting
    have hphase : l.robot.handshake.phase = .operating := hoperating
    rw [hphase] at hstage
    obtain ⟨hwritten, hsensors⟩ := hstage.of_operating
    exact ⟨h.acceptAnswers hwritten, hsensors⟩

/-- Everything that was written is read. -/
structure Settled (l : HandshakeLink) : Prop where
  helloToRobot : l.wire.helloToRobot = []
  acceptToRobot : l.wire.acceptToRobot = []
  helloToConsole : l.wire.helloToConsole = []
  describeToConsole : l.wire.describeToConsole = none

/-- How far both sides have got by then. -/
structure Reached (l : HandshakeLink) : Prop where
  robotHello : l.history.consoleHelloWritten = true → l.robot.phase ≠ .awaitingHello
  consoleHello : l.history.robotHelloWritten = true → l.console.client.phase ≠ .awaitingHello
  console : l.console.client.phase = .operating ↔
    l.history.describeWritten = true ∧ l.history.describeReadIn ≠ some .awaitingHello
  robot : l.robot.phase = .operating ↔
    l.console.client.phase = .operating ∧ l.history.acceptWritten = true

/-- Once all is written and read, both operate. -/
theorem Keeps.reached (h : Keeps fb d robotCaps consoleCaps l) (hsettled : l.Settled) :
    l.Reached where
  robotHello hwritten :=
    (h.consoleHelloLasts hwritten).resolve_left (not_not.mpr hsettled.helloToRobot)
  consoleHello hwritten :=
    (h.robotHelloLasts hwritten).resolve_left (not_not.mpr hsettled.helloToConsole)
  console := by
    have hstage := h.describing
    have hoperating := h.operating
    rw [hsettled.describeToConsole] at hstage
    change l.console.client.phase = .operating ↔ _ at hoperating
    rw [hoperating]
    generalize l.history.describeWritten = written at hstage ⊢
    generalize l.history.describeReadIn = readIn at hstage ⊢
    generalize l.console.handshake.describeBuf = buf at hstage
    cases hstage with
    | unsent => exact ⟨nofun, fun hwritten => absurd hwritten.1 Bool.false_ne_true⟩
    | read phase hphase =>
        cases phase with
        | awaitingHello => exact ⟨nofun, fun hread => absurd rfl hread.2⟩
        | awaitingSessionDescribe => exact ⟨fun _ => ⟨rfl, nofun⟩, fun _ => rfl⟩
        | operating => exact absurd rfl hphase
  robot := by
    constructor
    · intro hoperating
      have hstage := h.accepting
      have hphase : l.robot.handshake.phase = .operating := hoperating
      rw [hphase] at hstage
      have hwritten := hstage.of_operating.1
      exact ⟨h.acceptAnswers hwritten, hwritten⟩
    · rintro ⟨-, hwritten⟩
      have hstage := h.accepting
      rw [hwritten, hsettled.acceptToRobot] at hstage
      exact hstage.operating_of_read

/-- A console that read the end of the description without the HELLO does not operate, nor does
the robot. -/
theorem Keeps.lost (h : Keeps fb d robotCaps consoleCaps l)
    (hread : l.history.describeReadIn = some .awaitingHello) :
    l.console.client.phase ≠ .operating ∧ l.robot.phase ≠ .operating := by
  have hconsole : l.console.client.phase ≠ .operating := by
    intro hoperating
    have hfirst := h.operating.mp hoperating
    rw [hread] at hfirst
    cases hfirst
  exact ⟨hconsole, fun hoperating => hconsole (h.agreed.accepted hoperating).1⟩

/-- What holds in every state of a connection. -/
structure HandshakeExact (fb : SessionBuffers) (d : RobotDescription) (forward : Bool)
    (l : HandshakeLink) : Prop where
  agreed : Agreed d forward l
  reached : l.Settled → l.Reached
  lost : l.history.describeReadIn = some .awaitingHello → ∀ later,
    (exec (step fb) l later).console.client.phase ≠ .operating ∧
      (exec (step fb) l later).robot.phase ≠ .operating

/-- Both sides agree on what they negotiated, and get to Operating exactly if every message is
written and the HELLO is read before the end of the description. -/
theorem handshake_exact (fb : SessionBuffers) (hfb : fb.Lawful)
    (hfront : fb.toFlatBuffers.ReadsFront) (d : RobotDescription) (args : ServerArgs)
    (goal : AutonomyGoal) (now : Instant) (consoleArgs : ConsoleArgs) (events : List Event) :
    HandshakeExact fb d (args.forwarding && consoleArgs.forwarding)
      (exec (step fb) (new fb d args goal now consoleArgs) events) := by
  have hforward : bothForward (new fb d args goal now consoleArgs).robot.localHelloCapabilities
      (new fb d args goal now consoleArgs).console.localHelloCapabilities =
        (args.forwarding && consoleArgs.forwarding) := Console.topicsNegotiated_eq
  have h := exec_inv (I := Keeps fb d _ _) (fun _ e hl => hl.step hfb hfront e) events
    (keeps_new fb d args goal now consoleArgs)
  refine { agreed := hforward ▸ h.agreed, reached := h.reached, lost := fun hread later => ?_ }
  obtain ⟨hkeeps, hlost⟩ := exec_inv
    (I := fun l => Keeps fb d _ _ l ∧ l.history.describeReadIn = some .awaitingHello)
    (fun _ e hl => ⟨hl.1.step hfb hfront e, describeReadIn_step hl.1 hl.2 e⟩) later ⟨h, hread⟩
  exact hkeeps.lost hlost

/-- A quadruped with an arm, a camera and four sensors. -/
def sampleDescription : RobotDescription where
  robotId := "xgo_lite_v2"
  profile := armProfile
  cameras := [frontCamera]
  sensors := sampleSensors
  valid := by decide +kernel

def sampleServer : ServerArgs :=
  { taskClass := .c, watchdogThresholdMs := 500, describe := [], forwarding := true
    cameraAttached := true, bench := none }

def sampleConsole : ConsoleArgs where
  client := { moveStaleMs := 300, observer := false, demoAction := none }
  taskClass := .c
  forwarding := true
  profiles := []

/-- The console's HELLO is answered, and the robot's arrives before its description. -/
def helloFirst : List Event :=
  [.consoleHello .whole, .robotHello .whole, .robotReadsHello 0 (.const 0) .whole,
    .consoleReadsHello 0, .consoleReadsDescribe 40 false ⟨true, true⟩ .whole,
    .consoleReadsDescribe 1000 true ⟨true, true⟩ .whole, .robotReadsAccept 0 (.const 0)]

/-- The packet with the robot's HELLO is lost, and sent again after the description. -/
def describeFirst : List Event :=
  [.consoleHello .whole, .robotHello .whole, .robotReadsHello 0 (.const 0) .whole,
    .consoleReadsDescribe 1000 true ⟨true, true⟩ .whole, .consoleReadsHello 0]

/-- SESSION_DESCRIBE comes before the console has read HELLO. -/
theorem handshake_exact_describeFirst :
    HandshakeExact .wireLayout sampleDescription true
      (exec (step .wireLayout)
        (new .wireLayout sampleDescription sampleServer (.new 0) 0 sampleConsole) describeFirst) :=
  handshake_exact .wireLayout SessionBuffers.wireLayout_lawful FlatBuffers.fixedLayout_readsFront
    sampleDescription sampleServer (.new 0) 0 sampleConsole describeFirst

example :
    (exec (step .wireLayout)
      (new .wireLayout sampleDescription sampleServer (.new 0) 0 sampleConsole)
      helloFirst).robot.phase = .operating := by
  decide +kernel

example :
    (exec (step .wireLayout)
      (new .wireLayout sampleDescription sampleServer (.new 0) 0 sampleConsole)
      describeFirst).history.describeReadIn = some .awaitingHello := by
  decide +kernel

end HandshakeLink

end RoboTele
