import RoboTele.RobotEdge.Handshake

/-!
# The robot's side of the handshake

The fields of a session that the handshake reads and writes.  What else a session does leaves
them alone: datagrams, ticks, what the bridge says, and the streams of E-Stop messages, action
triggers and camera controls (`handshake_step`).
-/

namespace RoboTele

namespace Session

/-- What session setup reads and writes of the robot's session. -/
structure HandshakeView where
  phase : Phase
  topicsNegotiated : Bool
  selectedSensors : Bytes
  helloSent : Bool
  sessionDescribeSent : Bool
  describe : Bytes
  capabilities : HelloCapabilities

/-- What session setup sees of a session. -/
def handshake (s : Session) : HandshakeView :=
  { phase := s.phase
    topicsNegotiated := s.topicsNegotiated
    selectedSensors := s.selectedSensors
    helloSent := s.helloSent
    sessionDescribeSent := s.sessionDescribeSent
    describe := s.describe
    capabilities := s.localHelloCapabilities }

/-! ## What leaves them alone -/

@[simp] theorem handshake_record (s : Session) (a : Act) :
    (s.record a).handshake = s.handshake := rfl

@[simp] theorem handshake_send (s : Session) (mk : Nat → BridgeCommand) :
    (s.send mk).handshake = s.handshake := rfl

@[simp] theorem handshake_onChannelBActivity (s : Session) (now : Instant) :
    (s.onChannelBActivity now).handshake = s.handshake := rfl

@[simp] theorem handshake_applyEstop (s : Session) (d : EstopDatagram) (now : Instant) :
    (s.applyEstop d now).handshake = s.handshake := by
  rw [applyEstop]
  split_ifs <;> rfl

@[simp] theorem handshake_arbitrate (s : Session) (now goalNow : Instant) :
    (s.arbitrate now goalNow).1.handshake = s.handshake := rfl

/-- Whether a condition holds or not. -/
theorem handshake_ite (c : Prop) [Decidable c] {u v : Session} (h : u.handshake = v.handshake) :
    (if c then u else v).handshake = v.handshake := by
  split_ifs
  · exact h
  · rfl

theorem handshake_sendBody (s : Session) (cmd : TeleopCommand) :
    (s.sendBody cmd).handshake = s.handshake := by
  simp only [sendBody, handshake_send]

theorem handshake_driveTeleop (s : Session) (cmd : TeleopCommand) (now : Instant) :
    (s.driveTeleop cmd now).handshake = s.handshake := by
  have hsettle : (s.expireSettle now).handshake = s.handshake := by
    rw [expireSettle]
    split_ifs <;> rfl
  have hsit : ((s.expireSettle now).endSit cmd).handshake = (s.expireSettle now).handshake := by
    rw [endSit]
    split_ifs <;> rfl
  simp only [driveTeleop]
  rw [handshake_send, handshake_ite _ (handshake_send _ _),
    handshake_ite _ (handshake_sendBody _ cmd), hsit, hsettle]

theorem handshake_dispatchTeleopCommand (s : Session) (cmd : TeleopCommand)
    (now goalNow settleNow : Instant) :
    (s.dispatchTeleopCommand cmd now goalNow settleNow).1.handshake = s.handshake := by
  simp only [dispatchTeleopCommand]
  cases (s.arbitrate now goalNow).2 with
  | fullTeleoperation => exact handshake_driveTeleop _ cmd settleNow
  | _ => rfl

theorem handshake_onBenchCommand (fb : FlatBuffers) (s : Session) (mode : BenchMode)
    (frame : ChannelBFrameData) (wireLen : Nat) (now : Instant) :
    (s.onBenchCommand fb mode frame wireLen now).handshake = s.handshake := by
  unfold onBenchCommand
  cases TeleopCommand.unpack frame.fields with
  | none => rfl
  | some cmd => cases mode <;> rfl

/-- No datagram is part of the handshake. -/
theorem handshake_onDatagram (fb : FlatBuffers) (s : Session) (data : Bytes) (clk : Clock) :
    (s.onDatagram fb data clk).handshake = s.handshake := by
  have hcases := onDatagram_cases fb s data clk
  generalize s.onDatagram fb data clk = t at hcases ⊢
  cases hcases with
  | ignored hadm => rfl
  | @estop d hd hadm => exact handshake_applyEstop s d (clk.read 0)
  | @benchRaw mode hphase hadm => cases mode <;> rfl
  | heartbeat hphase hadm => rfl
  | benchCommand hphase hadm => exact handshake_onBenchCommand fb _ _ _ _ _
  | undecodable hphase hadm => rfl
  | command hadm => exact handshake_dispatchTeleopCommand _ _ _ _ _

theorem handshake_onActionTrigger (s : Session) (trigger : ActionTrigger) (clk : Clock) :
    (s.onActionTrigger trigger clk).handshake = s.handshake := by
  simp only [onActionTrigger]
  split_ifs <;> rfl

theorem handshake_onCameraControl (s : Session) (control : CameraControl) :
    (s.onCameraControl control).handshake = s.handshake := by
  simp only [onCameraControl]
  split_ifs <;> rfl

/-- No tick is part of it. -/
theorem handshake_onTick (fb : FlatBuffers) (s : Session) (clk : Clock) (io : TickIo) :
    (s.onTick fb clk io).handshake = s.handshake := by
  have hreport (s : Session) (latched : Bool) :
      (s.reportEstop latched io).handshake = s.handshake := by
    simp only [reportEstop]
    split_ifs <;> rfl
  have hrelay (s : Session) (source : ControlSource) :
      (s.relayEstop source).handshake = s.handshake := by
    rw [relayEstop]
    split_ifs <;> rfl
  have hautonomy (s : Session) (source : ControlSource) (goalNow : Instant) :
      (s.driveAutonomy source goalNow).handshake = s.handshake := by
    rw [driveAutonomy]
    split_ifs <;> rfl
  have hcount : (s.countTick (clk.read 0)).handshake = s.handshake := rfl
  have htelemetry (s : Session) : (s.sendTelemetry fb io.captureUs).handshake = s.handshake := rfl
  simp only [onTick]
  rw [handshake_record, handshake_ite _ (htelemetry _), handshake_ite _ (handshake_send _ _),
    hautonomy, hrelay, handshake_send, hreport, handshake_arbitrate, hcount]

theorem handshake_onBridgeEvent (s : Session) (event : SupervisorEvent) :
    (s.onBridgeEvent event).handshake = s.handshake := by
  cases event with
  | fromBridge event => cases event <;> rfl
  | processDied attempt willRetry => rfl
  | gaveUp => rfl

theorem handshake_finish (s : Session) (exit : Exit) : (s.finish exit).handshake = s.handshake := by
  cases exit <;> rfl

/-- The events that the handshake is made of. -/
def Event.handshakes : Event → Bool
  | .established _ => true
  | .streamData streamId _ _ _ => streamId == 0 || streamId == 1
  | _ => false

/-- Only the first two streams are part of it. -/
theorem handshake_onStreamData (fb : FlatBuffers) (s : Session) {streamId : Nat}
    (hhello : streamId ≠ 0) (haccept : streamId ≠ 1) (data : Bytes) (clk : Clock)
    (write : StreamWrite) :
    (s.onStreamData fb streamId data clk write).handshake = s.handshake := by
  rw [onStreamData, if_neg fun h => hhello h.1, if_neg fun h => haccept h.1]
  split_ifs
  · cases EstopDatagram.decode data with
    | some d => exact handshake_applyEstop s d (clk.read 0)
    | none => rfl
  · exact handshake_onActionTrigger s _ clk
  · exact handshake_onCameraControl s _
  · rfl

/-- Any other event leaves the handshake alone. -/
theorem handshake_step (fb : FlatBuffers) (s : Session) {e : Event} (he : e.handshakes = false) :
    (s.step fb e).handshake = s.handshake := by
  rw [step]
  split_ifs
  · rfl
  · cases e with
    | datagram data clk => exact handshake_onDatagram fb s data clk
    | streamData streamId data clk write =>
        obtain ⟨hhello, haccept⟩ := Bool.or_eq_false_iff.mp he
        simp only [handle]
        split_ifs
        · rfl
        · exact handshake_onStreamData fb s (beq_eq_false_iff_ne.mp hhello)
            (beq_eq_false_iff_ne.mp haccept) data clk write
    | tick clk io => exact handshake_onTick fb s clk io
    | bridgeEvent event => exact handshake_onBridgeEvent s event
    | autonomySample payload now => rfl
    | established write => cases he
    | exit exit => exact handshake_finish s exit

end Session

end RoboTele
