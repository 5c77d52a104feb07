import RoboTele.RobotEdge.SessionQueue

/-!
# Before the handshake is complete

A session moves the robot only once it is Operating: HELLO negotiated and
SESSION_ACCEPT received.  Commands and action triggers are gated by the phase.
The autonomy goal is not, and `on_tick` follows it in every phase
(`actuates_iff_of_awaiting`).

`gate` is the phase with the deadman flag.  The phase never leaves Operating,
and nothing sets the flag before it, so a tick before Operating can be
arbitrated to nothing but `EStop`, `SemiAutonomous` and `ActiveImpedanceHold`.
-/

namespace RoboTele

open Runs

namespace Session

/-! ## The phase and the deadman flag -/

/-- What the handshake decides on. -/
def gate (s : Session) : Phase × Bool := (s.phase, s.safety.deadmanHeld)

@[simp] theorem gate_record (s : Session) (a : Act) : (s.record a).gate = s.gate := rfl

@[simp] theorem gate_send (s : Session) (mk : Nat → BridgeCommand) :
    (s.send mk).gate = s.gate := rfl

@[simp] theorem gate_onChannelBActivity (s : Session) (now : Instant) :
    (s.onChannelBActivity now).gate = s.gate := rfl

@[simp] theorem gate_applyEstop (s : Session) (d : EstopDatagram) (now : Instant) :
    (s.applyEstop d now).gate = s.gate := by
  rw [applyEstop]
  split_ifs <;> rfl

@[simp] theorem gate_arbitrate (s : Session) (now goalNow : Instant) :
    (s.arbitrate now goalNow).1.gate = s.gate := rfl

@[simp] theorem gate_countTick (s : Session) (now : Instant) :
    (s.countTick now).gate = s.gate := rfl

@[simp] theorem gate_reportEstop (s : Session) (latched : Bool) (io : TickIo) :
    (s.reportEstop latched io).gate = s.gate := by
  simp only [reportEstop]
  split_ifs <;> rfl

@[simp] theorem gate_relayEstop (s : Session) (source : ControlSource) :
    (s.relayEstop source).gate = s.gate := by
  rw [relayEstop]
  split_ifs <;> rfl

@[simp] theorem gate_driveAutonomy (s : Session) (source : ControlSource) (goalNow : Instant) :
    (s.driveAutonomy source goalNow).gate = s.gate := by
  rw [driveAutonomy]
  split_ifs <;> rfl

@[simp] theorem gate_sendTelemetry (fb : FlatBuffers) (s : Session) (captureUs : UInt64) :
    (s.sendTelemetry fb captureUs).gate = s.gate := rfl

/-- A tick does not touch the gate. -/
theorem gate_onTick (fb : FlatBuffers) (s : Session) (clk : Clock) (io : TickIo) :
    (s.onTick fb clk io).gate = s.gate := by
  have hite (c : Prop) [Decidable c] {u v : Session} (hu : u.gate = v.gate) :
      (if c then u else v).gate = v.gate := by
    split_ifs
    · exact hu
    · rfl
  simp only [onTick]
  rw [gate_record, hite _ (gate_sendTelemetry _ _ _), hite _ (gate_send _ _), gate_driveAutonomy,
    gate_relayEstop, gate_send, gate_reportEstop, gate_arbitrate, gate_countTick]

theorem gate_sendSessionDescribe (s : Session) (write : StreamWrite) :
    (s.sendSessionDescribe write).gate = s.gate := by
  rw [sendSessionDescribe]
  split_ifs
  · rfl
  · cases write with
    | written n =>
        dsimp only
        split_ifs <;> rfl
    | done => rfl
    | error => rfl

/-- The robot's own HELLO opens nothing. -/
theorem gate_sendHello (fb : FlatBuffers) (s : Session) (write : StreamWrite) :
    (s.sendHello fb write).gate = s.gate := by
  rw [sendHello]
  split_ifs
  · rfl
  · cases write <;> rfl

theorem gate_onBridgeEvent (s : Session) (event : SupervisorEvent) :
    (s.onBridgeEvent event).gate = s.gate := by
  cases event with
  | fromBridge event => cases event <;> rfl
  | processDied attempt willRetry => rfl
  | gaveUp => rfl

theorem gate_finish (s : Session) (exit : Exit) : (s.finish exit).gate = s.gate := by
  cases exit <;> rfl

/-! ## The phase stays Operating -/

@[simp] theorem phase_send (s : Session) (mk : Nat → BridgeCommand) :
    (s.send mk).phase = s.phase := rfl

theorem phase_sendBody (s : Session) (cmd : TeleopCommand) :
    (s.sendBody cmd).phase = s.phase := by
  simp only [sendBody, phase_send]

theorem phase_driveTeleop (s : Session) (cmd : TeleopCommand) (now : Instant) :
    (s.driveTeleop cmd now).phase = s.phase := by
  have hite (c : Prop) [Decidable c] {u v : Session} (hu : u.phase = v.phase) :
      (if c then u else v).phase = v.phase := by
    split_ifs
    · exact hu
    · rfl
  have hsettle : (s.expireSettle now).phase = s.phase := by
    rw [expireSettle]
    split_ifs <;> rfl
  have hsit : ((s.expireSettle now).endSit cmd).phase = (s.expireSettle now).phase := by
    rw [endSit]
    split_ifs <;> rfl
  simp only [driveTeleop]
  rw [phase_send, hite _ (phase_send _ _), hite _ (phase_sendBody _ cmd), hsit, hsettle]

/-- A Command that is dispatched leaves the handshake where it is. -/
theorem phase_dispatchTeleopCommand (s : Session) (cmd : TeleopCommand)
    (now goalNow settleNow : Instant) :
    (s.dispatchTeleopCommand cmd now goalNow settleNow).1.phase = s.phase := by
  simp only [dispatchTeleopCommand]
  cases (s.arbitrate now goalNow).2 with
  | fullTeleoperation => exact phase_driveTeleop _ cmd settleNow
  | _ => rfl

theorem phase_onBenchCommand (fb : FlatBuffers) (s : Session) (mode : BenchMode)
    (frame : ChannelBFrameData) (wireLen : Nat) (now : Instant) :
    (s.onBenchCommand fb mode frame wireLen now).phase = s.phase := by
  unfold onBenchCommand
  cases TeleopCommand.unpack frame.fields with
  | none => rfl
  | some cmd => cases mode <;> rfl

/-- No datagram moves the handshake. -/
theorem phase_onDatagram (fb : FlatBuffers) (s : Session) (data : Bytes) (clk : Clock) :
    (s.onDatagram fb data clk).phase = s.phase := by
  have hcases := onDatagram_cases fb s data clk
  generalize s.onDatagram fb data clk = t at hcases ⊢
  cases hcases with
  | ignored hadm => rfl
  | @estop d hd hadm => exact congrArg Prod.fst (gate_applyEstop s d (clk.read 0))
  | @benchRaw mode hphase hadm => cases mode <;> rfl
  | heartbeat hphase hadm => rfl
  | benchCommand hphase hadm => exact phase_onBenchCommand fb _ _ _ _ _
  | undecodable hphase hadm => rfl
  | command hadm => exact phase_dispatchTeleopCommand _ _ _ _ _

/-- Nor does an action trigger. -/
theorem phase_onActionTrigger (s : Session) (trigger : ActionTrigger) (clk : Clock) :
    (s.onActionTrigger trigger clk).phase = s.phase := by
  simp only [onActionTrigger]
  split_ifs <;> rfl

/-- Nor does a camera control. -/
theorem phase_onCameraControl (s : Session) (control : CameraControl) :
    (s.onCameraControl control).phase = s.phase := by
  simp only [onCameraControl]
  split_ifs <;> rfl

/-- A session that operates keeps operating, whatever its streams bring. -/
theorem operating_onStreamData (fb : FlatBuffers) {s : Session} (hs : s.phase = .operating)
    (streamId : Nat) (data : Bytes) (clk : Clock) (write : StreamWrite) :
    (s.onStreamData fb streamId data clk write).phase = .operating := by
  have hcases := onStreamData_cases fb s streamId data clk write
  generalize s.onStreamData fb streamId data clk write = t at hcases ⊢
  cases hcases with
  | ignored => exact hs
  | hello hphase => simp [hs] at hphase
  | sessionAccept hphase => rfl
  | @estop d hstream hd => exact (congrArg Prod.fst (gate_applyEstop s d (clk.read 0))).trans hs
  | actionTrigger hphase => exact (phase_onActionTrigger s _ clk).trans hs
  | cameraControl hphase => exact (phase_onCameraControl s _).trans hs

/-- A session that is Operating stays so. -/
theorem operating_step (fb : FlatBuffers) {s : Session} (hs : s.phase = .operating) (e : Event) :
    (s.step fb e).phase = .operating := by
  have hgate {t : Session} (h : t.gate = s.gate) : t.phase = .operating :=
    (congrArg Prod.fst h).trans hs
  rw [step]
  split_ifs
  · exact hs
  · cases e with
    | datagram data clk => exact (phase_onDatagram fb s data clk).trans hs
    | streamData streamId data clk write =>
        simp only [handle]
        split_ifs
        · exact hs
        · exact operating_onStreamData fb hs streamId data clk write
    | tick clk io => exact hgate (gate_onTick fb s clk io)
    | bridgeEvent event => exact hgate (gate_onBridgeEvent s event)
    | autonomySample payload now => exact hs
    | established write => exact hgate (gate_sendHello fb s write)
    | exit exit => exact hgate (gate_finish s exit)

/-! ## The flag waits for Operating -/

/-- Before the handshake is complete a datagram leaves the gate as it was. -/
theorem onDatagram_of_awaiting (fb : FlatBuffers) {s : Session} (hs : s.phase ≠ .operating)
    (data : Bytes) (clk : Clock) : (s.onDatagram fb data clk).gate = s.gate := by
  have hcases := onDatagram_cases fb s data clk
  generalize s.onDatagram fb data clk = t at hcases ⊢
  cases hcases with
  | ignored hadm => rfl
  | @estop d hd hadm => exact gate_applyEstop s d (clk.read 0)
  | benchRaw hphase hadm => exact absurd hphase hs
  | heartbeat hphase hadm => exact absurd hphase hs
  | benchCommand hphase hadm => exact absurd hphase hs
  | undecodable hphase hadm => exact absurd hphase hs
  | command hadm =>
      rw [admittedCommand] at hadm
      cases data with
      | nil => cases hadm
      | cons t payload => simp [untag, hs] at hadm

/-- Before the handshake is complete no stream sets the deadman. -/
theorem deadmanHeld_onStreamData (fb : FlatBuffers) {s : Session} (hs : s.phase ≠ .operating)
    (streamId : Nat) (data : Bytes) (clk : Clock) (write : StreamWrite) :
    (s.onStreamData fb streamId data clk write).safety.deadmanHeld = s.safety.deadmanHeld := by
  have hcases := onStreamData_cases fb s streamId data clk write
  generalize s.onStreamData fb streamId data clk write = t at hcases ⊢
  cases hcases with
  | ignored => rfl
  | hello hphase =>
      rw [onHello]
      cases negotiate s.localHelloCapabilities (decodeHello fb data) with
      | error e => rfl
      | ok negotiated => exact congrArg Prod.snd (gate_sendSessionDescribe _ write)
  | sessionAccept hphase => rfl
  | @estop d hstream hd => exact congrArg Prod.snd (gate_applyEstop s d (clk.read 0))
  | actionTrigger hphase => exact absurd hphase hs
  | cameraControl hphase => exact absurd hphase hs

/-- No step before Operating touches the deadman flag. -/
theorem deadmanHeld_of_awaiting (fb : FlatBuffers) {s : Session} (hs : s.phase ≠ .operating)
    (e : Event) : (s.step fb e).safety.deadmanHeld = s.safety.deadmanHeld := by
  have hgate {t : Session} (h : t.gate = s.gate) :
      t.safety.deadmanHeld = s.safety.deadmanHeld := congrArg Prod.snd h
  rw [step]
  split_ifs
  · rfl
  · cases e with
    | datagram data clk => exact hgate (onDatagram_of_awaiting fb hs data clk)
    | streamData streamId data clk write =>
        simp only [handle]
        split_ifs
        · rfl
        · exact deadmanHeld_onStreamData fb hs streamId data clk write
    | tick clk io => exact hgate (gate_onTick fb s clk io)
    | bridgeEvent event => exact hgate (gate_onBridgeEvent s event)
    | autonomySample payload now => rfl
    | established write => exact hgate (gate_sendHello fb s write)
    | exit exit => exact hgate (gate_finish s exit)

/-- Before Operating no command was accepted, and the safety task has seen no
RTT sample. -/
structure Awaiting (s : Session) : Prop where
  unmeasured : s.view.Unmeasured
  released : s.phase ≠ .operating → s.safety.deadmanHeld = false

/-- A new session has measured and accepted nothing. -/
theorem Awaiting.new (args : ServerArgs) (goal : AutonomyGoal) (t₀ : Instant) :
    (Session.new args goal t₀).Awaiting where
  unmeasured := .new args goal t₀
  released _ := rfl

/-- Whatever arrives, no RTT is measured, and no Command is accepted before Operating. -/
theorem Awaiting.step {s : Session} (h : s.Awaiting) (fb : FlatBuffers) (e : Event) :
    (s.step fb e).Awaiting where
  unmeasured := (step_moves fb s e).inv (fun v m _ hv => hv.apply m) h.unmeasured
  released := by
    intro hnext
    have hs : s.phase ≠ .operating := by
      intro hs
      exact hnext (operating_step fb hs e)
    rw [deadmanHeld_of_awaiting fb hs e]
    exact h.released hs

/-! ## The rule -/

/-- The commands that a step queues. -/
def stepCommands (fb : FlatBuffers) (s : Session) (e : Event) : List BridgeCommand :=
  (s.step fb e).commands.drop s.commands.length

/-- What an event adds to the bridge's queue are the orders of that event. -/
theorem stepCommands_unnumbered (fb : FlatBuffers) (s : Session) (e : Event) :
    (s.stepCommands fb e).map BridgeCommand.unnumbered = s.ordersOf fb e := by
  obtain ⟨new, hnew, horders⟩ := s.step_commands fb e
  rw [stepCommands, hnew, List.drop_left, horders]

/-- Before Operating the step queues nothing that sets the robot in motion. -/
def QuietWhileAwaiting (fb : FlatBuffers) (s : Session) (e : Event) : Prop :=
  s.phase ≠ .operating → ∀ c ∈ s.stepCommands fb e, c.actuates = false

/-- Before Operating no tick finds the E-Stop latch open and the autonomy goal
asserted. -/
def NoGoalWhileAwaiting (s : Session) (e : Event) : Prop :=
  s.phase ≠ .operating → s.ended = none → ∀ clk io, e = .tick clk io →
    (s.safety.poll (clk.read 0)).isEstopped = true ∨ s.autonomyGoal.asserted (clk.read 1) = false

/-- A tick before Operating follows the goal exactly if nothing latches. -/
theorem Awaiting.tickSource {s : Session} (h : s.Awaiting) (hs : s.phase ≠ .operating)
    (clk : Clock) :
    s.tickSource clk = .semiAutonomous ↔
      (s.safety.poll (clk.read 0)).isEstopped = false ∧
        s.autonomyGoal.asserted (clk.read 1) = true := by
  have hsource : s.tickSource clk =
      if (s.safety.poll (clk.read 0)).isEstopped then .eStop
      else if s.safety.deadmanHeld then .fullTeleoperation
      else if s.autonomyGoal.asserted (clk.read 1) then .semiAutonomous
      else .activeImpedanceHold := h.unmeasured.arbitrate_eq _ _
  rw [hsource, h.released hs]
  cases (s.safety.poll (clk.read 0)).isEstopped <;>
    cases s.autonomyGoal.asserted (clk.read 1) <;> simp

/-- Only a tick that follows the goal moves the robot before Operating. -/
theorem actuates_iff_of_awaiting (fb : FlatBuffers) {s : Session} (hs : s.phase ≠ .operating)
    (e : Event) :
    (∃ c ∈ s.ordersOf fb e, c.actuates = true) ↔
      s.ended = none ∧ ∃ clk io, e = .tick clk io ∧ s.tickSource clk = .semiAutonomous := by
  cases hended : s.ended with
  | some exit => simp [ordersOf, hended]
  | none =>
      simp only [ordersOf, hended, Option.isSome_none, Bool.false_eq_true, if_false, true_and]
      cases e with
      | datagram data clk =>
          have hadm : s.admittedCommand fb data = none := by
            cases data with
            | nil => rfl
            | cons t payload => simp [admittedCommand, untag, hs]
          simp [hadm]
      | streamData streamId data clk write => simp [hs]
      | tick clk io =>
          simp only [tickOrders, relayOrders, autonomyOrders]
          by_cases hsemi : s.tickSource clk = .semiAutonomous
          · rw [if_pos hsemi]
            refine ⟨fun _ => ⟨clk, io, rfl, hsemi⟩, fun _ => ?_⟩
            exact ⟨.turn (s.autonomyGoal.readVelocity (clk.read 2)).turn 0, by simp, rfl⟩
          · rw [if_neg hsemi]
            constructor
            · rintro ⟨c, hc, hactuates⟩
              split_ifs at hc <;> simp at hc <;> rcases hc with rfl | rfl | rfl <;>
                simp [BridgeCommand.actuates] at hactuates
            · rintro ⟨clk', io', heq, hsemi'⟩
              cases heq
              exact absurd hsemi' hsemi
      | exit exit => cases exit <;> simp [BridgeCommand.actuates]
      | _ => simp

/-- Before the handshake only a tick with a live goal makes a session speak. -/
theorem Awaiting.quiet_iff {s : Session} (h : s.Awaiting) (fb : FlatBuffers) (e : Event) :
    s.QuietWhileAwaiting fb e ↔ s.NoGoalWhileAwaiting e := by
  have horders : (∀ c ∈ s.stepCommands fb e, c.actuates = false) ↔
      ¬ ∃ c ∈ s.ordersOf fb e, c.actuates = true := by
    rw [← stepCommands_unnumbered]
    simp
  rw [QuietWhileAwaiting, NoGoalWhileAwaiting]
  refine imp_congr_right ?_
  intro hs
  rw [horders, actuates_iff_of_awaiting fb hs]
  constructor
  · rintro hquiet hended clk io rfl
    by_contra hdrives
    rw [not_or, Bool.not_eq_true, Bool.not_eq_false] at hdrives
    exact hquiet ⟨hended, clk, io, rfl, (h.tickSource hs clk).mpr hdrives⟩
  · rintro hidle ⟨hended, clk, io, rfl, hsemi⟩
    obtain ⟨hopen, hasserted⟩ := (h.tickSource hs clk).mp hsemi
    rcases hidle hended clk io rfl with hlatched | hlapsed
    · rw [hopen] at hlatched
      exact Bool.noConfusion hlatched
    · rw [hasserted] at hlapsed
      exact Bool.noConfusion hlapsed

/-- In every run, nothing that moves the robot is queued before Operating. -/
def QuietBeforeOperating (fb : FlatBuffers) (args : ServerArgs) (goal : AutonomyGoal)
    (t₀ : Instant) (es : List Event) : Prop :=
  Along (step fb) (QuietWhileAwaiting fb) (.new args goal t₀) es

instance (fb : FlatBuffers) (s : Session) (e : Event) : Decidable (s.QuietWhileAwaiting fb e) :=
  inferInstanceAs (Decidable (_ → _))

instance (fb : FlatBuffers) (args : ServerArgs) (goal : AutonomyGoal) (t₀ : Instant)
    (es : List Event) : Decidable (QuietBeforeOperating fb args goal t₀ es) :=
  inferInstanceAs (Decidable (Along _ _ _ _))

/-- A run keeps the robot still before Operating exactly if no tick of that time
finds the latch open and the autonomy goal asserted. -/
theorem quietBeforeOperating_iff (fb : FlatBuffers) (args : ServerArgs) (goal : AutonomyGoal)
    (t₀ : Instant) (es : List Event) :
    QuietBeforeOperating fb args goal t₀ es ↔
      Along (step fb) NoGoalWhileAwaiting (.new args goal t₀) es :=
  along_congr (I := Awaiting) (fun _ e hs => hs.step fb e) (fun _ e hs => hs.quiet_iff fb e) es
    (.new args goal t₀)

/-- A goal of 10 mm/s and a tick, with no operator connected yet. -/
def earlyGoalRun : List Event :=
  [.autonomySample [0x41, 0x20, 0, 0, 0, 0, 0, 0, 0, 0, 0, 0] 0,
    .tick (.const 0) { established := false, estopStreamOk := false, captureUs := 0 }]

/-- A goal that is asserted before any HELLO drives the body. -/
theorem quietBeforeOperating_fails_for_earlyGoal :
    ¬ QuietBeforeOperating .fixedLayout sampleArgs (.new 0) 0 earlyGoalRun := by
  decide +kernel

end Session

end RoboTele
