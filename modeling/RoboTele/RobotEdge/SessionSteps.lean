import RoboTele.RobotEdge.Session
import RoboTele.Runs.Machine

/-!
# What a step of the session can do

Two readings of `Session.step` that later modules use in place of its
definition.

`OnDatagram` and `OnStreamData` say which messages a handler acts on and what
it does with each.  `admittedCommand` picks out the one kind of datagram that
reaches the motors.

`Moves` says what a handler does to the safety task, to the E-Stop relay flag
and to the log.  Every step is a list of small moves on these (`SafetyMove`),
and only some events can make it order anything from the bridge, trigger or
clear the E-Stop, or touch the relay (`Permits`).  An invariant of the three
then needs a case for each kind of move and none for the handlers.
-/

namespace RoboTele

open Runs

namespace Session

/-! ## Steps of an ended session -/

/-- A session that ended takes no step. -/
theorem step_of_ended (fb : FlatBuffers) {s : Session} (e : Event) (h : s.ended.isSome = true) :
    s.step fb e = s := by
  rw [step, if_pos h]

/-- A running session handles the event. -/
theorem step_of_running (fb : FlatBuffers) {s : Session} (e : Event)
    (h : s.ended.isSome = false) : s.step fb e = s.handle fb e := by
  rw [step, if_neg (by simp [h])]

/-- A session that runs after a step has run before it. -/
theorem running_of_step (fb : FlatBuffers) {s : Session} {e : Event}
    (h : (s.step fb e).ended.isSome = false) : s.ended.isSome = false := by
  by_contra hended
  rw [Bool.not_eq_false] at hended
  rw [step_of_ended fb e hended, hended] at h
  exact Bool.noConfusion h

/-! ## Datagrams -/

/-- The sequence number and command of a datagram that is handed to
`dispatch_teleop_command`. -/
def admittedCommand (fb : FlatBuffers) (s : Session) (data : Bytes) :
    Option (UInt64 × TeleopCommand) :=
  match untag data with
  | some (tagByte, payload) =>
      let frame := decodeChannelBFrame fb payload
      if s.phase = .operating ∧ s.bench = none ∧ tagByte = datagramTagChannelB ∧
          frame.category = .command then
        (TeleopCommand.unpack frame.fields).map (frame.seq, ·)
      else none
  | none => none

/-- The session after a command was admitted: accepted, then dispatched. -/
def onAdmitted (s : Session) (seq : UInt64) (cmd : TeleopCommand) (clk : Clock) : Session :=
  (((s.acceptCommand seq (clk.read 0)).record (.dispatched seq)).dispatchTeleopCommand cmd
    (clk.read 1) (clk.read 2) (clk.read 3)).1

/-- What `on_datagram` does with a datagram. -/
inductive OnDatagram (fb : FlatBuffers) (s : Session) (data : Bytes) (clk : Clock) :
    Session → Prop where
  | ignored (hadm : s.admittedCommand fb data = none) : OnDatagram fb s data clk s
  | estop {d : EstopDatagram} (hd : EstopDatagram.decode data = some d)
      (hadm : s.admittedCommand fb data = none) :
      OnDatagram fb s data clk ((s.applyEstop d (clk.read 0)).onChannelBActivity (clk.read 1))
  | benchRaw {mode : BenchMode} (hphase : s.phase = .operating)
      (hadm : s.admittedCommand fb data = none) :
      OnDatagram fb s data clk (s.onBenchRaw mode data clk)
  | heartbeat (hphase : s.phase = .operating) (hadm : s.admittedCommand fb data = none) :
      OnDatagram fb s data clk ((s.onChannelBActivity (clk.read 0)).record .heartbeatAccepted)
  | benchCommand {frame : ChannelBFrameData} {mode : BenchMode} {len : Nat}
      (hphase : s.phase = .operating) (hadm : s.admittedCommand fb data = none) :
      OnDatagram fb s data clk
        ((s.acceptCommand frame.seq (clk.read 0)).onBenchCommand fb mode frame len (clk.read 1))
  | undecodable {seq : UInt64} (hphase : s.phase = .operating)
      (hadm : s.admittedCommand fb data = none) :
      OnDatagram fb s data clk (s.acceptCommand seq (clk.read 0))
  | command {seq : UInt64} {cmd : TeleopCommand}
      (hadm : s.admittedCommand fb data = some (seq, cmd)) :
      OnDatagram fb s data clk (s.onAdmitted seq cmd clk)

/-- A datagram with another tag than Channel B's admits no command. -/
theorem admittedCommand_eq_none {fb : FlatBuffers} {s : Session} {data : Bytes}
    (h : data.head? ≠ some datagramTagChannelB) : s.admittedCommand fb data = none := by
  cases data with
  | nil => rfl
  | cons t payload =>
      have ht : t ≠ datagramTagChannelB := by simpa using h
      simp [admittedCommand, untag, ht]

/-- A Channel B frame is dropped, answered, or its Command goes on. -/
theorem onChannelBFrame_cases (fb : FlatBuffers) {s : Session} (payload : Bytes) (clk : Clock)
    (hphase : s.phase = .operating) :
    OnDatagram fb s (tag datagramTagChannelB payload) clk (s.onChannelBFrame fb payload clk) := by
  have hadm : s.admittedCommand fb (tag datagramTagChannelB payload) =
      if s.bench = none ∧ (decodeChannelBFrame fb payload).category = .command then
        (TeleopCommand.unpack (decodeChannelBFrame fb payload).fields).map
          ((decodeChannelBFrame fb payload).seq, ·)
      else none := by
    simp [admittedCommand, hphase]
  rw [onChannelBFrame]
  dsimp only
  by_cases hcat : (decodeChannelBFrame fb payload).category = .command
  · rw [if_pos hcat]
    have hbench (now : Instant) (seq : UInt64) : (s.acceptCommand seq now).bench = s.bench := rfl
    rw [hbench]
    cases hmode : s.bench with
    | some mode => exact .benchCommand hphase (by simp [hadm, hmode])
    | none =>
        cases hcmd : TeleopCommand.unpack (decodeChannelBFrame fb payload).fields with
        | none => exact .undecodable hphase (by simp [hadm, hmode, hcat, hcmd])
        | some cmd => exact .command (by simp [hadm, hmode, hcat, hcmd])
  · rw [if_neg hcat]
    exact .ignored (by simp [hadm, hcat])

/-- What a datagram does, by its tag and its contents. -/
theorem onDatagram_cases (fb : FlatBuffers) (s : Session) (data : Bytes) (clk : Clock) :
    OnDatagram fb s data clk (s.onDatagram fb data clk) := by
  rw [onDatagram]
  split_ifs with hmagic hphase hraw
  · have hadm : s.admittedCommand fb data = none :=
      admittedCommand_eq_none (by rw [hmagic]; decide)
    cases hd : EstopDatagram.decode data with
    | some d => exact .estop hd hadm
    | none => exact .ignored hadm
  · refine .ignored ?_
    cases data with
    | nil => rfl
    | cons t payload => simp [admittedCommand, untag, hphase]
  · have hadm : s.admittedCommand fb data = none :=
      admittedCommand_eq_none (by rw [hraw]; decide)
    cases s.bench with
    | some mode => exact .benchRaw (not_not.mp hphase) hadm
    | none => exact .ignored hadm
  · cases data with
    | nil => exact .ignored rfl
    | cons t payload =>
        simp only [untag]
        split_ifs with hbeat htopic hchannelB
        · exact .heartbeat (not_not.mp hphase) (admittedCommand_eq_none (by simp [hbeat]; decide))
        · exact .ignored (admittedCommand_eq_none (by simp [htopic]; decide))
        · exact .ignored (admittedCommand_eq_none (by simpa using hchannelB))
        · rw [not_not.mp hchannelB]
          exact onChannelBFrame_cases fb payload clk (not_not.mp hphase)

/-- An admitted datagram is accepted and dispatched. -/
theorem onDatagram_of_admitted {fb : FlatBuffers} {s : Session} {data : Bytes} {seq : UInt64}
    {cmd : TeleopCommand} (clk : Clock) (h : s.admittedCommand fb data = some (seq, cmd)) :
    s.onDatagram fb data clk = s.onAdmitted seq cmd clk := by
  have hcases := onDatagram_cases fb s data clk
  generalize s.onDatagram fb data clk = t at hcases ⊢
  cases hcases with
  | command hadm =>
      rw [h] at hadm
      cases hadm
      rfl
  | _ => simp_all

/-! ## Streams -/

/-- What `on_stream_data` does with the bytes of one read. -/
inductive OnStreamData (fb : FlatBuffers) (s : Session) (streamId : Nat) (data : Bytes)
    (clk : Clock) (write : StreamWrite) : Session → Prop where
  | ignored : OnStreamData fb s streamId data clk write s
  | hello (hphase : s.phase = .awaitingHello) :
      OnStreamData fb s streamId data clk write (s.onHello fb data write)
  | sessionAccept (hphase : s.phase = .awaitingSessionAccept) :
      OnStreamData fb s streamId data clk write
        { s with
          selectedSensors := (decodeSessionAccept fb data).selectedSensors
          phase := .operating }
  | estop {d : EstopDatagram} (hstream : streamId = estopStreamId)
      (hd : EstopDatagram.decode data = some d) :
      OnStreamData fb s streamId data clk write (s.applyEstop d (clk.read 0))
  | actionTrigger (hphase : s.phase = .operating) :
      OnStreamData fb s streamId data clk write
        (s.onActionTrigger (decodeActionTrigger fb data) clk)
  | cameraControl (hphase : s.phase = .operating) :
      OnStreamData fb s streamId data clk write
        (s.onCameraControl (decodeCameraControl fb data))

/-- What stream data does, by the stream's id. -/
theorem onStreamData_cases (fb : FlatBuffers) (s : Session) (streamId : Nat) (data : Bytes)
    (clk : Clock) (write : StreamWrite) :
    OnStreamData fb s streamId data clk write (s.onStreamData fb streamId data clk write) := by
  rw [onStreamData]
  split_ifs with hhello haccept hestop haction hcamera
  · exact .hello hhello.2
  · exact .sessionAccept haccept.2
  · cases hd : EstopDatagram.decode data with
    | some d => exact .estop hestop hd
    | none => exact .ignored
  · exact .actionTrigger haction.2
  · exact .cameraControl hcamera.2
  · exact .ignored

/-! ## Moves on the safety task and the log -/

end Session

/-- The log entry is no arbitration, no E-Stop edge, no accepted, dispatched or
queued command, and no end of a tick. -/
def Act.quiet : Act → Bool
  | .arbitrated _ | .estopTriggered | .estopCleared | .commandAccepted _ | .dispatched _
  | .queued _ | .tickDone _ => false
  | _ => true

/-- The safety task of a session, its E-Stop relay flag and its log. -/
structure SafetyView where
  safety : SafetyTask
  /-- `bridge_estop_active`. -/
  relaying : Bool
  log : List Act

/-- What the safety moves read and write of a session. -/
def Session.view (s : Session) : SafetyView :=
  { safety := s.safety, relaying := s.bridgeEstopActive, log := s.log }

/-- One small change of the safety task, with the entry it leaves in the log. -/
inductive SafetyMove where
  | note (a : {a : Act // a.quiet = true})
  | activity (now : Instant)
  | accept (seq : UInt64)
  | arbitrate (now : Instant) (asserted : Bool)
  | dispatch (seq : UInt64)
  | order (cmd : BridgeCommand)
  | trigger
  | clear (now : Instant)
  | relay (active : Bool)
  | done (i : ArbitrationInputs)

namespace SafetyMove

/-- What a move changes. -/
def apply (v : SafetyView) : SafetyMove → SafetyView
  | note a => { v with log := v.log ++ [a.1] }
  | activity now => { v with safety := v.safety.onChannelBActivity none now }
  | accept seq =>
      { v with
        safety := { v.safety with deadmanHeld := true, commandFresh := true }
        log := v.log ++ [.commandAccepted seq] }
  | arbitrate now asserted =>
      { v with
        safety := v.safety.poll now
        log := v.log ++ [.arbitrated ((v.safety.poll now).inputs asserted)] }
  | dispatch seq => { v with log := v.log ++ [.dispatched seq] }
  | order cmd => { v with log := v.log ++ [.queued cmd] }
  | trigger =>
      { v with safety := v.safety.triggerExplicitEstop, log := v.log ++ [.estopTriggered] }
  | clear now =>
      { v with safety := v.safety.clearExplicitEstop now, log := v.log ++ [.estopCleared] }
  | relay active => { v with relaying := active }
  | done i => { v with log := v.log ++ [.tickDone i] }

/-- The moves any event may cause. -/
def ordinary : SafetyMove → Bool
  | dispatch _ | order _ | trigger | clear _ | relay _ | done _ => false
  | _ => true

end SafetyMove

namespace Session

/-- `t` comes from `s` by ordinary moves and moves in `A`. -/
def Moves (A : SafetyMove → Prop) (s t : Session) : Prop :=
  ∃ ms : List SafetyMove, (∀ m ∈ ms, m.ordinary = true ∨ A m) ∧
    t.view = exec SafetyMove.apply s.view ms

namespace Moves

variable {A : SafetyMove → Prop} {s t u : Session}

theorem refl (A : SafetyMove → Prop) (s : Session) : Moves A s s := ⟨[], by simp, rfl⟩

theorem trans (hst : Moves A s t) (htu : Moves A t u) : Moves A s u := by
  obtain ⟨ms, hms, ht⟩ := hst
  obtain ⟨ns, hns, hu⟩ := htu
  refine ⟨ms ++ ns, ?_, by rw [exec_append, ← ht, hu]⟩
  intro m hm
  exact (List.mem_append.mp hm).elim (hms m) (hns m)

/-- Other fields of the session do not matter. -/
theorem frame (h : Moves A s t) (hu : u.view = t.view) : Moves A s u := by
  obtain ⟨ms, hms, ht⟩ := h
  exact ⟨ms, hms, hu.trans ht⟩

/-- One more move of the safety task. -/
theorem move (m : SafetyMove) (hm : m.ordinary = true ∨ A m) (h : Moves A s t)
    (hu : u.view = m.apply t.view) : Moves A s u :=
  h.trans ⟨[m], by simpa using hm, by rw [hu]; rfl⟩

/-- What every move allowed keeps, the whole keeps. -/
theorem inv {I : SafetyView → Prop} (h : Moves A s t)
    (hmove : ∀ v m, m.ordinary = true ∨ A m → I v → I (m.apply v)) (hs : I s.view) : I t.view := by
  obtain ⟨ms, hms, hview⟩ := h
  rw [hview]
  clear hview
  generalize s.view = v at hs
  induction ms generalizing v with
  | nil => exact hs
  | cons m ms ih =>
      exact ih (fun n hn => hms n (List.mem_cons_of_mem _ hn)) (m.apply v)
        (hmove v m (hms m (List.mem_cons_self ..)) hs)

/-- A quiet act may always be noted. -/
theorem record (h : Moves A s t) {a : Act} (ha : a.quiet = true) : Moves A s (t.record a) :=
  h.move (.note ⟨a, ha⟩) (Or.inl rfl) rfl

/-- An order to the bridge is a move. -/
theorem send (h : Moves A s t) (mk : Nat → BridgeCommand) (hA : ∀ cmd, A (.order cmd)) :
    Moves A s (t.send mk) :=
  h.move (.order (mk (t.channelBSeq + 1))) (Or.inr (hA _)) rfl

theorem onChannelBActivity (h : Moves A s t) (now : Instant) :
    Moves A s (t.onChannelBActivity now) :=
  h.move (.activity now) (Or.inl rfl) rfl

theorem arbitrate (h : Moves A s t) (now goalNow : Instant) :
    Moves A s (t.arbitrate now goalNow).1 :=
  h.move (.arbitrate now (t.autonomyGoal.asserted goalNow)) (Or.inl rfl) rfl

theorem acceptCommand (h : Moves A s t) (seq : UInt64) (now : Instant) :
    Moves A s (t.acceptCommand seq now) :=
  (h.onChannelBActivity now).move (.accept seq) (Or.inl rfl) rfl

/-- A Command that is dispatched is a move. -/
theorem dispatched (h : Moves A s t) {seq : UInt64} (hA : A (.dispatch seq)) :
    Moves A s (t.record (.dispatched seq)) :=
  h.move (.dispatch seq) (Or.inr hA) rfl

/-- The latch of an explicit E-Stop is a move. -/
theorem triggerExplicitEstop (h : Moves A s t) (hA : A .trigger) :
    Moves A s t.triggerExplicitEstop :=
  h.move .trigger (Or.inr hA) rfl

/-- An E-Stop datagram latches or clears, and either is a move. -/
theorem applyEstop (h : Moves A s t) (d : EstopDatagram) (now : Instant)
    (htrigger : d.latched = true → A .trigger) (hclear : d.latched = false → A (.clear now)) :
    Moves A s (t.applyEstop d now) := by
  rw [Session.applyEstop]
  split_ifs with hlatched
  · exact h.triggerExplicitEstop (htrigger hlatched)
  · exact h.move (.clear now) (Or.inr (hclear (by simpa using hlatched))) rfl

theorem ite (ht : Moves A s t) (hu : Moves A s u) (c : Prop) [Decidable c] :
    Moves A s (if c then t else u) := by
  split_ifs
  · exact ht
  · exact hu

/-! ### Handlers -/

theorem sendBody (h : Moves A s t) (cmd : TeleopCommand) (hA : ∀ cmd, A (.order cmd)) :
    Moves A s (t.sendBody cmd) :=
  ((((h.send _ hA).send _ hA).send _ hA).send _ hA).send _ hA

theorem driveTeleop (h : Moves A s t) (cmd : TeleopCommand) (now : Instant)
    (hA : ∀ cmd, A (.order cmd)) : Moves A s (t.driveTeleop cmd now) := by
  have hflags : Moves A s ((t.expireSettle now).endSit cmd) := by
    rw [Session.endSit, Session.expireSettle]
    split_ifs <;> exact h.frame rfl
  have hbody := (hflags.sendBody cmd hA).ite hflags
  have harm {u : Session} (hu : Moves A s u) (c : Prop) [Decidable c] :=
    (hu.send (.arm cmd.armX cmd.armZ) hA).ite hu c
  exact (harm (hbody _) _).send _ hA

/-- The orders of a Command are moves. -/
theorem dispatchTeleopCommand (h : Moves A s t) (cmd : TeleopCommand)
    (now goalNow settleNow : Instant) (hA : ∀ cmd, A (.order cmd)) :
    Moves A s (t.dispatchTeleopCommand cmd now goalNow settleNow).1 := by
  have harb := h.arbitrate now goalNow
  rw [Session.dispatchTeleopCommand]
  dsimp only
  cases (t.arbitrate now goalNow).2 with
  | fullTeleoperation => exact harb.driveTeleop cmd settleNow hA
  | eStop => exact harb.send .stop hA
  | emergencySafeParking => exact harb.send .stop hA
  | activeImpedanceHold => exact harb.send .stop hA
  | semiAutonomous => exact harb

theorem onBenchCommand (h : Moves A s t) (fb : FlatBuffers) (mode : BenchMode)
    (frame : ChannelBFrameData) (len : Nat) (now : Instant) :
    Moves A s (t.onBenchCommand fb mode frame len now) := by
  unfold Session.onBenchCommand
  cases TeleopCommand.unpack frame.fields with
  | none => exact h
  | some _ =>
      cases mode with
      | echo => exact h.record rfl
      | count => exact h.frame rfl
      | send => exact h.frame rfl

theorem onBenchRaw (h : Moves A s t) (mode : BenchMode) (data : Bytes) (clk : Clock) :
    Moves A s (t.onBenchRaw mode data clk) := by
  cases mode with
  | echo => exact (h.onChannelBActivity _).record rfl
  | count => exact (h.onChannelBActivity _).frame rfl
  | send => exact (h.onChannelBActivity _).frame rfl

theorem sendSessionDescribe (h : Moves A s t) (write : StreamWrite) :
    Moves A s (t.sendSessionDescribe write) := by
  rw [Session.sendSessionDescribe]
  dsimp only
  split_ifs with hsent
  · exact h
  · have hsend : Moves A s (t.record (.sentStream 1 t.describe)) := h.record rfl
    cases write with
    | written n =>
        dsimp only
        split_ifs <;> exact hsend.frame rfl
    | done => exact hsend
    | error => exact hsend.frame rfl

theorem onHello (h : Moves A s t) (fb : FlatBuffers) (data : Bytes) (write : StreamWrite) :
    Moves A s (t.onHello fb data write) := by
  rw [Session.onHello]
  split
  · apply sendSessionDescribe
    exact h.frame rfl
  · exact h

theorem onActionTrigger (h : Moves A s t) (trigger : ActionTrigger) (clk : Clock)
    (hA : ∀ cmd, A (.order cmd)) : Moves A s (t.onActionTrigger trigger clk) := by
  rw [Session.onActionTrigger]
  dsimp only
  split_ifs
  · exact h.frame rfl
  all_goals
    have harb := arbitrate
      (h.frame (u := { t with triggerDedup := (t.triggerDedup.accept trigger).1 }) rfl)
      (clk.read 0) (clk.read 1)
    first
      | exact harb
      | exact (harb.send _ hA).frame rfl

theorem onCameraControl (h : Moves A s t) (control : CameraControl) :
    Moves A s (t.onCameraControl control) := by
  rw [Session.onCameraControl]
  dsimp only
  split_ifs
  · exact h.frame rfl
  · exact record (h.frame rfl) rfl

/-- A report of the latch to the operator is quiet. -/
theorem reportEstop (h : Moves A s t) (latched : Bool) (io : TickIo) :
    Moves A s (t.reportEstop latched io) := by
  rw [Session.reportEstop]
  dsimp only
  split_ifs
  all_goals
    first
      | exact (h.record (a := .sentDatagram _) rfl).frame rfl
      | exact ((h.record (a := .sentDatagram _) rfl).record (a := .sentStream _ _) rfl).frame rfl

/-- A relay to the bridge is a move, with its orders. -/
theorem relayEstop (h : Moves A s t) (source : ControlSource) (hA : ∀ cmd, A (.order cmd))
    (hrelay : ∀ active, A (.relay active)) : Moves A s (t.relayEstop source) := by
  rw [Session.relayEstop]
  split_ifs
  · exact send (h.move (.relay true) (Or.inr (hrelay true)) rfl) _ hA
  · exact send (h.move (.relay false) (Or.inr (hrelay false)) rfl) _ hA
  · exact h

theorem driveAutonomy (h : Moves A s t) (source : ControlSource) (goalNow : Instant)
    (hA : ∀ cmd, A (.order cmd)) : Moves A s (t.driveAutonomy source goalNow) := by
  rw [Session.driveAutonomy]
  split_ifs
  · exact (h.send _ hA).send _ hA
  · exact h

theorem sendTelemetry (h : Moves A s t) (fb : FlatBuffers) (captureUs : UInt64) :
    Moves A s (t.sendTelemetry fb captureUs) :=
  (h.record (a := .sentDatagram _) rfl).frame rfl

theorem countTick (h : Moves A s t) (now : Instant) : Moves A s (t.countTick now) :=
  h.frame rfl

/-- What a tick may do. -/
theorem onTick (h : Moves A s t) (fb : FlatBuffers) (clk : Clock) (io : TickIo)
    (hA : ∀ cmd, A (.order cmd)) (hrelay : ∀ active, A (.relay active)) (hdone : ∀ i, A (.done i)) :
    Moves A s (t.onTick fb clk io) := by
  have hquery {u : Session} (hu : Moves A s u) (c : Prop) [Decidable c] :=
    (hu.send .query hA).ite hu c
  have htelemetry {u : Session} (hu : Moves A s u) (c : Prop) [Decidable c] :=
    (hu.sendTelemetry fb io.captureUs).ite hu c
  have harb := (h.countTick (clk.read 0)).arbitrate (clk.read 0) (clk.read 1)
  have hstop (latched : Bool) (source : ControlSource) :=
    ((harb.reportEstop latched io).send .heartbeat hA).relayEstop source hA hrelay
  exact (htelemetry (hquery ((hstop _ _).driveAutonomy _ _ hA) _) _).move (.done _)
    (Or.inr (hdone _)) rfl

end Moves

/-! ## Steps -/

/-- The E-Stop message an event delivers. -/
def Event.estopMessage? : Event → Option EstopDatagram
  | .datagram data _ => EstopDatagram.decode data
  | .streamData streamId data _ _ =>
      if streamId = estopStreamId then EstopDatagram.decode data else none
  | _ => none

/-- The event reports that the bridge process is gone. -/
def Event.bridgeDeath : Event → Bool
  | .bridgeEvent (.processDied _ _) | .bridgeEvent .gaveUp => true
  | _ => false

/-- The event may order something from the bridge. -/
def Event.mayOrder : Event → Bool
  | .datagram _ _ | .streamData _ _ _ _ | .tick _ _ | .exit .shutdown => true
  | _ => false

/-- The moves an event may cause beyond the ordinary ones: a trigger needs a
stop message or a bridge death, a clear needs a clear message, only a datagram
is dispatched, and only a tick relays. -/
def Permits (e : Event) : SafetyMove → Prop
  | .trigger => e.estopMessage?.any (·.latched) ∨ e.bridgeDeath = true
  | .clear _ => e.estopMessage?.any (!·.latched)
  | .dispatch _ => ∃ data clk, e = .datagram data clk
  | .order _ => e.mayOrder = true
  | .relay _ | .done _ => ∃ clk io, e = .tick clk io
  | _ => False

namespace Moves

variable {e : Event} {s t : Session}

/-- A delivered message permits what it asks for. -/
theorem deliver (h : Moves (Permits e) s t) {d : EstopDatagram} (he : e.estopMessage? = some d)
    (now : Instant) : Moves (Permits e) s (t.applyEstop d now) :=
  h.applyEstop d now (fun hlatched => Or.inl (by simp [he, hlatched]))
    (fun hclear => by simp [Permits, he, hclear])

/-- What a datagram may do. -/
theorem onDatagram {fb : FlatBuffers} {data : Bytes} {clk : Clock}
    (h : OnDatagram fb s data clk t) : Moves (Permits (.datagram data clk)) s t := by
  have hrefl := Moves.refl (Permits (.datagram data clk)) s
  cases h with
  | ignored _ => exact hrefl
  | estop hd _ => exact (hrefl.deliver hd _).onChannelBActivity _
  | benchRaw _ _ => exact hrefl.onBenchRaw _ _ _
  | heartbeat _ _ => exact (hrefl.onChannelBActivity _).record rfl
  | benchCommand _ _ => exact (hrefl.acceptCommand _ _).onBenchCommand _ _ _ _ _
  | undecodable _ _ => exact hrefl.acceptCommand _ _
  | command _ =>
      exact ((hrefl.acceptCommand _ _).dispatched ⟨_, _, rfl⟩).dispatchTeleopCommand _ _ _ _
        fun _ => rfl

/-- What stream data may do. -/
theorem onStreamData {fb : FlatBuffers} {streamId : Nat} {data : Bytes} {clk : Clock}
    {write : StreamWrite} (h : OnStreamData fb s streamId data clk write t) :
    Moves (Permits (.streamData streamId data clk write)) s t := by
  have hrefl := Moves.refl (Permits (.streamData streamId data clk write)) s
  cases h with
  | ignored => exact hrefl
  | hello _ => exact hrefl.onHello fb data write
  | sessionAccept _ => exact hrefl.frame rfl
  | estop hstream hd => exact hrefl.deliver (by simp [Event.estopMessage?, hstream, hd]) _
  | actionTrigger _ => exact hrefl.onActionTrigger _ clk fun _ => rfl
  | cameraControl _ => exact hrefl.onCameraControl _

/-- What an event of the supervisor may do. -/
theorem onBridgeEvent (s : Session) (event : SupervisorEvent) :
    Moves (Permits (.bridgeEvent event)) s (s.onBridgeEvent event) := by
  have hrefl := Moves.refl (Permits (.bridgeEvent event)) s
  cases event with
  | fromBridge ev =>
      cases ev with
      | telemetry => exact hrefl.frame rfl
      | ack => exact hrefl
      | status => exact hrefl
      | log => exact hrefl
  | processDied => exact hrefl.triggerExplicitEstop (Or.inr rfl)
  | gaveUp => exact hrefl.triggerExplicitEstop (Or.inr rfl)

/-- A session that ends orders a stop only at a shutdown. -/
theorem finish {A : SafetyMove → Prop} (h : Moves A s t) (exit : Exit)
    (hA : exit = .shutdown → ∀ cmd, A (.order cmd)) : Moves A s (t.finish exit) := by
  cases exit with
  | closed => exact h.frame rfl
  | error => exact h.frame rfl
  | shutdown => exact ((h.send .stop (hA rfl)).send .estop (hA rfl)).frame rfl

theorem sendHello {A : SafetyMove → Prop} (h : Moves A s t) (fb : FlatBuffers)
    (write : StreamWrite) : Moves A s (t.sendHello fb write) := by
  rw [Session.sendHello]
  dsimp only
  split_ifs
  · exact h
  · cases write with
    | written n => exact (h.record (a := .sentStream _ _) rfl).frame rfl
    | done => exact (h.record (a := .sentStream _ _) rfl).frame rfl
    | error => exact h.record rfl

end Moves

/-- Every step is made of ordinary moves and of moves its event permits. -/
theorem step_moves (fb : FlatBuffers) (s : Session) (e : Event) :
    Moves (Permits e) s (s.step fb e) := by
  have hrefl := Moves.refl (Permits e) s
  rw [step]
  split_ifs
  · exact hrefl
  · cases e with
    | datagram data clk => exact .onDatagram (onDatagram_cases fb s data clk)
    | streamData streamId data clk write =>
        unfold handle
        dsimp only
        split_ifs
        · exact hrefl
        · exact .onStreamData (onStreamData_cases fb s streamId data clk write)
    | tick clk io =>
        exact hrefl.onTick fb clk io (fun _ => rfl) (fun _ => ⟨clk, io, rfl⟩)
          fun _ => ⟨clk, io, rfl⟩
    | bridgeEvent event => exact .onBridgeEvent s event
    | autonomySample payload now => exact hrefl.frame rfl
    | established write => exact hrefl.sendHello fb write
    | exit exit => exact hrefl.finish exit (by rintro rfl _; rfl)

end Session

end RoboTele
