import RoboTele.RobotEdge.Rest

/-!
# Sitting, and settling into an action

Two holds keep motion off the bridge.  `sitting` is set by a sit and stays until
a stand, or until the operator asks the body to move.  `action_settle_until` is
a deadline that a sit or a stand sets for the gait it starts.  `posture` is the
pair of the two, and `posture_step` says how a step changes it.

`SitHeld` and `SettleHeld` are the two rules.  Command dispatch obeys them by
the holds themselves.  The tick's autonomy path looks at neither: it is shut for
a seated robot because a sit is only accepted from an operator who drives, and
an operator who has once driven is never ranked below the autonomy goal.
-/

namespace RoboTele

open Runs Past

namespace BridgeCommand

/-- `Move`, `Turn` and `Attitude`. -/
def posesBody : BridgeCommand → Bool
  | move _ _ _ | turn _ _ | attitude _ _ _ => true
  | _ => false

/-- A command for the arm. -/
def isArm : BridgeCommand → Bool
  | arm _ _ _ => true
  | _ => false

end BridgeCommand

/-! ## Posture -/

/-- What holds the body back. -/
structure Posture where
  sitting : Bool
  settleUntil : Option Instant
deriving DecidableEq

namespace Posture

/-- A driving command at `now` forgets a deadline that has passed, and ends a
sit if it moves. -/
def drive (p : Posture) (cmd : TeleopCommand) (now : Instant) : Posture :=
  { sitting := p.sitting && cmd.isIdle
    settleUntil := p.settleUntil.filter (now < ·) }

/-- An action fired at `now`. -/
def act (p : Posture) (actionId : UInt8) (now : Instant) : Posture :=
  { sitting := actionId = sitActionId || p.sitting && actionId ≠ standActionId
    settleUntil :=
      if actionId = standActionId ∨ actionId = sitActionId then some (now + actionSettleDuration)
      else p.settleUntil }

end Posture

namespace Session

/-- What the session remembers of the last action. -/
def posture (s : Session) : Posture :=
  { sitting := s.sitting, settleUntil := s.actionSettleUntil }

/-! ### Operations that leave the posture alone -/

@[simp] theorem posture_record (s : Session) (a : Act) : (s.record a).posture = s.posture := rfl

@[simp] theorem posture_send (s : Session) (mk : Nat → BridgeCommand) :
    (s.send mk).posture = s.posture := rfl

@[simp] theorem posture_arbitrate (s : Session) (now goalNow : Instant) :
    (s.arbitrate now goalNow).1.posture = s.posture := rfl

theorem posture_acceptCommand (s : Session) (seq : UInt64) (now : Instant) :
    (s.acceptCommand seq now).posture = s.posture := rfl

theorem posture_applyEstop (s : Session) (d : EstopDatagram) (now : Instant) :
    (s.applyEstop d now).posture = s.posture := by
  rw [applyEstop]
  split_ifs <;> rfl

theorem posture_onBenchRaw (s : Session) (mode : BenchMode) (data : Bytes) (clk : Clock) :
    (s.onBenchRaw mode data clk).posture = s.posture := by
  cases mode <;> rfl

theorem posture_onBenchCommand (fb : FlatBuffers) (s : Session) (mode : BenchMode)
    (frame : ChannelBFrameData) (wireLen : Nat) (now : Instant) :
    (s.onBenchCommand fb mode frame wireLen now).posture = s.posture := by
  unfold onBenchCommand
  cases TeleopCommand.unpack frame.fields with
  | none => rfl
  | some cmd => cases mode <;> rfl

theorem posture_sendSessionDescribe (s : Session) (write : StreamWrite) :
    (s.sendSessionDescribe write).posture = s.posture := by
  rw [sendSessionDescribe]
  split_ifs
  · rfl
  · cases write with
    | written n =>
        dsimp only
        split_ifs <;> rfl
    | done => rfl
    | error => rfl

theorem posture_onHello (fb : FlatBuffers) (s : Session) (data : Bytes) (write : StreamWrite) :
    (s.onHello fb data write).posture = s.posture := by
  rw [onHello]
  cases negotiate s.localHelloCapabilities (decodeHello fb data) with
  | ok negotiated => exact posture_sendSessionDescribe _ write
  | error e => rfl

theorem posture_onCameraControl (s : Session) (control : CameraControl) :
    (s.onCameraControl control).posture = s.posture := by
  simp only [onCameraControl]
  split_ifs <;> rfl

theorem posture_reportEstop (s : Session) (latched : Bool) (io : TickIo) :
    (s.reportEstop latched io).posture = s.posture := by
  simp only [reportEstop]
  split_ifs <;> rfl

theorem posture_relayEstop (s : Session) (source : ControlSource) :
    (s.relayEstop source).posture = s.posture := by
  rw [relayEstop]
  split_ifs <;> rfl

theorem posture_driveAutonomy (s : Session) (source : ControlSource) (goalNow : Instant) :
    (s.driveAutonomy source goalNow).posture = s.posture := by
  rw [driveAutonomy]
  split_ifs <;> rfl

/-- No tick changes the posture. -/
theorem posture_onTick (fb : FlatBuffers) (s : Session) (clk : Clock) (io : TickIo) :
    (s.onTick fb clk io).posture = s.posture := by
  have hite (c : Prop) [Decidable c] {u v : Session} (hu : u.posture = v.posture) :
      (if c then u else v).posture = v.posture := by
    split_ifs
    · exact hu
    · rfl
  have htelemetry (u : Session) : (u.sendTelemetry fb io.captureUs).posture = u.posture := rfl
  have hcount : (s.countTick (clk.read 0)).posture = s.posture := rfl
  simp only [onTick]
  rw [posture_record, hite _ (htelemetry _), hite _ (posture_send _ _), posture_driveAutonomy,
    posture_relayEstop, posture_send, posture_reportEstop, posture_arbitrate, hcount]

theorem posture_onBridgeEvent (s : Session) (event : SupervisorEvent) :
    (s.onBridgeEvent event).posture = s.posture := by
  cases event with
  | fromBridge event => cases event <;> rfl
  | processDied attempt willRetry => rfl
  | gaveUp => rfl

theorem posture_sendHello (fb : FlatBuffers) (s : Session) (write : StreamWrite) :
    (s.sendHello fb write).posture = s.posture := by
  rw [sendHello]
  split_ifs
  · rfl
  · cases write <;> rfl

theorem posture_finish (s : Session) (exit : Exit) : (s.finish exit).posture = s.posture := by
  cases exit <;> rfl

/-! ### Commands and actions -/

/-- A settling time that is over is forgotten. -/
theorem posture_expireSettle (s : Session) (now : Instant) :
    (s.expireSettle now).posture =
      { s.posture with settleUntil := s.posture.settleUntil.filter (now < ·) } := by
  rw [expireSettle]
  cases hdeadline : s.actionSettleUntil with
  | none => simp [posture, hdeadline]
  | some deadline =>
      by_cases hlt : now < deadline
      · simp [posture, settling, hdeadline, hlt, Option.filter]
      · simp [posture, settling, hdeadline, hlt, Option.filter]

/-- A Command that is not idle ends the sitting. -/
theorem posture_endSit (s : Session) (cmd : TeleopCommand) :
    (s.endSit cmd).posture = { s.posture with sitting := s.posture.sitting && cmd.isIdle } := by
  rw [endSit]
  cases hsit : s.sitting <;> cases hidle : cmd.isIdle <;> simp [posture, hsit]

theorem posture_sendBody (s : Session) (cmd : TeleopCommand) :
    (s.sendBody cmd).posture = s.posture := by
  simp only [sendBody, posture_send]

/-- A driving Command does to the posture what `Posture.drive` says. -/
theorem posture_driveTeleop (s : Session) (cmd : TeleopCommand) (now : Instant) :
    (s.driveTeleop cmd now).posture = s.posture.drive cmd now := by
  have hite (c : Prop) [Decidable c] {u v : Session} (hu : u.posture = v.posture) :
      (if c then u else v).posture = v.posture := by
    split_ifs
    · exact hu
    · rfl
  simp only [driveTeleop]
  rw [posture_send, hite _ (posture_send _ _), hite _ (posture_sendBody _ cmd), posture_endSit,
    posture_expireSettle]
  rfl

/-- The command that a step hands to the body under Full Teleoperation, and the
reading of the clock that the settle deadline is compared with. -/
def driven? (fb : FlatBuffers) (s : Session) (e : Event) : Option (TeleopCommand × Instant) :=
  match e with
  | .datagram data clk =>
      if s.ended.isSome then none
      else
        match s.admittedCommand fb data with
        | some (seq, cmd) =>
            if s.commandSource seq clk = .fullTeleoperation then some (cmd, clk.read 3) else none
        | none => none
  | _ => none

/-- The action that a step accepts and queues, and the reading of the clock that
its settle deadline is counted from. -/
def acted? (fb : FlatBuffers) (s : Session) (e : Event) : Option (UInt8 × Instant) :=
  match e with
  | .streamData streamId data clk _ =>
      let trigger := decodeActionTrigger fb data
      if s.ended = none ∧ streamId = actionTriggerStreamId ∧ s.phase = .operating ∧
          (s.triggerDedup.accept trigger).2 = true ∧
          (s.arbitrate (clk.read 0) (clk.read 1)).2 = .fullTeleoperation then
        some (trigger.actionId, clk.read 2)
      else none
  | _ => none

/-- Only an admitted Command in a datagram drives, under full teleoperation. -/
theorem eq_of_driven {fb : FlatBuffers} {s : Session} {e : Event} {cmd : TeleopCommand}
    {now : Instant} (h : s.driven? fb e = some (cmd, now)) :
    ∃ data clk seq, e = .datagram data clk ∧ now = clk.read 3 ∧ s.ended.isSome = false ∧
      s.admittedCommand fb data = some (seq, cmd) ∧
      s.commandSource seq clk = .fullTeleoperation := by
  cases e with
  | datagram data clk =>
      simp only [driven?] at h
      split_ifs at h with hended
      cases hadm : s.admittedCommand fb data with
      | none => simp [hadm] at h
      | some admitted =>
          simp only [hadm] at h
          split_ifs at h with hfull
          cases h
          exact ⟨data, clk, admitted.1, rfl, rfl, by simpa using hended, hadm, hfull⟩
  | _ => cases h

/-- Only an accepted action trigger acts, while the session operates. -/
theorem eq_of_acted {fb : FlatBuffers} {s : Session} {e : Event} {actionId : UInt8}
    {now : Instant} (h : s.acted? fb e = some (actionId, now)) :
    ∃ data clk write, e = .streamData actionTriggerStreamId data clk write ∧ now = clk.read 2 ∧
      s.ended = none ∧ s.phase = .operating ∧ actionId = (decodeActionTrigger fb data).actionId ∧
      (s.triggerDedup.accept (decodeActionTrigger fb data)).2 = true ∧
      (s.arbitrate (clk.read 0) (clk.read 1)).2 = .fullTeleoperation := by
  cases e with
  | streamData streamId data clk write =>
      simp only [acted?] at h
      split_ifs at h with hcond
      obtain ⟨hended, rfl, hphase, hnew, hfull⟩ := hcond
      cases h
      exact ⟨data, clk, write, rfl, rfl, hended, hphase, rfl, hnew, hfull⟩
  | _ => cases h

/-- The posture after a step. -/
def postureOf (fb : FlatBuffers) (s : Session) (e : Event) : Posture :=
  match s.driven? fb e, s.acted? fb e with
  | some (cmd, now), _ => s.posture.drive cmd now
  | none, some (actionId, now) => s.posture.act actionId now
  | none, none => s.posture

theorem posture_dispatchTeleopCommand (s : Session) (cmd : TeleopCommand)
    (now goalNow settleNow : Instant) :
    (s.dispatchTeleopCommand cmd now goalNow settleNow).1.posture =
      if (s.arbitrate now goalNow).2 = .fullTeleoperation then s.posture.drive cmd settleNow
      else s.posture := by
  rw [dispatchTeleopCommand]
  dsimp only
  cases (s.arbitrate now goalNow).2 with
  | fullTeleoperation =>
      rw [if_pos rfl]
      exact posture_driveTeleop _ cmd _
  | semiAutonomous => rfl
  | _ =>
      rw [if_neg (by decide)]
      exact posture_send _ _

/-- An admitted Command moves the posture under full teleoperation only. -/
theorem posture_onAdmitted (s : Session) (seq : UInt64) (cmd : TeleopCommand) (clk : Clock) :
    (s.onAdmitted seq cmd clk).posture =
      if s.commandSource seq clk = .fullTeleoperation then s.posture.drive cmd (clk.read 3)
      else s.posture :=
  posture_dispatchTeleopCommand ((s.acceptCommand seq (clk.read 0)).record (.dispatched seq)) cmd
    (clk.read 1) (clk.read 2) (clk.read 3)

/-- Of the datagrams, those with an admitted Command move the posture. -/
theorem posture_onDatagram (fb : FlatBuffers) (s : Session) (data : Bytes) (clk : Clock) :
    (s.onDatagram fb data clk).posture =
      match s.admittedCommand fb data with
      | some (seq, cmd) =>
          if s.commandSource seq clk = .fullTeleoperation then s.posture.drive cmd (clk.read 3)
          else s.posture
      | none => s.posture := by
  have hcases := onDatagram_cases fb s data clk
  generalize s.onDatagram fb data clk = t at hcases ⊢
  cases hcases with
  | command hadm => rw [hadm, posture_onAdmitted]
  | ignored hadm => rw [hadm]
  | estop hd hadm =>
      rw [hadm]
      exact posture_applyEstop s _ _
  | benchRaw hphase hadm =>
      rw [hadm]
      exact posture_onBenchRaw s _ _ _
  | heartbeat hphase hadm =>
      rw [hadm]
      rfl
  | benchCommand hphase hadm =>
      rw [hadm, posture_onBenchCommand]
      exact posture_acceptCommand s _ _
  | undecodable hphase hadm =>
      rw [hadm]
      exact posture_acceptCommand s _ _

/-- A new action trigger moves the posture under full teleoperation only. -/
theorem posture_onActionTrigger (s : Session) (trigger : ActionTrigger) (clk : Clock) :
    (s.onActionTrigger trigger clk).posture =
      if (s.triggerDedup.accept trigger).2 = true ∧
          (s.arbitrate (clk.read 0) (clk.read 1)).2 = .fullTeleoperation then
        s.posture.act trigger.actionId (clk.read 2)
      else s.posture := by
  have hsource (d : TriggerDedup) :
      ({ s with triggerDedup := d }.arbitrate (clk.read 0) (clk.read 1)).2 =
        (s.arbitrate (clk.read 0) (clk.read 1)).2 := rfl
  have hstand : standActionId ≠ sitActionId := by decide
  simp only [onActionTrigger]
  rw [hsource]
  cases (s.triggerDedup.accept trigger).2 with
  | false => rfl
  | true =>
      by_cases hfull : (s.arbitrate (clk.read 0) (clk.read 1)).2 = .fullTeleoperation
      · have hsent : (({ s with triggerDedup := (s.triggerDedup.accept trigger).1 }.arbitrate
            (clk.read 0) (clk.read 1)).1.send (.action trigger.actionId)).posture = s.posture := rfl
        simp only [hfull, Bool.not_true, Bool.false_eq_true, if_false, ne_eq, not_true_eq_false,
          and_self, if_true]
        rw [← hsent]
        generalize Session.send _ _ = t
        by_cases hsit : trigger.actionId = sitActionId
        · simp [hsit, Posture.act, posture]
        · by_cases hup : trigger.actionId = standActionId
          · simp [hup, hstand, Posture.act, posture]
          · simp [hsit, hup, Posture.act, posture]
      · simp [hfull]
        rfl

/-- Only an action trigger changes the posture from a stream. -/
theorem posture_onStreamData (fb : FlatBuffers) (s : Session) (streamId : Nat) (data : Bytes)
    (clk : Clock) (write : StreamWrite) :
    (s.onStreamData fb streamId data clk write).posture =
      if streamId = actionTriggerStreamId ∧ s.phase = .operating then
        (s.onActionTrigger (decodeActionTrigger fb data) clk).posture
      else s.posture := by
  unfold onStreamData
  by_cases haction : streamId = actionTriggerStreamId ∧ s.phase = .operating
  · obtain ⟨rfl, hphase⟩ := haction
    rw [if_neg (by simp [hphase]), if_neg (by simp [hphase]), if_neg (by decide),
      if_pos ⟨rfl, hphase⟩, if_pos ⟨rfl, hphase⟩]
  · rw [if_neg haction, if_neg haction]
    split_ifs
    · exact posture_onHello fb s data write
    · rfl
    · cases EstopDatagram.decode data with
      | some d => exact posture_applyEstop s d _
      | none => rfl
    · exact posture_onCameraControl s _
    · rfl

/-- Only commands that drive and accepted actions change the posture. -/
theorem posture_step (fb : FlatBuffers) (s : Session) (e : Event) :
    (s.step fb e).posture = s.postureOf fb e := by
  cases hended : s.ended with
  | some exit =>
      rw [step_of_ended fb e (by simp [hended])]
      cases e <;> simp [postureOf, driven?, acted?, hended]
  | none =>
      rw [step_of_running fb e (by simp [hended])]
      cases e with
      | datagram data clk =>
          rw [handle, posture_onDatagram]
          cases hadm : s.admittedCommand fb data with
          | none => simp [postureOf, driven?, acted?, hadm]
          | some admitted =>
              by_cases hfull : s.commandSource admitted.1 clk = .fullTeleoperation
              · simp [postureOf, driven?, acted?, hended, hadm, hfull]
              · simp [postureOf, driven?, acted?, hadm, hfull]
      | streamData streamId data clk write =>
          have hstream : actionTriggerStreamId % 4 ≠ 2 := by decide
          rw [handle]
          split_ifs with htopic
          · have hother : streamId ≠ actionTriggerStreamId := fun h => hstream (h ▸ htopic)
            simp [postureOf, driven?, acted?, hother]
          · rw [posture_onStreamData, posture_onActionTrigger]
            by_cases haction : streamId = actionTriggerStreamId ∧ s.phase = .operating
            · rw [if_pos haction]
              obtain ⟨rfl, hphase⟩ := haction
              simp only [postureOf, driven?, acted?, hended, hphase, true_and]
              split_ifs <;> rfl
            · rw [if_neg haction]
              simp only [postureOf, driven?, acted?]
              rw [if_neg fun h => haction ⟨h.2.1, h.2.2.1⟩]
      | tick clk io => exact posture_onTick fb s clk io
      | bridgeEvent event => exact posture_onBridgeEvent s event
      | autonomySample payload now => rfl
      | established write => exact posture_sendHello fb s write
      | exit exit => exact posture_finish s exit

/-- An event that drives moves the posture as its Command says. -/
theorem postureOf_of_driven {fb : FlatBuffers} {s : Session} {e : Event} {cmd : TeleopCommand}
    {now : Instant} (h : s.driven? fb e = some (cmd, now)) :
    s.postureOf fb e = s.posture.drive cmd now := by
  simp [postureOf, h]

/-- An event that acts moves the posture as its action says. -/
theorem postureOf_of_acted {fb : FlatBuffers} {s : Session} {e : Event} {actionId : UInt8}
    {now : Instant} (h : s.acted? fb e = some (actionId, now)) :
    s.postureOf fb e = s.posture.act actionId now := by
  obtain ⟨data, clk, write, rfl, -⟩ := eq_of_acted h
  simp [postureOf, driven?, h]

/-- Every other event leaves the posture as it was. -/
theorem postureOf_of_none {fb : FlatBuffers} {s : Session} {e : Event}
    (hdriven : s.driven? fb e = none) (hacted : s.acted? fb e = none) :
    s.postureOf fb e = s.posture := by
  simp [postureOf, hdriven, hacted]

/-- A robot that sits is kept sitting by every step that does not get it up. -/
theorem sitting_postureOf {fb : FlatBuffers} {s : Session} {e : Event} (hs : s.sitting = true)
    (hstand : ∀ now, s.acted? fb e ≠ some (standActionId, now))
    (hidle : ∀ cmd now, s.driven? fb e = some (cmd, now) → cmd.isIdle = true) :
    (s.postureOf fb e).sitting = true := by
  cases hdriven : s.driven? fb e with
  | some driven =>
      rw [postureOf_of_driven hdriven]
      simp [Posture.drive, posture, hs, hidle _ _ hdriven]
  | none =>
      cases hacted : s.acted? fb e with
      | some acted =>
          have hother : acted.1 ≠ standActionId := by
            intro heq
            exact hstand acted.2 (by rw [hacted, ← heq])
          rw [postureOf_of_acted hacted]
          simp [Posture.act, posture, hs, hother]
      | none =>
          rw [postureOf_of_none hdriven hacted]
          exact hs

/-! ## What the holds let through -/

/-- A command that drives orders what the holds leave of it. -/
theorem ordersOf_of_driven {fb : FlatBuffers} {s : Session} {e : Event} {cmd : TeleopCommand}
    {now : Instant} (h : s.driven? fb e = some (cmd, now)) :
    s.ordersOf fb e = s.driveOrders cmd now := by
  obtain ⟨data, clk, seq, rfl, rfl, hended, hadm, hfull⟩ := eq_of_driven h
  simp [ordersOf, hended, hadm, commandOrders, hfull]

/-- A driving command poses the body only past both holds. -/
theorem driveOrders_of_held {s : Session} {cmd : TeleopCommand} {now : Instant}
    (h : (s.settling now || s.holdsSit cmd) = true) :
    ∀ c ∈ s.driveOrders cmd now, c.posesBody = false := by
  intro c hc
  rw [driveOrders, if_pos h] at hc
  split_ifs at hc <;> simp at hc <;> rcases hc with rfl | rfl <;> rfl

/-- While the robot settles a Command only moves the claw. -/
theorem driveOrders_of_settling {s : Session} {cmd : TeleopCommand} {now : Instant}
    (h : s.settling now = true) : s.driveOrders cmd now = [.claw cmd.claw 0] := by
  simp [driveOrders, h]

/-- A command that an operator is not driving with stops the bridge at most. -/
theorem unmoved_of_commandOrders {s : Session} {seq : UInt64} {cmd : TeleopCommand} {clk : Clock}
    (h : s.commandSource seq clk ≠ .fullTeleoperation) :
    ∀ c ∈ s.commandOrders seq cmd clk, c.posesBody = false ∧ c.isArm = false := by
  intro c hc
  rw [commandOrders] at hc
  cases hs : s.commandSource seq clk with
  | fullTeleoperation => exact absurd hs h
  | semiAutonomous => simp [hs] at hc
  | _ =>
      obtain rfl : c = .stop 0 := by simpa [hs] using hc
      exact ⟨rfl, rfl⟩

/-- An action is no movement of the body or the arm. -/
theorem unmoved_of_actionOrders {s : Session} {trigger : ActionTrigger} {clk : Clock} :
    ∀ c ∈ s.actionOrders trigger clk, c.posesBody = false ∧ c.isArm = false := by
  intro c hc
  rw [actionOrders] at hc
  split_ifs at hc
  · obtain rfl := List.mem_singleton.mp hc
    exact ⟨rfl, rfl⟩
  · cases hc

/-- A tick that does not leave the motion to the autonomy goal stops the bridge at
most. -/
theorem unmoved_of_tickOrders {s : Session} {clk : Clock} (h : s.tickSource clk ≠ .semiAutonomous) :
    ∀ c ∈ s.tickOrders clk, c.posesBody = false ∧ c.isArm = false := by
  intro c hc
  simp only [tickOrders, relayOrders, autonomyOrders, if_neg h] at hc
  split_ifs at hc <;> simp at hc <;> rcases hc with rfl | rfl | rfl <;> exact ⟨rfl, rfl⟩

/-- Apart from a command that drives, only a tick that follows the autonomy goal
poses the body, and nothing moves the arm. -/
theorem unmoved_of_not_driven {fb : FlatBuffers} {s : Session} {e : Event}
    (h : s.driven? fb e = none)
    (htick : ∀ clk io, e = .tick clk io → s.tickSource clk ≠ .semiAutonomous) :
    ∀ c ∈ s.ordersOf fb e, c.posesBody = false ∧ c.isArm = false := by
  intro c hc
  unfold ordersOf at hc
  split_ifs at hc with hended
  · cases hc
  · cases e with
    | datagram data clk =>
        simp only [driven?, hended, if_false, Bool.false_eq_true] at h
        cases hadm : s.admittedCommand fb data with
        | none => simp [hadm] at hc
        | some admitted =>
            simp only [hadm] at h hc
            refine unmoved_of_commandOrders (fun hfull => ?_) c hc
            rw [if_pos hfull] at h
            cases h
    | streamData streamId data clk _ =>
        dsimp only at hc
        split_ifs at hc
        · exact unmoved_of_actionOrders c hc
        · cases hc
    | tick clk io => exact unmoved_of_tickOrders (htick clk io rfl) c hc
    | exit exit =>
        cases exit with
        | shutdown =>
            simp at hc
            rcases hc with rfl | rfl <;> exact ⟨rfl, rfl⟩
        | _ => cases hc
    | _ => cases hc

/-! ## The two rules -/

/-- The clock of an event that reads one. -/
def Event.clock? : Event → Option Clock
  | .datagram _ clk | .streamData _ _ clk _ | .tick clk _ => some clk
  | _ => none

/-- No reading for `f` is earlier than one for `e`.  A handler reads the clock
four times at most. -/
def Event.before (e f : Event) : Bool :=
  match e.clock?, f.clock? with
  | some c, some d => decide (c.read 3 ≤ d.read 0)
  | _, _ => true

/-- An event's clock readings are not later than those of the next event. -/
theorem Event.read_le {e f : Event} (h : e.before f = true) {c d : Clock} (hc : c ∈ e.clock?)
    (hd : d ∈ f.clock?) : c.read 3 ≤ d.read 0 := by
  rw [Option.mem_def] at hc hd
  simpa [before, hc, hd] using h

/-- The step accepts a sit and queues it. -/
def SitsDown (fb : FlatBuffers) (s : Session) (e : Event) : Prop :=
  ∃ now, s.acted? fb e = some (sitActionId, now)

/-- The step accepts a stand and queues it, or hands on a command that moves. -/
def GetsUp (fb : FlatBuffers) (s : Session) (e : Event) : Prop :=
  (∃ now, s.acted? fb e = some (standActionId, now)) ∨
    ∃ cmd now, s.driven? fb e = some (cmd, now) ∧ cmd.isIdle = false

section

variable (fb : FlatBuffers) (args : ServerArgs) (goal : AutonomyGoal) (t₀ : Instant)

/-- A sit was queued, and the robot was not got up since. -/
def Seated (past : List Event) : Prop :=
  Pending (fun pre e => SitsDown fb (after fb args goal t₀ pre) e)
    (fun pre e => GetsUp fb (after fb args goal t₀ pre) e) past

/-- While the robot is seated no step poses the body, unless it gets it up. -/
def SitHeld (es : List Event) : Prop :=
  Always (fun past e => Seated fb args goal t₀ past → ¬ GetsUp fb (after fb args goal t₀ past) e →
    ∀ c ∈ (after fb args goal t₀ past).ordersOf fb e, c.posesBody = false) es

/-- A sit or a stand was queued at `t`. -/
def SettlesFrom (past : List Event) (t : Instant) : Prop :=
  ∃ pre e post actionId, past = pre ++ e :: post ∧
    (after fb args goal t₀ pre).acted? fb e = some (actionId, t) ∧
    (actionId = standActionId ∨ actionId = sitActionId)

/-- Within the settle duration of a sit or a stand no datagram poses the body or
moves the arm. -/
def SettleHeld (es : List Event) : Prop :=
  Always (fun past e => ∀ t data clk, SettlesFrom fb args goal t₀ past t → e = .datagram data clk →
    clk.read 3 < t + actionSettleDuration →
    ∀ c ∈ (after fb args goal t₀ past).ordersOf fb e, c.posesBody = false ∧ c.isArm = false) es

/-! ### Seated -/

/-- An action is only accepted from an operator who drives. -/
theorem deadmanHeld_of_acted {past : List Event} {e : Event} {actionId : UInt8} {now : Instant}
    (h : (after fb args goal t₀ past).acted? fb e = some (actionId, now)) :
    (after fb args goal t₀ past).safety.deadmanHeld = true := by
  obtain ⟨data, clk, write, -, -, -, -, -, -, hfull⟩ := eq_of_acted h
  by_contra hheld
  rw [Bool.not_eq_true] at hheld
  have hsource := tickSource_after fb args goal t₀ past clk
  rw [tickSource, hfull] at hsource
  simp only [hheld, Bool.false_eq_true, if_false] at hsource
  split_ifs at hsource

/-- The holds of a seated robot. -/
theorem Seated.sitting {past : List Event} (h : Seated fb args goal t₀ past) :
    (after fb args goal t₀ past).sitting = true ∧
      (after fb args goal t₀ past).safety.deadmanHeld = true := by
  induction past using List.reverseRecOn with
  | nil => simp [Seated] at h
  | append_singleton past e ih =>
      have hstep : ((after fb args goal t₀ past).step fb e).sitting =
          ((after fb args goal t₀ past).postureOf fb e).sitting :=
        congrArg Posture.sitting (posture_step fb _ e)
      rw [after_concat, hstep]
      rcases (pending_concat _ _ past e).mp h with ⟨now, hacted⟩ | ⟨hseated, hup⟩
      · rw [postureOf_of_acted hacted]
        exact ⟨by simp [Posture.act],
          deadmanHeld_step fb e (deadmanHeld_of_acted fb args goal t₀ hacted)⟩
      · obtain ⟨hsitting, hheld⟩ := ih hseated
        refine ⟨sitting_postureOf hsitting ?_ ?_, deadmanHeld_step fb e hheld⟩
        · intro now hstand
          exact hup (Or.inl ⟨now, hstand⟩)
        · intro cmd now hdriven
          by_contra hidle
          exact hup (Or.inr ⟨cmd, now, hdriven, by simpa using hidle⟩)

/-- No step of a seated robot poses the body, unless it gets it up. -/
theorem sitHeld (es : List Event) : SitHeld fb args goal t₀ es := by
  intro past e post _ hseated hup
  obtain ⟨hsitting, hheld⟩ := hseated.sitting
  cases hdriven : (after fb args goal t₀ past).driven? fb e with
  | some driven =>
      obtain ⟨cmd, now⟩ := driven
      have hidle : cmd.isIdle = true := by
        by_contra hidle
        exact hup (Or.inr ⟨cmd, now, hdriven, by simpa using hidle⟩)
      rw [ordersOf_of_driven hdriven]
      exact driveOrders_of_held (by simp [holdsSit, hsitting, hidle])
  | none =>
      refine fun c hc => (unmoved_of_not_driven hdriven ?_ c hc).1
      intro clk io _ hsemi
      rw [tickSource_after] at hsemi
      simp only [hheld] at hsemi
      split_ifs at hsemi

/-! ### Settling -/

/-- The settling times are those of the actions so far. -/
theorem settlesFrom_concat (past : List Event) (e : Event) (t : Instant) :
    SettlesFrom fb args goal t₀ (past ++ [e]) t ↔
      SettlesFrom fb args goal t₀ past t ∨
        ∃ actionId, (after fb args goal t₀ past).acted? fb e = some (actionId, t) ∧
          (actionId = standActionId ∨ actionId = sitActionId) := by
  constructor
  · rintro ⟨pre, x, post, actionId, hpast, hacted, hid⟩
    rcases concat_eq_append_cons hpast with ⟨-, rfl, rfl⟩ | ⟨post', -, hpast'⟩
    · exact Or.inr ⟨actionId, hacted, hid⟩
    · exact Or.inl ⟨pre, x, post', actionId, hpast', hacted, hid⟩
  · rintro (⟨pre, x, post, actionId, rfl, hacted, hid⟩ | ⟨actionId, hacted, hid⟩)
    · exact ⟨pre, x, post ++ [e], actionId, by simp, hacted, hid⟩
    · exact ⟨past, e, [], actionId, rfl, hacted, hid⟩

/-- The window of a sit or a stand starts within a step of the run. -/
theorem SettlesFrom.exists_event {past : List Event} {t : Instant}
    (h : SettlesFrom fb args goal t₀ past t) : ∃ e ∈ past, ∃ clk ∈ e.clock?, t = clk.read 2 := by
  obtain ⟨pre, e, post, actionId, rfl, hacted, -⟩ := h
  obtain ⟨data, clk, write, rfl, ht, -⟩ := eq_of_acted hacted
  exact ⟨_, List.mem_append_right _ (List.mem_cons_self ..), clk, rfl, ht⟩

/-- Inside a settle window no step ends the window or draws its end forward. -/
theorem settleUntil_postureOf {s : Session} {e : Event} {t now deadline : Instant}
    (h : s.actionSettleUntil = some deadline) (hle : t + actionSettleDuration ≤ deadline)
    (hlt : now < t + actionSettleDuration)
    (hclock : ∀ clk ∈ e.clock?, t ≤ clk.read 0 ∧ clk.read 3 ≤ now) :
    ∃ later, (s.postureOf fb e).settleUntil = some later ∧ t + actionSettleDuration ≤ later := by
  cases hdriven : s.driven? fb e with
  | some driven =>
      obtain ⟨data, clk, seq, rfl, hread, -⟩ := eq_of_driven hdriven
      have hopen : driven.2 < deadline := by
        calc driven.2 = clk.read 3 := hread
          _ ≤ now := (hclock clk rfl).2
          _ < t + actionSettleDuration := hlt
          _ ≤ deadline := hle
      rw [postureOf_of_driven hdriven]
      exact ⟨deadline, by simp [Posture.drive, posture, h, hopen, Option.filter], hle⟩
  | none =>
      cases hacted : s.acted? fb e with
      | some acted =>
          -- A later sit or stand moves the deadline, and only forward.
          obtain ⟨data, clk, write, rfl, hread, -⟩ := eq_of_acted hacted
          have hlater : t ≤ acted.2 := by
            calc t ≤ clk.read 0 := (hclock clk rfl).1
              _ ≤ clk.read 2 := clk.mono (by decide)
              _ = acted.2 := hread.symm
          rw [postureOf_of_acted hacted]
          by_cases hid : acted.1 = standActionId ∨ acted.1 = sitActionId
          · exact ⟨acted.2 + actionSettleDuration, by simp [Posture.act, hid],
              Nat.add_le_add_right hlater _⟩
          · exact ⟨deadline, by simp [Posture.act, hid, posture, h], hle⟩
      | none =>
          rw [postureOf_of_none hdriven hacted]
          exact ⟨deadline, h, hle⟩

/-- While no clock has passed its end, a settle window stays in force. -/
theorem SettlesFrom.settleUntil {past : List Event} {t now : Instant}
    (h : SettlesFrom fb args goal t₀ past t) (horder : past.Pairwise (Event.before · ·))
    (hnow : ∀ e ∈ past, ∀ clk ∈ e.clock?, clk.read 3 ≤ now) (hlt : now < t + actionSettleDuration) :
    ∃ deadline, (after fb args goal t₀ past).actionSettleUntil = some deadline ∧
      t + actionSettleDuration ≤ deadline := by
  induction past using List.reverseRecOn with
  | nil =>
      obtain ⟨e, he, -⟩ := h.exists_event
      cases he
  | append_singleton past e ih =>
      have hstep : ((after fb args goal t₀ past).step fb e).actionSettleUntil =
          ((after fb args goal t₀ past).postureOf fb e).settleUntil :=
        congrArg Posture.settleUntil (posture_step fb _ e)
      rw [after_concat, hstep]
      rcases (settlesFrom_concat fb args goal t₀ past e t).mp h with hpast | ⟨actionId, hacted, hid⟩
      · rw [List.pairwise_append] at horder
        obtain ⟨deadline, hdeadline, hle⟩ :=
          ih hpast horder.1 fun x hx => hnow x (List.mem_append_left _ hx)
        obtain ⟨x, hx, c, hc, rfl⟩ := hpast.exists_event
        refine settleUntil_postureOf fb hdeadline hle hlt
          fun clk hclk => ⟨?_, hnow e (by simp) clk hclk⟩
        calc c.read 2 ≤ c.read 3 := c.mono (by decide)
          _ ≤ clk.read 0 := Event.read_le (horder.2.2 x hx e (List.mem_singleton_self e)) hc hclk
      · rw [postureOf_of_acted hacted]
        exact ⟨t + actionSettleDuration, by simp [Posture.act, hid], le_rfl⟩

/-- No datagram of a run in order moves the body or the arm within the settle
duration of a sit or a stand. -/
theorem settleHeld {es : List Event} (h : es.Pairwise (Event.before · ·)) :
    SettleHeld fb args goal t₀ es := by
  rintro past e post rfl t data clk hfrom rfl hlt c hc
  rw [List.pairwise_append] at h
  have hnow : ∀ x ∈ past, ∀ d ∈ x.clock?, d.read 3 ≤ clk.read 3 := by
    intro x hx d hd
    have hbefore := h.2.2 x hx (.datagram data clk) (List.mem_cons_self ..)
    exact (Event.read_le hbefore hd rfl).trans (clk.mono (by decide))
  obtain ⟨deadline, hdeadline, hle⟩ := hfrom.settleUntil fb args goal t₀ h.1 hnow hlt
  cases hdriven : (after fb args goal t₀ past).driven? fb (.datagram data clk) with
  | none => exact unmoved_of_not_driven hdriven (fun _ _ => nofun) c hc
  | some driven =>
      obtain ⟨data', clk', seq, heq, hread, -⟩ := eq_of_driven hdriven
      cases heq
      have hsettling : (after fb args goal t₀ past).settling driven.2 = true := by
        simp only [settling, hdeadline, Option.any_some, decide_eq_true_eq, hread]
        exact hlt.trans_le hle
      rw [ordersOf_of_driven hdriven, driveOrders_of_settling hsettling, List.mem_singleton] at hc
      rw [hc]
      exact ⟨rfl, rfl⟩

/-- In every run a sit is held until the robot is got up, and, the clock never
running backwards, a sit or a stand is left to settle. -/
theorem sitHeld_and_settleHeld (es : List Event) :
    SitHeld fb args goal t₀ es ∧
      (es.Pairwise (Event.before · ·) → SettleHeld fb args goal t₀ es) :=
  ⟨sitHeld fb args goal t₀ es, settleHeld fb args goal t₀⟩

end

/-- An operator sits the robot down, an autonomy goal comes up, and idle commands
go on. -/
def satDownRun : List Event :=
  let io : TickIo := { established := true, estopStreamOk := true, captureUs := 0 }
  opening .fixedLayout sampleArgs [] 0 ++
    [.datagram (commandDatagram .fixedLayout 0 1 (.forward 10)) (.const (fromMillis 10)),
      .streamData actionTriggerStreamId (sitActionId :: BigEndian.encode 8 1)
        (.const (fromMillis 20)) .done,
      .autonomySample [0x41, 0x20, 0, 0, 0, 0, 0, 0, 0, 0, 0, 0] (fromMillis 25),
      .tick (.const (fromMillis 30)) io,
      .datagram (commandDatagram .fixedLayout 0 2 (.forward 0)) (.const (fromMillis 40)),
      .datagram (commandDatagram .fixedLayout 0 3 (.forward 0)) (.const (fromMillis 3000))]

/-- A run that sits down, and is driven afterwards. -/
theorem sitHeld_and_settleHeld_satDownRun :
    SitHeld .fixedLayout sampleArgs (.new 0) 0 satDownRun ∧
      SettleHeld .fixedLayout sampleArgs (.new 0) 0 satDownRun :=
  have h := sitHeld_and_settleHeld .fixedLayout sampleArgs (.new 0) 0 satDownRun
  ⟨h.1, h.2 (by decide +kernel)⟩

example : (after .fixedLayout sampleArgs (.new 0) 0 satDownRun).sitting = true := by
  decide +kernel

end Session

end RoboTele
