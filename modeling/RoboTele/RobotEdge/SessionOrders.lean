import RoboTele.RobotEdge.SessionSteps

/-!
# What a step of the session orders from the bridge

The commands in the log, in the order they were queued and without their
sequence numbers, are the session's orders.  `ordersOf` gives the orders of one
step as a function of the state before it, and `step_orders` says that a step
appends exactly these.  A statement about what the bridge was told is then a
statement about lists.
-/

namespace RoboTele

/-- The command with its sequence number erased. -/
def BridgeCommand.unnumbered : BridgeCommand → BridgeCommand
  | move x y _ => move x y 0
  | turn step _ => turn step 0
  | attitude axis data _ => attitude axis data 0
  | action id _ => action id 0
  | motor id angle _ => motor id angle 0
  | arm x z _ => arm x z 0
  | claw pos _ => claw pos 0
  | stop _ => stop 0
  | heartbeat _ => heartbeat 0
  | query _ => query 0
  | estop _ => estop 0
  | estopClear _ => estopClear 0

/-- A command that was queued, without its number. -/
def Act.order? : Act → Option BridgeCommand
  | .queued cmd => some cmd.unnumbered
  | _ => none

namespace Session

/-- What the session has told the bridge. -/
def orders (s : Session) : List BridgeCommand := s.log.filterMap Act.order?

@[simp] theorem orders_record (s : Session) (a : Act) :
    (s.record a).orders = s.orders ++ a.order?.toList := by
  cases h : a.order? <;> simp [orders, record, List.filterMap_append, h]

@[simp] theorem orders_send (s : Session) (mk : Nat → BridgeCommand) :
    (s.send mk).orders = s.orders ++ [(mk (s.channelBSeq + 1)).unnumbered] := by
  simp [send, nextSeq, Act.order?]
  rfl

/-! ## Operations that order nothing -/

/-- Every move but an order. -/
def Silent (m : SafetyMove) : Prop := ∀ cmd, m ≠ .order cmd

/-- A quiet act orders nothing. -/
theorem Act.quiet_order? {a : Act} (h : a.quiet = true) : a.order? = none := by
  cases a with
  | queued cmd => simp [Act.quiet] at h
  | _ => rfl

/-- Moves among which no order is allowed leave the orders alone. -/
theorem Moves.orders_eq {A : SafetyMove → Prop} {s t : Session} (h : Moves A s t)
    (hA : ∀ cmd, ¬ A (.order cmd)) : t.orders = s.orders := by
  refine h.inv (I := fun v => v.log.filterMap Act.order? = s.orders) (fun v m hm hv => ?_) rfl
  rw [← hv]
  cases m with
  | note a => simp [SafetyMove.apply, Act.quiet_order? a.2]
  | activity now => rfl
  | relay active => rfl
  | order cmd => simp [SafetyMove.ordinary, hA cmd] at hm
  | _ => simp [SafetyMove.apply, Act.order?]

theorem Moves.orders_of_silent {s t : Session} (h : Moves Silent s t) : t.orders = s.orders :=
  h.orders_eq fun cmd hcmd => hcmd cmd rfl

@[simp] theorem orders_arbitrate (s : Session) (now goalNow : Instant) :
    (s.arbitrate now goalNow).1.orders = s.orders :=
  ((Moves.refl Silent s).arbitrate now goalNow).orders_of_silent

@[simp] theorem orders_acceptCommand (s : Session) (seq : UInt64) (now : Instant) :
    (s.acceptCommand seq now).orders = s.orders :=
  ((Moves.refl Silent s).acceptCommand seq now).orders_of_silent

@[simp] theorem orders_countTick (s : Session) (now : Instant) :
    (s.countTick now).orders = s.orders := rfl

@[simp] theorem orders_reportEstop (s : Session) (latched : Bool) (io : TickIo) :
    (s.reportEstop latched io).orders = s.orders :=
  ((Moves.refl Silent s).reportEstop latched io).orders_of_silent

@[simp] theorem orders_sendTelemetry (fb : FlatBuffers) (s : Session) (captureUs : UInt64) :
    (s.sendTelemetry fb captureUs).orders = s.orders :=
  ((Moves.refl Silent s).sendTelemetry fb captureUs).orders_of_silent

/-! ## Commands -/

/-- The robot sits and the command does not ask it to move. -/
def holdsSit (s : Session) (cmd : TeleopCommand) : Bool := s.sitting && cmd.isIdle

/-- The orders of a command that drives. -/
def driveOrders (s : Session) (cmd : TeleopCommand) (now : Instant) : List BridgeCommand :=
  (if s.settling now || s.holdsSit cmd then []
    else
      [.move cmd.vx cmd.vy 0, .turn cmd.turn 0, .attitude 'r' cmd.attitudeR 0,
        .attitude 'p' cmd.attitudeP 0, .attitude 'y' cmd.attitudeY 0]) ++
  (if s.settling now then [] else [.arm cmd.armX cmd.armZ 0]) ++
  [.claw cmd.claw 0]

/-- The source an admitted command is arbitrated to. -/
def commandSource (s : Session) (seq : UInt64) (clk : Clock) : ControlSource :=
  ((s.acceptCommand seq (clk.read 0)).arbitrate (clk.read 1) (clk.read 2)).2

/-- What an admitted command orders. -/
def commandOrders (s : Session) (seq : UInt64) (cmd : TeleopCommand) (clk : Clock) :
    List BridgeCommand :=
  match s.commandSource seq clk with
  | .fullTeleoperation => s.driveOrders cmd (clk.read 3)
  | .eStop | .emergencySafeParking | .activeImpedanceHold => [.stop 0]
  | .semiAutonomous => []

/-- A Command becomes a move, a turn and the three attitudes. -/
theorem orders_sendBody (s : Session) (cmd : TeleopCommand) :
    (s.sendBody cmd).orders = s.orders ++
      [.move cmd.vx cmd.vy 0, .turn cmd.turn 0, .attitude 'r' cmd.attitudeR 0,
        .attitude 'p' cmd.attitudeP 0, .attitude 'y' cmd.attitudeY 0] := by
  simp [sendBody, BridgeCommand.unnumbered]

@[simp] theorem orders_expireSettle (s : Session) (now : Instant) :
    (s.expireSettle now).orders = s.orders := by
  rw [expireSettle]
  split_ifs <;> rfl

@[simp] theorem orders_endSit (s : Session) (cmd : TeleopCommand) :
    (s.endSit cmd).orders = s.orders := by
  rw [endSit]
  split_ifs <;> rfl

@[simp] theorem expireSettle_sitting (s : Session) (now : Instant) :
    (s.expireSettle now).sitting = s.sitting := by
  rw [expireSettle]
  split_ifs <;> rfl

/-- Ending a sit changes nothing for a command that leaves the robot seated. -/
@[simp] theorem endSit_holds (s : Session) (cmd : TeleopCommand) :
    ((s.endSit cmd).sitting && cmd.isIdle) = (s.sitting && cmd.isIdle) := by
  rw [endSit]
  split_ifs with h
  · simp_all
  · rfl

/-- A driving Command queues its orders. -/
theorem orders_driveTeleop (s : Session) (cmd : TeleopCommand) (now : Instant) :
    (s.driveTeleop cmd now).orders = s.orders ++ s.driveOrders cmd now := by
  unfold driveTeleop driveOrders holdsSit
  dsimp only
  rw [endSit_holds, expireSettle_sitting]
  cases s.settling now <;> cases (s.sitting && cmd.isIdle) <;>
    simp [orders_sendBody, BridgeCommand.unnumbered]

/-- Only under full teleoperation does a Command queue orders. -/
theorem orders_dispatchTeleopCommand (s : Session) (cmd : TeleopCommand)
    (now goalNow settleNow : Instant) :
    (s.dispatchTeleopCommand cmd now goalNow settleNow).1.orders = s.orders ++
      match (s.arbitrate now goalNow).2 with
      | .fullTeleoperation => s.driveOrders cmd settleNow
      | .eStop | .emergencySafeParking | .activeImpedanceHold => [.stop 0]
      | .semiAutonomous => [] := by
  rw [dispatchTeleopCommand]
  dsimp only
  cases (s.arbitrate now goalNow).2 with
  | fullTeleoperation =>
      dsimp only
      rw [orders_driveTeleop, orders_arbitrate]
      rfl
  | eStop => simp [BridgeCommand.unnumbered]
  | emergencySafeParking => simp [BridgeCommand.unnumbered]
  | activeImpedanceHold => simp [BridgeCommand.unnumbered]
  | semiAutonomous => simp

/-- An admitted command orders what its arbitration makes of it. -/
theorem orders_onAdmitted (s : Session) (seq : UInt64) (cmd : TeleopCommand) (clk : Clock) :
    (s.onAdmitted seq cmd clk).orders = s.orders ++ s.commandOrders seq cmd clk := by
  rw [onAdmitted, orders_dispatchTeleopCommand, orders_record, orders_acceptCommand]
  simp only [Act.order?, Option.toList_none, List.append_nil]
  rfl

/-- No datagram but an admitted command orders anything. -/
theorem orders_onDatagram (fb : FlatBuffers) (s : Session) (data : Bytes) (clk : Clock) :
    (s.onDatagram fb data clk).orders = s.orders ++
      match s.admittedCommand fb data with
      | some (seq, cmd) => s.commandOrders seq cmd clk
      | none => [] := by
  have hrefl := Moves.refl Silent s
  have hsilent {u : Session} (hadm : s.admittedCommand fb data = none) (hu : Moves Silent s u) :
      u.orders = s.orders ++
        match s.admittedCommand fb data with
        | some (seq, cmd) => s.commandOrders seq cmd clk
        | none => [] := by
    simp [hadm, hu.orders_of_silent]
  have hcases := onDatagram_cases fb s data clk
  generalize s.onDatagram fb data clk = t at hcases ⊢
  cases hcases with
  | command hadm => rw [hadm, orders_onAdmitted]
  | ignored hadm => exact hsilent hadm hrefl
  | estop _ hadm =>
      refine hsilent hadm ((hrefl.applyEstop _ _ ?_ ?_).onChannelBActivity _)
      · exact fun _ _ => nofun
      · exact fun _ _ => nofun
  | benchRaw _ hadm => exact hsilent hadm (hrefl.onBenchRaw _ _ _)
  | heartbeat _ hadm => exact hsilent hadm ((hrefl.onChannelBActivity _).record rfl)
  | benchCommand _ hadm =>
      exact hsilent hadm ((hrefl.acceptCommand _ _).onBenchCommand _ _ _ _ _)
  | undecodable _ hadm => exact hsilent hadm (hrefl.acceptCommand _ _)

/-! ## Actions -/

/-- The orders of an action trigger: the action, if it is new and the operator
drives. -/
def actionOrders (s : Session) (trigger : ActionTrigger) (clk : Clock) : List BridgeCommand :=
  if (s.triggerDedup.accept trigger).2 = true ∧
      (s.arbitrate (clk.read 0) (clk.read 1)).2 = .fullTeleoperation then
    [.action trigger.actionId 0]
  else []

/-- An action trigger queues its orders. -/
theorem orders_onActionTrigger (s : Session) (trigger : ActionTrigger) (clk : Clock) :
    (s.onActionTrigger trigger clk).orders = s.orders ++ s.actionOrders trigger clk := by
  have hsource (d : TriggerDedup) :
      ({ s with triggerDedup := d }.arbitrate (clk.read 0) (clk.read 1)).2 =
        (s.arbitrate (clk.read 0) (clk.read 1)).2 := rfl
  have horders (d : TriggerDedup) :
      ({ s with triggerDedup := d }.arbitrate (clk.read 0) (clk.read 1)).1.orders = s.orders :=
    orders_arbitrate _ _ _
  rw [onActionTrigger, actionOrders]
  dsimp only
  rw [hsource]
  cases hnew : (s.triggerDedup.accept trigger).2 with
  | false => simp [orders]
  | true =>
      by_cases hfull : (s.arbitrate (clk.read 0) (clk.read 1)).2 = .fullTeleoperation
      · have hsend := orders_send
          ({ s with triggerDedup := (s.triggerDedup.accept trigger).1 }.arbitrate
            (clk.read 0) (clk.read 1)).1 (.action trigger.actionId)
        rw [horders] at hsend
        simp only [hfull, ne_eq, not_true_eq_false, if_false, Bool.not_true, Bool.false_eq_true,
          and_self, if_true]
        split_ifs <;> exact hsend
      · simp [hfull, horders]

/-! ## Ticks -/

/-- The source a tick is arbitrated to. -/
def tickSource (s : Session) (clk : Clock) : ControlSource :=
  (s.arbitrate (clk.read 0) (clk.read 1)).2

/-- The orders that relay the E-Stop state. -/
def relayOrders (s : Session) (source : ControlSource) : List BridgeCommand :=
  if source = .eStop then [.estop 0] else if s.bridgeEstopActive then [.estopClear 0] else []

/-- The orders that follow the autonomy goal. -/
def autonomyOrders (s : Session) (source : ControlSource) (goalNow : Instant) :
    List BridgeCommand :=
  if source = .semiAutonomous then
    let v := s.autonomyGoal.readVelocity goalNow
    [.move v.vx v.vy 0, .turn v.turn 0]
  else []

/-- What a tick orders. -/
def tickOrders (s : Session) (clk : Clock) : List BridgeCommand :=
  [.heartbeat 0] ++ s.relayOrders (s.tickSource clk) ++
    s.autonomyOrders (s.tickSource clk) (clk.read 2) ++
    if (s.tickCount + 1) % telemetryQueryEveryNTicks = 0 then [.query 0] else []

/-- A change of the latch is relayed to the bridge. -/
theorem orders_relayEstop (s : Session) (source : ControlSource) :
    (s.relayEstop source).orders = s.orders ++ s.relayOrders source := by
  rw [relayEstop, relayOrders]
  split_ifs with hstop hactive
  · exact orders_send _ _
  · exact orders_send _ _
  · exact (List.append_nil _).symm

/-- The goal drives when arbitration says so. -/
theorem orders_driveAutonomy (s : Session) (source : ControlSource) (goalNow : Instant) :
    (s.driveAutonomy source goalNow).orders = s.orders ++ s.autonomyOrders source goalNow := by
  rw [driveAutonomy, autonomyOrders]
  split_ifs with hsemi
  · simp [BridgeCommand.unnumbered]
  · exact (List.append_nil _).symm

@[simp] theorem send_bridgeEstopActive (s : Session) (mk : Nat → BridgeCommand) :
    (s.send mk).bridgeEstopActive = s.bridgeEstopActive := rfl

@[simp] theorem send_autonomyGoal (s : Session) (mk : Nat → BridgeCommand) :
    (s.send mk).autonomyGoal = s.autonomyGoal := rfl

@[simp] theorem send_tickCount (s : Session) (mk : Nat → BridgeCommand) :
    (s.send mk).tickCount = s.tickCount := rfl

@[simp] theorem reportEstop_bridgeEstopActive (s : Session) (latched : Bool) (io : TickIo) :
    (s.reportEstop latched io).bridgeEstopActive = s.bridgeEstopActive := by
  rw [reportEstop]
  dsimp only
  split_ifs <;> rfl

@[simp] theorem reportEstop_autonomyGoal (s : Session) (latched : Bool) (io : TickIo) :
    (s.reportEstop latched io).autonomyGoal = s.autonomyGoal := by
  rw [reportEstop]
  dsimp only
  split_ifs <;> rfl

@[simp] theorem reportEstop_tickCount (s : Session) (latched : Bool) (io : TickIo) :
    (s.reportEstop latched io).tickCount = s.tickCount := by
  rw [reportEstop]
  dsimp only
  split_ifs <;> rfl

@[simp] theorem relayEstop_autonomyGoal (s : Session) (source : ControlSource) :
    (s.relayEstop source).autonomyGoal = s.autonomyGoal := by
  rw [relayEstop]
  split_ifs <;> rfl

@[simp] theorem relayEstop_tickCount (s : Session) (source : ControlSource) :
    (s.relayEstop source).tickCount = s.tickCount := by
  rw [relayEstop]
  split_ifs <;> rfl

@[simp] theorem driveAutonomy_tickCount (s : Session) (source : ControlSource)
    (goalNow : Instant) : (s.driveAutonomy source goalNow).tickCount = s.tickCount := by
  rw [driveAutonomy]
  split_ifs <;> rfl

/-- A tick orders a heartbeat, the E-Stop relay, the autonomy velocity and now
and then a query. -/
theorem orders_onTick (fb : FlatBuffers) (s : Session) (clk : Clock) (io : TickIo) :
    (s.onTick fb clk io).orders = s.orders ++ s.tickOrders clk := by
  have htelemetry (u : Session) (c : Prop) [Decidable c] :
      (if c then u.sendTelemetry fb io.captureUs else u).orders = u.orders := by
    split_ifs
    · exact orders_sendTelemetry _ _ _
    · rfl
  have hquery (u : Session) (c : Prop) [Decidable c] :
      (if c then u.send .query else u).orders = u.orders ++ if c then [.query 0] else [] := by
    split_ifs
    · exact orders_send _ _
    · exact (List.append_nil _).symm
  rw [onTick, tickOrders]
  dsimp only
  rw [orders_record, htelemetry, hquery, orders_driveAutonomy, orders_relayEstop, orders_send,
    orders_reportEstop, orders_arbitrate, orders_countTick]
  have hsource : ((s.countTick (clk.read 0)).arbitrate (clk.read 0) (clk.read 1)).2 =
      s.tickSource clk := rfl
  simp only [hsource, relayOrders, autonomyOrders, driveAutonomy_tickCount, relayEstop_tickCount,
    relayEstop_autonomyGoal, send_bridgeEstopActive, send_autonomyGoal, send_tickCount,
    reportEstop_bridgeEstopActive, reportEstop_autonomyGoal, reportEstop_tickCount, Act.order?,
    Option.toList_none, List.append_nil, List.append_assoc]
  rfl

/-! ## Steps -/

/-- The orders of one step. -/
def ordersOf (fb : FlatBuffers) (s : Session) (e : Event) : List BridgeCommand :=
  if s.ended.isSome then []
  else
    match e with
    | .datagram data clk =>
        match s.admittedCommand fb data with
        | some (seq, cmd) => s.commandOrders seq cmd clk
        | none => []
    | .streamData streamId data clk _ =>
        if streamId = actionTriggerStreamId ∧ s.phase = .operating then
          s.actionOrders (decodeActionTrigger fb data) clk
        else []
    | .tick clk _ => s.tickOrders clk
    | .exit .shutdown => [.stop 0, .estop 0]
    | _ => []

/-- Only an action trigger orders anything from a stream. -/
theorem orders_onStreamData (fb : FlatBuffers) (s : Session) (streamId : Nat) (data : Bytes)
    (clk : Clock) (write : StreamWrite) :
    (s.onStreamData fb streamId data clk write).orders = s.orders ++
      if streamId = actionTriggerStreamId ∧ s.phase = .operating then
        s.actionOrders (decodeActionTrigger fb data) clk
      else [] := by
  unfold onStreamData
  by_cases haction : streamId = actionTriggerStreamId ∧ s.phase = .operating
  · obtain ⟨rfl, hphase⟩ := haction
    rw [if_neg (by simp [hphase]), if_neg (by simp [hphase]), if_neg (by decide),
      if_pos ⟨rfl, hphase⟩, if_pos ⟨rfl, hphase⟩, orders_onActionTrigger]
  · rw [if_neg haction, if_neg haction, List.append_nil]
    have hrefl := Moves.refl Silent s
    split_ifs
    · exact (hrefl.onHello fb data write).orders_of_silent
    · rfl
    · cases EstopDatagram.decode data with
      | some d =>
          exact (hrefl.applyEstop d (clk.read 0) (fun _ _ => nofun)
            fun _ _ => nofun).orders_of_silent
      | none => rfl
    · exact (hrefl.onCameraControl _).orders_of_silent
    · rfl

/-- A step appends its orders and takes none back. -/
theorem step_orders (fb : FlatBuffers) (s : Session) (e : Event) :
    (s.step fb e).orders = s.orders ++ s.ordersOf fb e := by
  have hmoves := step_moves fb s e
  unfold step at hmoves ⊢
  unfold ordersOf
  split_ifs at hmoves ⊢ with hended
  · exact (List.append_nil _).symm
  · cases e with
    | datagram data clk => exact orders_onDatagram fb s data clk
    | streamData streamId data clk write =>
        unfold handle
        dsimp only
        by_cases htopic : streamId % 4 = 2
        · rw [if_pos htopic, if_neg (by rintro ⟨rfl, -⟩; simp [actionTriggerStreamId] at htopic),
            List.append_nil]
        · rw [if_neg htopic]
          exact orders_onStreamData fb s streamId data clk write
    | tick clk io => exact orders_onTick fb s clk io
    | bridgeEvent event =>
        rw [hmoves.orders_eq (by simp [Permits, Event.mayOrder]), List.append_nil]
    | autonomySample payload now => exact (List.append_nil _).symm
    | established write =>
        rw [hmoves.orders_eq (by simp [Permits, Event.mayOrder]), List.append_nil]
    | exit exit =>
        cases exit with
        | closed => exact (List.append_nil _).symm
        | error => exact (List.append_nil _).symm
        | shutdown =>
            show ((s.send .stop).send .estop).orders = _
            simp [BridgeCommand.unnumbered]

end Session

end RoboTele
