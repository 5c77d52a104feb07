import RoboTele.RobotEdge.SessionOrders
import RoboTele.RobotEdge.SessionRuns
import RoboTele.Runs.Past

/-!
# The command queue and the E-Stop relay

What a session hands to its bridge supervisor.  `commands` is everything it has
sent to the queue, and a step appends its orders to it.

The E-Stop state goes to the bridge through the same queue.  A session sends
`Estop` on every tick that finds the robot latched, and `EstopClear` on the
first tick that does not.  `bridgeEstopActive` remembers which it was
(`RelaysLastTick`).  Only a tick touches that flag and ends with an entry of its
own, and `relay` is the pair of both.
-/

namespace RoboTele

open Runs Past

namespace BridgeCommand

/-- The command sets the robot in motion. -/
def actuates : BridgeCommand → Bool
  | move .. | turn .. | attitude .. | action .. | arm .. | claw .. => true
  | _ => false

/-- The command clears the bridge's latch. -/
def isEstopClear : BridgeCommand → Bool
  | estopClear _ => true
  | _ => false

@[simp] theorem actuates_unnumbered (c : BridgeCommand) : c.unnumbered.actuates = c.actuates := by
  cases c <;> rfl

@[simp] theorem isEstopClear_unnumbered (c : BridgeCommand) :
    c.unnumbered.isEstopClear = c.isEstopClear := by
  cases c <;> rfl

end BridgeCommand

/-- A command that was queued. -/
def Act.command? : Act → Option BridgeCommand
  | .queued cmd => some cmd
  | _ => none

theorem Act.order?_eq (a : Act) : a.order? = a.command?.map BridgeCommand.unnumbered := by
  cases a <;> rfl

/-- What a tick that has ended arbitrated. -/
def Act.tickDone? : Act → Option ArbitrationInputs
  | .tickDone i => some i
  | _ => none

theorem Act.quiet_tickDone? {a : Act} (h : a.quiet = true) : a.tickDone? = none := by
  cases a with
  | tickDone i => simp [quiet] at h
  | _ => rfl

namespace Session

/-! ## The queue -/

/-- What the session has sent to the supervisor's queue. -/
def commands (s : Session) : List BridgeCommand := s.log.filterMap Act.command?

theorem step_log (fb : FlatBuffers) (s : Session) (e : Event) :
    ∃ new, (s.step fb e).log = s.log ++ new := by
  have hpre : s.log <+: (s.step fb e).log := by
    refine (step_moves fb s e).inv (I := fun v => s.log <+: v.log) (fun v m _ hv => ?_)
      (List.prefix_refl s.log)
    cases m with
    | activity now => exact hv
    | relay active => exact hv
    | _ => exact hv.trans (List.prefix_append _ _)
  obtain ⟨new, hnew⟩ := hpre
  exact ⟨new, hnew.symm⟩

/-- A step sends its orders. -/
theorem step_commands (fb : FlatBuffers) (s : Session) (e : Event) :
    ∃ new, (s.step fb e).commands = s.commands ++ new ∧
      new.map BridgeCommand.unnumbered = s.ordersOf fb e := by
  obtain ⟨new, hnew⟩ := step_log fb s e
  have horders : new.filterMap Act.order? = s.ordersOf fb e := by
    have h := step_orders fb s e
    rw [orders, orders, hnew, List.filterMap_append] at h
    exact List.append_cancel_left h
  refine ⟨new.filterMap Act.command?, by rw [commands, hnew, List.filterMap_append]; rfl, ?_⟩
  rw [← horders, List.map_filterMap]
  exact List.filterMap_congr fun a _ => a.order?_eq.symm

/-! ## The relay -/

/-- The last tick, as it arbitrated. -/
def lastTick (s : Session) : Option ArbitrationInputs := latest Act.tickDone? s.log

/-- The relay flag, and the ticks that have ended. -/
structure Relay where
  active : Bool
  ticks : List ArbitrationInputs

/-- The relay part of a view. -/
def Relay.of (v : SafetyView) : Relay :=
  { active := v.relaying, ticks := v.log.filterMap Act.tickDone? }

/-- How far the latch has been passed on. -/
def relay (s : Session) : Relay := .of s.view

/-- Moves that neither relay nor end a tick. -/
theorem Moves.relay_eq {A : SafetyMove → Prop} {s t : Session} (h : Moves A s t)
    (hrelay : ∀ active, ¬ A (.relay active)) (hdone : ∀ i, ¬ A (.done i)) : t.relay = s.relay := by
  refine h.inv (I := fun v => Relay.of v = s.relay) (fun v m hm hv => ?_) rfl
  rw [← hv]
  cases m with
  | note a => simp [SafetyMove.apply, Relay.of, Act.quiet_tickDone? a.2]
  | activity now => rfl
  | relay active => simp [SafetyMove.ordinary, hrelay active] at hm
  | done i => simp [SafetyMove.ordinary, hdone i] at hm
  | _ => simp [SafetyMove.apply, Relay.of, Act.tickDone?]

/-- Moves that may order and nothing else beyond the ordinary ones. -/
def Orders (m : SafetyMove) : Prop := ∃ cmd, m = .order cmd

theorem Orders.order (cmd : BridgeCommand) : Orders (.order cmd) := ⟨cmd, rfl⟩

theorem Moves.relay_of_orders {s t : Session} (h : Moves Orders s t) : t.relay = s.relay :=
  h.relay_eq (by simp [Orders]) (by simp [Orders])

/-! ### Ticks -/

/-- What a tick arbitrates. -/
def tickInputs (s : Session) (clk : Clock) : ArbitrationInputs :=
  (s.safety.poll (clk.read 0)).inputs (s.autonomyGoal.asserted (clk.read 1))

theorem tickSource_eq (s : Session) (clk : Clock) :
    s.tickSource clk = RoboTele.arbitrate (s.tickInputs clk) := rfl

theorem relay_send (s : Session) (mk : Nat → BridgeCommand) : (s.send mk).relay = s.relay :=
  ((Moves.refl Orders s).send mk Orders.order).relay_of_orders

theorem relay_relayEstop (s : Session) (source : ControlSource) :
    (s.relayEstop source).relay = { s.relay with active := decide (source = .eStop) } := by
  rw [relayEstop]
  split_ifs with hstop hactive
  · rw [relay_send, decide_eq_true hstop]
    rfl
  · rw [relay_send, decide_eq_false hstop]
    rfl
  · rw [decide_eq_false hstop, ← Bool.eq_false_iff.mpr hactive]
    rfl

/-- A tick notes what it arbitrated, and relays it. -/
theorem relay_onTick (fb : FlatBuffers) (s : Session) (clk : Clock) (io : TickIo) :
    (s.onTick fb clk io).relay =
      { active := decide (s.tickSource clk = .eStop)
        ticks := s.relay.ticks ++ [s.tickInputs clk] } := by
  have hdone (u : Session) (i : ArbitrationInputs) : (u.record (.tickDone i)).relay =
      { u.relay with ticks := u.relay.ticks ++ [i] } := by
    simp [relay, Relay.of, view, record, List.filterMap_append, Act.tickDone?]
  have hrefl (u : Session) := Moves.refl Orders u
  have hstart (latched : Bool) :=
    (((((hrefl s).countTick (clk.read 0)).arbitrate (clk.read 0) (clk.read 1)).reportEstop
      latched io).send .heartbeat Orders.order).relay_of_orders
  have hdrive (u : Session) (source : ControlSource) :=
    ((hrefl u).driveAutonomy source (clk.read 2) Orders.order).relay_of_orders
  have hquery (u : Session) (c : Prop) [Decidable c] :=
    (((hrefl u).send .query Orders.order).ite (hrefl u) c).relay_of_orders
  have htelemetry (u : Session) (c : Prop) [Decidable c] :=
    (((hrefl u).sendTelemetry fb io.captureUs).ite (hrefl u) c).relay_of_orders
  rw [onTick]
  dsimp only
  rw [hdone, htelemetry, hquery, hdrive, relay_relayEstop, hstart]
  rfl

/-- Only a tick moves the relay. -/
theorem step_relay (fb : FlatBuffers) (s : Session) (e : Event) :
    (s.step fb e).relay =
      match e with
      | .tick clk _ =>
          if s.ended.isSome then s.relay
          else
            { active := decide (s.tickSource clk = .eStop)
              ticks := s.relay.ticks ++ [s.tickInputs clk] }
      | _ => s.relay := by
  have hmoves := step_moves fb s e
  cases e with
  | tick clk io =>
      rw [step]
      dsimp only
      split_ifs
      · rfl
      · exact relay_onTick fb s clk io
  | _ => exact hmoves.relay_eq (by simp [Permits]) (by simp [Permits])

/-- The relay is active exactly if the last tick found the robot latched. -/
def RelaysLastTick (s : Session) : Prop :=
  s.bridgeEstopActive = s.lastTick.any (·.estopLatched)

theorem relaysLastTick_congr {s t : Session} (h : t.relay = s.relay) :
    t.RelaysLastTick ↔ s.RelaysLastTick := by
  have hactive : t.bridgeEstopActive = s.bridgeEstopActive := congrArg Relay.active h
  have hticks : t.log.filterMap Act.tickDone? = s.log.filterMap Act.tickDone? :=
    congrArg Relay.ticks h
  rw [RelaysLastTick, RelaysLastTick, lastTick, lastTick, latest, latest, hactive, hticks]

theorem RelaysLastTick.step {s : Session} (h : s.RelaysLastTick) (fb : FlatBuffers) (e : Event) :
    (s.step fb e).RelaysLastTick := by
  have hrelay := step_relay fb s e
  cases e with
  | tick clk io =>
      dsimp only at hrelay
      split_ifs at hrelay
      · exact (relaysLastTick_congr hrelay).mpr h
      · have hactive : (s.step fb (.tick clk io)).bridgeEstopActive = _ :=
          congrArg Relay.active hrelay
        have hticks : (s.step fb (.tick clk io)).log.filterMap Act.tickDone? = _ :=
          congrArg Relay.ticks hrelay
        rw [RelaysLastTick, lastTick, latest, hactive, hticks, tickSource_eq,
          List.getLast?_concat, Option.any_some]
        simp
  | _ => exact (relaysLastTick_congr hrelay).mpr h

end Session

end RoboTele
