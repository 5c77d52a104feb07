import RoboTele.RobotEdge.Supervisor

/-!
# The two E-Stop latches

`robot-edge` and the bridge process each keep an E-Stop latch.  They agree by
commands that go one way: `Estop` while the robot is latched, one `EstopClear`
on the way out.  `LatchesAgree` is what the operator relies on.  Once every
command is handled, an unlatched `robot-edge` has an unlatched bridge, for a
latched one refuses to move.

What keeps it is `Relayed`.  Either `robot-edge` is still relaying a stop, or
the commands on their way leave the bridge unlatched (`latchAfter`).  Every step
keeps that but one: a trip of the bridge's own watchdog latches it behind
`robot-edge`'s back, and the status line that reports it is only logged.  So the
latches agree in the runs where each trip has an `EstopClear` coming.
-/

namespace RoboTele

open Runs Past

/-! ## What a list of commands does to a latch -/

/-- The latch of a bridge after it handled a list of commands. -/
def latchAfter (estopped : Bool) (cs : List BridgeCommand) : Bool :=
  cs.foldl BridgeCommand.latch estopped

@[simp] theorem latchAfter_nil (estopped : Bool) : latchAfter estopped [] = estopped := rfl

@[simp] theorem latchAfter_cons (estopped : Bool) (c : BridgeCommand) (cs : List BridgeCommand) :
    latchAfter estopped (c :: cs) = latchAfter (c.latch estopped) cs := rfl

@[simp] theorem latchAfter_append (estopped : Bool) (cs ds : List BridgeCommand) :
    latchAfter estopped (cs ++ ds) = latchAfter (latchAfter estopped cs) ds :=
  List.foldl_append

/-- A bridge that starts unlatched ends unlatched wherever a latched one does. -/
theorem latchAfter_false {estopped : Bool} {cs : List BridgeCommand}
    (h : latchAfter estopped cs = false) : latchAfter false cs = false := by
  induction cs generalizing estopped with
  | nil => rfl
  | cons c cs ih =>
      rw [latchAfter_cons] at h ⊢
      cases c with
      | estop seq => exact h
      | estopClear seq => exact h
      | _ => exact ih h

/-- Past an `EstopClear` the latch has forgotten where it started. -/
theorem latchAfter_of_clear {cs : List BridgeCommand} (h : ∃ c ∈ cs, c.isEstopClear = true)
    (a b : Bool) : latchAfter a cs = latchAfter b cs := by
  induction cs generalizing a b with
  | nil => simp at h
  | cons c cs ih =>
      simp only [List.mem_cons, exists_eq_or_imp] at h
      rw [latchAfter_cons, latchAfter_cons]
      cases h with
      | inl hc =>
          cases c with
          | estopClear seq => rfl
          | _ => simp [BridgeCommand.isEstopClear] at hc
      | inr hcs => exact ih hcs _ _

@[simp] theorem latchAfter_unnumbered (estopped : Bool) (cs : List BridgeCommand) :
    latchAfter estopped (cs.map BridgeCommand.unnumbered) = latchAfter estopped cs := by
  induction cs generalizing estopped with
  | nil => rfl
  | cons c cs ih =>
      rw [List.map_cons, latchAfter_cons, latchAfter_cons, ih]
      cases c <;> rfl

/-! ## What a session tells the bridge -/

namespace Session

/-- The orders of a Command do not move the latch. -/
theorem latchAfter_commandOrders (s : Session) (seq : UInt64) (cmd : TeleopCommand) (clk : Clock)
    (estopped : Bool) : latchAfter estopped (s.commandOrders seq cmd clk) = estopped := by
  rw [commandOrders]
  cases s.commandSource seq clk with
  | fullTeleoperation =>
      dsimp only [driveOrders]
      split_ifs <;> rfl
  | _ => rfl

/-- Nor do those of an action. -/
theorem latchAfter_actionOrders (s : Session) (trigger : ActionTrigger) (clk : Clock)
    (estopped : Bool) : latchAfter estopped (s.actionOrders trigger clk) = estopped := by
  rw [actionOrders]
  split_ifs <;> rfl

/-- A tick latches the bridge, or clears it, with the arbitration. -/
theorem latchAfter_tickOrders (s : Session) (clk : Clock) (estopped : Bool) :
    latchAfter estopped (s.tickOrders clk) =
      if s.tickSource clk = .eStop then true
      else if s.bridgeEstopActive then false
      else estopped := by
  unfold tickOrders relayOrders autonomyOrders
  split_ifs <;> rfl

/-- A session that goes on after a step has gone on before it. -/
theorem ended_of_step {fb : FlatBuffers} {s : Session} {e : Event}
    (h : (s.step fb e).ended = none) : s.ended = none := by
  have hrunning := running_of_step fb (s := s) (e := e) (by simp [h])
  simpa using hrunning

/-- The orders of anything but a tick leave the latch alone, while the session
goes on. -/
theorem latchAfter_ordersOf (fb : FlatBuffers) (s : Session) (e : Event)
    (hgoes : (s.step fb e).ended = none) (htick : ∀ clk io, e ≠ .tick clk io) (estopped : Bool) :
    latchAfter estopped (s.ordersOf fb e) = estopped := by
  have hended : ¬ s.ended.isSome = true := by simp [ended_of_step hgoes]
  unfold ordersOf
  rw [if_neg hended]
  cases e with
  | datagram data clk =>
      dsimp only
      cases s.admittedCommand fb data with
      | none => rfl
      | some admitted => exact latchAfter_commandOrders _ _ _ _ _
  | streamData streamId data clk write =>
      dsimp only
      split_ifs
      · exact latchAfter_actionOrders _ _ _ _
      · rfl
  | tick clk io => exact absurd rfl (htick clk io)
  | exit exit => cases exit <;> simp [step, hended, handle, finish] at hgoes
  | _ => rfl

/-- A step of a session that goes on: it relays a stop, or it ends one and
clears the bridge, or it has none to relay and leaves the latch alone. -/
theorem step_relays (fb : FlatBuffers) (s : Session) (e : Event)
    (hgoes : (s.step fb e).ended = none) :
    (s.step fb e).bridgeEstopActive = true ∨
      (s.bridgeEstopActive = true ∧ ∀ estopped, latchAfter estopped (s.ordersOf fb e) = false) ∨
      (s.bridgeEstopActive = false ∧
        ∀ estopped, latchAfter estopped (s.ordersOf fb e) = estopped) := by
  have hended : ¬ s.ended.isSome = true := by simp [ended_of_step hgoes]
  have hactive := congrArg Relay.active (step_relay fb s e)
  by_cases htick : ∃ clk io, e = .tick clk io
  · obtain ⟨clk, io, rfl⟩ := htick
    have horders : s.ordersOf fb (.tick clk io) = s.tickOrders clk := by
      rw [ordersOf, if_neg hended]
    dsimp only at hactive
    rw [if_neg hended] at hactive
    rw [horders]
    by_cases hstop : s.tickSource clk = .eStop
    · exact Or.inl (hactive.trans (by simpa using hstop))
    · refine Or.inr ?_
      cases hs : s.bridgeEstopActive with
      | true => exact Or.inl ⟨rfl, fun b => by simp [latchAfter_tickOrders, hstop, hs]⟩
      | false => exact Or.inr ⟨rfl, fun b => by simp [latchAfter_tickOrders, hstop, hs]⟩
  · have hother : ∀ clk io, e ≠ .tick clk io := fun clk io h => htick ⟨clk, io, h⟩
    have hsame : (s.step fb e).bridgeEstopActive = s.bridgeEstopActive := by
      cases e with
      | tick clk io => exact absurd rfl (hother clk io)
      | _ => exact hactive
    cases hs : s.bridgeEstopActive with
    | true => exact Or.inl (hsame.trans hs)
    | false => exact Or.inr (Or.inr ⟨rfl, latchAfter_ordersOf fb s e hgoes hother⟩)

end Session

namespace System

/-! ## The rule -/

/-- `robot-edge` goes on and its last tick found no latch, and every command it
sent is handled: the bridge is not latched. -/
def LatchesAgree (s : System) : Prop :=
  s.session.ended = none → (∃ i ∈ s.session.lastTick, i.estopLatched = false) → s.queue = [] →
    ∀ child ∈ s.child?, child.stdin = [] → child.bridge.estopped = false

instance (s : System) : Decidable s.LatchesAgree := by
  rw [LatchesAgree]
  infer_instance

/-- The watchdog of the bridge trips only while `robot-edge` relays a stop or an
`EstopClear` is on its way. -/
def TripIsCleared (s : System) : Event → Prop
  | .poll now _ =>
      s.session.ended = none → ∀ child ∈ s.child?, child.bridge.trips now = true →
        s.session.bridgeEstopActive = true ∨
          ∃ c ∈ child.stdin ++ s.queue, c.isEstopClear = true
  | _ => True

instance (s : System) (e : Event) : Decidable (s.TripIsCleared e) := by
  cases e <;> unfold TripIsCleared <;> infer_instance

/-! ## The invariant -/

/-- The latch of the process, if there is one. -/
def estopped (s : System) : Bool := s.child?.any (·.bridge.estopped)

/-- The commands on their way to the process. -/
def pending (s : System) : List BridgeCommand := (s.child?.map Child.stdin).getD [] ++ s.queue

/-- A stop is being relayed, or what is on its way leaves the bridge
unlatched. -/
structure Relayed (s : System) : Prop where
  taken_le : s.taken ≤ s.session.commands.length
  relays : s.session.RelaysLastTick
  alive : ∀ child ∈ s.child?, child.bridge.exited = false
  latch : s.session.ended = none →
    s.session.bridgeEstopActive = true ∨ latchAfter s.estopped s.pending = false

/-- With a child, the latch is the child's. -/
theorem estopped_of_child {s : System} {child : Child} (h : s.child? = some child) :
    s.estopped = child.bridge.estopped := by
  rw [estopped, h, Option.any_some]

/-- What is pending is in its input, or in the queue. -/
theorem pending_of_child {s : System} {child : Child} (h : s.child? = some child) :
    s.pending = child.stdin ++ s.queue := by
  rw [pending, h, Option.map_some, Option.getD_some]

/-- Without a child nothing is latched. -/
theorem estopped_of_none {s : System} (h : s.child? = none) : s.estopped = false := by
  rw [estopped, h, Option.any_none]

/-- Without a child all is in the queue. -/
theorem pending_of_none {s : System} (h : s.child? = none) : s.pending = s.queue := by
  rw [pending, h, Option.map_none, Option.getD_none, List.nil_append]

/-- A step of the session in a system that is relayed. -/
theorem Relayed.session {s t : System} (h : s.Relayed) (fb : FlatBuffers) (e : Session.Event)
    (hsession : t.session = s.session.step fb e) (htaken : t.taken = s.taken)
    (hchild : t.child? = s.child?) : t.Relayed := by
  obtain ⟨new, hnew, horders⟩ := s.session.step_commands fb e
  have hcommands : t.session.commands = s.session.commands ++ new := by rw [hsession, hnew]
  have hpending : t.pending = s.pending ++ new := by
    rw [pending, hchild, queue_append htaken hcommands h.taken_le, ← List.append_assoc, pending]
  refine ⟨?_, ?_, ?_, ?_⟩
  · rw [htaken, hcommands, List.length_append]
    exact h.taken_le.trans (Nat.le_add_right _ _)
  · rw [hsession]
    exact h.relays.step fb e
  · rw [hchild]
    exact h.alive
  · intro hgoes
    rw [hsession] at hgoes ⊢
    have hestopped : t.estopped = s.estopped := by rw [estopped, hchild, estopped]
    rw [hpending, hestopped, latchAfter_append, ← latchAfter_unnumbered _ new, horders]
    rcases s.session.step_relays fb e hgoes with hactive | ⟨-, hclears⟩ | ⟨hidle, hkeeps⟩
    · exact Or.inl hactive
    · exact Or.inr (hclears _)
    · refine Or.inr ?_
      rw [hkeeps]
      exact (h.latch (Session.ended_of_step hgoes)).resolve_left (by simp [hidle])

/-- A step that leaves the session alone. -/
theorem Relayed.of_session_eq {s t : System} (h : s.Relayed) (hsession : t.session = s.session)
    (htaken : t.taken ≤ t.session.commands.length)
    (halive : ∀ child ∈ t.child?, child.bridge.exited = false)
    (hlatch : s.session.ended = none → s.session.bridgeEstopActive = true ∨
      (latchAfter s.estopped s.pending = false → latchAfter t.estopped t.pending = false)) :
    t.Relayed := by
  refine ⟨htaken, ?_, halive, ?_⟩
  · rw [hsession]
    exact h.relays
  · intro hgoes
    rw [hsession] at hgoes ⊢
    rcases h.latch hgoes with hactive | hpending
    · exact Or.inl hactive
    · exact (hlatch hgoes).imp_right fun hnext => hnext hpending

/-- The process is gone, with a part of what was on its way. -/
theorem Relayed.dropped {s t : System} (h : s.Relayed) (hsession : t.session = s.session)
    (htaken : t.taken ≤ t.session.commands.length) (hchild : t.child? = none)
    (hqueue : ∃ front, s.pending = front ++ t.queue) : t.Relayed := by
  obtain ⟨front, hfront⟩ := hqueue
  apply h.of_session_eq hsession htaken (by simp [hchild])
  intro _
  right
  intro hpending
  rw [hfront, latchAfter_append] at hpending
  rw [estopped_of_none hchild, pending_of_none hchild]
  exact latchAfter_false hpending

/-- A step of the process. -/
theorem Relayed.onChild {s : System} (h : s.Relayed) (f : Child → Child)
    (halive : ∀ child ∈ s.child?, (f child).bridge.exited = false)
    (hlatch : s.session.ended = none → ∀ child ∈ s.child?,
      s.session.bridgeEstopActive = true ∨
        (latchAfter child.bridge.estopped (child.stdin ++ s.queue) = false →
          latchAfter (f child).bridge.estopped ((f child).stdin ++ s.queue) = false)) :
    (s.onChild f).Relayed := by
  rw [System.onChild]
  cases hphase : s.supervisor.phase with
  | running child =>
      have hchild := child?_of_running hphase
      have hnext := child?_setPhase_running s (f child)
      refine h.of_session_eq rfl h.taken_le (by simpa using halive child hchild) ?_
      intro hgoes
      rw [estopped_of_child hchild, pending_of_child hchild, estopped_of_child hnext,
        pending_of_child hnext, queue_setPhase]
      exact hlatch hgoes child hchild
  | _ => exact h

theorem Relayed.spawn {s : System} (h : s.Relayed) (config : BridgeConfig) (ok : Bool)
    (clk : Clock) : (s.spawn config ok clk).Relayed := by
  rw [System.spawn]
  cases hphase : s.supervisor.phase with
  | restarting notBefore =>
      have hchild : s.child? = none := by rw [child?, hphase]
      dsimp only
      split_ifs
      · exact h
      · -- The new process starts unlatched, with nothing in its pipe.
        have hnext := child?_setPhase_running s (.spawn config (clk.read 1))
        refine h.of_session_eq rfl h.taken_le ?_ ?_
        · rintro child ⟨⟩
          rfl
        · intro _
          right
          intro hpending
          rw [estopped_of_none hchild, pending_of_none hchild] at hpending
          rw [estopped_of_child hnext, pending_of_child hnext]
          exact hpending
      · exact h.dropped rfl h.taken_le (child?_fail config s clk)
          ⟨[], by rw [pending_of_none hchild, queue_fail, List.nil_append]⟩
  | _ => exact h

theorem Relayed.write {s : System} (h : s.Relayed) (config : BridgeConfig) (ok : Bool)
    (clk : Clock) : (s.write config ok clk).Relayed := by
  rw [System.write]
  split
  next child cmd rest hphase hqueue =>
    have hchild := child?_of_running hphase
    obtain ⟨hlt, hrest⟩ := take_of_queue hqueue
    split_ifs
    · have hnext := child?_setPhase_running s.take (child.write cmd (s.answers cmd))
      refine h.of_session_eq rfl hlt ?_ ?_
      · rintro next ⟨⟩
        exact h.alive child hchild
      · intro _
        right
        intro hpending
        rw [estopped_of_child hchild, pending_of_child hchild, hqueue] at hpending
        rw [estopped_of_child hnext, pending_of_child hnext, queue_setPhase, hrest]
        simpa [Child.write] using hpending
    · refine h.dropped rfl hlt (child?_die config s.take clk) ⟨child.stdin ++ [cmd], ?_⟩
      rw [pending_of_child hchild, queue_die, hrest, hqueue]
      simp
  next => exact h

theorem Relayed.gone {s : System} (h : s.Relayed) (config : BridgeConfig) (clk : Clock) :
    (s.gone config clk).Relayed := by
  rw [System.gone]
  cases hphase : s.supervisor.phase with
  | running child =>
      exact h.dropped rfl h.taken_le (child?_die config s clk)
        ⟨child.stdin, by rw [pending_of_child (child?_of_running hphase), queue_die]⟩
  | _ => exact h

theorem Relayed.hangUp {s : System} (h : s.Relayed) : s.hangUp.Relayed := by
  rw [System.hangUp]
  cases hphase : s.supervisor.phase with
  | running child =>
      dsimp only
      split_ifs
      · exact h.dropped rfl h.taken_le rfl
          ⟨child.stdin, by rw [pending_of_child (child?_of_running hphase), queue_setPhase]⟩
      · exact h
  | _ => exact h

theorem Relayed.report {s : System} (h : s.Relayed) : s.report.Relayed := by
  rw [System.report]
  cases hphase : s.supervisor.phase with
  | running child =>
      have hchild := child?_of_running hphase
      dsimp only
      split
      · exact h
      · refine h.of_session_eq rfl h.taken_le ?_ ?_
        · rintro next ⟨⟩
          exact h.alive child hchild
        · intro _
          right
          intro hpending
          rw [estopped_of_child hchild, pending_of_child hchild] at hpending
          exact hpending
  | _ => exact h

/-- Handling a line of the pipe changes nothing of where the latch is going. -/
theorem latchAfter_onLine (child : Child) (py : Builtins) (clk : Clock) (io : BackendIo)
    (halive : child.bridge.exited = false) :
    latchAfter (child.onLine py clk io).bridge.estopped (child.onLine py clk io).stdin =
      latchAfter child.bridge.estopped child.stdin := by
  rw [Child.onLine]
  cases hstdin : child.stdin with
  | nil => rw [hstdin]
  | cons cmd rest =>
      dsimp only
      rw [Bridge.onLine_toLine_estopped _ _ _ _ _ halive, latchAfter_cons]

/-- A line does not end the child. -/
theorem onLine_exited (child : Child) (py : Builtins) (clk : Clock) (io : BackendIo)
    (halive : child.bridge.exited = false) :
    (child.onLine py clk io).bridge.exited = false := by
  rw [Child.onLine]
  cases child.stdin with
  | nil => exact halive
  | cons cmd rest => exact Bridge.onLine_toLine_exited _ _ _ _ _ halive

/-- A poll that does not trip keeps the latch, and one that does is undone by
the `EstopClear` on its way. -/
theorem latchAfter_poll {s : System} {now : Instant} {io : BackendIo}
    (he : s.TripIsCleared (.poll now io)) (hgoes : s.session.ended = none) {child : Child}
    (hchild : s.child? = some child) :
    s.session.bridgeEstopActive = true ∨
      (latchAfter child.bridge.estopped (child.stdin ++ s.queue) = false →
        latchAfter (child.poll now io).bridge.estopped
          ((child.poll now io).stdin ++ s.queue) = false) := by
  have hestopped : (child.poll now io).bridge.estopped =
      (child.bridge.estopped || child.bridge.trips now) := Bridge.poll_estopped _ _ _
  rw [hestopped]
  cases htrips : child.bridge.trips now with
  | false =>
      rw [Bool.or_false]
      exact Or.inr id
  | true =>
      rcases he hgoes child hchild htrips with hactive | hclear
      · exact Or.inl hactive
      · right
        intro hpending
        rw [← hpending]
        exact latchAfter_of_clear hclear _ _

/-- Every step whose trips are cleared keeps the invariant. -/
theorem Relayed.step {s : System} (h : s.Relayed) (fb : FlatBuffers) (py : Builtins)
    (config : BridgeConfig) {e : Event} (he : s.TripIsCleared e) :
    (s.step fb py config e).Relayed := by
  cases e with
  | session e => exact h.session fb e.1 rfl rfl rfl
  | observe =>
      show (s.observe fb).Relayed
      rw [System.observe]
      split
      · exact h
      · exact h.session fb _ rfl rfl rfl
  | spawn ok clk => exact h.spawn config ok clk
  | write ok clk => exact h.write config ok clk
  | gone clk => exact h.gone config clk
  | hangUp => exact h.hangUp
  | report => exact h.report
  | line clk io =>
      apply h.onChild
      · intro child hchild
        exact onLine_exited child py clk io (h.alive child hchild)
      · intro _ child hchild
        right
        intro hpending
        rw [latchAfter_append, latchAfter_onLine child py clk io (h.alive child hchild),
          ← latchAfter_append]
        exact hpending
  | poll now io =>
      apply h.onChild
      · intro child hchild
        exact (Bridge.poll_exited _ _ _).trans (h.alive child hchild)
      · intro hgoes child hchild
        exact latchAfter_poll he hgoes hchild

theorem Relayed.new (args : ServerArgs) (goal : AutonomyGoal) (now : Instant) :
    (System.new args goal now).Relayed where
  taken_le := Nat.zero_le _
  relays := rfl
  alive := nofun
  latch _ := Or.inr rfl

/-- When the session's latch is relayed, the latches agree. -/
theorem Relayed.latchesAgree {s : System} (h : s.Relayed) : s.LatchesAgree := by
  rintro hgoes ⟨i, hi, hunlatched⟩ hqueue child hchild hstdin
  have hidle : s.session.bridgeEstopActive = false := by
    have hrelays := h.relays
    rwa [Session.RelaysLastTick, hi, Option.any_some, hunlatched] at hrelays
  have hlatch := (h.latch hgoes).resolve_left (by simp [hidle])
  rwa [estopped_of_child hchild, pending_of_child hchild, hstdin, hqueue] at hlatch

/-- In every run whose watchdog trips are cleared, the latches agree in the
state reached. -/
theorem latchesAgree_of_clearedTrips (fb : FlatBuffers) (py : Builtins) (config : BridgeConfig)
    (args : ServerArgs) (goal : AutonomyGoal) (now : Instant) (es : List Event)
    (htrips : Along (step fb py config) TripIsCleared (.new args goal now) es) :
    LatchesAgree (exec (step fb py config) (.new args goal now) es) :=
  (exec_inv_along (fun _ _ hs he => hs.step fb py config he) es (Relayed.new args goal now)
    htrips).latchesAgree

/-- The watchdog trips while the session relays a stop that is still queued.
Then the operator clears, and every line is handled. -/
def clearedTripRun : List Event :=
  let clk := Clock.const (fromMillis 400)
  let io : Session.TickIo := { established := true, estopStreamOk := true, captureUs := 0 }
  [.spawn true (.const 0)] ++
    Event.ofSession
      [.datagram (EstopDatagram.encode { latched := true, seq := 1 }) clk, .tick clk io] ++
    [.poll (fromMillis 400) .stub] ++
    Event.ofSession
      [.datagram (EstopDatagram.encode { latched := false, seq := 2 }) clk, .tick clk io] ++
    List.replicate 4 (.write true clk) ++ List.replicate 4 (.line clk .stub)

/-- A trip that is cleared while the bridge relays. -/
theorem latchesAgree_of_clearedTrips_relaying :
    LatchesAgree (exec (step .fixedLayout .plain .default) (.new sampleArgs (.new 0) 0)
      clearedTripRun) :=
  latchesAgree_of_clearedTrips .fixedLayout .plain .default sampleArgs (.new 0) 0 clearedTripRun
    (by decide +kernel)

/-- An operator opens a session at 0, sends a command at 10 ms and asks the
robot to stand at 20 ms. -/
def standing : List Session.Event :=
  Session.opening .fixedLayout sampleArgs [] 0 ++
    [.datagram (commandDatagram .fixedLayout 0 1 (.forward 0)) (.const (fromMillis 10)),
      .streamData actionTriggerStreamId (standActionId :: BigEndian.encode 8 1)
        (.const (fromMillis 20)) .done]

/-- The operator's heartbeat and the tick after it. -/
def beat (ms : Nat) : List Session.Event :=
  let clk := Clock.const (fromMillis ms)
  [.datagram (heartbeatDatagram 0) clk,
    .tick clk { established := true, estopStreamOk := true, captureUs := 0 }]

/-- The robot takes half a second to stand up.  The heartbeats of five ticks
wait in the pipe, and the bridge polls its watchdog before it reads them. -/
def slowRun : List Event :=
  let early := Clock.const (fromMillis 20)
  let late := Clock.const (fromMillis 521)
  [.spawn true (.const 0)] ++ Event.ofSession standing ++
    List.replicate 8 (.write true early) ++ List.replicate 8 (.line early .stub) ++
    [120, 220, 320, 420, 520].flatMap (fun ms =>
      Event.ofSession (beat ms) ++ [.write true (.const (fromMillis ms))]) ++
    [.poll (fromMillis 521) .stub] ++ List.replicate 5 (.line late .stub)

/-- An action that takes long trips the bridge's own watchdog. -/
theorem latchesAgree_fails_for_slowAction :
    ¬ LatchesAgree (exec (step .fixedLayout .plain .default)
      (.new sampleArgs (.new 0) 0) slowRun) := by
  decide +kernel

end System

end RoboTele
