import RoboTele.RobotEdge.SessionRuns
import RoboTele.Runs.Past

/-!
# The server loop

`run` of `quic_server.rs` serves one session after another.  It builds each from
the same arguments, with a safety task of its own, and drops it when it ends.
Only the autonomy goal lives as long as the process.

The E-Stop latch is a promise about the robot: a latched robot stays latched
until the operator clears it.  `OnlyClearReleases` says so for the log of the
whole process.  Inside one session the latch flag remembers exactly that log
(`latched_iff`).  A new session starts with the flag down whatever the log says,
so the promise holds in the runs that never build one over a latch.
-/

namespace RoboTele

open Runs Past

/-- The loop that serves one session after the other. -/
structure Server where
  goal : AutonomyGoal
  /-- The session in progress. -/
  session : Option Session
  /-- The safety task of the last session, as it was dropped. -/
  dropped : Option SafetyTask
  /-- The logs of the sessions that have ended, oldest first. -/
  past : List Act

namespace Server

/-- A connection comes, or something happens in the session or without one. -/
inductive Event where
  /-- A first packet. -/
  | connect (now : Instant)
  | session (e : Session.Event)
  /-- A sample for the goal while no session is in progress. -/
  | autonomySample (payload : Bytes) (now : Instant)

def new (goal : AutonomyGoal) : Server := { goal, session := none, dropped := none, past := [] }

/-- A connection, or an event of the session. -/
def step (fb : FlatBuffers) (args : ServerArgs) (s : Server) (e : Event) : Server :=
  match s.session, e with
  | none, .connect now => { s with session := some (.new args s.goal now) }
  | some session, .session e =>
      let session := session.step fb e
      if session.ended.isSome then
        { goal := session.autonomyGoal
          session := none
          dropped := some session.safety
          past := s.past ++ session.log }
      else { s with session := some session }
  | none, .autonomySample payload now => { s with goal := s.goal.markSeen now payload }
  -- A second peer is not served, and with no session there is nothing to drive.
  | some _, .connect _ | some _, .autonomySample _ _ | none, .session _ => s

/-- The log of the whole process. -/
def log (s : Server) : List Act := s.past ++ (s.session.map Session.log).getD []

/-- The safety task in charge, or the last one that was. -/
def safety? (s : Server) : Option SafetyTask :=
  match s.session with
  | some session => some session.safety
  | none => s.dropped

end Server

/-! ## The promise -/

/-- The entry latches the robot: an explicit stop or a bridge death, or an
arbitration that found a latch. -/
def Act.latches : Act → Bool
  | .estopTriggered => true
  | .arbitrated i => i.estopLatched
  | _ => false

/-- The robot was latched and no explicit clear came since. -/
def LatchedInLog (log : List Act) : Prop :=
  Since (fun _ a => a.latches = true) (fun a => a = .estopCleared) log

/-- A latched robot is arbitrated to `EStop` until an explicit clear. -/
def OnlyClearReleases (log : List Act) : Prop :=
  Always (fun past a => ∀ i ∈ a.arbitrated?, LatchedInLog past → arbitrate i = .eStop) log

/-- The log is latched by its last latching act, or as it was. -/
theorem latchedInLog_concat (l : List Act) (a : Act) :
    LatchedInLog (l ++ [a]) ↔ a.latches = true ∨ (LatchedInLog l ∧ a ≠ .estopCleared) :=
  since_concat _ _ _ _

instance (log : List Act) : Decidable (LatchedInLog log) :=
  inferInstanceAs (Decidable (Since _ _ _))

instance (log : List Act) : Decidable (OnlyClearReleases log) :=
  inferInstanceAs (Decidable (Always _ _))

/-- What a session keeps true of the log `pre` before it and its own. -/
structure SafetyView.Keeps (pre : List Act) (v : SafetyView) : Prop where
  only : OnlyClearReleases (pre ++ v.log)
  latched : LatchedInLog (pre ++ v.log) ↔ v.safety.isEstopped = true

/-- An act that arbitrates nothing releases nothing. -/
theorem OnlyClearReleases.concat {l : List Act} (h : OnlyClearReleases l) {a : Act}
    (ha : a.arbitrated? = none) : OnlyClearReleases (l ++ [a]) :=
  (always_concat _ _ _).mpr ⟨h, by simp [ha]⟩

/-- A view that grows by an entry that neither latches nor clears nor
arbitrates. -/
theorem SafetyView.Keeps.concat {pre : List Act} {v w : SafetyView} (h : v.Keeps pre) {a : Act}
    (hlog : w.log = v.log ++ [a]) (ha : a.arbitrated? = none) (hlatch : a.latches = false)
    (hclear : a ≠ .estopCleared) (hsafety : w.safety.isEstopped = v.safety.isEstopped) :
    w.Keeps pre := by
  refine ⟨?_, ?_⟩
  · rw [hlog, ← List.append_assoc]
    exact h.only.concat ha
  · rw [hlog, ← List.append_assoc, latchedInLog_concat, hsafety, ← h.latched]
    simp [hlatch, hclear]

/-- A quiet act neither latches nor clears. -/
theorem Act.quiet_not_latches {a : Act} (h : a.quiet = true) :
    a.latches = false ∧ a ≠ .estopCleared := by
  cases a <;> simp_all [quiet, latches]

/-- Each move changes the latch as it changes the log. -/
theorem SafetyView.Keeps.apply {pre : List Act} {v : SafetyView} (h : v.Keeps pre)
    (m : SafetyMove) : (m.apply v).Keeps pre := by
  have hassoc (a : Act) : pre ++ (v.log ++ [a]) = (pre ++ v.log) ++ [a] :=
    (List.append_assoc ..).symm
  cases m with
  | note a =>
      obtain ⟨hlatch, hclear⟩ := Act.quiet_not_latches a.2
      exact h.concat rfl (Act.quiet_arbitrated? a.2) hlatch hclear rfl
  | activity now => exact ⟨h.only, h.latched.trans (by simp [SafetyMove.apply])⟩
  | accept seq => exact h.concat rfl rfl rfl (by simp) rfl
  | arbitrate now asserted =>
      have hpoll (hlatched : LatchedInLog (pre ++ v.log)) : (v.safety.poll now).isEstopped = true :=
        (v.safety.poll_isEstopped now).mpr (Or.inl (h.latched.mp hlatched))
      refine ⟨?_, ?_⟩
      · simp only [SafetyMove.apply, hassoc]
        refine (always_concat _ _ _).mpr ⟨h.only, ?_⟩
        intro i hi hlatched
        obtain rfl : (v.safety.poll now).inputs asserted = i := by
          simpa [Act.arbitrated?] using hi
        exact (arbitrate_eq_eStop _).mpr (hpoll hlatched)
      · simp only [SafetyMove.apply, hassoc, latchedInLog_concat]
        exact ⟨fun h' => h'.elim id fun h' => hpoll h'.1, Or.inl⟩
  | dispatch seq => exact h.concat rfl rfl rfl (by simp) rfl
  | trigger =>
      refine ⟨?_, ?_⟩
      · simp only [SafetyMove.apply, hassoc]
        exact h.only.concat rfl
      · simp only [SafetyMove.apply, hassoc, latchedInLog_concat]
        simp [Act.latches]
  | clear now =>
      refine ⟨?_, ?_⟩
      · simp only [SafetyMove.apply, hassoc]
        exact h.only.concat rfl
      · simp only [SafetyMove.apply, hassoc, latchedInLog_concat]
        simp [Act.latches]
  | relay active => exact ⟨h.only, h.latched⟩
  | order cmd => exact h.concat rfl rfl rfl (by simp) rfl
  | done i => exact h.concat rfl rfl rfl (by simp) rfl

/-- A fresh session keeps an unlatched log. -/
theorem SafetyView.Keeps.new {pre : List Act} (hpre : OnlyClearReleases pre)
    (hlatch : ¬ LatchedInLog pre) (args : ServerArgs) (goal : AutonomyGoal) (now : Instant) :
    (Session.new args goal now).view.Keeps pre where
  only := by
    rw [show (Session.new args goal now).view.log = [] from rfl, List.append_nil]
    exact hpre
  latched := by
    rw [show (Session.new args goal now).view.log = [] from rfl, List.append_nil]
    exact iff_of_false hlatch (by
      simp [Session.new, Session.view, SafetyTask.withWatchdogThresholdMs,
        Watchdog.withThresholdMs])

/-- A session's event keeps the log of earlier sessions in force. -/
theorem SafetyView.Keeps.step {pre : List Act} {s : Session} (h : s.view.Keeps pre)
    (fb : FlatBuffers) (e : Session.Event) : (s.step fb e).view.Keeps pre :=
  (Session.step_moves fb s e).inv (fun _ m _ hv => hv.apply m) h

namespace Server

/-- No session is built while the one before it was dropped latched. -/
def CleanConnect (s : Server) : Event → Prop
  | .connect _ => s.session.isSome = true ∨ ∀ t ∈ s.dropped, t.isEstopped = false
  | _ => True

instance (s : Server) (e : Event) : Decidable (s.CleanConnect e) := by
  cases e <;> unfold CleanConnect <;> infer_instance

/-- The log is kept, and the safety task in charge remembers it. -/
structure Inv (s : Server) : Prop where
  only : OnlyClearReleases s.log
  latched : LatchedInLog s.log ↔ ∃ t ∈ s.safety?, t.isEstopped = true

/-- The state of the server as its session sees it. -/
theorem inv_session {s : Server} {session : Session} (hs : s.session = some session) :
    s.Inv ↔ session.view.Keeps s.past := by
  constructor
  · rintro ⟨honly, hlatched⟩
    simp only [log, safety?, hs, Option.map_some, Option.getD_some] at honly hlatched
    exact ⟨honly, hlatched.trans (by simp [Session.view])⟩
  · rintro ⟨honly, hlatched⟩
    refine ⟨?_, ?_⟩
    · simp only [log, hs, Option.map_some, Option.getD_some]
      exact honly
    · simp only [log, safety?, hs, Option.map_some, Option.getD_some]
      exact hlatched.trans (by simp [Session.view])

/-- A clean step of the server keeps the log and the memory of it. -/
theorem Inv.step {s : Server} (h : s.Inv) (fb : FlatBuffers) (args : ServerArgs) {e : Event}
    (hclean : s.CleanConnect e) : (s.step fb args e).Inv := by
  cases hs : s.session with
  | none =>
      cases e with
      | session e => simpa [Server.step, hs] using h
      | autonomySample payload now =>
          simp only [Server.step, hs]
          exact ⟨by simpa [log, hs] using h.only, by simpa [log, safety?, hs] using h.latched⟩
      | connect now =>
          have hunlatched : ¬ LatchedInLog s.past := by
            have hlog : s.log = s.past := by simp [log, hs]
            rw [← hlog, h.latched]
            rintro ⟨t, ht, htrue⟩
            simp only [safety?, hs] at ht
            simp only [CleanConnect, hs, Option.isSome_none, Bool.false_eq_true, false_or] at hclean
            rw [hclean t ht] at htrue
            exact Bool.noConfusion htrue
          have honly : OnlyClearReleases s.past := by simpa [log, hs] using h.only
          simp only [Server.step, hs]
          exact (inv_session rfl).mpr (.new honly hunlatched args s.goal now)
  | some session =>
      have hkeeps := (inv_session hs).mp h
      cases e with
      | connect now => simpa [Server.step, hs] using h
      | autonomySample payload now => simpa [Server.step, hs] using h
      | session e =>
          have hnext := hkeeps.step fb e
          simp only [Server.step, hs]
          split_ifs with hended
          · refine ⟨?_, ?_⟩
            · simp only [log, Option.map_none, Option.getD_none, List.append_nil]
              exact hnext.only
            · simp only [log, safety?, Option.map_none, Option.getD_none, List.append_nil]
              exact hnext.latched.trans (by simp [Session.view])
          · exact (inv_session rfl).mpr hnext

/-- The invariant holds when the server starts. -/
theorem Inv.new (goal : AutonomyGoal) : (Server.new goal).Inv where
  only := always_nil _
  latched := by simp [log, safety?, Server.new, LatchedInLog]

/-- In every run that never builds a session over a latch, a latched robot is
arbitrated to `EStop` until the operator clears it. -/
theorem onlyClearReleases_of_cleanConnects (fb : FlatBuffers) (args : ServerArgs)
    (goal : AutonomyGoal) (es : List Event)
    (hclean : Along (step fb args) CleanConnect (.new goal) es) :
    OnlyClearReleases (exec (step fb args) (.new goal) es).log :=
  (exec_inv_along (fun _ _ hs he => hs.step fb args he) es (Inv.new goal) hclean).only

/-- One session is stopped and cleared before it closes, the next one ticks. -/
def clearedRun : List Event :=
  let clk := Clock.const 0
  [.connect 0,
    .session (.datagram (EstopDatagram.encode { latched := true, seq := 1 }) clk),
    .session (.datagram (EstopDatagram.encode { latched := false, seq := 2 }) clk),
    .session (.exit .closed),
    .connect 0,
    .session (.tick clk { established := true, estopStreamOk := true, captureUs := 0 })]

/-- A latch that an operator clears. -/
theorem onlyClearReleases_of_cleanConnects_cleared :
    OnlyClearReleases (exec (step .fixedLayout sampleArgs) (.new (.new 0)) clearedRun).log :=
  onlyClearReleases_of_cleanConnects .fixedLayout sampleArgs (.new 0) clearedRun
    (by decide +kernel)

/-- The operator stops the robot, loses the connection and reconnects. -/
def reconnectRun : List Event :=
  let clk := Clock.const 0
  [.connect 0,
    .session (.datagram (EstopDatagram.encode { latched := true, seq := 1 }) clk),
    .session (.exit .closed),
    .connect 0,
    .session (.tick clk { established := true, estopStreamOk := true, captureUs := 0 })]

/-- A latch that is gone with its session. -/
theorem onlyClearReleases_fails_for_reconnect :
    ¬ OnlyClearReleases (exec (step .fixedLayout sampleArgs) (.new (.new 0)) reconnectRun).log := by
  decide +kernel

end Server

end RoboTele
