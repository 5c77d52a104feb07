import RoboTele.RobotEdge.Supervisor

/-!
# What a restarted bridge is written

A bridge process that dies takes its E-Stop latch with it, and the next one
starts unlatched.  `robot-edge` latches itself when it learns of the death.  So
the next process should be told to move only after the operator cleared that,
which it learns by an `EstopClear`.  `Replays` is the step that breaks this: a
motion command written to a process that was not cleared yet.

The supervisor takes whatever the queue holds.  So the rule rests on what the
session sent and when.  `AnsweredFirst` is the condition: a process that is
replaced leaves no motion command in the queue, and until an `EstopClear`
answers its death nothing drives.  The invariant is `Shielded`: the first motion
command in the queue stands behind an `EstopClear` that answers the death
(`clearsFirst`).
-/

namespace RoboTele

open Runs

/-! ## A queue behind a clear -/

/-- An `EstopClear` stands in the queue, past the first `n` commands, and no
command before it sets the robot in motion. -/
def clearsFirst : Nat → List BridgeCommand → Bool
  | _, [] => false
  | 0, c :: q => c.isEstopClear || (!c.actuates && clearsFirst 0 q)
  | n + 1, c :: q => !c.actuates && clearsFirst n q

theorem BridgeCommand.not_actuates_of_clear {c : BridgeCommand} (h : c.isEstopClear = true) :
    c.actuates = false := by
  cases c with
  | estopClear seq => rfl
  | _ => simp [isEstopClear] at h

theorem clearsFirst_head {n : Nat} {c : BridgeCommand} {q : List BridgeCommand}
    (h : clearsFirst n (c :: q) = true) : c.actuates = false := by
  cases n with
  | zero =>
      simp only [clearsFirst, Bool.or_eq_true, Bool.and_eq_true, Bool.not_eq_true'] at h
      exact h.elim BridgeCommand.not_actuates_of_clear And.left
  | succ n =>
      simp only [clearsFirst, Bool.and_eq_true, Bool.not_eq_true'] at h
      exact h.1

/-- The rest of the queue, unless its head was the clear. -/
theorem clearsFirst_tail {n : Nat} {c : BridgeCommand} {q : List BridgeCommand}
    (h : clearsFirst n (c :: q) = true) (hc : n = 0 → c.isEstopClear = false) :
    clearsFirst (n - 1) q = true := by
  cases n with
  | zero =>
      simp only [clearsFirst, hc rfl, Bool.false_or, Bool.and_eq_true] at h
      exact h.2
  | succ n =>
      simp only [clearsFirst, Bool.and_eq_true] at h
      exact h.2

/-- New commands stand behind the clear. -/
theorem clearsFirst_append {n : Nat} {q : List BridgeCommand} (h : clearsFirst n q = true)
    (new : List BridgeCommand) : clearsFirst n (q ++ new) = true := by
  induction q generalizing n with
  | nil => simp [clearsFirst] at h
  | cons c q ih =>
      cases n with
      | zero =>
          simp only [clearsFirst, List.cons_append, Bool.or_eq_true, Bool.and_eq_true] at h ⊢
          exact h.imp_right fun hq => ⟨hq.1, ih hq.2⟩
      | succ n =>
          simp only [clearsFirst, List.cons_append, Bool.and_eq_true] at h ⊢
          exact ⟨h.1, ih h.2⟩

/-- A clear that joins a queue without motion. -/
theorem clearsFirst_of_idle {n : Nat} {q new : List BridgeCommand}
    (hq : ∀ c ∈ q, c.actuates = false) (hn : n ≤ q.length) (hnew : clearsFirst 0 new = true) :
    clearsFirst n (q ++ new) = true := by
  induction q generalizing n with
  | nil =>
      obtain rfl : n = 0 := Nat.le_zero.mp hn
      exact hnew
  | cons c q ih =>
      have hc : c.actuates = false := hq c (List.mem_cons_self ..)
      have hrest : ∀ d ∈ q, d.actuates = false := fun d hd => hq d (List.mem_cons_of_mem _ hd)
      cases n with
      | zero => simp [clearsFirst, hc, ih hrest (Nat.zero_le _)]
      | succ n => simp [clearsFirst, hc, ih hrest (Nat.le_of_succ_le_succ hn)]

theorem any_of_clearsFirst {n : Nat} {q : List BridgeCommand} (h : clearsFirst n q = true) :
    q.any BridgeCommand.isEstopClear = true := by
  induction q generalizing n with
  | nil => simp [clearsFirst] at h
  | cons c q ih =>
      rw [List.any_cons, Bool.or_eq_true]
      cases n with
      | zero =>
          simp only [clearsFirst, Bool.or_eq_true, Bool.and_eq_true] at h
          exact h.imp_right fun hq => ih hq.2
      | succ n =>
          simp only [clearsFirst, Bool.and_eq_true] at h
          exact Or.inr (ih h.2)

@[simp] theorem clearsFirst_unnumbered (n : Nat) (q : List BridgeCommand) :
    clearsFirst n (q.map BridgeCommand.unnumbered) = clearsFirst n q := by
  induction q generalizing n with
  | nil => rfl
  | cons c q ih => cases n <;> simp [clearsFirst, ih]

/-! ## What a session drives -/

namespace Session

/-- The event is arbitrated to a source that drives, and has something to
drive. -/
def drives (fb : FlatBuffers) (s : Session) (e : Event) : Bool :=
  !s.ended.isSome &&
    match e with
    | .datagram data clk =>
        (s.admittedCommand fb data).any fun a =>
          decide (s.commandSource a.1 clk = .fullTeleoperation)
    | .streamData streamId data clk _ =>
        decide (streamId = actionTriggerStreamId ∧ s.phase = .operating ∧
          (s.triggerDedup.accept (decodeActionTrigger fb data)).2 = true ∧
          (s.arbitrate (clk.read 0) (clk.read 1)).2 = .fullTeleoperation)
    | .tick clk _ => decide (s.tickSource clk = .semiAutonomous)
    | _ => false

/-- A tick that ends a stop clears the bridge before it orders anything else. -/
def clearsBridge (s : Session) (e : Event) : Bool :=
  match e with
  | .tick clk _ => !s.ended.isSome && s.bridgeEstopActive && decide (s.tickSource clk ≠ .eStop)
  | _ => false

/-- What does not drive orders no motion. -/
theorem ordersOf_idle {fb : FlatBuffers} {s : Session} {e : Event} (h : s.drives fb e = false) :
    ∀ c ∈ s.ordersOf fb e, c.actuates = false := by
  by_cases hended : s.ended.isSome = true
  · simp [ordersOf, hended]
  · unfold ordersOf
    rw [if_neg hended]
    simp only [drives, hended, Bool.not_false, Bool.true_and] at h
    cases e with
    | datagram data clk =>
        dsimp only at h ⊢
        cases hadm : s.admittedCommand fb data with
        | none => simp
        | some a =>
            rw [hadm, Option.any_some, decide_eq_false_iff_not] at h
            dsimp only [commandOrders]
            cases hsource : s.commandSource a.1 clk with
            | fullTeleoperation => exact absurd hsource h
            | semiAutonomous => simp
            | _ => simp [BridgeCommand.actuates]
    | streamData streamId data clk write =>
        dsimp only [actionOrders] at h ⊢
        rw [decide_eq_false_iff_not] at h
        split_ifs with hstream hnew
        · exact absurd ⟨hstream.1, hstream.2, hnew.1, hnew.2⟩ h
        · simp
        · simp
    | tick clk io =>
        dsimp only at h ⊢
        rw [decide_eq_false_iff_not] at h
        dsimp only [tickOrders, relayOrders, autonomyOrders]
        rw [if_neg h]
        split_ifs <;> simp [BridgeCommand.actuates]
    | exit exit => cases exit <;> simp [BridgeCommand.actuates]
    | _ => simp

/-- A tick that ends a stop orders the `EstopClear` ahead of any motion. -/
theorem ordersOf_clearsBridge {fb : FlatBuffers} {s : Session} {e : Event}
    (h : s.clearsBridge e = true) : clearsFirst 0 (s.ordersOf fb e) = true := by
  cases e with
  | tick clk io =>
      simp only [clearsBridge, Bool.and_eq_true, Bool.not_eq_true', decide_eq_true_eq] at h
      obtain ⟨⟨hended, hactive⟩, hstop⟩ := h
      have horders : s.ordersOf fb (.tick clk io) = s.tickOrders clk := by
        rw [ordersOf, if_neg (by simp [hended])]
      rw [horders, tickOrders, relayOrders, if_neg hstop, if_pos hactive]
      rfl
  | _ => simp [clearsBridge] at h

/-- Nothing else orders an `EstopClear`. -/
theorem ordersOf_not_clear {fb : FlatBuffers} {s : Session} {e : Event}
    (h : s.clearsBridge e = false) : ∀ c ∈ s.ordersOf fb e, c.isEstopClear = false := by
  by_cases hended : s.ended.isSome = true
  · simp [ordersOf, hended]
  · unfold ordersOf
    rw [if_neg hended]
    cases e with
    | datagram data clk =>
        dsimp only
        cases s.admittedCommand fb data with
        | none => simp
        | some a =>
            dsimp only [commandOrders]
            cases s.commandSource a.1 clk with
            | fullTeleoperation =>
                dsimp only [driveOrders]
                split_ifs <;> simp [BridgeCommand.isEstopClear]
            | semiAutonomous => simp
            | _ => simp [BridgeCommand.isEstopClear]
    | streamData streamId data clk write =>
        dsimp only [actionOrders]
        split_ifs <;> simp [BridgeCommand.isEstopClear]
    | tick clk io =>
        simp only [clearsBridge, hended, Bool.not_false, Bool.true_and, Bool.and_eq_false_iff,
          decide_eq_false_iff_not, not_not] at h
        dsimp only [tickOrders, relayOrders, autonomyOrders]
        by_cases hstop : s.tickSource clk = .eStop
        · rw [if_pos hstop]
          split_ifs <;> simp [BridgeCommand.isEstopClear]
        · rw [if_neg hstop, if_neg (by simpa [hstop] using h)]
          split_ifs <;> simp [BridgeCommand.isEstopClear]
    | exit exit => cases exit <;> simp [BridgeCommand.isEstopClear]
    | _ => simp

end Session

namespace System

/-! ## The rule -/

/-- The supervisor writes a motion command to a process that follows a death
and was not cleared. -/
def Replays (s : System) : Event → Prop
  | .write true _ =>
      s.death ≠ .none ∧ ∃ child ∈ s.child?, child.cleared = false ∧
        ∃ c ∈ s.queue.head?, c.actuates = true
  | _ => False

instance (s : System) : (e : Event) → Decidable (s.Replays e)
  | .write true _ => inferInstanceAs (Decidable (_ ∧ _))
  | .write false _ | .session _ | .observe | .spawn _ _ | .gone _ | .hangUp | .report
  | .line _ _ | .poll _ _ => .isFalse id

/-- The session sent an `EstopClear` since it knew of the last death. -/
def answered (s : System) : Bool :=
  match s.death with
  | .none => true
  | .unseen _ => false
  | .seen mark => (s.session.commands.drop mark).any BridgeCommand.isEstopClear

/-- The supervisor is done. -/
def returned (s : System) : Bool :=
  match s.supervisor.phase with
  | .returned => true
  | _ => false

/-- The supervisor would start another process if this one were gone now. -/
def restarts (config : BridgeConfig) (s : System) (clk : Clock) : Bool :=
  s.child?.isSome && !(s.fail config clk).returned

/-- A process that is replaced leaves no motion command in the queue.  While its
death is unanswered nothing drives, but a tick that clears the bridge first. -/
def AnsweredFirst (fb : FlatBuffers) (config : BridgeConfig) (s : System) : Event → Prop
  | .session e =>
      s.answered = false → s.returned = false → s.session.drives fb e.1 = true →
        s.death.isSeen = true ∧ s.session.clearsBridge e.1 = true
  | .gone clk => s.restarts config clk = true → ∀ c ∈ s.queue, c.actuates = false
  | .write false clk => s.restarts config clk = true → ∀ c ∈ s.queue.tail, c.actuates = false
  | _ => True

instance (fb : FlatBuffers) (config : BridgeConfig) (s : System) :
    (e : Event) → Decidable (s.AnsweredFirst fb config e)
  | .session _ => inferInstanceAs (Decidable (_ → _ → _ → _))
  | .gone _ => inferInstanceAs (Decidable (_ → _))
  | .write false _ => inferInstanceAs (Decidable (_ → _))
  | .write true _ | .observe | .spawn _ _ | .hangUp | .report | .line _ _ | .poll _ _ =>
      .isTrue trivial

/-! ## The invariant -/

/-- A process that was not cleared yet runs or will run. -/
def uncleared (s : System) : Bool :=
  match s.supervisor.phase with
  | .restarting _ => true
  | .running child => !child.cleared
  | .returned => false

/-- The queue holds no motion command for a process that was not cleared, or an
`EstopClear` that answers the death goes first. -/
structure Shielded (s : System) : Prop where
  taken_le : s.taken ≤ s.session.commands.length
  mark_le : ∀ mark, s.death = .seen mark → mark ≤ s.session.commands.length
  idle : s.uncleared = true → s.answered = false → ∀ c ∈ s.queue, c.actuates = false
  shield : s.uncleared = true → ∀ mark, s.death = .seen mark → s.answered = true →
    clearsFirst (mark - s.taken) s.queue = true

/-- A step that leaves the queue and the death alone, and no process behind that
needs clearing. -/
theorem Shielded.of_eq {s t : System} (h : s.Shielded) (hsession : t.session = s.session)
    (htaken : t.taken = s.taken) (hdeath : t.death = s.death)
    (huncleared : t.uncleared = true → s.uncleared = true) : t.Shielded := by
  have hqueue : t.queue = s.queue := by rw [queue, hsession, htaken, queue]
  have hanswered : t.answered = s.answered := by rw [answered, hsession, hdeath, answered]
  refine ⟨?_, ?_, ?_, ?_⟩
  · rw [htaken, hsession]
    exact h.taken_le
  · rw [hdeath, hsession]
    exact h.mark_le
  · rw [hqueue, hanswered]
    exact fun ht => h.idle (huncleared ht)
  · rw [hqueue, hanswered, hdeath, htaken]
    exact fun ht => h.shield (huncleared ht)

theorem answered_of_seen {s : System} {mark : Nat} (h : s.death = .seen mark) :
    s.answered = (s.session.commands.drop mark).any BridgeCommand.isEstopClear := by
  rw [answered, h]

/-- What the session sends after a death does not answer it until a clear. -/
theorem answered_append {s t : System} {mark : Nat} {new : List BridgeCommand}
    (hs : s.death = .seen mark) (ht : t.death = .seen mark)
    (hmark : mark ≤ s.session.commands.length)
    (hcommands : t.session.commands = s.session.commands ++ new) :
    t.answered = (s.answered || new.any BridgeCommand.isEstopClear) := by
  rw [answered_of_seen ht, answered_of_seen hs, hcommands,
    List.drop_append_of_le_length hmark, List.any_append]

theorem uncleared_of_running {s : System} {child : Child}
    (h : s.supervisor.phase = .running child) : s.uncleared = !child.cleared := by
  rw [uncleared, h]

theorem returned_of_uncleared {s : System} (h : s.uncleared = true) : s.returned = false := by
  unfold uncleared at h
  rw [returned]
  cases hphase : s.supervisor.phase <;> simp_all

/-- The commands of a step, by its orders. -/
theorem mem_of_orders {fb : FlatBuffers} {s : Session} {e : Session.Event}
    {new : List BridgeCommand} (horders : new.map BridgeCommand.unnumbered = s.ordersOf fb e)
    {c : BridgeCommand} (hc : c ∈ new) : c.unnumbered ∈ s.ordersOf fb e := by
  rw [← horders]
  exact List.mem_map_of_mem hc

/-- Only a tick that ends a stop sends an `EstopClear`. -/
theorem clearsBridge_of_clear {fb : FlatBuffers} {s : Session} {e : Session.Event}
    {new : List BridgeCommand} (horders : new.map BridgeCommand.unnumbered = s.ordersOf fb e)
    (h : new.any BridgeCommand.isEstopClear = true) : s.clearsBridge e = true := by
  obtain ⟨c, hc, hclear⟩ := List.any_eq_true.mp h
  by_contra hnot
  have hother := Session.ordersOf_not_clear (by simpa using hnot) _ (mem_of_orders horders hc)
  rw [c.isEstopClear_unnumbered, hclear] at hother
  exact Bool.noConfusion hother

/-- A step of the session that meets the condition. -/
theorem Shielded.session {s t : System} (h : s.Shielded) (fb : FlatBuffers) (e : Session.Event)
    (hsession : t.session = s.session.step fb e) (htaken : t.taken = s.taken)
    (hdeath : t.death = s.death) (hphase : t.supervisor.phase = s.supervisor.phase)
    (he : s.answered = false → s.returned = false → s.session.drives fb e = true →
      s.death.isSeen = true ∧ s.session.clearsBridge e = true) : t.Shielded := by
  obtain ⟨new, hnew, horders⟩ := s.session.step_commands fb e
  have hcommands : t.session.commands = s.session.commands ++ new := by rw [hsession, hnew]
  have hqueue := queue_append htaken hcommands h.taken_le
  have huncleared : t.uncleared = s.uncleared := by rw [uncleared, hphase, uncleared]
  have hlength : s.session.commands.length ≤ t.session.commands.length := by
    rw [hcommands, List.length_append]
    exact Nat.le_add_right _ _
  have hclears (hclear : s.session.clearsBridge e = true) : clearsFirst 0 new = true := by
    rw [← clearsFirst_unnumbered, horders]
    exact Session.ordersOf_clearsBridge hclear
  refine { taken_le := ?taken_le, mark_le := ?mark_le, idle := ?idle, shield := ?shield }
  case taken_le =>
    rw [htaken]
    exact h.taken_le.trans hlength
  case mark_le =>
    rw [hdeath]
    exact fun mark hmark => (h.mark_le mark hmark).trans hlength
  case idle =>
    intro hopen hunanswered
    rw [huncleared] at hopen
    -- No clear was sent by this step, so the condition rules out that it drives.
    have hsplit : s.answered = false ∧
        (s.death.isSeen = true → new.any BridgeCommand.isEstopClear = false) := by
      cases hs : s.death with
      | none => simp [answered, hdeath, hs] at hunanswered
      | unseen ahead => simp [answered, hs, Death.isSeen]
      | seen mark =>
          rw [answered_append hs (hdeath.trans hs) (h.mark_le mark hs) hcommands,
            Bool.or_eq_false_iff] at hunanswered
          exact ⟨hunanswered.1, fun _ => hunanswered.2⟩
    have hidle : s.session.drives fb e = false := by
      by_contra hdrives
      obtain ⟨hseen, hclear⟩ := he hsplit.1 (returned_of_uncleared hopen) (by simpa using hdrives)
      have hany := any_of_clearsFirst (hclears hclear)
      rw [hsplit.2 hseen] at hany
      exact Bool.noConfusion hany
    intro c hc
    rw [hqueue, List.mem_append] at hc
    cases hc with
    | inl hc => exact h.idle hopen hsplit.1 c hc
    | inr hc =>
        rw [← c.actuates_unnumbered]
        exact Session.ordersOf_idle hidle _ (mem_of_orders horders hc)
  case shield =>
    intro hopen mark hmark hanswered
    rw [huncleared] at hopen
    rw [hdeath] at hmark
    rw [hqueue, htaken]
    cases hs : s.answered with
    | true => exact clearsFirst_append (h.shield hopen mark hmark hs) new
    | false =>
        -- This step sent the clear.
        rw [answered_append hmark (hdeath.trans hmark) (h.mark_le mark hmark) hcommands, hs,
          Bool.false_or] at hanswered
        refine clearsFirst_of_idle (h.idle hopen hs) ?_
          (hclears (clearsBridge_of_clear horders hanswered))
        rw [queue, List.length_drop]
        exact Nat.sub_le_sub_right (h.mark_le mark hmark) _

/-- The session learns of a death, or of something else the supervisor tells. -/
theorem Shielded.observe {s : System} (h : s.Shielded) (fb : FlatBuffers) :
    (s.observe fb).Shielded := by
  rw [System.observe]
  cases s.events with
  | nil => exact h
  | cons event rest =>
      have hsession : System.Shielded
          { s with session := s.session.step fb (.bridgeEvent event), events := rest } :=
        h.session fb (.bridgeEvent event) rfl rfl rfl rfl (by simp [Session.drives])
      dsimp only
      cases hdeath : s.death with
      | none => exact hsession.of_eq rfl rfl hdeath.symm id
      | seen mark => exact hsession.of_eq rfl rfl hdeath.symm id
      | unseen ahead =>
          have hidle (hopen : s.uncleared = true) :=
            hsession.idle hopen (by simp [answered, hdeath])
          cases ahead with
          | succ ahead => exact ⟨hsession.taken_le, nofun, fun hopen _ => hidle hopen, nofun⟩
          | zero =>
              refine ⟨hsession.taken_le, ?_, ?_, ?_⟩
              · rintro mark ⟨⟩
                exact Nat.le_refl _
              · intro hopen _
                exact hidle hopen
              · rintro - mark ⟨⟩ hanswered
                simp [answered] at hanswered

/-- The supervisor finds its process gone. -/
theorem Shielded.die {s : System} (config : BridgeConfig) (clk : Clock)
    (htaken : s.taken ≤ s.session.commands.length)
    (hqueue : (s.fail config clk).returned = false → ∀ c ∈ s.queue, c.actuates = false) :
    (s.die config clk).Shielded := by
  refine ⟨htaken, nofun, ?_, nofun⟩
  intro hopen _
  exact hqueue (returned_of_uncleared hopen)

theorem Shielded.write {s : System} (h : s.Shielded) (fb : FlatBuffers) (config : BridgeConfig)
    (ok : Bool) (clk : Clock) (he : s.AnsweredFirst fb config (.write ok clk)) :
    (s.write config ok clk).Shielded := by
  rw [System.write]
  split
  next child cmd rest hphase hqueue =>
    obtain ⟨hlt, hrest⟩ := take_of_queue hqueue
    cases ok with
    | false =>
        refine .die config clk hlt ?_
        intro hrestarts
        have hrestart : s.restarts config clk = true := by
          rw [restarts, child?_of_running hphase, Bool.and_eq_true, Bool.not_eq_true']
          exact ⟨rfl, hrestarts⟩
        rw [hrest]
        simpa [hqueue] using he hrestart
    | true =>
        rw [if_pos rfl]
        have hopen (hnext : (s.take.setPhase
            (.running (child.write cmd (s.answers cmd)))).uncleared = true) :
            s.uncleared = true ∧ s.answers cmd = false := by
          have hwritten : (s.take.setPhase (.running (child.write cmd (s.answers cmd)))).uncleared =
              !(child.cleared || s.answers cmd) := rfl
          rw [hwritten] at hnext
          simpa [uncleared_of_running hphase] using hnext
        refine ⟨hlt, h.mark_le, ?_, ?_⟩
        · intro hnext hunanswered c hc
          rw [queue_setPhase, hrest] at hc
          have hmem : c ∈ s.queue := by rw [hqueue]; exact List.mem_cons_of_mem _ hc
          exact h.idle (hopen hnext).1 hunanswered c hmem
        · intro hnext mark hmark hanswered
          have hshield := h.shield (hopen hnext).1 mark hmark hanswered
          rw [hqueue] at hshield
          rw [queue_setPhase, hrest]
          apply clearsFirst_tail hshield
          intro hpast
          have hmark' : s.death = .seen mark := hmark
          have hanswers := (hopen hnext).2
          simp only [answers, hmark', Bool.and_eq_false_iff, decide_eq_false_iff_not] at hanswers
          exact hanswers.resolve_right (not_not.mpr (Nat.sub_eq_zero_iff_le.mp hpast))
  next => exact h

/-- A process that is gone leaves the queue shielded. -/
theorem Shielded.gone {s : System} (h : s.Shielded) (fb : FlatBuffers) (config : BridgeConfig)
    (clk : Clock) (he : s.AnsweredFirst fb config (.gone clk)) : (s.gone config clk).Shielded := by
  rw [System.gone]
  cases hphase : s.supervisor.phase with
  | running child =>
      refine .die config clk h.taken_le ?_
      intro hrestarts
      apply he
      rw [restarts, child?_of_running hphase, Bool.and_eq_true, Bool.not_eq_true']
      exact ⟨rfl, hrestarts⟩
  | _ => exact h

/-- A new process starts shielded. -/
theorem Shielded.spawn {s : System} (h : s.Shielded) (config : BridgeConfig) (ok : Bool)
    (clk : Clock) : (s.spawn config ok clk).Shielded := by
  rw [System.spawn]
  cases hphase : s.supervisor.phase with
  | restarting notBefore =>
      have hopen : s.uncleared = true := by rw [uncleared, hphase]
      dsimp only
      split_ifs
      · exact h
      · exact h.of_eq rfl rfl rfl fun _ => hopen
      · exact h.of_eq rfl rfl rfl fun _ => hopen
  | _ => exact h

/-- A step of the process, or of the supervisor with it. -/
theorem Shielded.onChild {s t : System} (h : s.Shielded) (hsession : t.session = s.session)
    (htaken : t.taken = s.taken) (hdeath : t.death = s.death) {child next : Child}
    (hs : s.supervisor.phase = .running child) (ht : t.supervisor.phase = .running next)
    (hcleared : next.cleared = child.cleared) : t.Shielded := by
  apply h.of_eq hsession htaken hdeath
  intro hopen
  rw [uncleared_of_running ht, hcleared] at hopen
  rwa [uncleared_of_running hs]

theorem onLine_cleared (child : Child) (py : Builtins) (clk : Clock) (io : BackendIo) :
    (child.onLine py clk io).cleared = child.cleared := by
  rw [Child.onLine]
  split <;> rfl

/-- Every step that meets the condition keeps the queue shielded. -/
theorem Shielded.step {s : System} (h : s.Shielded) (fb : FlatBuffers) (py : Builtins)
    (config : BridgeConfig) {e : Event} (he : s.AnsweredFirst fb config e) :
    (s.step fb py config e).Shielded := by
  cases e with
  | session e => exact h.session fb e.1 rfl rfl rfl rfl he
  | observe => exact h.observe fb
  | spawn ok clk => exact h.spawn config ok clk
  | write ok clk => exact h.write fb config ok clk he
  | gone clk => exact h.gone fb config clk he
  | hangUp =>
      show s.hangUp.Shielded
      rw [System.hangUp]
      cases s.supervisor.phase with
      | running child =>
          dsimp only
          split_ifs
          · exact h.of_eq rfl rfl rfl nofun
          · exact h
      | _ => exact h
  | report =>
      show s.report.Shielded
      rw [System.report]
      cases hphase : s.supervisor.phase with
      | running child =>
          dsimp only
          split
          · exact h
          · exact h.onChild rfl rfl rfl hphase rfl rfl
      | _ => exact h
  | line clk io =>
      show (s.onChild _).Shielded
      rw [System.onChild]
      cases hphase : s.supervisor.phase with
      | running child => exact h.onChild rfl rfl rfl hphase rfl (onLine_cleared child py clk io)
      | _ => exact h
  | poll now io =>
      show (s.onChild _).Shielded
      rw [System.onChild]
      cases hphase : s.supervisor.phase with
      | running child => exact h.onChild rfl rfl rfl hphase rfl rfl
      | _ => exact h

theorem Shielded.new (args : ServerArgs) (goal : AutonomyGoal) (now : Instant) :
    (System.new args goal now).Shielded :=
  ⟨Nat.zero_le _, nofun, nofun, nofun⟩

/-- A shielded queue replays nothing. -/
theorem Shielded.not_replays {s : System} (h : s.Shielded) (e : Event) : ¬ s.Replays e := by
  unfold Replays
  split
  · rintro ⟨hdeath, child, hchild, hcleared, c, hhead, hactuates⟩
    have hopen : s.uncleared = true := by
      cases hphase : s.supervisor.phase with
      | running running =>
          obtain rfl : running = child := by simpa [child?, hphase] using hchild
          rw [uncleared_of_running hphase, hcleared]
          rfl
      | _ => simp [child?, hphase] at hchild
    obtain ⟨rest, hqueue⟩ : ∃ rest, s.queue = c :: rest := List.head?_eq_some_iff.mp hhead
    have hidle : c.actuates = false := by
      cases hanswered : s.answered with
      | false => exact h.idle hopen hanswered c (by rw [hqueue]; exact List.mem_cons_self ..)
      | true =>
          cases hs : s.death with
          | none => exact absurd hs hdeath
          | unseen ahead => simp [answered, hs] at hanswered
          | seen mark =>
              have hshield := h.shield hopen mark hs hanswered
              rw [hqueue] at hshield
              exact clearsFirst_head hshield
    rw [hidle] at hactuates
    exact Bool.noConfusion hactuates
  · exact id

/-- In every run that meets the condition, no motion command is written to a
process that follows a death and was not cleared. -/
theorem neverReplays_of_answeredFirst (fb : FlatBuffers) (py : Builtins) (config : BridgeConfig)
    (args : ServerArgs) (goal : AutonomyGoal) (now : Instant) (es : List Event)
    (hanswered : Along (step fb py config) (AnsweredFirst fb config) (.new args goal now) es) :
    Along (step fb py config) (fun s e => ¬ s.Replays e) (.new args goal now) es :=
  along_of_inv (fun _ _ hs he => hs.step fb py config he) (fun _ e hs _ => hs.not_replays e) es
    (Shielded.new args goal now) hanswered

/-! ## Runs -/

/-- An operator opens a session and drives at 10 ms. -/
def driving : List Session.Event :=
  Session.opening .fixedLayout sampleArgs [] 0 ++
    [.datagram (commandDatagram .fixedLayout 0 1 (.forward 10)) (.const (fromMillis 10))]

/-- The process dies with nothing left in the queue.  The session latches, the
operator clears, and the next process is cleared before the operator drives. -/
def clearedRespawnRun : List Event :=
  let io : Session.TickIo := { established := true, estopStreamOk := true, captureUs := 0 }
  let again := Clock.const (fromMillis 510)
  [.spawn true (.const 0)] ++ Event.ofSession driving ++
    List.replicate 7 (.write true (.const (fromMillis 10))) ++
    [.gone (.const (fromMillis 20)), .observe] ++
    Event.ofSession [.tick (.const (fromMillis 25)) io] ++
    [.spawn true (.const (fromMillis 500))] ++
    Event.ofSession
      [.datagram (EstopDatagram.encode { latched := false, seq := 1 }) again, .tick again io,
        .datagram (commandDatagram .fixedLayout 0 2 (.forward 10)) again] ++
    List.replicate 11 (.write true again)

/-- The operator clears before the next process takes the queue. -/
theorem neverReplays_of_answeredFirst_cleared :
    Along (step .fixedLayout .plain .default) (fun s e => ¬ s.Replays e)
      (.new sampleArgs (.new 0) 0) clearedRespawnRun :=
  neverReplays_of_answeredFirst .fixedLayout .plain .default sampleArgs (.new 0) 0
    clearedRespawnRun (by decide +kernel)

/-- The process dies before the command that was queued for it is taken.  The
next process gets it. -/
def replayRun : List Event :=
  [.spawn true (.const 0)] ++ Event.ofSession driving ++
    [.gone (.const (fromMillis 12)), .observe, .spawn true (.const (fromMillis 500)),
      .write true (.const (fromMillis 500))]

/-- A command that was queued for the dead process moves the next one. -/
theorem neverReplays_fails_for_queuedCommand :
    ¬ Along (step .fixedLayout .plain .default) (fun s e => ¬ s.Replays e)
      (.new sampleArgs (.new 0) 0) replayRun := by
  decide +kernel

end System

end RoboTele
