import RoboTele.RobotEdge.SessionOrders
import RoboTele.RobotEdge.SessionRuns
import RoboTele.Runs.Past

/-!
# The order in which commands are applied

Channel B is unreliable and unordered, and its receiver is meant to drop a
command that is not newer than the newest one applied.  `AppliedInOrder` is
that rule for a run: the dispatched frames have increasing sequence numbers,
and a frame that is not newer than one already dispatched orders nothing.

The session dispatches every frame it can decode, in the order of arrival
(`dispatched_after`).  So the rule is a condition on the arrivals.
-/

namespace RoboTele

open Runs Past

/-- The number of a dispatched command. -/
def Act.dispatched? : Act → Option UInt64
  | .dispatched seq => some seq
  | _ => none

/-- The sequence numbers handed to `dispatch_teleop_command`, in order. -/
def dispatchedSeqs (log : List Act) : List UInt64 := log.filterMap Act.dispatched?

@[simp] theorem dispatchedSeqs_append (l m : List Act) :
    dispatchedSeqs (l ++ m) = dispatchedSeqs l ++ dispatchedSeqs m := List.filterMap_append

theorem Act.quiet_dispatched? {a : Act} (h : a.quiet = true) : a.dispatched? = none := by
  cases a with
  | dispatched seq => simp [quiet] at h
  | _ => rfl

namespace Session

/-- The sequence number of a Channel B Command frame. -/
def Event.commandSeq? (fb : FlatBuffers) : Event → Option UInt64
  | .datagram data _ =>
      match untag data with
      | some (tagByte, payload) =>
          let frame := decodeChannelBFrame fb payload
          if tagByte = datagramTagChannelB ∧ frame.category = .command then some frame.seq
          else none
      | none => none
  | _ => none

/-- The sequence number of a frame that the session dispatches. -/
def admittedSeq (fb : FlatBuffers) (s : Session) : Event → Option UInt64
  | .datagram data _ =>
      if s.ended.isSome then none else (s.admittedCommand fb data).map Prod.fst
  | _ => none

/-- Moves that dispatch nothing leave the dispatched frames alone. -/
theorem Moves.dispatchedSeqs_eq {A : SafetyMove → Prop} {s t : Session} (h : Moves A s t)
    (hA : ∀ seq, ¬ A (.dispatch seq)) : dispatchedSeqs t.log = dispatchedSeqs s.log := by
  refine h.inv (I := fun v => dispatchedSeqs v.log = dispatchedSeqs s.log) (fun v m hm hv => ?_) rfl
  rw [← hv]
  cases m with
  | note a => simp [SafetyMove.apply, dispatchedSeqs, Act.quiet_dispatched? a.2]
  | activity now => rfl
  | accept seq => simp [SafetyMove.apply, dispatchedSeqs, Act.dispatched?]
  | arbitrate now asserted => simp [SafetyMove.apply, dispatchedSeqs, Act.dispatched?]
  | dispatch seq => simp [SafetyMove.ordinary, hA seq] at hm
  | trigger => simp [SafetyMove.apply, dispatchedSeqs, Act.dispatched?]
  | clear now => simp [SafetyMove.apply, dispatchedSeqs, Act.dispatched?]
  | relay active => rfl
  | order cmd => simp [SafetyMove.apply, dispatchedSeqs, Act.dispatched?]
  | done i => simp [SafetyMove.apply, dispatchedSeqs, Act.dispatched?]

/-- Every move but a dispatch. -/
def WithoutDispatch (m : SafetyMove) : Prop := ∀ seq, m ≠ .dispatch seq

theorem not_withoutDispatch (seq : UInt64) : ¬ WithoutDispatch (.dispatch seq) :=
  fun h => h seq rfl

/-- An admitted command is dispatched once. -/
theorem dispatchedSeqs_onAdmitted (s : Session) (seq : UInt64) (cmd : TeleopCommand) (clk : Clock) :
    dispatchedSeqs (s.onAdmitted seq cmd clk).log = dispatchedSeqs s.log ++ [seq] := by
  have haccept := ((Moves.refl WithoutDispatch s).acceptCommand seq (clk.read 0)).dispatchedSeqs_eq
    not_withoutDispatch
  have hdispatch := ((Moves.refl WithoutDispatch
    ((s.acceptCommand seq (clk.read 0)).record (.dispatched seq))).dispatchTeleopCommand cmd
      (clk.read 1) (clk.read 2) (clk.read 3) fun _ _ => nofun).dispatchedSeqs_eq
        not_withoutDispatch
  rw [onAdmitted, hdispatch, ← haccept]
  exact dispatchedSeqs_append _ _

/-- A datagram is dispatched exactly if it is admitted. -/
theorem dispatchedSeqs_onDatagram (fb : FlatBuffers) (s : Session) (data : Bytes) (clk : Clock) :
    dispatchedSeqs (s.onDatagram fb data clk).log =
      dispatchedSeqs s.log ++ ((s.admittedCommand fb data).map Prod.fst).toList := by
  have hrefl := Moves.refl WithoutDispatch s
  have hquiet {u : Session} (hadm : s.admittedCommand fb data = none)
      (hu : Moves WithoutDispatch s u) : dispatchedSeqs u.log =
        dispatchedSeqs s.log ++ ((s.admittedCommand fb data).map Prod.fst).toList := by
    simp [hadm, hu.dispatchedSeqs_eq not_withoutDispatch]
  have hcases := onDatagram_cases fb s data clk
  generalize s.onDatagram fb data clk = t at hcases ⊢
  cases hcases with
  | command hadm => simp [hadm, dispatchedSeqs_onAdmitted]
  | ignored hadm => exact hquiet hadm hrefl
  | estop hd hadm =>
      refine hquiet hadm ((hrefl.applyEstop _ _ ?_ ?_).onChannelBActivity _)
      · exact fun _ _ => nofun
      · exact fun _ _ => nofun
  | benchRaw _ hadm => exact hquiet hadm (hrefl.onBenchRaw _ _ _)
  | heartbeat _ hadm => exact hquiet hadm ((hrefl.onChannelBActivity _).record rfl)
  | benchCommand _ hadm =>
      exact hquiet hadm ((hrefl.acceptCommand _ _).onBenchCommand _ _ _ _ _)
  | undecodable _ hadm => exact hquiet hadm (hrefl.acceptCommand _ _)

/-- A step dispatches the frame it admits and nothing else. -/
theorem dispatchedSeqs_step (fb : FlatBuffers) (s : Session) (e : Event) :
    dispatchedSeqs (s.step fb e).log = dispatchedSeqs s.log ++ (s.admittedSeq fb e).toList := by
  by_cases he : ∃ data clk, e = .datagram data clk
  · obtain ⟨data, clk, rfl⟩ := he
    rw [step, admittedSeq]
    split_ifs
    · simp
    · exact dispatchedSeqs_onDatagram fb s data clk
  · have hnone : s.admittedSeq fb e = none := by
      cases e with
      | datagram data clk => exact absurd ⟨data, clk, rfl⟩ he
      | _ => rfl
    rw [(step_moves fb s e).dispatchedSeqs_eq fun _ => he, hnone]
    simp

/-- The frames a session dispatches are those it admits, as they arrive. -/
theorem dispatched_after (fb : FlatBuffers) (args : ServerArgs) (goal : AutonomyGoal)
    (t₀ : Instant) (es : List Event) :
    dispatchedSeqs (after fb args goal t₀ es).log =
      trace (step fb) (admittedSeq fb) (.new args goal t₀) es := by
  induction es using List.reverseRecOn with
  | nil => rfl
  | append_singleton es e ih =>
      rw [after_concat, dispatchedSeqs_step, ih, trace_concat]
      rfl

/-- An admitted frame is a Command frame. -/
theorem commandSeq_of_admitted {fb : FlatBuffers} {s : Session} {e : Event} {seq : UInt64}
    (h : s.admittedSeq fb e = some seq) : e.commandSeq? fb = some seq := by
  cases e with
  | datagram data clk =>
      cases data with
      | nil => simp [admittedSeq, admittedCommand, untag] at h
      | cons tagByte payload =>
          simp only [admittedSeq, admittedCommand, untag] at h
          split_ifs at h with hended hframe
          · simp only [Option.map_map, Option.map_eq_some_iff] at h
            obtain ⟨cmd, -, rfl⟩ := h
            simp [Event.commandSeq?, untag, hframe]
          · simp at h
  | _ => simp [admittedSeq] at h

/-- A datagram that is not admitted orders nothing. -/
theorem orders_of_not_admitted {fb : FlatBuffers} {s : Session} {e : Event} {seq : UInt64}
    (hframe : e.commandSeq? fb = some seq) (h : s.admittedSeq fb e = none) :
    (s.step fb e).orders = s.orders := by
  cases e with
  | datagram data clk =>
      rw [step_orders]
      simp only [admittedSeq] at h
      rw [ordersOf]
      split_ifs with hended
      · exact List.append_nil _
      · rw [if_neg hended, Option.map_eq_none_iff] at h
        simp [h]
  | _ => simp [Event.commandSeq?] at hframe

end Session

/-! ## The rule -/

/-- The frames dispatched in a run have increasing sequence numbers, and a
Command frame that is not newer than one dispatched before is not dispatched
and orders nothing. -/
def AppliedInOrder (fb : FlatBuffers) (args : ServerArgs) (goal : AutonomyGoal) (t₀ : Instant)
    (es : List Session.Event) : Prop :=
  (dispatchedSeqs (Session.after fb args goal t₀ es).log).Pairwise (· < ·) ∧
    Always (fun past e =>
      let s := Session.after fb args goal t₀ past
      ∀ seq ∈ e.commandSeq? fb, (∃ newest ∈ dispatchedSeqs s.log, seq ≤ newest) →
        dispatchedSeqs (s.step fb e).log = dispatchedSeqs s.log ∧
          (s.step fb e).orders = s.orders) es

/-- The sequence numbers of the Command frames that reach a session in the
Operating phase, in order of arrival. -/
def arrivals (fb : FlatBuffers) (args : ServerArgs) (goal : AutonomyGoal) (t₀ : Instant)
    (es : List Session.Event) : List UInt64 :=
  trace (Session.step fb) (Session.admittedSeq fb) (.new args goal t₀) es

/-- Commands are applied in order exactly if they arrive in order, each once. -/
theorem appliedInOrder_iff (fb : FlatBuffers) (args : ServerArgs) (goal : AutonomyGoal)
    (t₀ : Instant) (es : List Session.Event) :
    AppliedInOrder fb args goal t₀ es ↔ (arrivals fb args goal t₀ es).Pairwise (· < ·) := by
  have hdispatched := Session.dispatched_after fb args goal t₀
  constructor
  · rintro ⟨hincreasing, -⟩
    rw [hdispatched] at hincreasing
    exact hincreasing
  · intro hincreasing
    refine ⟨by rw [hdispatched]; exact hincreasing, ?_⟩
    rintro past e post rfl s seq hseq ⟨newest, hnewest, hstale⟩
    rw [hdispatched] at hnewest
    cases hadm : (Session.after fb args goal t₀ past).admittedSeq fb e with
    | none =>
        refine ⟨?_, Session.orders_of_not_admitted hseq hadm⟩
        rw [Session.dispatchedSeqs_step, hadm]
        simp
    | some q =>
        have hq : q = seq := by simpa [Session.commandSeq_of_admitted hadm] using hseq
        have hsplit : arrivals fb args goal t₀ (past ++ e :: post) =
            arrivals fb args goal t₀ past ++ q :: trace (Session.step fb) (Session.admittedSeq fb)
              ((Session.after fb args goal t₀ past).step fb e) post := by
          rw [arrivals, trace_append]
          show _ ++ (((Session.after fb args goal t₀ past).admittedSeq fb e).toList ++ _) = _
          rw [hadm]
          rfl
        rw [hsplit, List.pairwise_append] at hincreasing
        have hlt : newest < q := hincreasing.2.2 newest hnewest q (List.mem_cons_self ..)
        rw [hq] at hlt
        exact absurd hlt (UInt64.not_lt.mpr hstale)

/-- Frame 2 overtakes frame 1. -/
def overtakingRun : List Session.Event :=
  let clk := Clock.const 0
  Session.opening .fixedLayout sampleArgs [] 0 ++
    [.datagram (commandDatagram .fixedLayout 0 2 (.forward 0)) clk,
      .datagram (commandDatagram .fixedLayout 0 1 (.forward 10)) clk]

/-- A late Command is applied after a newer one. -/
theorem appliedInOrder_fails_for_overtaking :
    ¬ AppliedInOrder .fixedLayout sampleArgs (.new 0) 0 overtakingRun := by
  intro h
  have hseqs : dispatchedSeqs
      (Session.after .fixedLayout sampleArgs (.new 0) 0 overtakingRun).log = [2, 1] := by
    decide +kernel
  have hincreasing := h.1
  rw [hseqs] at hincreasing
  exact absurd hincreasing (by decide)

end RoboTele
