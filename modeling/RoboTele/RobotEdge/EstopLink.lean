import RoboTele.RobotEdge.SessionRuns

/-!
# The E-Stop's two paths

The operator sends every E-Stop message twice, as a datagram and on the in-order
E-Stop stream, with a sequence number that grows with each press.  Datagram
copies may be lost, delayed, duplicated and reordered.  Stream copies arrive
once each, in order, here with one message in each read.

`EstopLink` is the operator's messages, both paths and the robot's session.
`sent` and `received` are ghost lists of what was pressed and of what arrived.
The rule is that after every delivery the explicit latch shows the newest
message received.  The robot applies each copy as it comes, so the rule holds
exactly as long as no stale copy disagrees with the newest message before it.
-/

namespace RoboTele

open Runs

namespace Session

/-- Both paths set the explicit flag to the message's bit. -/
theorem applyEstop_explicitEstop (s : Session) (d : EstopDatagram) (now : Instant) :
    (s.applyEstop d now).safety.explicitEstop = d.latched := by
  rw [applyEstop]
  split_ifs with h
  · exact h.symm
  · exact (Bool.eq_false_iff.mpr h).symm

/-- A delivered datagram copy sets the explicit flag. -/
theorem onDatagram_encode_explicitEstop (fb : FlatBuffers) (s : Session) (d : EstopDatagram)
    (clk : Clock) : (s.onDatagram fb d.encode clk).safety.explicitEstop = d.latched := by
  rw [onDatagram, if_pos d.encode_head?, EstopDatagram.decode_encode]
  exact s.applyEstop_explicitEstop d (clk.read 0)

/-- A delivered stream copy sets the explicit flag. -/
theorem onStreamData_encode_explicitEstop (fb : FlatBuffers) (s : Session) (d : EstopDatagram)
    (clk : Clock) (write : StreamWrite) :
    (s.onStreamData fb estopStreamId d.encode clk write).safety.explicitEstop = d.latched := by
  have h0 : ¬ (estopStreamId = 0 ∧ s.phase = .awaitingHello) := by simp [estopStreamId]
  have h1 : ¬ (estopStreamId = 1 ∧ s.phase = .awaitingSessionAccept) := by simp [estopStreamId]
  rw [onStreamData, if_neg h0, if_neg h1, if_pos rfl, EstopDatagram.decode_encode]
  exact s.applyEstop_explicitEstop d (clk.read 0)

end Session

/-- A session, and the E-Stop messages that the operator has sent to it. -/
structure EstopLink where
  /-- What the operator has sent, oldest first. -/
  sent : List EstopDatagram
  /-- How many stream copies have arrived. -/
  streamed : Nat
  /-- What the robot has received, oldest first. -/
  received : List EstopDatagram
  robot : Session

namespace EstopLink

/-- A press, a delivery of one message, or something else that happens to the session. -/
inductive Event where
  | press (d : EstopDatagram)
  /-- A datagram copy of the `i`-th message arrives. -/
  | datagramCopy (i : Nat) (clk : Clock)
  /-- The next stream copy arrives. -/
  | streamCopy (clk : Clock) (write : Session.StreamWrite)
  /-- Anything else that happens to the session. -/
  | other (e : Session.Event)

def new (robot : Session) : EstopLink := { sent := [], streamed := 0, received := [], robot }

/-- The message an event delivers to a running session. -/
def delivered? (s : EstopLink) : Event → Option EstopDatagram
  | .datagramCopy i _ => if s.robot.ended.isSome then none else s.sent[i]?
  | .streamCopy _ _ => if s.robot.ended.isSome then none else s.sent[s.streamed]?
  | _ => none

/-- A press or a delivery. -/
def step (fb : FlatBuffers) (s : EstopLink) (e : Event) : EstopLink :=
  match e, s.delivered? e with
  | .datagramCopy _ clk, some d =>
      { s with
        received := s.received ++ [d]
        robot := s.robot.step fb (.datagram d.encode clk) }
  | .streamCopy clk write, some d =>
      { s with
        streamed := s.streamed + 1
        received := s.received ++ [d]
        robot := s.robot.step fb (.streamData estopStreamId d.encode clk write) }
  | .press d, _ =>
      -- Every press takes the next sequence number.
      if ∀ m ∈ s.sent, m.seq < d.seq then { s with sent := s.sent ++ [d] } else s
  | .other e, _ =>
      -- No E-Stop message but the operator's reaches the robot.
      if e.estopMessage? = none then { s with robot := s.robot.step fb e } else s
  | _, _ => s

/-! ## The rule -/

/-- `d` has the highest sequence number of the messages `l`. -/
def IsNewest (l : List EstopDatagram) (d : EstopDatagram) : Prop :=
  d ∈ l ∧ ∀ m ∈ l, m.seq ≤ d.seq

instance (l : List EstopDatagram) (d : EstopDatagram) : Decidable (IsNewest l d) :=
  inferInstanceAs (Decidable (_ ∧ _))

/-- The explicit latch shows the newest message received. -/
def ShowsNewest (s : EstopLink) : Prop :=
  ∀ d ∈ s.received, IsNewest s.received d → s.robot.safety.explicitEstop = d.latched

instance (s : EstopLink) : Decidable s.ShowsNewest :=
  inferInstanceAs (Decidable (∀ _ ∈ _, _))

/-- After a delivery the latch shows the newest message. -/
def DeliveryShowsNewest (fb : FlatBuffers) (s : EstopLink) (e : Event) : Prop :=
  (s.delivered? e).isSome = true → (s.step fb e).ShowsNewest

instance (fb : FlatBuffers) (s : EstopLink) (e : Event) :
    Decidable (DeliveryShowsNewest fb s e) :=
  inferInstanceAs (Decidable (_ → _))

/-- A delivered message older than the newest one received has the same bit. -/
def StaleAgrees (s : EstopLink) (e : Event) : Prop :=
  ∀ d ∈ s.delivered? e, ∀ m ∈ s.received, IsNewest s.received m → d.seq < m.seq →
    d.latched = m.latched

/-! ## What the lists keep -/

/-- Sequence numbers grow, and only sent messages arrive. -/
structure Inv (s : EstopLink) : Prop where
  increasing : s.sent.Pairwise (·.seq < ·.seq)
  received : ∀ d ∈ s.received, d ∈ s.sent

/-- A message is its sequence number. -/
theorem Inv.eq_of_seq {s : EstopLink} (h : s.Inv) {d m : EstopDatagram} (hd : d ∈ s.sent)
    (hm : m ∈ s.sent) (hseq : d.seq = m.seq) : d = m := by
  by_contra hne
  have hlt := h.increasing
  rcases List.mem_iff_getElem.mp hd with ⟨i, hi, rfl⟩
  rcases List.mem_iff_getElem.mp hm with ⟨j, hj, rfl⟩
  rcases Nat.lt_trichotomy i j with hij | hij | hij
  · have := List.pairwise_iff_getElem.mp hlt i j hi hj hij
    rw [hseq] at this
    exact absurd this (UInt64.lt_irrefl _)
  · subst hij
    exact hne rfl
  · have := List.pairwise_iff_getElem.mp hlt j i hj hi hij
    rw [hseq] at this
    exact absurd this (UInt64.lt_irrefl _)

/-- What is delivered was sent. -/
theorem delivered?_mem {s : EstopLink} {e : Event} {d : EstopDatagram}
    (h : s.delivered? e = some d) : d ∈ s.sent := by
  cases e with
  | datagramCopy i clk =>
      simp only [delivered?] at h
      split_ifs at h
      exact List.mem_of_getElem? h
  | streamCopy clk write =>
      simp only [delivered?] at h
      split_ifs at h
      exact List.mem_of_getElem? h
  | press d => simp [delivered?] at h
  | other e => simp [delivered?] at h

/-- What a delivery does, whichever path it takes. -/
theorem step_of_delivered (fb : FlatBuffers) {s : EstopLink} {e : Event} {d : EstopDatagram}
    (h : s.delivered? e = some d) :
    (s.step fb e).sent = s.sent ∧ (s.step fb e).received = s.received ++ [d] ∧
      (s.step fb e).robot.safety.explicitEstop = d.latched := by
  cases e with
  | datagramCopy i clk =>
      have hrunning : ¬ s.robot.ended.isSome = true := by
        intro hended
        simp [delivered?, hended] at h
      refine ⟨by simp [step, h], by simp [step, h], ?_⟩
      simp only [step, h]
      rw [Session.step, if_neg hrunning]
      exact s.robot.onDatagram_encode_explicitEstop fb d clk
  | streamCopy clk write =>
      have hrunning : ¬ s.robot.ended.isSome = true := by
        intro hended
        simp [delivered?, hended] at h
      refine ⟨by simp [step, h], by simp [step, h], ?_⟩
      simp only [step, h]
      rw [Session.step, if_neg hrunning, Session.handle, if_neg (by decide)]
      exact s.robot.onStreamData_encode_explicitEstop fb d clk write
  | press d => simp [delivered?] at h
  | other e => simp [delivered?] at h

/-- Every event of the link keeps the invariant. -/
theorem Inv.step {s : EstopLink} (h : s.Inv) (fb : FlatBuffers) (e : Event) :
    (s.step fb e).Inv := by
  cases hd : s.delivered? e with
  | some d =>
      obtain ⟨hsent, hreceived, -⟩ := step_of_delivered fb hd
      refine ⟨by rw [hsent]; exact h.increasing, ?_⟩
      intro m hm
      rw [hreceived, List.mem_append, List.mem_singleton] at hm
      rw [hsent]
      rcases hm with hm | rfl
      · exact h.received m hm
      · exact delivered?_mem hd
  | none =>
      cases e with
      | press d =>
          simp only [EstopLink.step]
          split_ifs with hnew
          · refine ⟨?_, fun m hm => List.mem_append_left _ (h.received m hm)⟩
            rw [List.pairwise_append]
            refine ⟨h.increasing, List.pairwise_singleton .., ?_⟩
            intro m hm d' hd'
            rw [List.mem_singleton.mp hd']
            exact hnew m hm
          · exact h
      | other e =>
          simp only [EstopLink.step]
          split_ifs
          · exact ⟨h.increasing, h.received⟩
          · exact h
      | datagramCopy i clk => simpa [EstopLink.step, hd] using h
      | streamCopy clk write => simpa [EstopLink.step, hd] using h

theorem Inv.new (robot : Session) : (EstopLink.new robot).Inv where
  increasing := List.Pairwise.nil
  received := by simp [EstopLink.new]

/-! ## The rule as a condition on deliveries -/

/-- A delivery leaves the latch on the newest message exactly if the delivered
one is that message or agrees with it. -/
theorem deliveryShowsNewest_iff {s : EstopLink} (h : s.Inv) (fb : FlatBuffers) (e : Event) :
    DeliveryShowsNewest fb s e ↔ StaleAgrees s e := by
  rw [DeliveryShowsNewest, StaleAgrees]
  cases hd : s.delivered? e with
  | none => simp
  | some d =>
      obtain ⟨-, hreceived, hlatch⟩ := step_of_delivered fb hd
      simp only [Option.isSome_some, true_implies, Option.mem_some_iff, forall_eq']
      rw [ShowsNewest]
      rw [hreceived, hlatch]
      constructor
      · intro hshows m hm hnewest hstale
        refine hshows m (List.mem_append_left _ hm) ⟨List.mem_append_left _ hm, ?_⟩
        intro x hx
        rcases List.mem_append.mp hx with hx | hx
        · exact hnewest.2 x hx
        · rw [List.mem_singleton.mp hx]
          exact UInt64.le_of_lt hstale
      · rintro hstale m hm ⟨-, hnewest⟩
        rcases List.mem_append.mp hm with hm | hm
        · have hle := hnewest d (List.mem_append_right _ (List.mem_singleton.mpr rfl))
          rcases UInt64.lt_or_eq_of_le hle with hlt | heq
          · refine hstale m hm ⟨hm, fun x hx => hnewest x (List.mem_append_left _ hx)⟩ hlt
          · rw [h.eq_of_seq (delivered?_mem hd) (h.received m hm) heq]
        · rw [List.mem_singleton.mp hm]

/-- In every run the latch shows the newest message after every delivery exactly
if every stale copy agrees with the newest message before it. -/
theorem showsNewest_iff_staleAgrees (fb : FlatBuffers) (robot : Session) (es : List Event) :
    Along (step fb) (DeliveryShowsNewest fb) (.new robot) es ↔
      Along (step fb) StaleAgrees (.new robot) es :=
  along_congr (fun _ e hs => hs.step fb e) (fun _ e hs => deliveryShowsNewest_iff hs fb e) es
    (.new robot)

/-- The operator clears, then stops.  The stop arrives, and after it a delayed
copy of the clear. -/
def delayedClearRun : List Event :=
  let clk := Clock.const 0
  [.press { latched := false, seq := 1 }, .press { latched := true, seq := 2 },
    .streamCopy clk .done, .streamCopy clk .done, .datagramCopy 0 clk]

/-- The delayed copy of a clear undoes a later stop. -/
theorem showsNewest_fails_for_delayedClear :
    ¬ Along (step .fixedLayout) (DeliveryShowsNewest .fixedLayout)
      (.new (.new sampleArgs (.new 0) 0)) delayedClearRun := by
  decide +kernel

end EstopLink

end RoboTele
