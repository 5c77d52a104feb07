import RoboTele.RobotEdge.VideoRx
import RoboTele.RobotEdge.DeltaChain
import RoboTele.RobotEdge.LossyDrain
import RoboTele.Runs.Past

/-!
# From the encoder to the link

The session pushes every NAL it receives into its lossy queue, so two places
drop deltas in series.  The watch cell replaces a delta the session has not read
yet, and the queue drops and skips.

The queue answers for what it was given.  A delta that the session received in
its place, after its IDR and before any newer one, leaves after that IDR and
after every delta of the group that the session received
(`GroupsKept`).  It does not answer for a delta that the cell replaced.  That one
is never sent, it leaves a gap in the ids like a delta lost in the air, and the
deltas after it are sent all the same (`groupsWhole_fails_for_coalesced`).  What
makes the queue skip is a delta that the session did receive and that waited too
long in the queue, and nothing else (`SkipsOnlyStale`).
-/

namespace RoboTele

open Runs Queues Past

/-- The encoder, what the session receives of it, and the queue that it goes to. -/
structure VideoPipeline where
  encoded : List (Nat × Nal)
  rx : VideoRx
  queue : LossyQueue

namespace VideoPipeline

def new (policy : SensorFramePolicy) : VideoPipeline where
  encoded := []
  rx := .new
  queue := .withSensorPolicy policy

/-- A NAL is sent or received, a frame comes from a sensor, or a datagram is sent. -/
inductive Event where
  /-- The encoder task sends a NAL. -/
  | encode (nal : Bytes)
  /-- One step of the session's `recv`, and the push of what it returns. -/
  | recv (now : Instant)
  | pushSensorFrame (sensorId : UInt8) (datagrams : List Bytes)
  | pop (now : Instant)

/-- The next NAL.  Ids wrap. -/
def number (s : VideoPipeline) (nal : Bytes) : Nat × Nal :=
  (s.encoded.length, { nalId := UInt32.ofNat s.encoded.length, nal })

/-- The encoder task sends the next NAL. -/
def encode (s : VideoPipeline) (nal : Bytes) : VideoPipeline :=
  { s with encoded := s.encoded ++ [s.number nal], rx := s.rx.send (s.number nal) }

/-- The session's video branch. -/
def recv (s : VideoPipeline) (now : Instant) : VideoPipeline :=
  match s.rx.recv with
  | (rx, some x) => { s with rx, queue := s.queue.pushVideoNal x.2 now }
  | (rx, none) => { s with rx }

/-- What happens on the robot. -/
def step (s : VideoPipeline) : Event → VideoPipeline
  | .encode nal => s.encode nal
  | .recv now => s.recv now
  | .pushSensorFrame sensorId datagrams =>
      { s with queue := s.queue.step (.pushSensorFrame sensorId datagrams) }
  | .pop now => { s with queue := s.queue.step (.pop now) }

/-! ## Groups of pictures -/

/-- The NALs the session received, in that order.  A NAL is known to the queue
by its place here. -/
def received (s : VideoPipeline) : List (Nat × Nal) := s.rx.lane.returned

/-- Before any chunk of the `a`-th NAL received leaves, all of the `m`-th
leaves. -/
def LeavesAfter (s : VideoPipeline) (a m : Nat) (z : Nat × Nal) : Prop :=
  ∀ before c after, s.queue.sent = before ++ (a, c) :: after → sentIn before m = z.2.datagrams

/-- A delta that has left whole left after the IDR of its group and after every
delta the encoder produced between the two. -/
def GroupsWhole (s : VideoPipeline) : Prop :=
  ∀ a x, s.received[a]? = some x → IsDelta x.2.nalType →
    sentIn s.queue.sent a = x.2.datagrams →
    ∀ z ∈ s.encoded, z.1 < x.1 → IsPicture z.2.nalType →
      (∀ w ∈ s.encoded, w.2.nalType = nalIdr → w.1 < x.1 → w.1 ≤ z.1) →
      ∃ m, s.received[m]? = some z ∧ s.LeavesAfter a m z

/-- The `a`-th NAL received is a delta, its IDR is the `b`-th, and no newer IDR
was received before it. -/
structure InPlace (s : VideoPipeline) (a b : Nat) (x y : Nat × Nal) : Prop where
  delta : s.received[a]? = some x ∧ IsDelta x.2.nalType
  idr : s.received[b]? = some y ∧ y.2.nalType = nalIdr
  last : y.1 < x.1 ∧ ∀ w ∈ s.encoded, w.2.nalType = nalIdr → w.1 < x.1 → w.1 ≤ y.1
  after : b < a
  current : ∀ c w, c < a → s.received[c]? = some w → w.2.nalType = nalIdr → w.1 < x.1

/-- Only NALs the session received leave, each one in order, and a delta
received in its place leaves after its IDR and after every delta of the group
received since. -/
structure GroupsKept (s : VideoPipeline) : Prop where
  onlyReceived : ∀ c ∈ s.queue.sent, ∃ x, s.received[c.1]? = some x
  inOrder : ∀ a x, s.received[a]? = some x → sentIn s.queue.sent a <+: x.2.datagrams
  kept : ∀ a b x y, s.InPlace a b x y → ∀ m z, b ≤ m → s.received[m]? = some z → z.1 < x.1 →
    IsPicture z.2.nalType → s.LeavesAfter a m z

/-- The pipeline after a run. -/
def after (policy : SensorFramePolicy) (events : List Event) : VideoPipeline :=
  exec step (new policy) events

/-- A pop that finds a waiting delta too old. -/
def PopsStale (policy : SensorFramePolicy) (past : List Event) (e : Event) : Prop :=
  ∃ now, e = .pop now ∧ (after policy past).queue.Stale now

/-- A step of `recv` that returns an IDR. -/
def ReceivesIdr (policy : SensorFramePolicy) (past : List Event) (e : Event) : Prop :=
  ∃ now x, e = .recv now ∧ (after policy past).rx.recv.2 = some x ∧ x.2.nalType = nalIdr

/-- A delta that was received waited too long, and no IDR was received since. -/
def Overdue (policy : SensorFramePolicy) (events : List Event) : Prop :=
  Pending (PopsStale policy) (ReceivesIdr policy) events

/-- The queue skips deltas exactly while one is overdue.  While none is, every picture
received since the last IDR leaves whole: it has left, or the pops at any moment at which
nothing has waited too long send the rest. -/
structure SkipsOnlyStale (policy : SensorFramePolicy) (events : List Event) : Prop where
  skips : (after policy events).queue.skipDeltasUntilIdr = true ↔ Overdue policy events
  leaves : ¬ Overdue policy events → ∀ m z, (after policy events).received[m]? = some z →
    IsPicture z.2.nalType →
    (∀ j w, m < j → (after policy events).received[j]? = some w → w.2.nalType ≠ nalIdr) →
    ∀ now, ¬ (after policy events).queue.Stale now →
      ∃ n, sentIn (after policy (events ++ List.replicate n (.pop now))).queue.sent m =
        z.2.datagrams

/-! ## The invariant -/

/-- The queue was pushed what the session received, and keeps its groups. -/
structure Inv (s : VideoPipeline) : Prop where
  rx : s.rx.WellFormed s.encoded s.encoded.length
  pushed : s.queue.pushed = s.received.map Prod.snd
  chain : s.queue.ChainInv

theorem Inv.new (policy : SensorFramePolicy) : (new policy).Inv where
  rx := .new
  pushed := rfl
  chain := .new policy

/-- A NAL is noted when it is pushed, whether it is queued or not. -/
theorem pushVideoNal_pushed (q : LossyQueue) (n : Nal) (now : Instant) :
    (q.pushVideoNal n now).pushed = q.pushed ++ [n] := by
  rw [LossyQueue.pushVideoNal]
  split <;> rfl

/-- A NAL of the encoder waits in its lane. -/
theorem Inv.encode {s : VideoPipeline} (h : s.Inv) (nal : Bytes) : (s.encode nal).Inv where
  rx := by
    show (s.rx.send _).WellFormed (s.encoded ++ [s.number nal]) (s.encoded ++ [s.number nal]).length
    rw [List.length_append, List.length_singleton]
    have hgrown : s.rx.WellFormed (s.encoded ++ [s.number nal]) s.encoded.length :=
      h.rx.mono (fun _ => List.mem_append_left _) le_rfl
    exact hgrown.send (x := s.number nal) List.mem_concat_self le_rfl
  pushed := by
    have hreturned : (s.rx.send (s.number nal)).lane.returned = s.rx.lane.returned := by
      rw [VideoRx.send]
      split <;> rfl
    show s.queue.pushed = (s.rx.send _).lane.returned.map Prod.snd
    rw [hreturned]
    exact h.pushed
  chain := h.chain

/-- The session reads it, and pushes it. -/
theorem Inv.recv {s : VideoPipeline} (h : s.Inv) (now : Instant) : (s.recv now).Inv := by
  have hrx := h.rx.recv
  have hreturned := s.rx.recv_returned
  rw [VideoPipeline.recv]
  cases hrecv : s.rx.recv with
  | mk rx nal =>
      rw [hrecv] at hrx hreturned
      cases nal with
      | none =>
          refine ⟨hrx, ?_, h.chain⟩
          show s.queue.pushed = rx.lane.returned.map Prod.snd
          rw [hreturned, Option.toList_none, List.append_nil]
          exact h.pushed
      | some x =>
          refine ⟨hrx, ?_, h.chain.pushVideoNal x.2 now⟩
          show (s.queue.pushVideoNal x.2 now).pushed = rx.lane.returned.map Prod.snd
          rw [hreturned, Option.toList_some, List.map_append, pushVideoNal_pushed, h.pushed]
          rfl

/-- The NAL a call pushes. -/
def pushes : LossyQueue.Op → Option Nal
  | .pushVideoNal n _ => some n
  | _ => none

/-- No other operation pushes. -/
theorem step_pushed (q : LossyQueue) (op : LossyQueue.Op) (hop : pushes op = none) :
    (q.step op).pushed = q.pushed := by
  refine LossyQueue.step_inv_video (I := fun q' => q'.pushed = q.pushed)
    (P := fun _ op => pushes op = none) ?_ ?_ ?_ ?_ q op rfl hop
  · intro _ _ hsame h
    exact hsame.pushed.trans h
  · intro _ n now hpush
    cases hpush
  · intro _ h
    exact h
  · intro q' h
    exact q'.popVideo_pushed.1.trans h

/-- Every event keeps the pipeline's invariant. -/
theorem Inv.step {s : VideoPipeline} (h : s.Inv) (e : Event) : (s.step e).Inv := by
  cases e with
  | encode nal => exact h.encode nal
  | recv now => exact h.recv now
  | pushSensorFrame sensorId datagrams =>
      exact ⟨h.rx, (step_pushed _ _ rfl).trans h.pushed, h.chain.step (.pushSensorFrame _ _)⟩
  | pop now => exact ⟨h.rx, (step_pushed _ _ rfl).trans h.pushed, h.chain.step (.pop now)⟩

/-! ## What was received -/

theorem pairwise_getElem? {α : Type*} {R : α → α → Prop} {l : List α} (h : l.Pairwise R)
    {i j : Nat} {x y : α} (hi : l[i]? = some x) (hj : l[j]? = some y) (hij : i < j) : R x y := by
  obtain ⟨hilen, rfl⟩ := List.getElem?_eq_some_iff.mp hi
  obtain ⟨hjlen, rfl⟩ := List.getElem?_eq_some_iff.mp hj
  exact List.pairwise_iff_getElem.mp h i j hilen hjlen hij

/-- IDRs are received in the encoder's order. -/
theorem Inv.idr_lt {s : VideoPipeline} (h : s.Inv) {i j : Nat} {x y : Nat × Nal}
    (hx : s.received[i]? = some x) (hy : s.received[j]? = some y) (hxidr : x.2.nalType = nalIdr)
    (hyidr : y.2.nalType = nalIdr) (hij : i < j) : x.1 < y.1 := by
  have hcritical {z : Nat × Nal} (hz : z.2.nalType = nalIdr) : z.2.isCritical = true := by
    refine (nalIsCritical_iff _).mpr ?_
    intro hdelta
    exact hdelta.1 hz
  exact pairwise_getElem? h.rx.lane.criticals hx hy hij (hcritical hxidr) (hcritical hyidr)

/-- Deltas are received in the encoder's order. -/
theorem Inv.delta_lt {s : VideoPipeline} (h : s.Inv) {i j : Nat} {x y : Nat × Nal}
    (hx : s.received[i]? = some x) (hy : s.received[j]? = some y) (hxdelta : IsDelta x.2.nalType)
    (hydelta : IsDelta y.2.nalType) (hij : i < j) : x.1 < y.1 :=
  pairwise_getElem? h.rx.lane.deltas hx hy hij ((nalIsCritical_eq_false_iff _).mpr hxdelta)
    ((nalIsCritical_eq_false_iff _).mpr hydelta)

/-- What was received was encoded. -/
theorem Inv.mem_encoded {s : VideoPipeline} (h : s.Inv) {i : Nat} {x : Nat × Nal}
    (hx : s.received[i]? = some x) : x ∈ s.encoded :=
  (h.rx.lane.returned_mem x (List.mem_of_getElem? hx)).1

/-- What was received was pushed, under the same number. -/
theorem Inv.pushed_get {s : VideoPipeline} (h : s.Inv) {i : Nat} {x : Nat × Nal}
    (hx : s.received[i]? = some x) : s.queue.pushed[i]? = some x.2 := by
  rw [h.pushed, List.getElem?_map, hx]
  rfl

/-- What was pushed was received. -/
theorem Inv.received_get {s : VideoPipeline} (h : s.Inv) {i : Nat}
    (hi : i < s.queue.pushed.length) : ∃ x, s.received[i]? = some x := by
  rw [h.pushed, List.length_map] at hi
  exact ⟨_, List.getElem?_eq_getElem hi⟩

/-- What a delta in its place needs is what was received of its group since its
IDR. -/
theorem Inv.chainNeeds {s : VideoPipeline} (h : s.Inv) {a b m : Nat} {x y z : Nat × Nal}
    (hplace : s.InPlace a b x y) (hbm : b ≤ m) (hz : s.received[m]? = some z) (hlt : z.1 < x.1)
    (hpicture : IsPicture z.2.nalType) :
    m < a ∧ LossyQueue.ChainNeeds s.queue.pushed a m := by
  obtain ⟨hx, hdelta⟩ := hplace.delta
  obtain ⟨hy, hyidr⟩ := hplace.idr
  have htype {i : Nat} {w : Nat × Nal} (hw : s.received[i]? = some w) :
      LossyQueue.typeAt s.queue.pushed i = some w.2.nalType := by
    rw [LossyQueue.typeAt, h.pushed_get hw]
    rfl
  have hma : m < a := by
    by_contra hge
    rcases (not_lt.mp hge).eq_or_lt with heq | hgt
    · -- The delta itself is not before itself.
      subst heq
      rw [hx] at hz
      obtain rfl := Option.some.inj hz
      exact lt_irrefl _ hlt
    · rcases hpicture with hzdelta | hzidr
      · exact absurd hlt (h.delta_lt hx hz hdelta hzdelta hgt).not_gt
      · have hle := hplace.last.2 z (h.mem_encoded hz) hzidr hlt
        exact absurd (h.idr_lt hy hz hyidr hzidr (hplace.after.trans hgt)) hle.not_gt
  refine ⟨hma, ⟨_, htype hx, hdelta⟩, ⟨_, htype hz, hpicture⟩, ?_⟩
  intro j hmj hja hjidr
  obtain ⟨w, hw⟩ := h.received_get (LossyQueue.lt_of_typeAt hjidr)
  rw [htype hw] at hjidr
  have hwidr := Option.some.inj hjidr
  -- An IDR received in between would be newer than the delta's.
  have hle := hplace.last.2 w (h.mem_encoded hw) hwidr (hplace.current j w hja hw hwidr)
  exact absurd (h.idr_lt hy hw hyidr hwidr (hbm.trans_lt hmj)) hle.not_gt

/-- The invariant keeps the groups. -/
theorem Inv.kept {s : VideoPipeline} (h : s.Inv) : s.GroupsKept := by
  have hchains := h.chain.chains
  refine ⟨?_, ?_, ?_⟩
  · intro c hc
    refine h.received_get ?_
    have hlt := h.chain.wellFormed.sent_lt hc
    simpa [LossyQueue.chunkQueue] using hlt
  · intro a x hx
    exact hchains.inOrder a x.2 (h.pushed_get hx)
  · intro a b x y hplace m z hbm hz hlt hpicture before c after hsent
    obtain ⟨hma, hneeds⟩ := h.chainNeeds hplace hbm hz hlt hpicture
    exact hchains.chained before a c after hsent m z.2 hma (h.pushed_get hz) hneeds

/-! ## What is skipped -/

/-- A step makes the queue skip if it is a stale pop, and ends a skip if an IDR comes. -/
theorem step_skips (s : VideoPipeline) (e : Event) :
    (s.step e).queue.skipDeltasUntilIdr = true ↔
      (∃ now, e = .pop now ∧ s.queue.Stale now) ∨
        (s.queue.skipDeltasUntilIdr = true ∧
          ¬ ∃ now x, e = .recv now ∧ s.rx.recv.2 = some x ∧ x.2.nalType = nalIdr) := by
  cases e with
  | encode nal => simp [step, encode]
  | recv now =>
      show (s.recv now).queue.skipDeltasUntilIdr = true ↔ _
      rw [VideoPipeline.recv]
      cases s.rx.recv with
      | mk rx returned =>
          cases returned with
          | none => simp
          | some x =>
              show (s.queue.pushVideoNal x.2 now).skipDeltasUntilIdr = true ↔ _
              rw [LossyQueue.pushVideoNal_skip]
              split_ifs with hidr <;> simp [hidr]
  | pushSensorFrame sensorId datagrams =>
      show (s.queue.pushSensorFrame sensorId datagrams).skipDeltasUntilIdr = true ↔ _
      rw [(s.queue.pushSensorFrame_video sensorId datagrams).skip]
      simp
  | pop now =>
      refine (s.queue.pop_skip now).trans ?_
      simp

/-- Deltas are skipped exactly while an expiry is not made good. -/
theorem skips_after (policy : SensorFramePolicy) (events : List Event) :
    (after policy events).queue.skipDeltasUntilIdr = true ↔ Overdue policy events := by
  induction events using List.reverseRecOn with
  | nil =>
      exact iff_of_false Bool.false_ne_true (pending_nil _ _)
  | append_singleton events e ih =>
      rw [after, exec_concat, step_skips, Overdue, pending_concat]
      exact or_congr Iff.rfl (and_congr ih Iff.rfl)

/-- Pops of the pipeline are pops of its queue. -/
theorem pops_queue (now : Instant) : ∀ (n : Nat) (s : VideoPipeline),
    (exec step s (List.replicate n (.pop now))).queue =
      exec LossyQueue.step s.queue (List.replicate n (.pop now))
  | 0, _ => rfl
  | n + 1, s => pops_queue now n (s.step (.pop now))

/-- A picture of the last group leaves whole, while nothing expires. -/
theorem leaves_of_not_skipping {s : VideoPipeline} (h : s.Inv)
    (hopen : s.queue.skipDeltasUntilIdr = false)
    {m : Nat} {z : Nat × Nal} (hz : s.received[m]? = some z) (hpicture : IsPicture z.2.nalType)
    (hlast : ∀ j w, m < j → s.received[j]? = some w → w.2.nalType ≠ nalIdr) {now : Instant}
    (hfresh : ¬ s.queue.Stale now) :
    ∃ n, sentIn (exec step s (List.replicate n (.pop now))).queue.sent m = z.2.datagrams := by
  have htype {i : Nat} {w : Nat × Nal} (hw : s.received[i]? = some w) :
      LossyQueue.typeAt s.queue.pushed i = some w.2.nalType := by
    rw [LossyQueue.typeAt, h.pushed_get hw]
    rfl
  have hway : s.queue.chunkQueue.OnItsWay m := by
    refine h.chain.group hopen m ⟨_, htype hz, hpicture⟩ fun j hj hidr => ?_
    obtain ⟨w, hw⟩ := h.received_get (LossyQueue.lt_of_typeAt hidr)
    rw [htype hw] at hidr
    exact hlast j w hj hw (Option.some.inj hidr)
  obtain ⟨n, hn⟩ := LossyQueue.complete_of_pops ⟨h.chain.toTracked, hfresh, hway⟩
  have hpushed : (exec LossyQueue.step s.queue (List.replicate n (.pop now))).pushed =
      s.queue.pushed := by
    refine exec_inv_of_forall (I := fun q : LossyQueue => q.pushed = s.queue.pushed)
      (P := fun op => pushes op = none) (fun q op hq hop => ?_) _ rfl fun op hop => ?_
    · exact (step_pushed q op hop).trans hq
    · rw [List.eq_of_mem_replicate hop]
      rfl
  refine ⟨n, ?_⟩
  rw [pops_queue, ← LossyQueue.chunksOf_eq (hpushed ▸ h.pushed_get hz)]
  exact hn

/-! ## The rule -/

/-- In every run the queue keeps the groups of what the session received, and skips
nothing of them but what its own rule for stale deltas tells it to. -/
theorem groupsKept (policy : SensorFramePolicy) (events : List Event) :
    (after policy events).GroupsKept ∧ SkipsOnlyStale policy events := by
  have h : (after policy events).Inv :=
    exec_inv (fun _ e h => h.step e) events (.new policy)
  have hskips := skips_after policy events
  refine ⟨h.kept, hskips, ?_⟩
  intro hfresh m z hz hpicture hlast now hnow
  have hopen : (after policy events).queue.skipDeltasUntilIdr = false :=
    Bool.not_eq_true _ ▸ fun hskip => hfresh (hskips.mp hskip)
  obtain ⟨n, hn⟩ := leaves_of_not_skipping h hopen hz hpicture hlast hnow
  refine ⟨n, ?_⟩
  rw [VideoPipeline.after, exec_append]
  exact hn

/-- IDR 0 leaves.  Delta 2 replaces delta 1 in the cell and leaves without
it. -/
def coalescedRun : List Event :=
  [.encode [nalIdr], .recv 0, .pop 0, .encode [1], .encode [1], .recv 0, .recv 0, .recv 0, .pop 0]

/-- A delta that is replaced in the slot leaves a gap in its group. -/
theorem groupsWhole_fails_for_coalesced : ¬ (exec step (new .cut) coalescedRun).GroupsWhole := by
  intro h
  obtain ⟨m, hm, -⟩ := h 1 (2, ⟨2, [1]⟩) (by decide) (by decide) (by decide) (1, ⟨1, [1]⟩)
    (by decide) (by decide) (Or.inl (by decide)) (by decide)
  have hmem := List.mem_of_getElem? hm
  revert hmem
  decide

end VideoPipeline

end RoboTele
