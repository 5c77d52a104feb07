import RoboTele.RobotEdge.VideoRx
import RoboTele.Runs.Machine

/-!
# The encoder task and its two consumers

The encoder task numbers the NALs it splits off the camera's stream.  Each one
goes to the Zenoh sink first and to the session after that, two steps here.  The
sink takes it only while a subscriber matches, and has the same two lanes with a
bound on the queue.  Its task also replays the cached parameter sets when a
subscriber joins.  A replay is a copy for a decoder that starts in the middle,
so it is logged apart from what the task passes on.

`KeepsEncoderOrder` says that what the session receives and what the sink passes
on are subsequences of the encoder's order.  A delta that waits in a cell while
an IDR overtakes it breaks that, and so does a delta that follows an IDR into
the cell after the queue was found empty.  `keepsEncoderOrder_iff` tells the runs
that keep the order by their schedules: by what was sent between a poll of the
queue and the send of the delta that is read after it.
-/

namespace RoboTele

open Runs Queues

/-- `START_CODE`. -/
def startCode : Bytes := [0, 0, 0, 1]

/-- Bound on queued critical NALs of the sink. -/
def videoCriticalQueue : Nat := 32

/-! ## The Zenoh sink -/

/-- The payload is a parameter set or an IDR. -/
def payloadIsCritical (payload : Bytes) : Bool := nalIsCritical (payload.drop 4)

/-- NAL type of a payload that starts with a 4-byte start code. -/
def annexbNalType (payload : Bytes) : Option UInt8 := payload[4]?.map (· &&& 0x1F)

/-- How far a poll of the sink task has come. -/
inductive SinkPc where
  | critical
  | resub
  | changed
  | read
deriving DecidableEq

/-- The Zenoh sink's queue and cell, and where its task is. -/
structure VideoSink where
  lane : TwoLane Bytes
  changed : Bool
  subscribed : Bool
  resub : Bool
  sps : Option Bytes
  pps : Option Bytes
  pc : SinkPc
  replayed : List Bytes

namespace VideoSink

def new : VideoSink where
  lane := .empty
  changed := false
  subscribed := false
  resub := false
  sps := none
  pps := none
  pc := .critical
  replayed := []

/-- The matching listener's callback. -/
def onMatching (s : VideoSink) (isMatching : Bool) : VideoSink :=
  { s with subscribed := isMatching, resub := s.resub || isMatching }

/-- One NAL with its start code.  A critical one is dropped when the queue is
full. -/
def publish (s : VideoSink) (x : Nat × Bytes) (critical : Bool) : VideoSink :=
  if s.subscribed then
    if critical then
      if s.lane.critical.length < videoCriticalQueue then
        { s with lane := s.lane.sendCritical x }
      else s
    else { s with lane := s.lane.sendLatest x, changed := true }
  else s

/-- The parameter sets a later subscriber needs. -/
def cache (s : VideoSink) (payload : Bytes) : VideoSink :=
  match annexbNalType payload with
  | some t =>
      if t = nalSps then { s with sps := some payload }
      else if t = nalPps then { s with pps := some payload }
      else s
  | none => s

/-- Publish the next critical NAL, if one waits. -/
def pollCritical (s : VideoSink) : VideoSink :=
  match s.lane.critical with
  | x :: rest => { s.cache x.2 with lane := s.lane.recvCritical x rest }
  | [] => { s with pc := .resub }

/-- Publish the parameter sets again for a new subscriber. -/
def pollResub (s : VideoSink) : VideoSink :=
  if s.resub then
    { s with
      resub := false
      replayed := s.replayed ++ s.sps.toList ++ s.pps.toList
      pc := .critical }
  else { s with pc := .changed }

/-- See whether the cell was written. -/
def pollChanged (s : VideoSink) : VideoSink :=
  if s.changed then { s with changed := false, pc := .read } else { s with pc := .critical }

/-- Publish what is in the cell. -/
def publishLatest (s : VideoSink) : VideoSink :=
  match s.lane.latest with
  | some x => { s with lane := s.lane.recvLatest x, changed := false, pc := .critical }
  | none => { s with changed := false, pc := .critical }

/-- One step of the publishing task. -/
def next (s : VideoSink) : VideoSink :=
  match s.pc with
  | .critical => s.pollCritical
  | .resub => s.pollResub
  | .changed => s.pollChanged
  | .read => s.publishLatest

/-- The step of the lanes' schedule that a call of `publish` is.  Where nobody subscribes
or the queue is full it is none. -/
def publishOp (s : VideoSink) (x : Nat × Bytes) (critical : Bool) : Option (TwoLane.Op Bytes) :=
  if s.subscribed then
    if critical then
      if s.lane.critical.length < videoCriticalQueue then some (.send x) else none
    else some (.send x)
  else none

/-- The step of the schedule that a step of the task is. -/
def nextOp (s : VideoSink) : Option (TwoLane.Op Bytes) :=
  match s.pc with
  | .critical => some .poll
  | .resub => none
  | .changed => none
  | .read => some .read

/-- The last poll found the queue empty. -/
def polled (s : VideoSink) : Bool := s.pc != .critical

/-- Where the task is about to read the cell, something unread is in it. -/
structure WellFormed (source : List (Nat × Bytes)) (n : Nat) (s : VideoSink) : Prop where
  lane : s.lane.WellFormed payloadIsCritical source n
  changed : s.changed = true → s.lane.unread = true
  read : s.pc = .read → s.lane.unread = true

section

variable {source : List (Nat × Bytes)} {n : Nat} {s : VideoSink}

theorem WellFormed.new : WellFormed source n VideoSink.new where
  lane := .empty
  changed := nofun
  read := nofun

theorem WellFormed.onMatching (h : s.WellFormed source n) (isMatching : Bool) :
    (s.onMatching isMatching).WellFormed source n :=
  ⟨h.lane, h.changed, h.read⟩

/-- A payload is put in its lane. -/
theorem WellFormed.publish (h : s.WellFormed source n) {x : Nat × Bytes} (hx : x.1 = n) :
    (s.publish x (payloadIsCritical x.2)).WellFormed (source ++ [x]) (n + 1) := by
  have hgrown {m : Nat} (hm : n ≤ m) : s.lane.WellFormed payloadIsCritical (source ++ [x]) m :=
    h.lane.mono (fun _ => List.mem_append_left _) hm
  have hmem : x ∈ source ++ [x] := List.mem_concat_self
  have hkept : s.WellFormed (source ++ [x]) (n + 1) :=
    ⟨hgrown (Nat.le_succ n), h.changed, h.read⟩
  rw [VideoSink.publish]
  split_ifs with _ hcritical
  · exact ⟨hx ▸ (hgrown le_rfl).sendCritical hmem hx.ge hcritical, h.changed, h.read⟩
  · exact hkept
  · refine ⟨?_, fun _ => rfl, fun _ => rfl⟩
    exact hx ▸ (hgrown le_rfl).sendLatest hmem hx.ge (Bool.not_eq_true _ ▸ hcritical)
  · exact hkept

/-- The cache of parameter sets does not move the reader. -/
theorem cache_changed (s : VideoSink) (payload : Bytes) :
    (s.cache payload).changed = s.changed ∧ (s.cache payload).pc = s.pc := by
  rw [cache]
  cases annexbNalType payload with
  | none => exact ⟨rfl, rfl⟩
  | some t =>
      dsimp only
      split_ifs <;> exact ⟨rfl, rfl⟩

/-- A step of the reader keeps the lanes. -/
theorem WellFormed.next (h : s.WellFormed source n) : s.next.WellFormed source n := by
  rw [VideoSink.next]
  cases hpc : s.pc with
  | critical =>
      show s.pollCritical.WellFormed source n
      rw [pollCritical]
      cases hcritical : s.lane.critical with
      | nil => exact ⟨h.lane, h.changed, nofun⟩
      | cons x rest =>
          obtain ⟨hchanged, hpc'⟩ := s.cache_changed x.2
          refine ⟨h.lane.recvCritical hcritical, ?_, ?_⟩
          · exact fun hx => h.changed (hchanged ▸ hx)
          · exact fun hx => h.read (hpc' ▸ hx)
  | resub =>
      show s.pollResub.WellFormed source n
      rw [pollResub]
      split_ifs <;> exact ⟨h.lane, h.changed, nofun⟩
  | changed =>
      show s.pollChanged.WellFormed source n
      rw [pollChanged]
      split_ifs with hchanged
      · exact ⟨h.lane, nofun, fun _ => h.changed hchanged⟩
      · exact ⟨h.lane, h.changed, nofun⟩
  | read =>
      show s.publishLatest.WellFormed source n
      rw [publishLatest]
      cases hlatest : s.lane.latest with
      | none => exact ⟨h.lane, nofun, nofun⟩
      | some x => exact ⟨h.lane.recvLatest hlatest (h.read hpc), nofun, nofun⟩

variable {ops : List (TwoLane.Op Bytes)}

/-- The schedule follows a payload that is published. -/
theorem scheduled_publish (h : s.WellFormed source n)
    (hops : TwoLane.Scheduled payloadIsCritical ops s.polled s.lane) {x : Nat × Bytes}
    (hx : x.1 = n) :
    TwoLane.Scheduled payloadIsCritical
      (ops ++ (s.publishOp x (payloadIsCritical x.2)).toList)
      (s.publish x (payloadIsCritical x.2)).polled (s.publish x (payloadIsCritical x.2)).lane := by
  rw [VideoSink.publish, publishOp]
  split_ifs with _ hcritical
  · exact hops.sendCritical h.lane hx.ge hcritical
  · exact (List.append_nil ops).symm ▸ hops
  · exact hops.sendLatest h.lane hx.ge (Bool.not_eq_true _ ▸ hcritical)
  · exact (List.append_nil ops).symm ▸ hops

/-- The schedule follows a step of the reader. -/
theorem scheduled_next (h : s.WellFormed source n) (hsource : source.Pairwise TwoLane.Before)
    (hops : TwoLane.Scheduled payloadIsCritical ops s.polled s.lane) :
    TwoLane.Scheduled payloadIsCritical (ops ++ s.nextOp.toList) s.next.polled s.next.lane := by
  rw [VideoSink.next, nextOp]
  cases hpc : s.pc with
  | critical =>
      show TwoLane.Scheduled payloadIsCritical (ops ++ [.poll]) s.pollCritical.polled
        s.pollCritical.lane
      rw [pollCritical]
      cases hcritical : s.lane.critical with
      | nil => exact hops.pollEmpty hcritical
      | cons x rest =>
          show TwoLane.Scheduled payloadIsCritical (ops ++ [.poll])
            ((s.cache x.2).pc != .critical) _
          rw [(s.cache_changed x.2).2, hpc]
          exact hops.take h.lane hcritical
  | resub =>
      have hpolled : s.polled = true := by rw [polled, hpc]; rfl
      rw [hpolled] at hops
      show TwoLane.Scheduled payloadIsCritical (ops ++ []) s.pollResub.polled s.pollResub.lane
      rw [List.append_nil, pollResub]
      split_ifs
      · exact hops.again
      · exact hops
  | changed =>
      have hpolled : s.polled = true := by rw [polled, hpc]; rfl
      rw [hpolled] at hops
      show TwoLane.Scheduled payloadIsCritical (ops ++ []) s.pollChanged.polled s.pollChanged.lane
      rw [List.append_nil, pollChanged]
      split_ifs
      · exact hops
      · exact hops.again
  | read =>
      have hpolled : s.polled = true := by rw [polled, hpc]; rfl
      rw [hpolled] at hops
      show TwoLane.Scheduled payloadIsCritical (ops ++ [.read]) s.publishLatest.polled
        s.publishLatest.lane
      rw [publishLatest]
      cases hlatest : s.lane.latest with
      | none => exact absurd hlatest (hops.held (h.read hpc))
      | some x => exact hops.read h.lane hsource hlatest (h.read hpc)

end

end VideoSink

/-! ## The encoder task -/

/-- Every NAL encoded, the one on its way from the sink to the session, and the
two consumers. -/
structure VideoTaps where
  encoded : List (Nat × Nal)
  pending : Option (Nat × Nal)
  rx : VideoRx
  sink : VideoSink

namespace VideoTaps

def new : VideoTaps where
  encoded := []
  pending := none
  rx := .new
  sink := .new

/-- A step of the encoder task, of the session or of the sink's task. -/
inductive Event where
  /-- The encoder task has split off a NAL and publishes it to the sink. -/
  | encode (nal : Bytes)
  /-- It sends that NAL to the session. -/
  | send
  /-- One step of the session's `recv`. -/
  | recv
  /-- A change of the sink's subscription. -/
  | onMatching (isMatching : Bool)
  /-- One step of the sink's task. -/
  | publishNext
deriving DecidableEq

/-- The payload of a NAL for the sink. -/
def payload (x : Nat × Nal) : Nat × Bytes := (x.1, startCode ++ x.2.nal)

/-- The next NAL.  Ids wrap. -/
def number (s : VideoTaps) (nal : Bytes) : Nat × Nal :=
  (s.encoded.length, { nalId := UInt32.ofNat s.encoded.length, nal })

/-- The encoder task splits off a NAL and publishes it to the sink. -/
def encode (s : VideoTaps) (nal : Bytes) : VideoTaps :=
  match s.pending with
  | some _ => s
  | none =>
      { s with
        encoded := s.encoded ++ [s.number nal]
        pending := some (s.number nal)
        sink := s.sink.publish (payload (s.number nal)) (s.number nal).2.isCritical }

/-- The encoder task sends that NAL to the session. -/
def send (s : VideoTaps) : VideoTaps :=
  match s.pending with
  | some x => { s with pending := none, rx := s.rx.send x }
  | none => s

/-- A step of one of the three tasks. -/
def step (s : VideoTaps) : Event → VideoTaps
  | .encode nal => s.encode nal
  | .send => s.send
  | .recv => { s with rx := s.rx.recv.1 }
  | .onMatching isMatching => { s with sink := s.sink.onMatching isMatching }
  | .publishNext => { s with sink := s.sink.next }

/-- What the session receives and what the sink passes on keep the encoder's
order, and none of it comes after a NAL that still waits in a queue. -/
structure KeepsEncoderOrder (s : VideoTaps) : Prop where
  received : s.rx.lane.returned.Sublist s.encoded
  receivedFirst : ∀ r ∈ s.rx.lane.returned, ∀ c ∈ s.rx.lane.critical, r.1 < c.1
  published : s.sink.lane.returned.Sublist (s.encoded.map payload)
  publishedFirst : ∀ r ∈ s.sink.lane.returned, ∀ c ∈ s.sink.lane.critical, r.1 < c.1

/-- What a step is to the session's lanes. -/
def rxOp (s : VideoTaps) : Event → Option (TwoLane.Op Nal)
  | .send => s.pending.map .send
  | .recv => s.rx.recvOp
  | _ => none

/-- What a step is to the sink's lanes. -/
def sinkOp (s : VideoTaps) : Event → Option (TwoLane.Op Bytes)
  | .encode nal =>
      match s.pending with
      | some _ => none
      | none => s.sink.publishOp (payload (s.number nal)) (s.number nal).2.isCritical
  | .publishNext => s.sink.nextOp
  | _ => none

/-- The schedule of the session's lanes in a run. -/
def rxSchedule (events : List Event) : List (TwoLane.Op Nal) := trace step rxOp new events

/-- The schedule of the sink's lanes in a run. -/
def sinkSchedule (events : List Event) : List (TwoLane.Op Bytes) := trace step sinkOp new events

/-! ## The invariant -/

/-- The numbers below which the session's lanes hold NALs. -/
def sentBelow (s : VideoTaps) : Nat := s.pending.elim s.encoded.length Prod.fst

/-- Everything that holds of a run whatever its schedule. -/
structure Inv (events : List Event) (s : VideoTaps) : Prop where
  sorted : s.encoded.Pairwise TwoLane.Before
  numbered : ∀ x ∈ s.encoded, x.1 < s.encoded.length
  pending : ∀ x ∈ s.pending, x ∈ s.encoded ∧ x.1 + 1 = s.encoded.length
  rx : s.rx.WellFormed s.encoded s.sentBelow
  sink : s.sink.WellFormed (s.encoded.map payload) s.encoded.length
  rxScheduled :
    TwoLane.Scheduled Nal.isCritical (rxSchedule events) s.rx.polled s.rx.lane
  sinkScheduled :
    TwoLane.Scheduled payloadIsCritical (sinkSchedule events) s.sink.polled s.sink.lane

theorem Inv.new : Inv [] new where
  sorted := List.Pairwise.nil
  numbered := by simp [VideoTaps.new]
  pending := by simp [VideoTaps.new]
  rx := .new
  sink := .new
  rxScheduled := .empty
  sinkScheduled := .empty

/-- What an event adds to the schedule of the sender's lane. -/
theorem rxSchedule_concat (events : List Event) (e : Event) :
    rxSchedule (events ++ [e]) =
      rxSchedule events ++ ((exec step VideoTaps.new events).rxOp e).toList :=
  trace_concat step rxOp VideoTaps.new events e

/-- What an event adds to the schedule of the tap's lane. -/
theorem sinkSchedule_concat (events : List Event) (e : Event) :
    sinkSchedule (events ++ [e]) =
      sinkSchedule events ++ ((exec step VideoTaps.new events).sinkOp e).toList :=
  trace_concat step sinkOp VideoTaps.new events e

section

variable {events : List Event} {s : VideoTaps}

/-- A step that is none of a schedule's. -/
theorem Inv.idle (h : Inv events s) (hs : s = exec step VideoTaps.new events) {e : Event}
    (hrx : s.rxOp e = none) (hsink : s.sinkOp e = none) : Inv (events ++ [e]) s := by
  subst hs
  refine ⟨h.sorted, h.numbered, h.pending, h.rx, h.sink, ?_, ?_⟩
  · rw [rxSchedule_concat, hrx, Option.toList_none, List.append_nil]
    exact h.rxScheduled
  · rw [sinkSchedule_concat, hsink, Option.toList_none, List.append_nil]
    exact h.sinkScheduled

/-- A NAL of the encoder keeps both schedules. -/
theorem Inv.encode (h : Inv events s) (hs : s = exec step VideoTaps.new events) (nal : Bytes) :
    Inv (events ++ [.encode nal]) (s.encode nal) := by
  rw [VideoTaps.encode]
  cases hpending : s.pending with
  | some x => exact h.idle hs rfl (by simp only [sinkOp, hpending])
  | none =>
      have hrxOps : rxSchedule (events ++ [.encode nal]) = rxSchedule events := by
        rw [rxSchedule_concat]
        exact List.append_nil _
      have hsinkOps : sinkSchedule (events ++ [.encode nal]) = sinkSchedule events ++
          (s.sink.publishOp (payload (s.number nal)) (s.number nal).2.isCritical).toList := by
        rw [sinkSchedule_concat, ← hs]
        simp only [sinkOp, hpending]
      refine ⟨?_, ?_, ?_, ?_, ?_, hrxOps ▸ h.rxScheduled, ?_⟩
      · exact TwoLane.pairwise_concat h.sorted h.numbered
      · intro x hx
        rw [List.length_append, List.length_singleton]
        rcases List.mem_append.mp hx with hx | hx
        · exact (h.numbered x hx).trans (Nat.lt_succ_self _)
        · rw [List.mem_singleton.mp hx]
          exact Nat.lt_succ_self _
      · intro x hx
        obtain rfl := Option.some.inj hx
        exact ⟨List.mem_concat_self, by simp [number]⟩
      · have hbelow : s.sentBelow = s.encoded.length := by rw [sentBelow, hpending]; rfl
        exact h.rx.mono (fun _ => List.mem_append_left _) hbelow.le
      · rw [List.map_append, List.length_append, List.length_singleton]
        exact h.sink.publish rfl
      · rw [hsinkOps]
        exact VideoSink.scheduled_publish h.sink h.sinkScheduled rfl

/-- So does a read of the sender. -/
theorem Inv.send (h : Inv events s) (hs : s = exec step VideoTaps.new events) :
    Inv (events ++ [.send]) s.send := by
  rw [VideoTaps.send]
  cases hpending : s.pending with
  | none => exact h.idle hs (by simp only [rxOp, hpending, Option.map_none]) rfl
  | some x =>
      obtain ⟨hmem, hlast⟩ := h.pending x hpending
      have hbelow : s.sentBelow ≤ x.1 := by
        rw [sentBelow, hpending]
        exact le_rfl
      have hrxOps : rxSchedule (events ++ [.send]) = rxSchedule events ++ [.send x] := by
        rw [rxSchedule_concat, ← hs]
        simp only [rxOp, hpending, Option.map_some, Option.toList_some]
      have hsinkOps : sinkSchedule (events ++ [.send]) = sinkSchedule events := by
        rw [sinkSchedule_concat]
        exact List.append_nil _
      refine ⟨h.sorted, h.numbered, nofun, ?_, h.sink, ?_, hsinkOps ▸ h.sinkScheduled⟩
      · show (s.rx.send x).WellFormed s.encoded s.encoded.length
        rw [← hlast]
        exact h.rx.send hmem hbelow
      · rw [hrxOps]
        exact VideoRx.scheduled_send h.rx h.rxScheduled hbelow

/-- So does every event. -/
theorem Inv.step (h : Inv events s) (hs : s = exec step VideoTaps.new events) (e : Event) :
    Inv (events ++ [e]) (s.step e) := by
  cases e with
  | encode nal => exact h.encode hs nal
  | send => exact h.send hs
  | recv =>
      have hsinkOps : sinkSchedule (events ++ [.recv]) = sinkSchedule events := by
        rw [sinkSchedule_concat]
        exact List.append_nil _
      refine ⟨h.sorted, h.numbered, h.pending, h.rx.recv, h.sink, ?_,
        hsinkOps ▸ h.sinkScheduled⟩
      rw [rxSchedule_concat, ← hs]
      exact VideoRx.scheduled_recv h.rx h.sorted h.rxScheduled
  | onMatching isMatching =>
      have hidle := h.idle hs (e := .onMatching isMatching) rfl rfl
      exact ⟨hidle.sorted, hidle.numbered, hidle.pending, hidle.rx,
        hidle.sink.onMatching isMatching, hidle.rxScheduled, hidle.sinkScheduled⟩
  | publishNext =>
      have hrxOps : rxSchedule (events ++ [.publishNext]) = rxSchedule events := by
        rw [rxSchedule_concat]
        exact List.append_nil _
      refine ⟨h.sorted, h.numbered, h.pending, h.rx, h.sink.next, hrxOps ▸ h.rxScheduled, ?_⟩
      rw [sinkSchedule_concat, ← hs]
      exact VideoSink.scheduled_next h.sink (h.sorted.map payload fun _ _ => id) h.sinkScheduled

end

/-- The invariant holds of every run. -/
theorem inv_exec (events : List Event) : Inv events (exec step VideoTaps.new events) := by
  induction events using List.reverseRecOn with
  | nil => exact .new
  | append_singleton events e ih =>
      rw [exec_concat]
      exact ih.step rfl e

/-- A subsequence of what is sorted is sorted. -/
theorem Inv.lanesInOrder_iff {events : List Event} {s : VideoTaps} (h : Inv events s) :
    s.KeepsEncoderOrder ↔ s.rx.lane.InOrder ∧ s.sink.lane.InOrder := by
  have hpayloads : (s.encoded.map payload).Pairwise TwoLane.Before :=
    h.sorted.map payload fun _ _ => id
  constructor
  · intro horder
    exact ⟨⟨h.sorted.sublist horder.received, horder.receivedFirst⟩,
      ⟨hpayloads.sublist horder.published, horder.publishedFirst⟩⟩
  · rintro ⟨hrx, hsink⟩
    exact ⟨hrx.sublist h.rx.lane h.sorted, hrx.behind, hsink.sublist h.sink.lane hpayloads,
      hsink.behind⟩

/-! ## The rule -/

/-- A run keeps the encoder's order for both consumers exactly if in the schedules of both
no critical NAL is sent between a poll of the queue and the send of the delta that is read
next. -/
theorem keepsEncoderOrder_iff (events : List Event) :
    (exec step new events).KeepsEncoderOrder ↔
      TwoLane.ReadsInTurn Nal.isCritical (rxSchedule events) ∧
        TwoLane.ReadsInTurn payloadIsCritical (sinkSchedule events) := by
  have h := inv_exec events
  rw [h.lanesInOrder_iff, h.rxScheduled.order, h.sinkScheduled.order]

/-- An IDR and two deltas for both consumers.  The session reads both deltas,
and the sink, which has only subscribed after the IDR, passes the second one
on. -/
example : TwoLane.ReadsInTurn Nal.isCritical (rxSchedule
    [.encode [nalIdr], .send, .recv, .onMatching true, .encode [1], .send, .recv, .recv, .recv,
      .encode [1], .send, .recv, .recv, .recv, .publishNext, .publishNext, .publishNext,
      .publishNext, .publishNext]) := by
  decide

/-- Delta 1 waits in the cell when IDR 2 comes, which `recv` returns first. -/
def overtakenRun : List Event :=
  [.encode [nalIdr], .send, .recv, .encode [1], .send, .encode [nalIdr], .send, .recv, .recv,
    .recv, .recv]

/-- A critical NAL that is sent while a delta is unread overtakes it. -/
theorem keepsEncoderOrder_fails_for_overtaken :
    ¬ (exec step new overtakenRun).KeepsEncoderOrder :=
  fun h => absurd h.received (by decide)

end VideoTaps

end RoboTele
