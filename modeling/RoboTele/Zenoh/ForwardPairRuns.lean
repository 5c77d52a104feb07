import RoboTele.Zenoh.ForwardPair
import RoboTele.Zenoh.ForwardWay

/-!
# Runs of two hosts that forward topics

Each step of the two hosts is a step of both ways (`step_way`).  So nothing is put on a domain
that was not heard on the other one, or twice for being heard once (`forwardPair_exact`).

While the operator's forwarder pauses it captures nothing and republishes nothing.  What it had
captured before is then all that the robot still puts, even where the domains are joined and each
forwarder hears the other one (`forwardPair_paused`).
-/

namespace RoboTele

open Queues Runs

/-! ## What an event of one end changes -/

namespace ForwardEnd

variable {σ : Type} {zenoh : KeyExprs} {config : ForwardConfig} {e e' : ForwardEnd σ}

/-- What an end has put or is to put. -/
def republished (e : ForwardEnd σ) : List ZenohSample := e.forwarder.republished e.history

/-- Nothing changes of what goes to the peer. -/
structure SameSending (e e' : ForwardEnd σ) : Prop where
  taken : e'.history.taken = e.history.taken
  waiting : e'.forwarder.outgoing.waiting = e.forwarder.outgoing.waiting
  topics : e'.topics = e.topics
  paused : e'.forwarder.paused = e.forwarder.paused

/-- Nothing changes of what comes from the peer. -/
structure SameReceiving (e e' : ForwardEnd σ) : Prop where
  readers : e'.readers = e.readers
  republished : e'.republished = e.republished
  paused : e'.forwarder.paused = e.forwarder.paused

theorem SameSending.rfl : SameSending e e := ⟨.refl _, .refl _, .refl _, .refl _⟩

theorem SameSending.trans {e'' : ForwardEnd σ} (h : SameSending e e') (h' : SameSending e' e'') :
    SameSending e e'' :=
  ⟨h'.taken.trans h.taken, h'.waiting.trans h.waiting, h'.topics.trans h.topics,
    h'.paused.trans h.paused⟩

theorem SameReceiving.rfl : SameReceiving e e := ⟨.refl _, .refl _, .refl _⟩

/-- A sample is republished or it is not. -/
theorem republish_spec (zenoh : KeyExprs) (e : ForwardEnd σ) (s : TopicSample) :
    SameSending e (e.republish zenoh s) ∧ (e.republish zenoh s).readers = e.readers ∧
      ((e.republish zenoh s).republished = e.republished ∨
        (e.forwarder.paused = false ∧
          (e.republish zenoh s).republished = e.republished ++ [s.toPut])) := by
  rw [republish]
  split
  · exact ⟨.rfl, rfl, .inl rfl⟩
  · rcases e.forwarder.republish_cases zenoh s with
      ⟨-, hrejects⟩ | ⟨-, hdropped⟩ | ⟨-, hpaused, toRepublish, hwaiting, hsent⟩
    · rw [hrejects]
      exact ⟨⟨rfl, rfl, rfl, rfl⟩, rfl, .inl rfl⟩
    · rw [hdropped]
      exact ⟨⟨rfl, rfl, rfl, rfl⟩, rfl, .inl rfl⟩
    · rw [hsent]
      refine ⟨⟨rfl, rfl, rfl, rfl⟩, rfl, .inr ⟨hpaused, ?_⟩⟩
      show _ ++ toRepublish.waiting.map TopicSample.toPut = _
      rw [hwaiting, List.map_append, ← List.append_assoc]
      rfl

/-- Samples are republished in part, and none of them in a pause. -/
theorem republishAll_spec (zenoh : KeyExprs) : ∀ (ss : List TopicSample) (e : ForwardEnd σ),
    SameSending e (e.republishAll zenoh ss) ∧ (e.republishAll zenoh ss).readers = e.readers ∧
      ∃ new : List TopicSample, new.Sublist ss ∧ (e.forwarder.paused = true → new = []) ∧
        (e.republishAll zenoh ss).republished = e.republished ++ new.map TopicSample.toPut
  | [], e => ⟨.rfl, rfl, [], .slnil, fun _ => rfl, (List.append_nil _).symm⟩
  | s :: ss, e => by
      obtain ⟨hsame, hreaders, hone⟩ := republish_spec zenoh e s
      obtain ⟨hsame', hreaders', new, hnew, hpaused, hall⟩ :=
        republishAll_spec zenoh ss (e.republish zenoh s)
      refine ⟨hsame.trans hsame', hreaders'.trans hreaders, ?_⟩
      rw [hsame.paused] at hpaused
      rcases hone with hnone | ⟨hunpaused, hone⟩
      · exact ⟨new, hnew.cons s, hpaused, hall.trans (by rw [hnone])⟩
      · refine ⟨s :: new, hnew.cons_cons s, fun h => ?_, ?_⟩
        · exact absurd (hunpaused.symm.trans h) (by decide)
        · refine hall.trans ?_
          rw [hone, List.append_assoc]
          rfl

/-- A datagram changes only the receiving half: some of its samples are republished, and none while
paused. -/
theorem onDatagram_spec (zenoh : KeyExprs) (e : ForwardEnd σ) (data : Bytes) :
    SameSending e (e.onDatagram zenoh data) ∧ (e.onDatagram zenoh data).readers = e.readers ∧
      ∃ new : List TopicSample, new.Sublist (datagramSamples data) ∧
        (e.forwarder.paused = true → new = []) ∧
        (e.onDatagram zenoh data).republished = e.republished ++ new.map TopicSample.toPut := by
  rw [onDatagram_eq]
  exact republishAll_spec zenoh _ e

/-- A stream read changes only the receiving half, and the reader of its stream. -/
theorem onStreamData_spec [DecidableEq σ] (zenoh : KeyExprs) (e : ForwardEnd σ) (stream : σ)
    (data : Bytes) :
    SameSending e (e.onStreamData zenoh stream data false) ∧
      (e.onStreamData zenoh stream data false).readers =
        Function.update e.readers stream ((e.readers stream).push data).1 ∧
      ∃ new : List TopicSample, new.Sublist (samplesOf ((e.readers stream).push data).2) ∧
        (e.forwarder.paused = true → new = []) ∧
        (e.onStreamData zenoh stream data false).republished =
          e.republished ++ new.map TopicSample.toPut := by
  obtain ⟨hsending, hreaders, hrest⟩ := republishAll_spec zenoh
    (samplesOf ((e.readers stream).push data).2)
    { e with readers := Function.update e.readers stream ((e.readers stream).push data).1 }
  exact ⟨⟨hsending.taken, hsending.waiting, hsending.topics, hsending.paused⟩, hreaders, hrest⟩

/-- A sample of the local domain changes only the sending half. -/
theorem sameReceiving_onSample (e : ForwardEnd σ) (rule : ForwardRule) (kind : SampleKind)
    (z : ZenohSample) : SameReceiving e (e.onSample rule kind z) ∧
      (e.onSample rule kind z).topics = e.topics ∧
      (e.onSample rule kind z).history.taken = e.history.taken ∧
      ((e.onSample rule kind z).forwarder.outgoing.waiting = e.forwarder.outgoing.waiting ∨
        ∃ out, checkKey out.sample.key = .ok () ∧ e.forwarder.paused = false ∧
          (e.onSample rule kind z).forwarder.outgoing.waiting =
            e.forwarder.outgoing.waiting ++ [out]) := by
  cases kind with
  | delete => exact ⟨.rfl, rfl, rfl, .inl rfl⟩
  | put =>
      rw [onSample, if_pos rfl]
      rcases e.forwarder.onSample_put_cases rule.mode z with
        hdropped | ⟨hpaused, hkey, outgoing, hwaiting, hcaptured⟩
      · rw [hdropped]
        exact ⟨⟨rfl, rfl, rfl⟩, rfl, rfl, .inl rfl⟩
      · rw [hcaptured]
        exact ⟨⟨rfl, rfl, rfl⟩, rfl, rfl, .inr ⟨_, hkey, hpaused, hwaiting⟩⟩

/-- Forwarding moves the first waiting sample to the outbox, if the session has topics. -/
theorem onForward_spec (e : ForwardEnd σ) :
    SameReceiving e e.onForward ∧ (e.onForward = e ∨
      ∃ out rest, e.forwarder.outgoing.waiting = out :: rest ∧
        e.onForward.history.taken = e.history.taken ++ [out] ∧
        e.onForward.forwarder.outgoing.waiting = rest ∧
        e.onForward.topics =
          if e.topicsNegotiated then e.topics.step (.push out.mode out.sample) else e.topics) := by
  rw [onForward]
  split
  · exact ⟨.rfl, .inl rfl⟩
  · rcases e.forwarder.tryRecv_cases with hnone | ⟨out, outgoing, hwaiting, hsome⟩
    · rw [hnone]
      exact ⟨.rfl, .inl rfl⟩
    · rw [hsome]
      exact ⟨⟨rfl, rfl, rfl⟩, .inr ⟨out, outgoing.waiting, hwaiting, rfl, rfl, rfl⟩⟩

/-- What an event delivers to the rules. -/
def Event.delivers : Event σ → List (TopicMode × ZenohSample)
  | .sample rule kind z => if kind = .put then [(rule.mode, z)] else []
  | _ => []

theorem delivered_republishAll (zenoh : KeyExprs) : ∀ (ss : List TopicSample) (e : ForwardEnd σ),
    (e.republishAll zenoh ss).history.delivered = e.history.delivered
  | [], _ => rfl
  | s :: ss, e => by
      refine (delivered_republishAll zenoh ss (e.republish zenoh s)).trans ?_
      rw [republish]
      split <;> rfl

/-- Only the delivery of a sample is added to what was delivered. -/
theorem delivered_step [DecidableEq σ] (e : ForwardEnd σ) (event : Event σ) :
    (e.step zenoh config event).history.delivered = e.history.delivered ++ event.delivers := by
  cases event with
  | sample rule kind z =>
      cases kind with
      | put => rfl
      | delete => exact (List.append_nil _).symm
  | onForward =>
      refine Eq.trans ?_ (List.append_nil _).symm
      rw [step, onForward]
      split
      · rfl
      · split <;> rfl
  | datagram data =>
      refine Eq.trans ?_ (List.append_nil _).symm
      rw [step, onDatagram_eq]
      exact delivered_republishAll zenoh _ e
  | streamData stream data fin =>
      exact (delivered_republishAll zenoh _ _).trans (List.append_nil _).symm
  | putNext =>
      refine Eq.trans ?_ (List.append_nil _).symm
      rw [step, putNext]
      split <;> rfl
  | _ => exact (List.append_nil _).symm

/-- A put changes neither the outbox nor the receiving half. -/
theorem putNext_spec (e : ForwardEnd σ) : SameSending e e.putNext ∧ SameReceiving e e.putNext := by
  rw [putNext]
  rcases e.forwarder.putNext_cases with hnone | ⟨s, toRepublish, hwaiting, hsome⟩
  · rw [hnone]
    exact ⟨.rfl, .rfl⟩
  · rw [hsome]
    refine ⟨⟨rfl, rfl, rfl, rfl⟩, ⟨rfl, ?_, rfl⟩⟩
    show (e.history.puts ++ [s.toPut]) ++ toRepublish.waiting.map TopicSample.toPut =
      e.history.puts ++ e.forwarder.toRepublish.waiting.map TopicSample.toPut
    rw [hwaiting, List.append_assoc]
    rfl

theorem paused_republishAll (zenoh : KeyExprs) (ss : List TopicSample) (e : ForwardEnd σ) :
    (e.republishAll zenoh ss).forwarder.paused = e.forwarder.paused :=
  (republishAll_spec zenoh ss e).1.paused

theorem paused_step [DecidableEq σ] (h : e.forwarder.paused = true) {event : Event σ}
    (hevent : event ≠ .pause false) :
    (e.step zenoh config event).forwarder.paused = true := by
  cases event with
  | sample rule kind z => exact (sameReceiving_onSample e rule kind z).1.paused.trans h
  | onForward => exact e.onForward_spec.1.paused.trans h
  | datagram data => exact (e.onDatagram_spec zenoh data).1.paused.trans h
  | streamData stream data fin => exact (paused_republishAll zenoh _ _).trans h
  | putNext => exact e.putNext_spec.1.paused.trans h
  | pause visible =>
      cases visible with
      | false => exact absurd rfl hevent
      | true => rfl
  | _ => exact h

end ForwardEnd

/-! ## What a step changes of one way -/

theorem Host.other_other : ∀ host : Host, host.other.other = host
  | robot => rfl
  | operator => rfl

theorem Host.other_ne : ∀ host : Host, host.other ≠ host
  | robot => Host.noConfusion
  | operator => Host.noConfusion

theorem Host.eq_or_eq_other : ∀ host way : Host, way = host ∨ way = host.other
  | robot, robot => .inl rfl
  | robot, operator => .inr rfl
  | operator, robot => .inr rfl
  | operator, operator => .inl rfl

namespace ForwardPair

/-- The way of the host's samples. -/
def way (p : ForwardPair) (host : Host) : Way where
  taken := (p.ends host).history.taken
  waiting := (p.ends host).forwarder.outgoing.waiting
  topics := (p.ends host).topics
  datagrams := p.datagrams host
  arrived := p.arrived host
  readers := (p.ends host.other).readers
  republished := (p.ends host.other).republished
  senderPaused := (p.ends host).forwarder.paused
  receiverPaused := (p.ends host.other).forwarder.paused

variable {zenoh : KeyExprs} {config : Host → ForwardConfig} {p : ForwardPair} {host : Host}

/-- What an end does changes its side of the way of its samples. -/
theorem way_act (p : ForwardPair) (host : Host) (event : ForwardEnd.Event ReliableLane) :
    (p.act zenoh config host event).way host =
      let e := (p.ends host).step zenoh (config host) event
      { p.way host with
        taken := e.history.taken
        waiting := e.forwarder.outgoing.waiting
        topics := e.topics
        senderPaused := e.forwarder.paused } := by
  simp only [way, act, Function.update_self, Function.update_of_ne host.other_ne]

/-- And what the other end does changes the other side. -/
theorem way_act_receiver (p : ForwardPair) (host : Host)
    (event : ForwardEnd.Event ReliableLane) :
    (p.act zenoh config host.other event).way host =
      let e := (p.ends host.other).step zenoh (config host.other) event
      { p.way host with
        readers := e.readers
        republished := e.republished
        receiverPaused := e.forwarder.paused } := by
  simp only [way, act, Function.update_self, Function.update_of_ne host.other_ne.symm]

/-- The way from a host depends on the sending half of its end. -/
theorem way_act_of_sameSending {event : ForwardEnd.Event ReliableLane}
    (h : (p.ends host).SameSending ((p.ends host).step zenoh (config host) event)) :
    (p.act zenoh config host event).way host = p.way host := by
  rw [way_act]
  dsimp only
  rw [h.taken, h.waiting, h.topics, h.paused]
  rfl

/-- The way to a host depends on the receiving half of its end. -/
theorem way_act_of_sameReceiving {event : ForwardEnd.Event ReliableLane}
    (h : (p.ends host).SameReceiving ((p.ends host).step zenoh (config host) event)) :
    (p.act zenoh config host event).way host.other = p.way host.other := by
  have hact := @way_act_receiver zenoh config p host.other event
  rw [host.other_other] at hact
  rw [hact]
  dsimp only
  rw [h.readers, h.republished, h.paused, way, host.other_other]

theorem way_hear (p : ForwardPair) (host way : Host) (kind : SampleKind) (z : ZenohSample) :
    (p.hear zenoh config host kind z).way way = p.way way := rfl

/-- A subscriber call is a step of either way. -/
theorem way_step_subscriber (p : ForwardPair) (host : Host) (i : Nat) (way : Host) :
    Way.Step (p.way way) ((p.subscriber zenoh config host i).way way) := by
  rw [subscriber]
  cases (p.due host)[i]? with
  | none => exact .same _
  | some call =>
      dsimp only
      obtain ⟨hreceiving, htopics, htaken, hwaiting⟩ := ForwardEnd.sameReceiving_onSample
        (p.ends host) call.rule call.kind call.sample
      rcases host.eq_or_eq_other way with rfl | rfl
      · rw [way_act]
        dsimp only [ForwardEnd.step]
        rw [htopics, htaken, hreceiving.paused]
        rcases hwaiting with hsame | ⟨out, hkey, hunpaused, hmore⟩
        · rw [hsame]
          exact .same _
        · rw [hmore]
          exact .captures (p.way way) out hkey hunpaused
      · rw [way_act_of_sameReceiving hreceiving]
        exact .same _

/-- Forwarding is a step of either way. -/
theorem way_step_onForward (p : ForwardPair) (host way : Host) :
    Way.Step (p.way way) ((p.act zenoh config host .onForward).way way) := by
  obtain ⟨hreceiving, hcases⟩ := (p.ends host).onForward_spec
  rcases host.eq_or_eq_other way with rfl | rfl
  · rw [way_act]
    dsimp only [ForwardEnd.step]
    rcases hcases with hsame | ⟨out, rest, hwaiting, htaken, hrest, htopics⟩
    · rw [hsame]
      exact .same _
    · rw [htaken, hrest, htopics, hreceiving.paused]
      exact .takes (p.way way) out rest hwaiting _
  · rw [way_act_of_sameReceiving hreceiving]
    exact .same _

/-- A datagram that leaves is a step of either way. -/
theorem way_step_popDatagram (p : ForwardPair) (host : Host) (maxLen : Nat) (way : Host) :
    Way.Step (p.way way) ((p.popDatagram zenoh config host maxLen).way way) := by
  rw [popDatagram]
  rcases host.eq_or_eq_other way with rfl | rfl
  · rw [way_act]
    simp only [ForwardPair.way, Function.update_self]
    exact .pops (p.way way) maxLen
  · rw [way_act_of_sameReceiving ⟨rfl, rfl, rfl⟩]
    simp only [ForwardPair.way, Function.update_of_ne host.other_ne]
    exact .same _

/-- Bytes that leave on a stream are a step of either way. -/
theorem way_step_consumeReliable (p : ForwardPair) (host : Host) (lane : ReliableLane) (n : Nat)
    (way : Host) :
    Way.Step (p.way way) ((p.act zenoh config host (.consumeReliable lane n)).way way) := by
  rcases host.eq_or_eq_other way with rfl | rfl
  · rw [way_act]
    exact .consumes (p.way way) lane n
  · rw [way_act_of_sameReceiving ⟨rfl, rfl, rfl⟩]
    exact .same _

/-- A lost datagram is a step of either way. -/
theorem way_step_datagramLost (p : ForwardPair) (host : Host) (i : Nat) (way : Host) :
    Way.Step (p.way way) ((p.datagramLost host i).way way) := by
  rcases host.eq_or_eq_other way with rfl | rfl
  · simp only [datagramLost, ForwardPair.way, Function.update_self]
    exact .loses (p.way way) i
  · simp only [datagramLost, ForwardPair.way, Function.update_of_ne host.other_ne]
    exact .same _

/-- An arriving datagram is a step of either way. -/
theorem way_step_datagramArrives (p : ForwardPair) (host : Host) (i : Nat) (way : Host) :
    Way.Step (p.way way) ((p.datagramArrives zenoh config host i).way way) := by
  rw [datagramArrives]
  cases hdata : (p.datagrams host)[i]? with
  | none => exact .same _
  | some data =>
      dsimp only
      obtain ⟨hsending, hreaders, new, hnew, hpaused, hrepublished⟩ :=
        (p.ends host.other).onDatagram_spec zenoh data
      rcases host.eq_or_eq_other way with rfl | rfl
      · rw [way_act_receiver]
        dsimp only [ForwardEnd.step, datagramLost]
        rw [hreaders, hrepublished, hsending.paused]
        simp only [ForwardPair.way, Function.update_self]
        exact .reads (p.way way) i data hdata new hnew hpaused
      · rw [way_act_of_sameSending hsending]
        simp only [datagramLost, ForwardPair.way, Function.update_of_ne host.other_ne]
        exact .same _

/-- Arriving bytes are a step of either way. -/
theorem way_step_bytesArrive (p : ForwardPair) (host : Host) (lane : ReliableLane) (n : Nat)
    (way : Host) : Way.Step (p.way way) ((p.bytesArrive zenoh config host lane n).way way) := by
  rw [bytesArrive]
  obtain ⟨hsending, hreaders, new, hnew, hpaused, hrepublished⟩ :=
    (p.ends host.other).onStreamData_spec zenoh lane (p.nextBytes host lane n)
  rcases host.eq_or_eq_other way with rfl | rfl
  · rw [way_act_receiver]
    dsimp only [ForwardEnd.step]
    rw [hreaders, hrepublished, hsending.paused]
    simp only [ForwardPair.way, Function.update_self]
    exact .arrives (p.way way) lane n _ rfl new hnew hpaused
  · rw [way_act_of_sameSending hsending]
    simp only [ForwardPair.way, Function.update_of_ne host.other_ne]
    exact .same _

/-- A put is a step of either way, in joined domains too. -/
theorem way_step_putNext (p : ForwardPair) (host : Host) (joined : Bool) (way : Host) :
    Way.Step (p.way way) ((p.putNext zenoh config host joined).way way) := by
  rw [putNext]
  cases (p.ends host).forwarder.putNext with
  | none => exact .same _
  | some put =>
      have hact : (p.act zenoh config host .putNext).way way = p.way way := by
        obtain ⟨hsending, hreceiving⟩ := (p.ends host).putNext_spec
        rcases host.eq_or_eq_other way with rfl | rfl
        · exact way_act_of_sameSending hsending
        · exact way_act_of_sameReceiving hreceiving
      dsimp only
      split
      · rw [way_hear, hact]
        exact .same _
      · rw [hact]
        exact .same _

/-- The start of operation is a step of either way. -/
theorem way_step_operate (p : ForwardPair) (host way : Host) :
    Way.Step (p.way way) ((p.act zenoh config host .operate).way way) := by
  rcases host.eq_or_eq_other way with rfl | rfl
  · rw [way_act]
    exact .discards (p.way way)
  · rw [way_act_of_sameReceiving ⟨rfl, rfl, rfl⟩]
    exact .same _

/-- A pause, or its end, is a step of either way. -/
theorem way_step_watch (p : ForwardPair) (host : Host) (visible : Bool) (way : Host) :
    Way.Step (p.way way) ((p.act zenoh config host (.pause visible)).way way) := by
  rcases host.eq_or_eq_other way with rfl | rfl
  · rw [way_act]
    exact .pauses (p.way way) visible _
  · have hact := @way_act_receiver zenoh config p host.other (.pause visible)
    rw [host.other_other] at hact
    rw [hact]
    cases host with
    | robot => exact .pauses (p.way .operator) _ visible
    | operator => exact .pauses (p.way .robot) _ visible

/-- What a step does, it does on both ways. -/
theorem step_way (p : ForwardPair) (event : Event) (way : Host) :
    Way.Step (p.way way) ((p.step zenoh config event).way way) := by
  cases event with
  | publish host joined kind z =>
      rw [step, publish]
      cases joined <;> exact .same _
  | subscriber host i => exact way_step_subscriber p host i way
  | onForward host => exact way_step_onForward p host way
  | popDatagram host maxLen => exact way_step_popDatagram p host maxLen way
  | consumeReliable host lane n => exact way_step_consumeReliable p host lane n way
  | datagramLost host i => exact way_step_datagramLost p host i way
  | datagramArrives host i => exact way_step_datagramArrives p host i way
  | bytesArrive host lane n => exact way_step_bytesArrive p host lane n way
  | putNext host joined => exact way_step_putNext p host joined way
  | negotiated host topics =>
      rcases host.eq_or_eq_other way with rfl | rfl
      · rw [step, way_act_of_sameSending ⟨rfl, rfl, rfl, rfl⟩]
        exact .same _
      · rw [step, way_act_of_sameReceiving ⟨rfl, rfl, rfl⟩]
        exact .same _
  | operate host => exact way_step_operate p host way
  | watch visible => exact way_step_watch p .operator visible way
  | reconnect => exact .reconnects (p.way way) _

/-! ## What both ends keep -/

/-- What the rules make of a put that the subscribers hear. -/
def offers (zenoh : KeyExprs) (config : ForwardConfig) (z : ZenohSample) :
    List (TopicMode × ZenohSample) :=
  (config.forward.filter fun rule => zenoh.intersects rule.keyExpr z.key).map (·.mode, z)

/-- The puts among the calls that are due. -/
def duePuts (due : List SubscriberCall) : List (TopicMode × ZenohSample) :=
  due.flatMap fun call => if call.kind = .put then [(call.rule.mode, call.sample)] else []

/-- Every put that is heard is offered once by each rule. -/
def Heard (zenoh : KeyExprs) (config : Host → ForwardConfig) (p : ForwardPair) (host : Host) :
    Prop :=
  ((p.ends host).history.delivered ++ duePuts (p.due host)).Perm
    ((p.heard host).flatMap (offers zenoh (config host)))

/-- Both ends keep their accounts, and both ways carry only what was taken. -/
structure Valid (zenoh : KeyExprs) (config : Host → ForwardConfig) (p : ForwardPair) : Prop where
  accounted : ∀ host, (p.ends host).Accounted zenoh (config host)
  heard : ∀ host, p.Heard zenoh config host
  linked : ∀ host, (p.way host).Linked
  taken : ∀ host, (p.way host).mayBePut ≤ Way.putsOf (p.way host).taken

theorem act_ends_self (p : ForwardPair) (host : Host) (event : ForwardEnd.Event ReliableLane) :
    (p.act zenoh config host event).ends host = (p.ends host).step zenoh (config host) event :=
  Function.update_self ..

theorem act_ends_of_ne (p : ForwardPair) {host host' : Host} (hne : host' ≠ host)
    (event : ForwardEnd.Event ReliableLane) :
    (p.act zenoh config host event).ends host' = p.ends host' :=
  Function.update_of_ne hne ..

theorem accounted_act (h : ∀ host, (p.ends host).Accounted zenoh (config host)) (host : Host)
    (event : ForwardEnd.Event ReliableLane) (host' : Host) :
    ((p.act zenoh config host event).ends host').Accounted zenoh (config host') := by
  by_cases hhost : host' = host
  · subst hhost
    rw [act_ends_self]
    exact (h host').step event
  · rw [act_ends_of_ne p hhost]
    exact h host'

/-- Every event of the pair keeps the account of both ends. -/
theorem accounted_step (h : ∀ host, (p.ends host).Accounted zenoh (config host)) (event : Event)
    (host : Host) :
    ((p.step zenoh config event).ends host).Accounted zenoh (config host) := by
  cases event with
  | publish host' joined kind z =>
      rw [step, publish]
      cases joined <;> exact h host
  | subscriber host' i =>
      rw [step, subscriber]
      split
      · exact h host
      · exact accounted_act h ..
  | onForward host' => exact accounted_act h ..
  | popDatagram host' maxLen => exact accounted_act h ..
  | consumeReliable host' lane n => exact accounted_act h ..
  | datagramLost host' i => exact h host
  | datagramArrives host' i =>
      rw [step, datagramArrives]
      split
      · exact h host
      · exact accounted_act h ..
  | bytesArrive host' lane n => exact accounted_act h ..
  | putNext host' joined =>
      rw [step, putNext]
      split
      · exact h host
      · cases joined <;> exact accounted_act h ..
  | negotiated host' topics => exact accounted_act h ..
  | operate host' => exact accounted_act h ..
  | watch visible => exact accounted_act h ..
  | reconnect => exact h host

/-! ## What the subscribers hear -/

theorem duePuts_append (due more : List SubscriberCall) :
    duePuts (due ++ more) = duePuts due ++ duePuts more := List.flatMap_append

/-- A put is offered by the calls that it makes due. -/
theorem duePuts_rules (rules : List ForwardRule) (kind : SampleKind) (z : ZenohSample) :
    duePuts (rules.map (⟨·, kind, z⟩)) =
      if kind = .put then rules.map (·.mode, z) else [] := by
  rw [duePuts, List.flatMap_map]
  cases kind with
  | put =>
      rw [if_pos rfl]
      exact List.flatMap_pure_eq_map ..
  | delete => exact List.flatMap_eq_nil_iff.mpr fun _ _ => rfl

/-- A sample heard in a domain is due to the forwarder there, once for each rule. -/
theorem heard_hear (h : p.Heard zenoh config host) (host' : Host) (kind : SampleKind)
    (z : ZenohSample) : (p.hear zenoh config host' kind z).Heard zenoh config host := by
  by_cases hhost : host = host'
  · subst hhost
    rw [Heard, hear]
    dsimp only
    rw [Function.update_self, Function.update_self, duePuts_append, duePuts_rules,
      ← List.append_assoc]
    cases kind with
    | put =>
        rw [if_pos rfl, if_pos rfl, List.flatMap_append, List.flatMap_singleton]
        exact h.append_right _
    | delete =>
        rw [if_neg (by decide), if_neg (by decide), List.append_nil]
        exact h
  · rw [Heard, hear]
    dsimp only
    rw [Function.update_of_ne hhost, Function.update_of_ne hhost]
    exact h

theorem heard_act (h : p.Heard zenoh config host) {host' : Host}
    {event : ForwardEnd.Event ReliableLane} (hevent : event.delivers = []) :
    (p.act zenoh config host' event).Heard zenoh config host := by
  have hends : ((p.act zenoh config host' event).ends host).history.delivered =
      (p.ends host).history.delivered := by
    by_cases hhost : host = host'
    · subst hhost
      rw [act_ends_self, ForwardEnd.delivered_step, hevent, List.append_nil]
    · rw [act_ends_of_ne p hhost]
  rw [Heard, hends]
  exact h

/-- A call of the subscriber moves one sample from what is due to what was delivered. -/
theorem heard_subscriber (h : p.Heard zenoh config host) (host' : Host) (i : Nat) :
    (p.subscriber zenoh config host' i).Heard zenoh config host := by
  rw [subscriber]
  cases hcall : (p.due host')[i]? with
  | none => exact h
  | some call =>
      obtain ⟨hi, hget⟩ := List.getElem?_eq_some_iff.mp hcall
      by_cases hhost : host = host'
      · subst hhost
        rw [Heard, act_ends_self, ForwardEnd.delivered_step]
        show (_ ++ _ ++ duePuts (Function.update p.due host _ host)).Perm _
        rw [Function.update_self, List.append_assoc]
        have hdue := (List.getElem_cons_eraseIdx_perm hi).flatMap_right
          fun call : SubscriberCall =>
            if call.kind = .put then [(call.rule.mode, call.sample)] else []
        rw [List.flatMap_cons, hget] at hdue
        exact (hdue.append_left _).trans h
      · rw [Heard, act_ends_of_ne _ hhost]
        show (_ ++ duePuts (Function.update p.due host' _ host)).Perm _
        rw [Function.update_of_ne hhost]
        exact h

/-- Every event of the pair keeps what was heard in step with the calls. -/
theorem heard_step (h : ∀ host, p.Heard zenoh config host) (event : Event) (host : Host) :
    (p.step zenoh config event).Heard zenoh config host := by
  cases event with
  | publish host' joined kind z =>
      rw [step, publish]
      have hone := fun host => heard_hear (h host) host' kind z
      cases joined with
      | false => exact hone host
      | true => exact heard_hear (hone host) host'.other kind z
  | subscriber host' i => exact heard_subscriber (h host) host' i
  | onForward host' => exact heard_act (h host) rfl
  | popDatagram host' maxLen => exact heard_act (h host) rfl
  | consumeReliable host' lane n => exact heard_act (h host) rfl
  | datagramLost host' i => exact h host
  | datagramArrives host' i =>
      rw [step, datagramArrives]
      split
      · exact h host
      · exact heard_act (h host) rfl
  | bytesArrive host' lane n => exact heard_act (h host) rfl
  | putNext host' joined =>
      rw [step, putNext]
      split
      · exact h host
      · next z _ _ =>
          have hone : (p.act zenoh config host' .putNext).Heard zenoh config host :=
            heard_act (h host) rfl
          cases joined with
          | false => exact hone
          | true => exact heard_hear hone host'.other .put z
  | negotiated host' topics => exact heard_act (h host) rfl
  | operate host' => exact heard_act (h host) rfl
  | watch visible => exact heard_act (h host) rfl
  | reconnect => exact h host

/-! ## Runs -/

/-- Every event keeps the pair valid. -/
theorem Valid.step (h : Valid zenoh config p) (event : Event) :
    Valid zenoh config (p.step zenoh config event) where
  accounted := accounted_step h.accounted event
  heard := heard_step h.heard event
  linked host := (p.step_way event host).linked (h.linked host)
  taken host := by
    have hstep : ((p.step zenoh config event).way host).mayBePut + Way.putsOf (p.way host).taken ≤
        (p.way host).mayBePut + Way.putsOf ((p.step zenoh config event).way host).taken :=
      (p.step_way event host).mayBePut_le (h.linked host)
    have htaken := hstep.trans (add_le_add (h.taken host) le_rfl)
    rw [add_comm] at htaken
    exact Multiset.add_le_add_iff_left.mp htaken

/-- A pair whose forwarders started is valid. -/
theorem valid_new {forwarders : Host → Forwarder}
    (hstart : ∀ host, Forwarder.start zenoh (config host) = some (forwarders host)) :
    Valid zenoh config (new config forwarders) := by
  have hforwarder : ∀ host, (forwarders host).outgoing.waiting = [] ∧
      (forwarders host).toRepublish.waiting = [] := by
    intro host
    have h := hstart host
    rw [Forwarder.start] at h
    split_ifs at h
    rw [← Option.some.inj h]
    exact ⟨rfl, rfl⟩
  refine ⟨fun host => Forwarder.Accounted.start (hstart host), fun _ => .refl _, fun host => ?_,
    fun host => ?_⟩
  · exact
      { waitingKeys := fun out hout => by
          have hwaiting : ((new config forwarders).way host).waiting = [] := (hforwarder host).1
          rw [hwaiting] at hout
          exact absurd hout List.not_mem_nil
        lanes := fun lane => TopicRun.laneInv_after _ [] lane
        sendable := fun _ ha => absurd ha List.not_mem_nil
        arrived_le := fun _ => Nat.zero_le _
        readers := fun _ => rfl }
  · have hnone : ((new config forwarders).way host).republished = [] := by
      show [] ++ (forwarders host.other).toRepublish.waiting.map TopicSample.toPut = []
      rw [(hforwarder host.other).2]
      rfl
    rw [Way.mayBePut, hnone]
    exact Multiset.zero_le _

/-- Every run of the pair is valid. -/
theorem valid_exec {forwarders : Host → Forwarder}
    (hstart : ∀ host, Forwarder.start zenoh (config host) = some (forwarders host))
    (events : List Event) :
    Valid zenoh config (exec (step zenoh config) (new config forwarders) events) :=
  exec_inv (I := Valid zenoh config) (fun _ event h => h.step event) events (valid_new hstart)

/-! ## What is put -/

/-- What the rules make of a put at the other host. -/
def forwards (zenoh : KeyExprs) (config : ForwardConfig) (z : ZenohSample) : List ZenohSample :=
  (offers zenoh config z).map fun offer => offer.2.toTopic.toPut

/-- What a node of the host's domain puts. -/
def Event.published (host : Host) : Event → List ZenohSample
  | .publish host' _ kind z => if host = host' ∧ kind = .put then [z] else []
  | _ => []

/-- The domains are joined at that moment. -/
def Event.Joined : Event → Prop
  | .publish _ joined _ _ => joined = true
  | .putNext _ joined => joined = true
  | _ => False

/-- What is promised of the samples of a host. -/
structure ForwardsOnce (zenoh : KeyExprs) (config : Host → ForwardConfig) (p : ForwardPair)
    (events : List Event) (host : Host) : Prop where
  /-- What the forwarder puts at the other host was heard here, once for each rule. -/
  once : (p.ends host.other).history.puts.Subperm
    ((p.heard host).flatMap (forwards zenoh (config host)))
  allowed : (p.ends host.other).PutsAllowed zenoh (config host.other)
  /-- Where the domains are never joined nothing comes back. -/
  heard : (∀ event ∈ events, ¬ event.Joined) → p.heard host = events.flatMap (Event.published host)

/-- What a host has put is part of what the other heard, once for each rule. -/
theorem Valid.once (h : Valid zenoh config p) (host : Host) :
    (p.ends host.other).history.puts.Subperm
      ((p.heard host).flatMap (forwards zenoh (config host))) := by
  have hputs : ((p.ends host.other).history.puts : Multiset ZenohSample) ≤ (p.way host).mayBePut :=
    (Multiset.coe_le.mpr (List.sublist_append_left _ _).subperm).trans (Multiset.le_add_right _ _)
  have htaken := Multiset.coe_le.mp (hputs.trans (h.taken host))
  have hcaptured := ((List.sublist_append_left (p.ends host).history.taken
    (p.ends host).forwarder.outgoing.waiting).trans (h.accounted host).captured).map
      fun out : Forwarder.Outgoing => out.sample.toPut
  rw [List.map_map] at hcaptured
  obtain ⟨offered, hperm, hsub⟩ := (List.sublist_append_left (p.ends host).history.delivered
    (duePuts (p.due host))).subperm.trans (h.heard host).subperm
  have hdelivered := (hperm.map fun offer => offer.2.toTopic.toPut).symm.subperm.trans
    (hsub.map fun offer => offer.2.toTopic.toPut).subperm
  rw [List.map_flatMap] at hdelivered
  exact htaken.trans (hcaptured.subperm.trans hdelivered)

/-- Where the domains are not joined, only the nodes of a domain are heard there. -/
theorem heard_step_of_apart {event : Event} (h : ¬ event.Joined) (host : Host) :
    (p.step zenoh config event).heard host = p.heard host ++ event.published host := by
  cases event with
  | publish host' joined kind z =>
      obtain rfl : joined = false := Bool.eq_false_iff.mpr h
      show Function.update p.heard host' _ host =
        p.heard host ++ if host = host' ∧ kind = .put then [z] else []
      by_cases hhost : host = host'
      · subst hhost
        rw [Function.update_self]
        cases kind with
        | put => rw [if_pos rfl, if_pos ⟨rfl, rfl⟩]
        | delete => rw [if_neg (by decide), if_neg fun h => absurd h.2 (by decide), List.append_nil]
      · rw [Function.update_of_ne hhost, if_neg fun h => hhost h.1, List.append_nil]
  | subscriber host' i =>
      refine Eq.trans ?_ (List.append_nil _).symm
      rw [step, subscriber]
      split <;> rfl
  | datagramArrives host' i =>
      refine Eq.trans ?_ (List.append_nil _).symm
      rw [step, datagramArrives]
      split <;> rfl
  | putNext host' joined =>
      obtain rfl : joined = false := Bool.eq_false_iff.mpr h
      refine Eq.trans ?_ (List.append_nil _).symm
      rw [step, putNext]
      split <;> rfl
  | _ => exact (List.append_nil _).symm

/-- Without joined domains, what a host hears is what its nodes publish. -/
theorem heard_exec_of_apart (host : Host) : ∀ (events : List Event) (p : ForwardPair),
    (∀ event ∈ events, ¬ event.Joined) →
      (exec (step zenoh config) p events).heard host =
        p.heard host ++ events.flatMap (Event.published host)
  | [], _, _ => (List.append_nil _).symm
  | event :: events, p, h => by
      obtain ⟨hevent, hrest⟩ := List.forall_mem_cons.mp h
      rw [exec_cons, heard_exec_of_apart host events _ hrest, heard_step_of_apart hevent,
        List.append_assoc, List.flatMap_cons]

/-- Whatever happens on the two hosts and on the way between them, what a forwarder puts the other
one heard in its domain, and no rule forwards twice what was heard once. -/
theorem forwardPair_exact (zenoh : KeyExprs) (config : Host → ForwardConfig)
    (forwarders : Host → Forwarder)
    (hstart : ∀ host, Forwarder.start zenoh (config host) = some (forwarders host))
    (events : List Event) (host : Host) :
    ForwardsOnce zenoh config (exec (step zenoh config) (new config forwarders) events) events
      host := by
  have h := valid_exec hstart events
  exact
    { once := h.once host
      allowed := (h.accounted host.other).putsAllowed
      heard := fun hapart => heard_exec_of_apart host events _ hapart }

/-- A robot that forwards its pose and takes goals, and its operator. -/
def poseAndGoal : Host → ForwardConfig
  | .robot => { forward := [⟨.latest, "robot/pose"⟩], accept := ["planner/goal"], maxMbps := 2 }
  | .operator => ForwardEnd.goalForPose

def poseAndGoalStarted : Host → Forwarder
  | .robot => { ForwardEnd.goalForPoseStarted with accept := ["planner/goal"] }
  | .operator => ForwardEnd.goalForPoseStarted

theorem start_poseAndGoal : ∀ host, Forwarder.start KeyExprs.plain (poseAndGoal host) =
    some (poseAndGoalStarted host)
  | .robot => rfl
  | .operator => rfl

/-- The operator captures a goal. -/
def goalCaptured : List Event :=
  [.negotiated .operator true, .operate .operator, .operate .robot,
    .publish .operator true .put ⟨"planner/goal", none, [1]⟩, .subscriber .operator 0]

/-- The goal gets to the robot, which puts it where the operator hears it. -/
def goalArrives : List Event :=
  [.onForward .operator, .consumeReliable .operator .small 100,
    .bytesArrive .operator .small 100, .putNext .robot true, .subscriber .operator 0]

/-- A goal of the operator that is captured, carried and put. -/
theorem forwardPair_exact_goal :
    ForwardsOnce KeyExprs.plain poseAndGoal
      (exec (step KeyExprs.plain poseAndGoal) (new poseAndGoal poseAndGoalStarted)
        (goalCaptured ++ goalArrives)) (goalCaptured ++ goalArrives) .operator :=
  forwardPair_exact KeyExprs.plain poseAndGoal poseAndGoalStarted start_poseAndGoal
    (goalCaptured ++ goalArrives) .operator

/-! ## In a pause -/

/-- What the operator's forwarder has captured and the robot's has not put. -/
def pausedBound (p : ForwardPair) : Multiset ZenohSample :=
  (p.way .operator).mayBePut + Way.putsOf (p.way .operator).waiting

/-- The operator's forwarder pauses, and does nothing new since a state of the run. -/
structure Pausing (zenoh : KeyExprs) (config : Host → ForwardConfig) (start p : ForwardPair) :
    Prop where
  valid : Valid zenoh config p
  paused : (p.ends .operator).forwarder.paused = true
  captured : (p.way .operator).taken ++ (p.way .operator).waiting =
    (start.way .operator).taken ++ (start.way .operator).waiting
  republished : (p.ends .operator).republished = (start.ends .operator).republished
  bound : (p.way .operator).mayBePut + Way.putsOf (start.way .operator).taken ≤
    (start.way .operator).mayBePut + Way.putsOf (p.way .operator).taken

theorem paused_act (h : (p.ends .operator).forwarder.paused = true) (host : Host)
    {event : ForwardEnd.Event ReliableLane} (hevent : event ≠ .pause false) :
    ((p.act zenoh config host event).ends .operator).forwarder.paused = true := by
  by_cases hhost : Host.operator = host
  · subst hhost
    rw [act_ends_self]
    exact ForwardEnd.paused_step h hevent
  · rw [act_ends_of_ne p hhost]
    exact h

theorem paused_step (h : (p.ends .operator).forwarder.paused = true) {event : Event}
    (hevent : event ≠ .watch false) :
    ((p.step zenoh config event).ends .operator).forwarder.paused = true := by
  cases event with
  | publish host joined kind z =>
      rw [step, publish]
      cases joined <;> exact h
  | subscriber host i =>
      rw [step, subscriber]
      split
      · exact h
      · exact paused_act h host nofun
  | onForward host => exact paused_act h host nofun
  | popDatagram host maxLen => exact paused_act h host nofun
  | consumeReliable host lane n => exact paused_act h host nofun
  | datagramLost host i => exact h
  | datagramArrives host i =>
      rw [step, datagramArrives]
      split
      · exact h
      · exact paused_act h host.other nofun
  | bytesArrive host lane n => exact paused_act h host.other nofun
  | putNext host joined =>
      rw [step, putNext]
      split
      · exact h
      · cases joined <;> exact paused_act h host nofun
  | negotiated host topics => exact paused_act h host nofun
  | operate host => exact paused_act h host nofun
  | watch visible =>
      refine paused_act h .operator fun heq => hevent ?_
      rw [ForwardEnd.Event.pause.inj heq]
  | reconnect => exact h

/-- An event that does not end the pause captures and republishes nothing. -/
theorem Pausing.step {start : ForwardPair} (h : Pausing zenoh config start p) {event : Event}
    (hevent : event ≠ .watch false) :
    Pausing zenoh config start (p.step zenoh config event) where
  valid := h.valid.step event
  paused := paused_step h.paused hevent
  captured := ((p.step_way event .operator).captured_of_paused h.paused).trans h.captured
  republished := ((p.step_way event .robot).republished_of_paused h.paused).trans h.republished
  bound := by
    have hstep := (@step_way zenoh config p event .operator).mayBePut_le (h.valid.linked .operator)
    have hboth := add_le_add hstep h.bound
    suffices hsum : _ + ((p.way .operator).mayBePut + Way.putsOf (p.way .operator).taken) ≤
        _ + ((p.way .operator).mayBePut + Way.putsOf (p.way .operator).taken) from
      le_of_add_le_add_right hsum
    simpa only [add_assoc, add_comm, add_left_comm] using hboth

/-- What is promised from a state of a pause to a later one. -/
structure NothingNew (p p' : ForwardPair) : Prop where
  /-- The robot puts only what was on its way. -/
  robot : ((p'.ends .robot).history.puts : Multiset ZenohSample) ≤ p.pausedBound
  /-- The operator's side puts only what waited to be put. -/
  operator : (p'.ends .operator).republished = (p.ends .operator).republished

/-- While the operator's forwarder pauses, nothing more is put than was on its way when it
began to, whether the domains are joined or not. -/
theorem forwardPair_paused (zenoh : KeyExprs) (config : Host → ForwardConfig)
    (forwarders : Host → Forwarder)
    (hstart : ∀ host, Forwarder.start zenoh (config host) = some (forwarders host))
    (events later : List Event)
    (hpaused : ((exec (step zenoh config) (new config forwarders) events).ends
      .operator).forwarder.paused = true)
    (hlater : ∀ event ∈ later, event ≠ .watch false) :
    NothingNew (exec (step zenoh config) (new config forwarders) events)
      (exec (step zenoh config) (new config forwarders) (events ++ later)) := by
  rw [exec_append]
  set p := exec (step zenoh config) (new config forwarders) events
  set p' := exec (step zenoh config) p later
  have hp : Pausing zenoh config p p' :=
    exec_inv_of_forall (I := Pausing zenoh config p) (P := fun event => event ≠ .watch false)
      (fun _ _ h hevent => h.step hevent) later
      ⟨valid_exec hstart events, hpaused, rfl, rfl, le_rfl⟩ hlater
  refine ⟨?_, hp.republished⟩
  have hputs : ((p'.ends .robot).history.puts : Multiset ZenohSample) ≤
      (p'.way .operator).mayBePut :=
    (Multiset.coe_le.mpr (List.sublist_append_left _ _).subperm).trans (Multiset.le_add_right _ _)
  -- what the session loop has taken since then had been captured before
  have htaken : (Way.putsOf (p'.way .operator).taken : Multiset ZenohSample) ≤
      Way.putsOf (p.way .operator).taken + Way.putsOf (p.way .operator).waiting := by
    rw [Multiset.coe_add, Way.putsOf, Way.putsOf, Way.putsOf, ← List.map_append, ← hp.captured]
    exact Multiset.coe_le.mpr ((List.sublist_append_left _ _).map _).subperm
  have hbound := (add_le_add hputs le_rfl).trans (hp.bound.trans (add_le_add le_rfl htaken))
  rw [add_left_comm, add_comm] at hbound
  exact Multiset.add_le_add_iff_left.mp hbound

/-- The goal that was captured before the pause is put, and the operator's forwarder does not
capture it again. -/
theorem forwardPair_paused_goal :
    NothingNew
      (exec (step KeyExprs.plain poseAndGoal) (new poseAndGoal poseAndGoalStarted)
        (goalCaptured ++ [.watch true]))
      (exec (step KeyExprs.plain poseAndGoal) (new poseAndGoal poseAndGoalStarted)
        (goalCaptured ++ [.watch true] ++ goalArrives)) :=
  forwardPair_paused KeyExprs.plain poseAndGoal poseAndGoalStarted start_poseAndGoal
    (goalCaptured ++ [.watch true]) goalArrives (by decide +kernel) (by simp [goalArrives])

example :
    ((exec (step KeyExprs.plain poseAndGoal) (new poseAndGoal poseAndGoalStarted)
      (goalCaptured ++ [.watch true] ++ goalArrives)).ends .robot).history.puts =
        [⟨"planner/goal", none, [1]⟩] := by
  decide +kernel

end ForwardPair

end RoboTele
