import RoboTele.Core.TopicLatest
import RoboTele.Zenoh.ForwardEnd
import Mathlib.Algebra.Order.Group.Multiset

/-!
# One way of two hosts that forward topics

Samples go from the channel of one forwarder over the link to the channel of the other one.
`Way.Step` says what can happen on the way.  What the sender's outbox and the link hold is read
off their bytes (`unsent`), so a step adds nothing to it and to what is republished but a sample
that the session loop takes (`Way.Step.mayBePut_le`).
-/

namespace RoboTele

open Queues Runs

/-! ## What the link carries -/

/-- What the peer reads off a datagram. -/
def datagramSamples (data : Bytes) : List TopicSample :=
  match untag data with
  | none => []
  | some (t, payload) =>
      if t ≠ datagramTagTopic then []
      else
        match TopicSample.decode payload with
        | .error _ => []
        | .ok s => [s]

/-- A sample that is sent as a datagram is what the peer reads, unless it is too large. -/
theorem datagramSamples_encode {s : TopicSample} (hkey : checkKey s.key = .ok ()) :
    datagramSamples (tag datagramTagTopic s.encode) = [s] ∨
      datagramSamples (tag datagramTagTopic s.encode) = [] := by
  rw [datagramSamples, untag_tag]
  dsimp only
  rw [if_neg (not_not_intro rfl)]
  by_cases hlen : s.encodedLen ≤ maxTopicSample
  · rw [TopicSample.decode_encode hlen hkey]
    exact .inl rfl
  · rw [TopicSample.decode, if_pos (by rw [TopicSample.length_encode]; exact not_le.mp hlen)]
    exact .inr rfl

/-- A datagram republishes the samples it decodes to. -/
theorem ForwardEnd.onDatagram_eq {σ : Type} (zenoh : KeyExprs) (e : ForwardEnd σ) (data : Bytes) :
    e.onDatagram zenoh data = e.republishAll zenoh (datagramSamples data) := by
  rw [ForwardEnd.onDatagram, datagramSamples]
  cases untag data with
  | none => rfl
  | some tagged =>
      dsimp only
      split
      · rfl
      · cases TopicSample.decode tagged.2 with
        | error _ => rfl
        | ok s => rfl

namespace TopicOutbox

/-- What the datagrams that wait in an outbox are read as. -/
def waitingLatest (o : TopicOutbox) : List TopicSample :=
  o.latest.entries.flatMap fun entry => datagramSamples entry.2

/-- A key's entry and the entries of the other keys. -/
theorem entries_perm_of_lookup {t : AList fun _ : String => Bytes} {key : String} {d : Bytes}
    (h : t.lookup key = some d) : t.entries.Perm (⟨key, d⟩ :: (t.erase key).entries) := by
  have hmem : (⟨key, d⟩ : Sigma fun _ : String => Bytes) ∈ t.entries := AList.mem_lookup_iff.mp h
  obtain ⟨d', before, after, -, hentries, herase⟩ :=
    List.exists_of_kerase (List.mem_keys_of_mem hmem)
  have hmem' : (⟨key, d'⟩ : Sigma fun _ : String => Bytes) ∈ t.entries :=
    hentries ▸ List.mem_append_right _ List.mem_cons_self
  obtain rfl := t.nodupKeys.eq_of_mk_mem hmem hmem'
  have herase' : (t.erase key).entries = before ++ after := herase
  rw [herase', hentries]
  exact List.perm_middle

/-- The newest sample of a key waits, beside those of the other keys. -/
theorem waitingLatest_of_lookup {o : TopicOutbox} {key : String} {d : Bytes}
    (h : o.latest.lookup key = some d) : o.waitingLatest.Perm
      (datagramSamples d ++ waitingLatest { o with latest := o.latest.erase key }) :=
  (entries_perm_of_lookup h).flatMap_right _

/-- The newest sample of a key waits instead of an older one. -/
theorem waitingLatest_pushLatest (o : TopicOutbox) {s : TopicSample}
    (hkey : checkKey s.key = .ok ()) :
    (o.pushLatest s).waitingLatest.Subperm (s :: o.waitingLatest) := by
  have herased : (waitingLatest { o with latest := o.latest.erase s.key }).Sublist
      o.waitingLatest := (List.kerase_sublist s.key o.latest.entries).flatMap _
  rw [waitingLatest, latest_pushLatest, AList.entries_insert, List.flatMap_cons]
  rcases datagramSamples_encode hkey with hread | hread
  · rw [hread]
    exact (herased.cons_cons s).subperm
  · rw [hread]
    exact (herased.cons s).subperm

/-- What leaves for a datagram has waited, and waits no longer. -/
theorem waitingLatest_popFrom (maxLen : Nat) : ∀ (line : List String) (o : TopicOutbox),
    ((o.popFrom maxLen line).2.toList.flatMap datagramSamples ++
      (o.popFrom maxLen line).1.waitingLatest).Subperm o.waitingLatest
  | [], o => List.Subperm.refl _
  | key :: rest, o => by
      rw [popFrom]
      cases hlookup : o.latest.lookup key with
      | none => exact List.Subperm.refl _
      | some d =>
          dsimp only
          have hsplit := waitingLatest_of_lookup hlookup
          split
          · rw [Option.toList_some, List.flatMap_singleton]
            exact hsplit.symm.subperm
          · exact (waitingLatest_popFrom maxLen rest _).trans
              ((List.sublist_append_right _ _).subperm.trans hsplit.symm.subperm)

end TopicOutbox

/-! ## What a lane carries -/

namespace TopicRun

variable {r : TopicRun} {lane : ReliableLane} {n : Nat}

/-- The samples of a lane that are not read with its first `n` bytes. -/
def unread (r : TopicRun) (lane : ReliableLane) (n : Nat) : List TopicSample :=
  (Framing.complete TopicSample.frameLen (r.acceptedOn lane) (n - 2)).2.1

/-- The samples that the next bytes complete are the first of those not read. -/
theorem unread_eq (hlane : r.LaneInv lane) (hgood : r.AllSendable) (data : Bytes)
    (hdata : ((r.taken lane).take n ++ data) <+: r.taken lane) (hn : n ≤ (r.taken lane).length) :
    r.unread lane n =
      samplesOf (((TopicStreamReader.new.push ((r.taken lane).take n)).1).push data).2 ++
        r.unread lane (n + data.length) := by
  have hstream : r.taken lane <+: streamOf (r.acceptedOn lane) := ⟨_, hlane.stream⟩
  have hfirst := TopicStreamReader.push_streamOf (hgood.acceptedOn lane)
    ((List.take_prefix n _).trans hstream)
  have hboth := TopicStreamReader.push_streamOf (hgood.acceptedOn lane) (hdata.trans hstream)
  rw [TopicStreamReader.push_append, hfirst] at hboth
  have hlen : ((r.taken lane).take n).length = n := List.length_take_of_le hn
  have hsamples := congrArg samplesOf hboth
  rw [samplesOf, List.filterMap_append, ← samplesOf, ← samplesOf, samplesOf_map_ok,
    samplesOf_map_ok, List.length_append, hlen] at hsamples
  have hbefore := Framing.complete_append TopicSample.frameLen (r.acceptedOn lane) (n - 2)
  have hafter := Framing.complete_append TopicSample.frameLen (r.acceptedOn lane)
    (n + data.length - 2)
  rw [← hsamples, List.append_assoc] at hafter
  exact (List.append_cancel_left (hafter.trans hbefore.symm)).symm

/-- What the outbox has been handed and the peer has not read, where of each lane the first
`arrived` bytes have been read. -/
def unsent (r : TopicRun) (arrived : ReliableLane → Nat) : Multiset TopicSample :=
  r.outbox.waitingLatest + (r.unread .small (arrived .small) + r.unread .large (arrived .large) :
    Multiset TopicSample)

variable {arrived : ReliableLane → Nat}

/-- An accepted sample is unread on its own lane only. -/
theorem unread_pushReliable (hlane : r.LaneInv lane) (s : TopicSample)
    (hn : n ≤ (r.taken lane).length) :
    (r.pushReliable s).unread lane n =
      if r.outbox.Accepts s ∧ r.outbox.laneFor s = lane then r.unread lane n ++ [s]
      else r.unread lane n := by
  have hbytes : n - 2 ≤ ((r.acceptedOn lane).map TopicSample.frameLen).sum := by
    have hlen := congrArg List.length hlane.stream
    rw [List.length_append, length_streamOf, show topicStreamHeader.length = 2 from rfl] at hlen
    split_ifs at hlen with hnone <;> omega
  rw [TopicRun.pushReliable]
  split_ifs with haccepts hhere hhere
  · rw [unread, acceptedOn_concat, if_pos hhere.2,
      Framing.complete_concat _ s.frameLen_pos _ hbytes]
    rfl
  · rw [unread, acceptedOn_concat, if_neg fun hlane => hhere ⟨haccepts, hlane⟩]
    rfl
  · exact absurd hhere.1 haccepts
  · rfl

/-- A push adds the sample at most. -/
theorem unsent_push (hlanes : ∀ lane, r.LaneInv lane)
    (hn : ∀ lane, arrived lane ≤ (r.taken lane).length) (mode : TopicMode) {s : TopicSample}
    (hkey : checkKey s.key = .ok ()) :
    (r.step (.push mode s)).unsent arrived ≤ r.unsent arrived + {s} := by
  cases mode with
  | latest =>
      have hlatest := Multiset.coe_le.mpr (r.outbox.waitingLatest_pushLatest hkey)
      rw [unsent, unsent, add_right_comm, ← Multiset.coe_singleton, Multiset.coe_add]
      refine add_le_add (hlatest.trans_eq ?_) le_rfl
      exact Multiset.coe_eq_coe.mpr (List.perm_append_singleton s _).symm
  | reliable =>
      have hlatest : (r.pushReliable s).outbox.waitingLatest = r.outbox.waitingLatest := by
        rw [TopicRun.pushReliable, TopicOutbox.waitingLatest,
          (r.outbox.sameLatest_pushReliable s).latest, TopicOutbox.waitingLatest]
      rw [unsent, unsent, TopicRun.step, hlatest, unread_pushReliable (hlanes .small) s (hn .small),
        unread_pushReliable (hlanes .large) s (hn .large), add_assoc]
      refine add_le_add le_rfl ?_
      by_cases haccepts : r.outbox.Accepts s
      · cases hlane : r.outbox.laneFor s with
        | small =>
            rw [if_pos ⟨haccepts, rfl⟩, if_neg fun h => ReliableLane.noConfusion h.2,
              ← Multiset.coe_add, add_right_comm]
            rfl
        | large =>
            rw [if_neg fun h => ReliableLane.noConfusion h.2, if_pos ⟨haccepts, rfl⟩,
              ← Multiset.coe_add, add_assoc]
            rfl
      · rw [if_neg fun h => haccepts h.1, if_neg fun h => haccepts h.1]
        exact Multiset.le_add_right _ _

/-- A datagram takes its samples from the unsent ones. -/
theorem unsent_popDatagram (r : TopicRun) (maxLen : Nat) :
    (r.step (.popDatagram maxLen)).unsent arrived +
      ((r.outbox.popDatagram maxLen).2.toList.flatMap datagramSamples : List TopicSample) ≤
        r.unsent arrived := by
  have hpop := Multiset.coe_le.mpr
    (TopicOutbox.waitingLatest_popFrom maxLen r.outbox.order r.outbox)
  rw [unsent, unsent, add_right_comm]
  refine add_le_add (le_trans ?_ hpop) le_rfl
  rw [← Multiset.coe_add, add_comm]
  rfl

/-- Bytes that are read take the samples they complete from the unsent ones. -/
theorem unsent_read (hlane : r.LaneInv lane) (hgood : r.AllSendable) {data : Bytes}
    (hdata : ((r.taken lane).take (arrived lane) ++ data) <+: r.taken lane)
    (hn : arrived lane ≤ (r.taken lane).length) :
    r.unsent arrived =
      r.unsent (Function.update arrived lane (arrived lane + data.length)) +
        samplesOf
          (((TopicStreamReader.new.push ((r.taken lane).take (arrived lane))).1).push data).2 := by
  have hunread := unread_eq hlane hgood data hdata hn
  cases lane with
  | small =>
      rw [unsent, unsent, Function.update_self, Function.update_of_ne (by decide), hunread,
        ← Multiset.coe_add]
      simp only [add_assoc, add_comm]
  | large =>
      rw [unsent, unsent, Function.update_self, Function.update_of_ne (by decide), hunread,
        ← Multiset.coe_add]
      simp only [add_assoc, add_comm, add_left_comm]

end TopicRun

/-! ## One way -/

/-- One way from a sender's captures to a receiver's puts. -/
structure Way where
  /-- What the sender's session loop took, and what waits for it. -/
  taken : List Forwarder.Outgoing
  waiting : List Forwarder.Outgoing
  topics : TopicRun
  datagrams : List Bytes
  arrived : ReliableLane → Nat
  /-- The receiver's, and what its forwarder put or is to put. -/
  readers : ReliableLane → TopicStreamReader
  republished : List ZenohSample
  senderPaused : Bool
  receiverPaused : Bool

namespace Way

/-- What can happen on the way. -/
inductive Step : Way → Way → Prop where
  | same (w : Way) : Step w w
  | captures (w : Way) (out : Forwarder.Outgoing) (hkey : checkKey out.sample.key = .ok ())
      (hpaused : w.senderPaused = false) : Step w { w with waiting := w.waiting ++ [out] }
  | takes (w : Way) (out : Forwarder.Outgoing) (rest : List Forwarder.Outgoing)
      (hwaiting : w.waiting = out :: rest)
      (negotiated : Bool) :
      Step w
        { w with
          taken := w.taken ++ [out]
          waiting := rest
          topics := if negotiated then w.topics.step (.push out.mode out.sample) else w.topics }
  | discards (w : Way) : Step w { w with taken := w.taken ++ w.waiting, waiting := [] }
  | pops (w : Way) (maxLen : Nat) :
      Step w
        { w with
          topics := w.topics.step (.popDatagram maxLen)
          datagrams := w.datagrams ++ (w.topics.outbox.popDatagram maxLen).2.toList }
  | consumes (w : Way) (lane : ReliableLane) (n : Nat) :
      Step w { w with topics := w.topics.step (.consumeReliable lane n) }
  | loses (w : Way) (i : Nat) : Step w { w with datagrams := w.datagrams.eraseIdx i }
  | reads (w : Way) (i : Nat) (data : Bytes) (hdata : w.datagrams[i]? = some data)
      (new : List TopicSample) (hnew : new.Sublist (datagramSamples data))
      (hpaused : w.receiverPaused = true → new = []) :
      Step w
        { w with
          datagrams := w.datagrams.eraseIdx i
          republished := w.republished ++ new.map TopicSample.toPut }
  | arrives (w : Way) (lane : ReliableLane) (n : Nat) (data : Bytes)
      (hdata : data = ((w.topics.taken lane).drop (w.arrived lane)).take n)
      (new : List TopicSample) (hnew : new.Sublist (samplesOf ((w.readers lane).push data).2))
      (hpaused : w.receiverPaused = true → new = []) :
      Step w
        { w with
          arrived := Function.update w.arrived lane (w.arrived lane + data.length)
          readers := Function.update w.readers lane ((w.readers lane).push data).1
          republished := w.republished ++ new.map TopicSample.toPut }
  | pauses (w : Way) (sender receiver : Bool) :
      Step w { w with senderPaused := sender, receiverPaused := receiver }
  | reconnects (w : Way) (reliableBacklog : Nat) :
      Step w
        { w with
          topics := .new reliableBacklog
          datagrams := []
          arrived := fun _ => 0
          readers := fun _ => .new }

/-- The receiver has read what has arrived, and the sender's samples can be read. -/
structure Linked (w : Way) : Prop where
  waitingKeys : ∀ out ∈ w.waiting, checkKey out.sample.key = .ok ()
  lanes : ∀ lane, w.topics.LaneInv lane
  sendable : w.topics.AllSendable
  arrived_le : ∀ lane, w.arrived lane ≤ (w.topics.taken lane).length
  readers : ∀ lane, w.readers lane =
    (TopicStreamReader.new.push ((w.topics.taken lane).take (w.arrived lane))).1

/-- What the receiver has republished, and what it may still republish of the samples that the
sender's session loop took. -/
def mayBePut (w : Way) : Multiset ZenohSample :=
  w.republished + (w.topics.unsent w.arrived + ↑(w.datagrams.flatMap datagramSamples)).map
    TopicSample.toPut

/-- What samples become when they are put. -/
def putsOf (taken : List Forwarder.Outgoing) : List ZenohSample :=
  taken.map fun out => out.sample.toPut

variable {w w' : Way}

/-- The next bytes of a lane are those after the ones that have been read. -/
theorem Linked.next (h : w.Linked) {lane : ReliableLane} {n : Nat} {data : Bytes}
    (hdata : data = ((w.topics.taken lane).drop (w.arrived lane)).take n) :
    w.arrived lane + data.length ≤ (w.topics.taken lane).length ∧
      (w.topics.taken lane).take (w.arrived lane + data.length) =
        (w.topics.taken lane).take (w.arrived lane) ++ data := by
  have hprefix : ((w.topics.taken lane).take (w.arrived lane) ++ data) <+: w.topics.taken lane := by
    rw [hdata, ← List.take_add]
    exact List.take_prefix _ _
  have hlen : ((w.topics.taken lane).take (w.arrived lane) ++ data).length =
      w.arrived lane + data.length := by
    rw [List.length_append, List.length_take_of_le (h.arrived_le lane)]
  refine ⟨hlen ▸ hprefix.length_le, ?_⟩
  rw [← hlen]
  exact (List.prefix_iff_eq_take.mp hprefix).symm

/-- A step keeps what has arrived within what was sent. -/
theorem Step.linked (hs : Step w w') (h : w.Linked) : w'.Linked := by
  cases hs with
  | same => exact h
  | captures out hkey =>
      exact { h with
        waitingKeys := List.forall_mem_append.mpr
          ⟨h.waitingKeys, List.forall_mem_singleton.mpr hkey⟩ }
  | takes out rest hwaiting negotiated =>
      have hkeys := h.waitingKeys
      rw [hwaiting] at hkeys
      have hrest : ∀ out' ∈ rest, checkKey out'.sample.key = .ok () := fun out' hout =>
        hkeys out' (List.mem_cons_of_mem out hout)
      cases negotiated with
      | false => exact { h with waitingKeys := hrest }
      | true =>
          have htaken : (w.topics.step (.push out.mode out.sample)).taken = w.topics.taken := by
            cases out.mode <;> rfl
          have hkey : (TopicRun.Event.push out.mode out.sample).KeyOk := by
            cases out.mode with
            | latest => trivial
            | reliable => exact hkeys out List.mem_cons_self
          refine ⟨hrest, fun lane => (h.lanes lane).step _, h.sendable.step hkey, ?_, ?_⟩
          · intro lane
            show w.arrived lane ≤ ((w.topics.step (.push out.mode out.sample)).taken lane).length
            rw [htaken]
            exact h.arrived_le lane
          · intro lane
            show w.readers lane = (TopicStreamReader.new.push
              (((w.topics.step (.push out.mode out.sample)).taken lane).take (w.arrived lane))).1
            rw [htaken]
            exact h.readers lane
  | discards => exact { h with waitingKeys := nofun }
  | pops maxLen =>
      exact
        { h with
          lanes := fun lane => (h.lanes lane).step (.popDatagram maxLen)
          sendable := h.sendable }
  | consumes lane n =>
      have hmore : ∀ dest,
          w.topics.taken dest <+: (w.topics.consumeReliable lane n).taken dest := by
        intro dest
        by_cases hdest : dest = lane
        · subst hdest
          show _ <+: Function.update w.topics.taken dest _ dest
          rw [Function.update_self]
          exact List.prefix_append _ _
        · show _ <+: Function.update w.topics.taken lane _ dest
          rw [Function.update_of_ne hdest]
      refine ⟨h.waitingKeys, fun dest => (h.lanes dest).step (.consumeReliable lane n), h.sendable,
        fun dest => (h.arrived_le dest).trans (hmore dest).length_le, fun dest => ?_⟩
      obtain ⟨more, heq⟩ := hmore dest
      show w.readers dest = (TopicStreamReader.new.push
        (((w.topics.consumeReliable lane n).taken dest).take (w.arrived dest))).1
      rw [← heq, List.take_append_of_le_length (h.arrived_le dest)]
      exact h.readers dest
  | loses i => exact { h with lanes := h.lanes }
  | reads i data hdata new hnew => exact { h with lanes := h.lanes }
  | arrives lane n data hdata new hnew =>
      obtain ⟨hle, htake⟩ := h.next hdata
      refine ⟨h.waitingKeys, h.lanes, h.sendable, fun dest => ?_, fun dest => ?_⟩
      · show Function.update w.arrived lane (w.arrived lane + data.length) dest ≤ _
        by_cases hdest : dest = lane
        · subst hdest
          rw [Function.update_self]
          exact hle
        · rw [Function.update_of_ne hdest]
          exact h.arrived_le dest
      · show Function.update w.readers lane _ dest = (TopicStreamReader.new.push
          ((w.topics.taken dest).take
            (Function.update w.arrived lane (w.arrived lane + data.length) dest))).1
        by_cases hdest : dest = lane
        · subst hdest
          rw [Function.update_self, Function.update_self, htake, TopicStreamReader.push_append,
            h.readers dest]
        · rw [Function.update_of_ne hdest, Function.update_of_ne hdest]
          exact h.readers dest
  | pauses sender receiver => exact { h with lanes := h.lanes }
  | reconnects reliableBacklog =>
      exact
        { waitingKeys := h.waitingKeys
          lanes := fun lane => TopicRun.laneInv_after reliableBacklog [] lane
          sendable := fun _ ha => absurd ha List.not_mem_nil
          arrived_le := fun _ => Nat.zero_le _
          readers := fun _ => rfl }

theorem putsOf_concat (taken : List Forwarder.Outgoing) (out : Forwarder.Outgoing) :
    (putsOf (taken ++ [out]) : Multiset ZenohSample) = putsOf taken + {out.sample.toPut} := by
  rw [putsOf, List.map_append, ← Multiset.coe_add]
  rfl

/-- Less is left of a datagram list without one of them. -/
theorem flatMap_eraseIdx {datagrams : List Bytes} {i : Nat} {data : Bytes}
    (h : datagrams[i]? = some data) :
    ((datagrams.eraseIdx i).flatMap datagramSamples : Multiset TopicSample) +
      datagramSamples data = datagrams.flatMap datagramSamples := by
  obtain ⟨hi, rfl⟩ := List.getElem?_eq_some_iff.mp h
  have hperm := (List.getElem_cons_eraseIdx_perm hi).flatMap_right datagramSamples
  rw [List.flatMap_cons] at hperm
  rw [add_comm, Multiset.coe_add]
  exact Multiset.coe_eq_coe.mpr hperm

/-- What is read is republished in part. -/
theorem mayBePut_read {republished : List ZenohSample} {new read : List TopicSample}
    (hnew : new.Sublist read) {before after : Multiset TopicSample}
    (hread : after + read = before) :
    ((republished ++ new.map TopicSample.toPut : List ZenohSample) : Multiset ZenohSample) +
      after.map TopicSample.toPut ≤ republished + before.map TopicSample.toPut := by
  have hle : ((new.map TopicSample.toPut : List ZenohSample) : Multiset ZenohSample) ≤
      (read : Multiset TopicSample).map TopicSample.toPut :=
    Multiset.coe_le.mpr (hnew.map _).subperm
  rw [← hread, Multiset.map_add, ← Multiset.coe_add, add_assoc]
  refine add_le_add le_rfl ?_
  rw [add_comm]
  exact add_le_add le_rfl hle

/-- A step adds to what may be put only a sample that is taken. -/
theorem Step.mayBePut_le (hs : Step w w') (h : w.Linked) :
    w'.mayBePut + putsOf w.taken ≤ w.mayBePut + putsOf w'.taken := by
  cases hs with
  | same => exact le_rfl
  | captures out hkey => exact le_rfl
  | takes out rest hwaiting negotiated =>
      rw [putsOf_concat, ← add_assoc, add_right_comm]
      refine add_le_add ?_ le_rfl
      cases negotiated with
      | false => exact Multiset.le_add_right _ _
      | true =>
          have hkey : checkKey out.sample.key = .ok () :=
            h.waitingKeys out (hwaiting ▸ List.mem_cons_self)
          have hpush := w.topics.unsent_push h.lanes h.arrived_le out.mode hkey
          have hmore := Multiset.map_le_map (f := TopicSample.toPut)
            (add_le_add hpush (le_refl (w.datagrams.flatMap datagramSamples : Multiset _)))
          rw [add_right_comm, Multiset.map_add _ _ {_}, Multiset.map_singleton] at hmore
          rw [mayBePut, mayBePut, add_assoc]
          exact add_le_add le_rfl hmore
  | discards =>
      exact add_le_add le_rfl
        (Multiset.coe_le.mpr ((List.sublist_append_left w.taken w.waiting).map _).subperm)
  | pops maxLen =>
      refine add_le_add (add_le_add le_rfl (Multiset.map_le_map ?_)) le_rfl
      rw [List.flatMap_append, ← Multiset.coe_add, ← add_assoc, add_right_comm]
      exact add_le_add (w.topics.unsent_popDatagram maxLen) le_rfl
  | consumes lane n => exact le_rfl
  | loses i =>
      refine add_le_add (add_le_add le_rfl (Multiset.map_le_map ?_)) le_rfl
      exact add_le_add le_rfl
        (Multiset.coe_le.mpr ((List.eraseIdx_sublist _ i).flatMap _).subperm)
  | reads i data hdata new hnew =>
      refine add_le_add (mayBePut_read hnew ?_) le_rfl
      rw [add_assoc, flatMap_eraseIdx hdata]
  | arrives lane n data hdata new hnew =>
      obtain ⟨-, htake⟩ := h.next hdata
      have hprefix : ((w.topics.taken lane).take (w.arrived lane) ++ data) <+:
          w.topics.taken lane := htake ▸ List.take_prefix _ _
      have hread := TopicRun.unsent_read (h.lanes lane) h.sendable hprefix (h.arrived_le lane)
      rw [← h.readers lane] at hread
      refine add_le_add (mayBePut_read hnew ?_) le_rfl
      rw [add_right_comm, ← hread]
  | pauses sender receiver => exact le_rfl
  | reconnects reliableBacklog =>
      refine add_le_add (add_le_add le_rfl (Multiset.map_le_map ?_)) le_rfl
      exact Multiset.zero_le _

/-- While the sender pauses it captures nothing. -/
theorem Step.captured_of_paused (hs : Step w w') (hpaused : w.senderPaused = true) :
    w'.taken ++ w'.waiting = w.taken ++ w.waiting := by
  cases hs with
  | captures out hkey hunpaused => exact absurd (hunpaused.symm.trans hpaused) (by decide)
  | takes out rest hwaiting negotiated =>
      rw [hwaiting, List.append_assoc]
      rfl
  | discards => exact List.append_nil _
  | _ => rfl

/-- While the receiver pauses it republishes nothing. -/
theorem Step.republished_of_paused (hs : Step w w') (hpaused : w.receiverPaused = true) :
    w'.republished = w.republished := by
  cases hs with
  | reads i data hdata new hnew hnone =>
      obtain rfl := hnone hpaused
      exact List.append_nil _
  | arrives lane n data hdata new hnew hnone =>
      obtain rfl := hnone hpaused
      exact List.append_nil _
  | _ => rfl

end Way

end RoboTele
