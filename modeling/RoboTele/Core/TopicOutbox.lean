import RoboTele.Core.TopicStream
import RoboTele.Runs.Machine
import Mathlib.Data.List.AList
import Mathlib.Logic.Function.Basic

/-!
# The topic outbox

The outbox keeps what is still to be sent of the forwarded samples.  A latest
sample waits as a datagram, one for each key and the oldest key first.  A
reliable one goes on one of two streams, the small lane or the large lane.

A sample up to `smallSampleMax` goes on the small lane, unless its key has a
sample on the large lane that the transport has not taken whole.
-/

namespace RoboTele

open Runs

/-- Samples above this are large. -/
def smallSampleMax : Nat := 16 * 1024

/-- Four mebibytes. -/
def defaultReliableBacklog : Nat := 4 * 1024 * 1024

/-- Only the newest sample of a key counts, or every one. -/
inductive TopicMode where
  | latest
  | reliable
deriving DecidableEq

/-- Large samples have a stream of their own, so that small ones need not wait for them. -/
inductive ReliableLane where
  | small
  | large
deriving DecidableEq

/-- What became of the samples that were pushed. -/
structure OutboxStats where
  latestSent : Nat
  latestSuperseded : Nat
  latestOversize : Nat
  reliableQueued : Nat
  reliableLarge : Nat
  reliableDropped : Nat
deriving DecidableEq

/-- A stream's bytes that the transport has not taken.  `frames` are the samples
of the large lane that it has not taken whole, with the ends of their frames. -/
structure Lane where
  buf : Bytes
  started : Bool
  consumed : Nat
  frames : List (String × Nat)
deriving DecidableEq

/-- A lane with one more frame. -/
def Lane.append (l : Lane) (s : TopicSample) : Lane :=
  { l with
    buf := l.buf ++ (if l.started then [] else topicStreamHeader) ++ s.frame
    started := true }

/-- What waits to be sent: the newest sample of each latest key, and the bytes of the two reliable
lanes. -/
structure TopicOutbox where
  latest : AList fun _ : String => Bytes
  order : List String
  lanes : ReliableLane → Lane
  largePending : AList fun _ : String => Nat
  reliableBacklog : Nat
  stats : OutboxStats

namespace TopicOutbox

/-- An outbox whose reliable lanes hold at most so many bytes together. -/
def withBacklog (reliableBacklog : Nat) : TopicOutbox where
  latest := ∅
  order := []
  lanes _ := { buf := [], started := false, consumed := 0, frames := [] }
  largePending := ∅
  reliableBacklog := reliableBacklog
  stats :=
    { latestSent := 0, latestSuperseded := 0, latestOversize := 0, reliableQueued := 0
      reliableLarge := 0, reliableDropped := 0 }

/-! ## Latest samples -/

/-- The newest sample of a key replaces one that waits. -/
def pushLatest (o : TopicOutbox) (s : TopicSample) : TopicOutbox :=
  let o' := { o with latest := o.latest.insert s.key (tag datagramTagTopic s.encode) }
  if s.key ∈ o.latest then
    { o' with stats := { o.stats with latestSuperseded := o.stats.latestSuperseded + 1 } }
  else { o' with order := o.order ++ [s.key] }

/-- Take waiting datagrams off until one fits.  A key in line without a
datagram would be a panic, and no run comes to that (`TopicRun.lineUp_after`). -/
def popFrom (o : TopicOutbox) (maxLen : Nat) : List String → TopicOutbox × Option Bytes
  | [] => ({ o with order := [] }, none)
  | key :: rest =>
      match o.latest.lookup key with
      | none => ({ o with order := rest }, none)
      | some d =>
          let o' := { o with latest := o.latest.erase key }
          if d.length ≤ maxLen then
            ({ o' with
                order := rest
                stats := { o.stats with latestSent := o.stats.latestSent + 1 } },
              some d)
          else
            { o' with
              stats := { o.stats with latestOversize := o.stats.latestOversize + 1 } }.popFrom
              maxLen rest

/-- The first waiting sample that fits.  Those in line before it are dropped. -/
def popDatagram (o : TopicOutbox) (maxLen : Nat) : TopicOutbox × Option Bytes :=
  o.popFrom maxLen o.order

/-! ## Reliable samples -/

/-- The lane of a key's next sample. -/
def laneFor (o : TopicOutbox) (s : TopicSample) : ReliableLane :=
  if smallSampleMax < s.encodedLen ∨ s.key ∈ o.largePending then .large else .small

/-- The sample is not dropped. -/
def Accepts (o : TopicOutbox) (s : TopicSample) : Prop :=
  ¬ (maxTopicSample < s.encodedLen ∨
    o.reliableBacklog < (o.lanes (o.laneFor s)).buf.length + 4 + s.encodedLen)

instance (o : TopicOutbox) (s : TopicSample) : Decidable (o.Accepts s) :=
  inferInstanceAs (Decidable (¬ _))

/-- Append a sample to its lane, or drop it if the backlog is full. -/
def pushReliable (o : TopicOutbox) (s : TopicSample) : TopicOutbox :=
  if ¬ o.Accepts s then
    { o with stats := { o.stats with reliableDropped := o.stats.reliableDropped + 1 } }
  else
    let lane := o.laneFor s
    let l := (o.lanes lane).append s
    let queued := o.stats.reliableQueued + 1
    if lane = .large then
      { o with
        lanes := Function.update o.lanes lane
          { l with frames := l.frames ++ [(s.key, l.consumed + l.buf.length)] }
        largePending := o.largePending.insert s.key ((o.largePending.lookup s.key).getD 0 + 1)
        stats :=
          { o.stats with
            reliableQueued := queued
            reliableLarge := o.stats.reliableLarge + 1 } }
    else
      { o with
        lanes := Function.update o.lanes lane l
        stats := { o.stats with reliableQueued := queued } }

/-- A sample of either mode. -/
def push (o : TopicOutbox) (mode : TopicMode) (s : TopicSample) : TopicOutbox :=
  match mode with
  | .latest => o.pushLatest s
  | .reliable => o.pushReliable s

/-- The bytes that wait on a lane. -/
def reliablePending (o : TopicOutbox) (lane : ReliableLane) : Bytes := (o.lanes lane).buf

/-- One sample fewer of a key. -/
def countDown (pending : AList fun _ : String => Nat) (key : String) :
    AList fun _ : String => Nat :=
  match pending.lookup key with
  | none => pending
  | some count => if count - 1 = 0 then pending.erase key else pending.insert key (count - 1)

/-- Let go of the frames that were taken whole. -/
def release (consumed : Nat) : List (String × Nat) → (AList fun _ : String => Nat) →
    List (String × Nat) × AList fun _ : String => Nat
  | [], pending => ([], pending)
  | (key, stop) :: frames, pending =>
      if stop ≤ consumed then release consumed frames (countDown pending key)
      else ((key, stop) :: frames, pending)

/-- The transport took `n` bytes of a lane. -/
def consumeReliable (o : TopicOutbox) (lane : ReliableLane) (n : Nat) : TopicOutbox :=
  let l := o.lanes lane
  let n := min n l.buf.length
  let rest := release (l.consumed + n) l.frames o.largePending
  { o with
    lanes := Function.update o.lanes lane
      { l with buf := l.buf.drop n, consumed := l.consumed + n, frames := rest.1 }
    largePending := rest.2 }

/-! ## Datagrams in line -/

/-- Every key in line has a datagram, and is in line once. -/
structure LineUp (o : TopicOutbox) : Prop where
  nodup : o.order.Nodup
  mem : ∀ key, key ∈ o.order ↔ key ∈ o.latest

/-- An empty outbox is lined up. -/
theorem lineUp_withBacklog (reliableBacklog : Nat) : (withBacklog reliableBacklog).LineUp where
  nodup := List.nodup_nil
  mem key := iff_of_false List.not_mem_nil (AList.notMem_empty key)

/-- A newest sample keeps its key's place in line. -/
theorem LineUp.pushLatest {o : TopicOutbox} (h : o.LineUp) (s : TopicSample) :
    (o.pushLatest s).LineUp := by
  rw [TopicOutbox.pushLatest]
  split_ifs with hmem
  · refine ⟨h.nodup, fun key => ?_⟩
    rw [AList.mem_insert, ← h.mem, or_iff_right_of_imp]
    rintro rfl
    exact (h.mem _).mpr hmem
  · refine ⟨?_, fun key => ?_⟩
    · exact List.nodup_append.mpr ⟨h.nodup, List.nodup_singleton _, fun a ha b hb heq =>
        hmem ((h.mem _).mp (List.mem_singleton.mp hb ▸ heq ▸ ha))⟩
    · rw [List.mem_append, List.mem_singleton, AList.mem_insert, h.mem, or_comm]

/-- A call that touches neither the line nor the datagrams. -/
theorem LineUp.of_eq {o o' : TopicOutbox} (h : o.LineUp) (horder : o'.order = o.order)
    (hlatest : o'.latest = o.latest) : o'.LineUp where
  nodup := horder ▸ h.nodup
  mem key := by
    rw [horder, hlatest]
    exact h.mem key

/-- A reliable sample does not touch the line. -/
theorem LineUp.pushReliable {o : TopicOutbox} (h : o.LineUp) (s : TopicSample) :
    (o.pushReliable s).LineUp := by
  by_cases haccepts : o.Accepts s
  · rw [TopicOutbox.pushReliable, if_neg (not_not_intro haccepts)]
    by_cases hlarge : o.laneFor s = .large
    · simp only [hlarge, if_true]
      exact h.of_eq rfl rfl
    · simp only [if_neg hlarge]
      exact h.of_eq rfl rfl
  · rw [TopicOutbox.pushReliable, if_pos haccepts]
    exact h.of_eq rfl rfl

/-- The rest of the line, without its first key and that key's datagram. -/
theorem LineUp.erase_head {o : TopicOutbox} {key : String} {rest : List String}
    (h : { o with order := key :: rest }.LineUp) (stats : OutboxStats) :
    LineUp { o with latest := o.latest.erase key, stats := stats, order := rest } := by
  obtain ⟨hnew, hnodup⟩ := List.nodup_cons.mp h.nodup
  refine ⟨hnodup, fun key' => ?_⟩
  rw [AList.mem_erase, ← h.mem key']
  constructor
  · intro hkey'
    exact ⟨fun heq => hnew (heq ▸ hkey'), List.mem_cons_of_mem _ hkey'⟩
  · rintro ⟨hne, hkey'⟩
    exact (List.mem_cons.mp hkey').resolve_left hne

/-- Popping finds a datagram for every key it takes off. -/
theorem LineUp.popFrom {maxLen : Nat} : ∀ {line : List String} {o : TopicOutbox},
    { o with order := line }.LineUp → (o.popFrom maxLen line).1.LineUp
  | [], o, h => h
  | key :: rest, o, h => by
      have hmem : key ∈ o.latest := (h.mem key).mp List.mem_cons_self
      obtain ⟨d, hd⟩ := Option.isSome_iff_exists.mp (AList.lookup_isSome.mpr hmem)
      rw [TopicOutbox.popFrom, hd]
      show (if d.length ≤ maxLen then _ else _ : TopicOutbox × Option Bytes).1.LineUp
      split_ifs
      · exact h.erase_head _
      · exact LineUp.popFrom (h.erase_head _)

end TopicOutbox

end RoboTele
