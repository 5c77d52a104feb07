import RoboTele.Queues.BoundedChannel
import RoboTele.Zenoh.TopicLink

/-!
# The forwarder

A forwarder takes the samples of the local Zenoh session that match its rules, for the peer, and
puts what the peer forwards on that session.  Both ways lead through a channel.  What finds a
channel full is dropped.

Zenoh itself says what is a key expression and what a key expression includes (`KeyExprs`).
-/

namespace RoboTele

open Queues

/-- Samples that wait to cross the session, each way. -/
def channelDepth : Nat := 256

/-- Distinct rejected keys that are warned about. -/
def maxRejectedKeysLogged : Nat := 32

/-- Zenoh's key expressions. -/
structure KeyExprs where
  isKeyExpr : String → Bool
  /-- Every key that the second includes is one that the first includes. -/
  includes : String → String → Bool
  /-- Some key is one that both include. -/
  intersects : String → String → Bool

/-- Key expressions without wildcards. -/
def KeyExprs.plain : KeyExprs where
  isKeyExpr key := decide (IsConcrete key)
  includes a key := decide (a = key)
  intersects a key := decide (a = key)

/-- A sample of a Zenoh session. -/
structure ZenohSample where
  key : String
  attachment : Option Bytes
  payload : Bytes
deriving DecidableEq

/-- A put or a delete. -/
inductive SampleKind where
  | put
  | delete
deriving DecidableEq

/-- Samples on keys that match are forwarded in this mode. -/
structure ForwardRule where
  mode : TopicMode
  keyExpr : String
deriving DecidableEq

/-- What is forwarded and what is accepted of the peer. -/
structure ForwardConfig where
  forward : List ForwardRule
  accept : List String
  /-- Zero for no cap. -/
  maxMbps : ℚ
deriving DecidableEq

/-- A local sample on its way to the peer. -/
structure Forwarder.Outgoing where
  mode : TopicMode
  sample : TopicSample
deriving DecidableEq

/-- What became of the samples in both directions. -/
structure ForwardStats where
  captured : Nat
  captureDropped : Nat
  republished : Nat
  republishDropped : Nat
  republishRejected : Nat
deriving DecidableEq

/-- The sample as it crosses the session. -/
def ZenohSample.toTopic (z : ZenohSample) : TopicSample where
  key := z.key
  attachment := z.attachment.getD []
  payload := z.payload

/-- The sample as it is put.  An empty attachment is left out. -/
def TopicSample.toPut (s : TopicSample) : ZenohSample where
  key := s.key
  attachment := if s.attachment = [] then none else some s.attachment
  payload := s.payload

/-- The two channels of a forwarder, and the keys it has complained about. -/
structure Forwarder where
  accept : List String
  rejectedLogged : List String
  outgoing : Channel Forwarder.Outgoing channelDepth
  toRepublish : Channel TopicSample channelDepth
  paused : Bool
  stats : ForwardStats

namespace Forwarder

/-- It does not start with an accepted key expression that is none. -/
def start (zenoh : KeyExprs) (config : ForwardConfig) : Option Forwarder :=
  if config.accept.all zenoh.isKeyExpr then
    some
      { accept := config.accept
        rejectedLogged := []
        outgoing := .empty
        toRepublish := .empty
        paused := false
        stats :=
          { captured := 0, captureDropped := 0, republished := 0, republishDropped := 0
            republishRejected := 0 } }
  else none

/-! ## To the peer -/

/-- A sample found its channel full. -/
def dropCaptured (f : Forwarder) : Forwarder :=
  { f with stats := { f.stats with captureDropped := f.stats.captureDropped + 1 } }

/-- A rule's subscriber gets a sample of another Zenoh session. -/
def onSample (f : Forwarder) (mode : TopicMode) (kind : SampleKind) (z : ZenohSample) : Forwarder :=
  if kind ≠ .put then f
  else if f.paused ∨ checkKey z.key ≠ .ok () then f.dropCaptured
  else
    match f.outgoing.trySend { mode, sample := z.toTopic } with
    | some outgoing =>
        { f with outgoing, stats := { f.stats with captured := f.stats.captured + 1 } }
    | none => f.dropCaptured

/-- The next local sample that waits. -/
def tryRecv (f : Forwarder) : Option (Forwarder.Outgoing × Forwarder) :=
  f.outgoing.tryRecv.map fun (out, outgoing) => (out, { f with outgoing })

/-- Drop the local samples that wait, with how many there were. -/
def discardWaiting (f : Forwarder) : Forwarder × Nat :=
  ({ f with outgoing := .empty }, f.outgoing.waiting.length)

/-! ## From the peer -/

/-- Whether an accepted key expression includes the key. -/
def accepts (zenoh : KeyExprs) (f : Forwarder) (key : String) : Bool :=
  zenoh.isKeyExpr key && f.accept.any (zenoh.includes · key)

/-- Count a rejected key, and keep it to warn about unless there are enough. -/
def reject (f : Forwarder) (key : String) : Forwarder :=
  { f with
    stats := { f.stats with republishRejected := f.stats.republishRejected + 1 }
    rejectedLogged :=
      if f.rejectedLogged.length < maxRejectedKeysLogged ∧ key ∉ f.rejectedLogged then
        f.rejectedLogged ++ [key]
      else f.rejectedLogged }

/-- A sample of the peer found its channel full. -/
def dropRepublished (f : Forwarder) : Forwarder :=
  { f with stats := { f.stats with republishDropped := f.stats.republishDropped + 1 } }

/-- A sample that the peer forwarded is to be put on the local session. -/
def republish (zenoh : KeyExprs) (f : Forwarder) (s : TopicSample) : Forwarder :=
  if f.accepts zenoh s.key = false then f.reject s.key
  else if f.paused then f.dropRepublished
  else
    match f.toRepublish.trySend s with
    | some toRepublish =>
        { f with
          toRepublish
          stats := { f.stats with republished := f.stats.republished + 1 } }
    | none => f.dropRepublished

/-- The republishing task puts the next sample. -/
def putNext (f : Forwarder) : Option (ZenohSample × Forwarder) :=
  f.toRepublish.tryRecv.map fun (s, toRepublish) => (s.toPut, { f with toRepublish })

/-! ## What the calls do -/

variable {zenoh : KeyExprs} {f : Forwarder}

/-- A put of another session is captured, or it is dropped. -/
theorem onSample_put_cases (f : Forwarder) (mode : TopicMode) (z : ZenohSample) :
    f.onSample mode .put z = f.dropCaptured ∨
      (f.paused = false ∧ checkKey z.key = .ok () ∧ ∃ outgoing,
        outgoing.waiting = f.outgoing.waiting ++ [{ mode, sample := z.toTopic }] ∧
          f.onSample mode .put z =
            { f with outgoing, stats := { f.stats with captured := f.stats.captured + 1 } }) := by
  rw [onSample, if_neg (not_not_intro rfl)]
  by_cases hstop : f.paused ∨ checkKey z.key ≠ .ok ()
  · exact .inl (if_pos hstop)
  · rw [if_neg hstop]
    obtain ⟨hpaused, hkey⟩ := not_or.mp hstop
    rcases f.outgoing.trySend_cases { mode, sample := z.toTopic } with ⟨-, hfull⟩ | ⟨c, hsent, hc⟩
    · rw [hfull]
      exact .inl rfl
    · rw [hsent]
      exact .inr ⟨Bool.eq_false_iff.mpr hpaused, not_not.mp hkey, c, hc, rfl⟩

/-- The outgoing channel is empty, or its first sample leaves. -/
theorem tryRecv_cases (f : Forwarder) :
    f.tryRecv = none ∨ ∃ out outgoing, f.outgoing.waiting = out :: outgoing.waiting ∧
      f.tryRecv = some (out, { f with outgoing }) := by
  rcases f.outgoing.tryRecv_cases with ⟨-, hnone⟩ | ⟨out, c, hsome, hc⟩
  · exact .inl (by rw [tryRecv, hnone]; rfl)
  · exact .inr ⟨out, c, hc, by rw [tryRecv, hsome]; rfl⟩

/-- A sample of the peer is rejected or dropped, or it goes into the channel. -/
theorem republish_cases (zenoh : KeyExprs) (f : Forwarder) (s : TopicSample) :
    (f.accepts zenoh s.key = false ∧ f.republish zenoh s = f.reject s.key) ∨
      (f.accepts zenoh s.key = true ∧ f.republish zenoh s = f.dropRepublished) ∨
      (f.accepts zenoh s.key = true ∧ f.paused = false ∧ ∃ toRepublish,
        toRepublish.waiting = f.toRepublish.waiting ++ [s] ∧
          f.republish zenoh s =
            { f with
              toRepublish
              stats := { f.stats with republished := f.stats.republished + 1 } }) := by
  cases haccepts : f.accepts zenoh s.key with
  | false => exact .inl ⟨rfl, by rw [republish, if_pos haccepts]⟩
  | true =>
      rw [republish, if_neg (by rw [haccepts]; exact Bool.noConfusion)]
      cases hpaused : f.paused with
      | true => exact .inr (.inl ⟨rfl, rfl⟩)
      | false =>
          rw [if_neg Bool.false_ne_true]
          rcases f.toRepublish.trySend_cases s with ⟨-, hfull⟩ | ⟨c, hsent, hc⟩
          · rw [hfull]
            exact .inr (.inl ⟨rfl, rfl⟩)
          · rw [hsent]
            exact .inr (.inr ⟨rfl, rfl, c, hc, rfl⟩)

/-- The channel of samples to republish is empty, or its first one is put. -/
theorem putNext_cases (f : Forwarder) :
    f.putNext = none ∨ ∃ s toRepublish, f.toRepublish.waiting = s :: toRepublish.waiting ∧
      f.putNext = some (s.toPut, { f with toRepublish }) := by
  rcases f.toRepublish.tryRecv_cases with ⟨-, hnone⟩ | ⟨s, c, hsome, hc⟩
  · exact .inl (by rw [putNext, hnone]; rfl)
  · exact .inr ⟨s, c, hc, by rw [putNext, hsome]; rfl⟩

end Forwarder

end RoboTele
