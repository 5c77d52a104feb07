import RoboTele.Core.TopicRuns
import RoboTele.Zenoh.Forwarder

/-!
# One end of a session that forwards topics

The session loop hands the samples that the forwarder captured to the outbox, and the samples of
the peer's datagrams and streams to the forwarder.  It does so only while the session operates.
What waited before that is discarded, so nothing is delivered stale after a reconnect.

Whatever the peer sends, only samples with accepted keys are put on the local session, none of
them with a key of the robot's own, and every sample is counted (`forwarder_exact`).
-/

namespace RoboTele

open Queues Runs

/-- What went through the forwarder. -/
structure ForwardHistory where
  /-- The puts that the rules' subscribers got. -/
  delivered : List (TopicMode × ZenohSample)
  /-- What the session loop took out of the channel. -/
  taken : List Forwarder.Outgoing
  /-- The samples of the peer. -/
  forwarded : List TopicSample
  puts : List ZenohSample

namespace Forwarder

/-- The samples that went into the channel to the session loop. -/
def captured (f : Forwarder) (history : ForwardHistory) : List Forwarder.Outgoing :=
  history.taken ++ f.outgoing.waiting

/-- The samples that went into the channel to the republishing task. -/
def republished (f : Forwarder) (history : ForwardHistory) : List ZenohSample :=
  history.puts ++ f.toRepublish.waiting.map TopicSample.toPut

end Forwarder

/-- A forwarder with the link of its session.  `σ` tells the peer's streams apart. -/
structure ForwardEnd (σ : Type) where
  forwarder : Forwarder
  topics : TopicRun
  readers : σ → TopicStreamReader
  operating : Bool
  topicsNegotiated : Bool
  history : ForwardHistory

namespace ForwardEnd

variable {σ : Type}

def new (config : ForwardConfig) (forwarder : Forwarder) : ForwardEnd σ where
  forwarder
  topics := .new (reliableBacklog config.maxMbps)
  readers _ := .new
  operating := false
  topicsNegotiated := false
  history := { delivered := [], taken := [], forwarded := [], puts := [] }

/-! ## To the peer -/

/-- The subscriber of a rule gets a sample. -/
def onSample (e : ForwardEnd σ) (rule : ForwardRule) (kind : SampleKind) (z : ZenohSample) :
    ForwardEnd σ :=
  { e with
    forwarder := e.forwarder.onSample rule.mode kind z
    history :=
      { e.history with
        delivered :=
          if kind = .put then e.history.delivered ++ [(rule.mode, z)] else e.history.delivered } }

/-- The session loop takes the next sample.  Where the peer does not forward topics it is
dropped. -/
def onForward (e : ForwardEnd σ) : ForwardEnd σ :=
  if e.operating = false then e
  else
    match e.forwarder.tryRecv with
    | none => e
    | some (out, forwarder) =>
        { e with
          forwarder
          topics :=
            if e.topicsNegotiated then e.topics.step (.push out.mode out.sample) else e.topics
          history := { e.history with taken := e.history.taken ++ [out] } }

/-! ## From the peer -/

/-- A sample of the peer goes to the republishing task, once the session operates. -/
def republish (zenoh : KeyExprs) (e : ForwardEnd σ) (s : TopicSample) : ForwardEnd σ :=
  if e.operating = false then e
  else
    { e with
      forwarder := e.forwarder.republish zenoh s
      history := { e.history with forwarded := e.history.forwarded ++ [s] } }

/-- Samples of the peer, one after the other. -/
def republishAll (zenoh : KeyExprs) (e : ForwardEnd σ) (ss : List TopicSample) : ForwardEnd σ :=
  ss.foldl (republish zenoh) e

/-- A datagram of the peer, if it carries a sample. -/
def onDatagram (zenoh : KeyExprs) (e : ForwardEnd σ) (data : Bytes) : ForwardEnd σ :=
  match untag data with
  | none => e
  | some (t, payload) =>
      if t ≠ datagramTagTopic then e
      else
        match TopicSample.decode payload with
        | .error _ => e
        | .ok s => e.republish zenoh s

/-- Bytes of one of the peer's streams. -/
def onStreamData [DecidableEq σ] (zenoh : KeyExprs) (e : ForwardEnd σ) (stream : σ) (data : Bytes)
    (fin : Bool) : ForwardEnd σ :=
  let (reader, outs) := (e.readers stream).push data
  { e with
    readers := Function.update e.readers stream (if fin then .new else reader) }.republishAll
    zenoh (samplesOf outs)

/-- A stream of the peer was reset. -/
def onStreamReset [DecidableEq σ] (e : ForwardEnd σ) (stream : σ) : ForwardEnd σ :=
  { e with readers := Function.update e.readers stream .new }

/-- The republishing task puts the next sample. -/
def putNext (e : ForwardEnd σ) : ForwardEnd σ :=
  match e.forwarder.putNext with
  | none => e
  | some (z, forwarder) =>
      { e with forwarder, history := { e.history with puts := e.history.puts ++ [z] } }

/-! ## The session -/

/-- What waits was captured before the session began, and is discarded. -/
def operate (e : ForwardEnd σ) : ForwardEnd σ :=
  { e with
    forwarder := e.forwarder.discardWaiting.1
    operating := true
    history := { e.history with taken := e.history.taken ++ e.forwarder.outgoing.waiting } }

/-- A new connection. -/
def reconnect (config : ForwardConfig) (e : ForwardEnd σ) : ForwardEnd σ :=
  { e with
    topics := .new (reliableBacklog config.maxMbps)
    readers _ := .new
    operating := false
    topicsNegotiated := false }

/-- The peer's datagrams and streams are whatever it sends.  The watcher of the robot's presence
sets whether the forwarder pauses. -/
inductive Event (σ : Type) where
  | sample (rule : ForwardRule) (kind : SampleKind) (z : ZenohSample)
  | onForward
  | popDatagram (maxLen : Nat)
  | consumeReliable (lane : ReliableLane) (n : Nat)
  | datagram (data : Bytes)
  | streamData (stream : σ) (data : Bytes) (fin : Bool)
  | streamReset (stream : σ)
  | putNext
  | pause (visible : Bool)
  | negotiated (topics : Bool)
  | operate
  | reconnect

/-- What happens at this end. -/
def step [DecidableEq σ] (zenoh : KeyExprs) (config : ForwardConfig) (e : ForwardEnd σ) :
    Event σ → ForwardEnd σ
  | .sample rule kind z => e.onSample rule kind z
  | .onForward => e.onForward
  | .popDatagram maxLen => { e with topics := e.topics.step (.popDatagram maxLen) }
  | .consumeReliable lane n => { e with topics := e.topics.step (.consumeReliable lane n) }
  | .datagram data => e.onDatagram zenoh data
  | .streamData stream data fin => e.onStreamData zenoh stream data fin
  | .streamReset stream => e.onStreamReset stream
  | .putNext => e.putNext
  | .pause visible => { e with forwarder := { e.forwarder with paused := visible } }
  | .negotiated topics => { e with topicsNegotiated := topics }
  | .operate => e.operate
  | .reconnect => e.reconnect config

end ForwardEnd

/-! ## What is kept -/

namespace Forwarder

/-- What the allowlist says of a sample of the peer. -/
def Allows (zenoh : KeyExprs) (config : ForwardConfig) (s : TopicSample) : Bool :=
  zenoh.isKeyExpr s.key && config.accept.any (zenoh.includes · s.key)

/-- The sample that a rule makes of a put. -/
def outgoingOf (d : TopicMode × ZenohSample) : Forwarder.Outgoing where
  mode := d.1
  sample := d.2.toTopic

/-- The log warns of distinct keys, of all that were rejected unless there are enough. -/
structure WarnsOf (allows : TopicSample → Bool) (forwarded : List TopicSample)
    (logged : List String) : Prop where
  nodup : logged.Nodup
  bound : logged.length ≤ maxRejectedKeysLogged
  rejected : ∀ key ∈ logged, ∃ s ∈ forwarded, allows s = false ∧ s.key = key
  all : logged.length < maxRejectedKeysLogged →
    ∀ s ∈ forwarded, allows s = false → s.key ∈ logged

/-- Every sample is somewhere or counted. -/
structure Accounted (zenoh : KeyExprs) (config : ForwardConfig) (f : Forwarder)
    (history : ForwardHistory) : Prop where
  accept : f.accept = config.accept
  /-- Captured samples are in the order of their puts. -/
  captured : (f.captured history).Sublist (history.delivered.map outgoingOf)
  capturedKeys : ∀ out ∈ f.captured history, checkKey out.sample.key = .ok ()
  capturedCount : f.stats.captured = (f.captured history).length
  deliveredCount : f.stats.captured + f.stats.captureDropped = history.delivered.length
  /-- Republished samples are allowed and in the order of the peer. -/
  republished : (f.republished history).Sublist
    ((history.forwarded.filter (Allows zenoh config)).map TopicSample.toPut)
  forwardedKeys : ∀ s ∈ history.forwarded, checkKey s.key = .ok ()
  republishedCount : f.stats.republished = (f.republished history).length
  allowedCount : f.stats.republished + f.stats.republishDropped =
    (history.forwarded.filter (Allows zenoh config)).length
  rejectedCount : f.stats.republishRejected =
    (history.forwarded.filter fun s => !Allows zenoh config s).length
  warned : WarnsOf (Allows zenoh config) history.forwarded f.rejectedLogged

namespace WarnsOf

variable {allows : TopicSample → Bool} {forwarded : List TopicSample} {logged : List String}

/-- A sample that is allowed is forwarded without a warning. -/
theorem allow (h : WarnsOf allows forwarded logged) {s : TopicSample} (hs : allows s = true) :
    WarnsOf allows (forwarded ++ [s]) logged where
  nodup := h.nodup
  bound := h.bound
  rejected key hkey := by
    obtain ⟨s', hs', hrest⟩ := h.rejected key hkey
    exact ⟨s', List.mem_append_left _ hs', hrest⟩
  all hroom s' hs' hrejected := by
    rcases List.mem_append.mp hs' with hold | hnew
    · exact h.all hroom s' hold hrejected
    · obtain rfl := List.mem_singleton.mp hnew
      exact absurd (hs.symm.trans hrejected) (by decide)

/-- A sample that is not allowed is warned of once for each key, up to the limit. -/
theorem reject (h : WarnsOf allows forwarded logged) {s : TopicSample} (hs : allows s = false) :
    WarnsOf allows (forwarded ++ [s])
      (if logged.length < maxRejectedKeysLogged ∧ s.key ∉ logged then logged ++ [s.key]
      else logged) := by
  have hrejected : ∀ key ∈ logged, ∃ s' ∈ forwarded ++ [s], allows s' = false ∧ s'.key = key := by
    intro key hkey
    obtain ⟨s', hs', hrest⟩ := h.rejected key hkey
    exact ⟨s', List.mem_append_left _ hs', hrest⟩
  split_ifs with hlogs
  · obtain ⟨hroom, hnew⟩ := hlogs
    refine ⟨?_, ?_, ?_, fun _ s' hs' hrejects => ?_⟩
    · rw [← List.concat_eq_append]
      exact h.nodup.concat hnew
    · rw [List.length_append]
      exact hroom
    · exact List.forall_mem_append.mpr ⟨hrejected, List.forall_mem_singleton.mpr
        ⟨s, List.mem_append_right _ List.mem_cons_self, hs, rfl⟩⟩
    · rcases List.mem_append.mp hs' with hold | hlast
      · exact List.mem_append_left _ (h.all hroom s' hold hrejects)
      · obtain rfl := List.mem_singleton.mp hlast
        exact List.mem_append_right _ List.mem_cons_self
  · refine ⟨h.nodup, h.bound, hrejected, fun hroom s' hs' hrejects => ?_⟩
    rcases List.mem_append.mp hs' with hold | hlast
    · exact h.all hroom s' hold hrejects
    · obtain rfl := List.mem_singleton.mp hlast
      exact not_not.mp fun hnew => hlogs ⟨hroom, hnew⟩

end WarnsOf

namespace Accounted

variable {zenoh : KeyExprs} {config : ForwardConfig} {f : Forwarder} {history : ForwardHistory}

/-- A forwarder that started has delivered, taken and put nothing. -/
theorem start (h : Forwarder.start zenoh config = some f) :
    Accounted zenoh config f { delivered := [], taken := [], forwarded := [], puts := [] } := by
  rw [Forwarder.start] at h
  split_ifs at h
  obtain rfl := Option.some.inj h
  exact
    { accept := rfl
      captured := List.Sublist.slnil
      capturedKeys := nofun
      capturedCount := rfl
      deliveredCount := rfl
      republished := List.Sublist.slnil
      forwardedKeys := nofun
      republishedCount := rfl
      allowedCount := rfl
      rejectedCount := rfl
      warned := ⟨List.nodup_nil, Nat.zero_le _, nofun, fun _ => nofun⟩ }

/-- A put is captured, or it is counted as dropped. -/
theorem onSample (h : Accounted zenoh config f history) (mode : TopicMode) (z : ZenohSample) :
    Accounted zenoh config (f.onSample mode .put z)
      { history with delivered := history.delivered ++ [(mode, z)] } := by
  have hdelivered : (history.delivered ++ [(mode, z)]).map outgoingOf =
      history.delivered.map outgoingOf ++ [⟨mode, z.toTopic⟩] := List.map_append
  rcases f.onSample_put_cases mode z with hdropped | ⟨-, hkey, outgoing, hwaiting, hcaptured⟩
  · rw [hdropped]
    refine { h with captured := ?_, deliveredCount := ?_ }
    · rw [hdelivered]
      exact h.captured.trans (List.sublist_append_left _ _)
    · rw [List.length_append, ← h.deliveredCount]
      rfl
  · rw [hcaptured]
    have hmore : history.taken ++ outgoing.waiting =
        f.captured history ++ [⟨mode, z.toTopic⟩] := by
      rw [hwaiting, Forwarder.captured, List.append_assoc]
    refine
      { h with captured := ?_, capturedKeys := ?_, capturedCount := ?_, deliveredCount := ?_ }
    · rw [hdelivered, Forwarder.captured, hmore]
      exact h.captured.append_right _
    · rw [Forwarder.captured, hmore]
      exact List.forall_mem_append.mpr ⟨h.capturedKeys, List.forall_mem_singleton.mpr hkey⟩
    · rw [Forwarder.captured, hmore, List.length_append, ← h.capturedCount]
      rfl
    · rw [List.length_append, ← h.deliveredCount, Nat.add_right_comm]
      rfl

/-- What leaves the channel was captured all the same. -/
theorem takes (h : Accounted zenoh config f history)
    {outgoing : Channel Forwarder.Outgoing channelDepth} {taken : List Forwarder.Outgoing}
    (hwaiting : f.outgoing.waiting = taken ++ outgoing.waiting) :
    Accounted zenoh config { f with outgoing }
      { history with taken := history.taken ++ taken } := by
  have hsame :
      Forwarder.captured { f with outgoing } { history with taken := history.taken ++ taken } =
        f.captured history := by
    rw [Forwarder.captured, Forwarder.captured, hwaiting, List.append_assoc]
  exact
    { h with
      captured := hsame ▸ h.captured
      capturedKeys := hsame ▸ h.capturedKeys
      capturedCount := hsame ▸ h.capturedCount }

/-- The forwarder accepts what its settings allow. -/
theorem accepts_eq (h : Accounted zenoh config f history) (s : TopicSample) :
    f.accepts zenoh s.key = Allows zenoh config s := by
  rw [accepts, h.accept, Allows]

/-- A sample of the peer goes into the channel, or it is counted as dropped or rejected. -/
theorem republish (h : Accounted zenoh config f history) {s : TopicSample}
    (hkey : checkKey s.key = .ok ()) :
    Accounted zenoh config (f.republish zenoh s)
      { history with forwarded := history.forwarded ++ [s] } := by
  have hkeys := List.forall_mem_append.mpr ⟨h.forwardedKeys, List.forall_mem_singleton.mpr hkey⟩
  cases hallows : Allows zenoh config s with
  | false =>
      have hnone : (history.forwarded ++ [s]).filter (Allows zenoh config) =
          history.forwarded.filter (Allows zenoh config) := by
        rw [List.filter_append, List.filter_cons_of_neg (by rw [hallows]; exact Bool.noConfusion),
          List.filter_nil, List.append_nil]
      have hone : (history.forwarded ++ [s]).filter (fun s => !Allows zenoh config s) =
          history.forwarded.filter (fun s => !Allows zenoh config s) ++ [s] := by
        rw [List.filter_append, List.filter_cons_of_pos (by rw [hallows]; rfl), List.filter_nil]
      rcases f.republish_cases zenoh s with ⟨-, hrejects⟩ | ⟨haccepts, -⟩ | ⟨haccepts, -⟩
      · rw [hrejects]
        refine
          { h with
            republished := hnone ▸ h.republished
            forwardedKeys := hkeys
            allowedCount := hnone ▸ h.allowedCount
            rejectedCount := ?_
            warned := h.warned.reject hallows }
        rw [hone, List.length_append, ← h.rejectedCount]
        rfl
      all_goals exact absurd (haccepts.symm.trans ((h.accepts_eq s).trans hallows)) (by decide)
  | true =>
      have hone : (history.forwarded ++ [s]).filter (Allows zenoh config) =
          history.forwarded.filter (Allows zenoh config) ++ [s] := by
        rw [List.filter_append, List.filter_cons_of_pos hallows, List.filter_nil]
      have hnone : (history.forwarded ++ [s]).filter (fun s => !Allows zenoh config s) =
          history.forwarded.filter (fun s => !Allows zenoh config s) := by
        rw [List.filter_append, List.filter_cons_of_neg (by rw [hallows]; exact Bool.noConfusion),
          List.filter_nil, List.append_nil]
      have hwarned := h.warned.allow hallows
      rcases f.republish_cases zenoh s with
        ⟨haccepts, -⟩ | ⟨-, hdropped⟩ | ⟨-, -, toRepublish, hwaiting, hsent⟩
      · exact absurd (haccepts.symm.trans ((h.accepts_eq s).trans hallows)) (by decide)
      · rw [hdropped]
        refine
          { h with
            republished := ?_
            forwardedKeys := hkeys
            allowedCount := ?_
            rejectedCount := hnone ▸ h.rejectedCount
            warned := hwarned }
        · rw [hone, List.map_append]
          exact h.republished.trans (List.sublist_append_left _ _)
        · rw [hone, List.length_append, ← h.allowedCount]
          rfl
      · rw [hsent]
        have hmore : history.puts ++ toRepublish.waiting.map TopicSample.toPut =
            f.republished history ++ [s.toPut] := by
          rw [hwaiting, List.map_append, Forwarder.republished, List.append_assoc]
          rfl
        refine
          { h with
            republished := ?_
            forwardedKeys := hkeys
            republishedCount := ?_
            allowedCount := ?_
            rejectedCount := hnone ▸ h.rejectedCount
            warned := hwarned }
        · rw [hone, List.map_append, Forwarder.republished, hmore]
          exact h.republished.append_right _
        · rw [Forwarder.republished, hmore, List.length_append, ← h.republishedCount]
          rfl
        · rw [hone, List.length_append, ← h.allowedCount, Nat.add_right_comm]
          rfl

/-- What the task puts was republished all the same. -/
theorem puts (h : Accounted zenoh config f history) {s : TopicSample}
    {toRepublish : Channel TopicSample channelDepth}
    (hwaiting : f.toRepublish.waiting = s :: toRepublish.waiting) :
    Accounted zenoh config { f with toRepublish }
      { history with puts := history.puts ++ [s.toPut] } := by
  have hsame : Forwarder.republished { f with toRepublish }
      { history with puts := history.puts ++ [s.toPut] } = f.republished history := by
    rw [Forwarder.republished, Forwarder.republished, hwaiting, List.map_cons, List.append_assoc]
    rfl
  exact
    { h with
      republished := hsame ▸ h.republished
      republishedCount := hsame ▸ h.republishedCount }

end Accounted

end Forwarder

/-! ## Runs -/

namespace ForwardEnd

variable {σ : Type} {zenoh : KeyExprs} {config : ForwardConfig} {e : ForwardEnd σ}

/-- The forwarder's account of the history. -/
def Accounted (zenoh : KeyExprs) (config : ForwardConfig) (e : ForwardEnd σ) : Prop :=
  e.forwarder.Accounted zenoh config e.history

namespace Accounted

theorem republish (h : Accounted zenoh config e) {s : TopicSample}
    (hkey : checkKey s.key = .ok ()) : Accounted zenoh config (e.republish zenoh s) := by
  rw [ForwardEnd.republish]
  split
  · exact h
  · exact Forwarder.Accounted.republish h hkey

theorem republishAll : ∀ {ss : List TopicSample} {e : ForwardEnd σ}, Accounted zenoh config e →
    (∀ s ∈ ss, checkKey s.key = .ok ()) → Accounted zenoh config (e.republishAll zenoh ss)
  | [], _, h, _ => h
  | s :: ss, e, h, hkeys =>
      @republishAll ss (e.republish zenoh s) (h.republish (hkeys s List.mem_cons_self))
        fun s' hs' => hkeys s' (List.mem_cons_of_mem s hs')

theorem onSample (h : Accounted zenoh config e) (rule : ForwardRule) (kind : SampleKind)
    (z : ZenohSample) : Accounted zenoh config (e.onSample rule kind z) := by
  cases kind with
  | delete => exact h
  | put => exact Forwarder.Accounted.onSample h rule.mode z

/-- The next sample of the outgoing channel is taken, on either session state. -/
theorem onForward (h : Accounted zenoh config e) : Accounted zenoh config e.onForward := by
  rw [ForwardEnd.onForward]
  split
  · exact h
  · rcases e.forwarder.tryRecv_cases with hnone | ⟨out, outgoing, hwaiting, hsome⟩
    · rw [hnone]
      exact h
    · rw [hsome]
      exact Forwarder.Accounted.takes h hwaiting

theorem onDatagram (h : Accounted zenoh config e) (data : Bytes) :
    Accounted zenoh config (e.onDatagram zenoh data) := by
  rw [ForwardEnd.onDatagram]
  split
  · exact h
  · split
    · exact h
    · split
      · exact h
      · next hdecode => exact h.republish (TopicSample.checkKey_of_decode hdecode)

theorem putNext (h : Accounted zenoh config e) : Accounted zenoh config e.putNext := by
  rw [ForwardEnd.putNext]
  rcases e.forwarder.putNext_cases with hnone | ⟨s, toRepublish, hwaiting, hsome⟩
  · rw [hnone]
    exact h
  · rw [hsome]
    exact Forwarder.Accounted.puts h hwaiting

/-- Every event of the end keeps its account. -/
theorem step [DecidableEq σ] (h : Accounted zenoh config e) (event : Event σ) :
    Accounted zenoh config (e.step zenoh config event) := by
  cases event with
  | sample rule kind z => exact h.onSample rule kind z
  | onForward => exact h.onForward
  | popDatagram maxLen => exact h
  | consumeReliable lane n => exact h
  | datagram data => exact h.onDatagram data
  | streamData stream data fin =>
      exact republishAll h fun s hs => TopicStreamReader.checkKey_of_mem_samplesOf hs
  | streamReset stream => exact h
  | putNext => exact h.putNext
  | pause visible =>
      have h : e.forwarder.Accounted zenoh config e.history := h
      exact { h with accept := h.accept }
  | negotiated topics => exact h
  | operate => exact Forwarder.Accounted.takes h (List.append_nil _).symm
  | reconnect => exact h

end Accounted

/-- What is put is allowed, and its key is a concrete one and none of the robot's own. -/
def PutsAllowed (zenoh : KeyExprs) (config : ForwardConfig) (e : ForwardEnd σ) : Prop :=
  ∀ z ∈ e.history.puts, IsConcrete z.key ∧ ¬ reservedPrefix.toList <+: z.key.toList ∧
    zenoh.isKeyExpr z.key = true ∧ ∃ a ∈ config.accept, zenoh.includes a z.key = true

/-- What was put is part of what its rules allow, by the account of the puts. -/
theorem Accounted.putsAllowed (h : Accounted zenoh config e) : e.PutsAllowed zenoh config := by
  intro z hz
  have hmem := h.republished.subset (List.mem_append_left _ hz)
  obtain ⟨s, hs, rfl⟩ := List.mem_map.mp hmem
  obtain ⟨hforwarded, hallows⟩ := List.mem_filter.mp hs
  obtain ⟨hconcrete, hreserved⟩ := checkKey_eq_ok_iff.mp (h.forwardedKeys s hforwarded)
  obtain ⟨hkeyExpr, hany⟩ := Bool.and_eq_true_iff.mp hallows
  exact ⟨hconcrete, hreserved, hkeyExpr, List.any_eq_true.mp hany⟩

/-- An operator that forwards a goal and takes the robot's pose. -/
def goalForPose : ForwardConfig where
  forward := [⟨.reliable, "planner/goal"⟩]
  accept := ["robot/pose"]
  maxMbps := 2

/-- The forwarder of `goalForPose` as it starts. -/
def goalForPoseStarted : Forwarder where
  accept := ["robot/pose"]
  rejectedLogged := []
  outgoing := .empty
  toRepublish := .empty
  paused := false
  stats :=
    { captured := 0, captureDropped := 0, republished := 0, republishDropped := 0
      republishRejected := 0 }

/-- A goal is captured, and a pose and another sample come from the robot. -/
def goalAndPose : List (Event Nat) :=
  [.negotiated true, .operate, .sample ⟨.reliable, "planner/goal"⟩ .put ⟨"planner/goal", none, [1]⟩,
    .onForward, .datagram (tag datagramTagTopic (TopicSample.encode ⟨"robot/pose", [], [2]⟩)),
    .datagram (tag datagramTagTopic (TopicSample.encode ⟨"robot/map", [], [3]⟩)), .putNext]

example :
    (exec (step KeyExprs.plain goalForPose) (new goalForPose goalForPoseStarted)
      goalAndPose).history.puts = [⟨"robot/pose", none, [2]⟩] := by
  decide +kernel

end ForwardEnd

end RoboTele
