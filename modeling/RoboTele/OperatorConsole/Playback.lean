import RoboTele.OperatorConsole.DeltaGate
import RoboTele.Runs.Past

/-!
# The hand-off to playback

The console feeds each reassembled NAL to the gate and hands what the gate
admits to a playback backend.  A critical NAL empties the slot of waiting
deltas and then goes into the critical queue.  A delta goes into the slot, and
when the slot is full every waiting delta is discarded and the gate told.

The consumer is a thread of its own (`native`) or a task (`ffplay`), and its
loop checks the queue first and the slot second.  Each lock it takes is one
step here, so `consume` can run between any two steps of the console, also
between the two halves of a critical `send`.  The ffplay task writes what it
drained from the slot in one piece.

`PlaysInOrder` is what the hand-off is for.  The NALs reach the decoder in the
order of their hand-off, and each delta follows the picture handed over right
before it.

Two things break it.  A parameter set empties the slot like an IDR does but no
freeze follows, so a late one drops deltas that the next delta needs.  And a
consumer between its two checks misses the IDR that was queued meanwhile and
takes a delta that follows it.  `playsInOrder_of_inTurn` gives the rule for
every run in which neither happens.
-/

namespace RoboTele

open Runs Past

/-! ## The backend's two queues -/

/-- A reassembled NAL with its start code of four bytes. -/
structure ReassembledNal where
  nalId : UInt32
  nalBytes : Bytes
deriving DecidableEq

namespace ReassembledNal

/-- The type of the NAL behind the start code. -/
def nalType (n : ReassembledNal) : UInt8 := nalTypeOf (n.nalBytes.drop 4)

/-- A parameter set or an IDR. -/
def isCritical (n : ReassembledNal) : Bool := nalIsCritical (n.nalBytes.drop 4)

end ReassembledNal

/-- A NAL handed to `send`, with its place among those. -/
structure Handed where
  seq : Nat
  nal : ReassembledNal
deriving DecidableEq

namespace Handed

/-- A delta was handed over. -/
def IsDelta (h : Handed) : Prop := RoboTele.IsDelta h.nal.nalType

instance (h : Handed) : Decidable h.IsDelta := inferInstanceAs (Decidable (RoboTele.IsDelta _))

/-- A delta or an IDR. -/
def picture? (h : Handed) : Option Handed :=
  if h.IsDelta ∨ h.nal.nalType = nalIdr then some h else none

end Handed

/-- Deltas the backend may hold before it counts as falling behind. -/
def deltaQueueCap : Nat := 8

/-- What `send` has still to do after its first lock. -/
inductive Sending where
  | queueCritical (h : Handed)
  | notify
deriving DecidableEq

namespace Sending

/-- The critical NALs of what is being sent. -/
def critical : Sending → List Handed
  | queueCritical h => [h]
  | notify => []

end Sending

/-- Where playback sends what it is fed. -/
inductive PlaybackBackend where
  | native
  | ffplay
deriving DecidableEq

/-- Where the consumer is in its loop. -/
inductive ConsumerPc where
  | tryRecv
  | take
  | recvTimeout
  | takeLate
  | select
  | notified
  | drain (chunk : List Handed)
deriving DecidableEq

namespace ConsumerPc

/-- Where the consumer of a backend begins. -/
def start : PlaybackBackend → ConsumerPc
  | .native => tryRecv
  | .ffplay => select

/-- Deltas taken from the slot and not written yet. -/
def chunk : ConsumerPc → List Handed
  | drain chunk => chunk
  | _ => []

/-- The next step looks into the slot. -/
def looksIntoSlot : ConsumerPc → Bool
  | take | takeLate | drain _ => true
  | _ => false

end ConsumerPc

/-- Why the picture handed over last is not on its way to the decoder. -/
inductive Loss where
  /-- A parameter set emptied the slot. -/
  | parameterSet
  /-- The slot was full. -/
  | overflow
  /-- The slot was full, and a new stream ended the freeze. -/
  | restarted
deriving DecidableEq

/-- The gate, the two queues of the backend and its consumer.  `handed`,
`delivered` and `lost` record the run. -/
structure Playback where
  gate : DeltaGate
  sending : Option Sending
  critical : List Handed
  slot : List Handed
  ready : Bool
  pc : ConsumerPc
  handed : List Handed
  delivered : List Handed
  lost : Option Loss
deriving DecidableEq

namespace Playback

/-- A NAL comes, the writer takes one, or the sink takes it from the writer. -/
inductive Event where
  | feed (nal : ReassembledNal)
  | send
  | consume (timedOut : Bool)
deriving DecidableEq

def new (backend : PlaybackBackend) : Playback where
  gate := DeltaGate.new
  sending := none
  critical := []
  slot := []
  ready := false
  pc := .start backend
  handed := []
  delivered := []
  lost := none

/-! ## The console -/

/-- A critical NAL empties the slot before it is queued. -/
def beginCritical (s : Playback) (h : Handed) : Playback :=
  { s with
    handed := s.handed ++ [h]
    sending := some (.queueCritical h)
    slot := []
    lost :=
      if h.nal.nalType = nalIdr then none
      else if s.slot = [] then s.lost
      else some .parameterSet }

/-- The slot is full: every waiting delta and this one are discarded, and the
gate is told. -/
def overflow (s : Playback) (h : Handed) : Playback :=
  { s with
    handed := s.handed ++ [h]
    slot := []
    gate := s.gate.playbackOverflowed
    lost := some .overflow }

/-- Into the slot. -/
def enqueue (s : Playback) (h : Handed) : Playback :=
  { s with
    handed := s.handed ++ [h]
    slot := s.slot ++ [h]
    sending := some .notify }

/-- A delta, which overflows a full slot. -/
def offer (s : Playback) (h : Handed) : Playback :=
  if deltaQueueCap ≤ s.slot.length then s.overflow h else s.enqueue h

/-- A new stream ends a freeze that an overflow began. -/
def lossAt (s : Playback) (nal : ReassembledNal) : Option Loss :=
  if s.lost = some .overflow ∧ s.gate.Restarts nal.nalId then some .restarted else s.lost

/-- The next NAL to hand over, at its place. -/
def next (s : Playback) (nal : ReassembledNal) : Handed where
  seq := s.handed.length
  nal := nal

/-- The state after the gate has seen the NAL. -/
def gated (s : Playback) (nal : ReassembledNal) : Playback :=
  { s with gate := (s.gate.admitNal nal.nalId nal.nalType).1, lost := s.lossAt nal }

/-- A reassembled NAL.  The console is one task, so nothing comes while it is
in `send`. -/
def feed (s : Playback) (nal : ReassembledNal) : Playback :=
  match s.sending with
  | some _ => s
  | none =>
      if (s.gate.admitNal nal.nalId nal.nalType).2 then
        if nal.isCritical then (s.gated nal).beginCritical (s.next nal)
        else (s.gated nal).offer (s.next nal)
      else s.gated nal

/-- The second half of `send`. -/
def finishSend (s : Playback) : Playback :=
  match s.sending with
  | none => s
  | some (.queueCritical h) => { s with critical := s.critical ++ [h], sending := none }
  | some .notify => { s with ready := true, sending := none }

/-! ## The consumer -/

/-- Receive a critical NAL, or go on at `empty`. -/
def receive (s : Playback) (start empty : ConsumerPc) : Playback :=
  match s.critical with
  | h :: rest => { s with critical := rest, delivered := s.delivered ++ [h], pc := start }
  | [] => { s with pc := empty }

/-- Take a delta, or go on at `empty`. -/
def takeDelta (s : Playback) (start empty : ConsumerPc) : Playback :=
  match s.slot with
  | d :: rest => { s with slot := rest, delivered := s.delivered ++ [d], pc := start }
  | [] => { s with pc := empty }

/-- Take a delta into the chunk, or write the chunk. -/
def drainSlot (s : Playback) (chunk : List Handed) : Playback :=
  match s.slot with
  | d :: rest => { s with slot := rest, pc := .drain (chunk ++ [d]) }
  | [] => { s with delivered := s.delivered ++ chunk, pc := .select }

/-- One step of the consumer.  `timedOut` says whether `recv_timeout` gives up
on an empty queue. -/
def consume (s : Playback) (timedOut : Bool) : Playback :=
  match s.pc with
  | .tryRecv => s.receive .tryRecv .take
  | .take => s.takeDelta .tryRecv .recvTimeout
  | .recvTimeout => s.receive .tryRecv (if timedOut then .takeLate else .recvTimeout)
  | .takeLate => s.takeDelta .tryRecv .tryRecv
  | .select => s.receive .select .notified
  | .notified =>
      if s.ready then { s with ready := false, pc := .drain [] } else { s with pc := .select }
  | .drain chunk => s.drainSlot chunk

/-- What happens to playback. -/
def step (s : Playback) : Event → Playback
  | .feed nal => s.feed nal
  | .send => s.finishSend
  | .consume timedOut => s.consume timedOut

/-! ## What the hand-off is for -/

/-- The last picture of a list. -/
def lastPicture (l : List Handed) : Option Handed := latest Handed.picture? l

/-- What reached the decoder is in the order of the hand-off, and each delta
follows the picture handed over right before it. -/
structure PlaysInOrder (s : Playback) : Prop where
  order : s.delivered.Sublist s.handed
  follows : ∀ past d rest past' rest', d.IsDelta → s.delivered = past ++ d :: rest →
    s.handed = past' ++ d :: rest' → lastPicture past = lastPicture past'

/-- The consumer takes no delta while a critical NAL waits. -/
def TakesInTurn (s : Playback) : Prop :=
  s.pc.looksIntoSlot = true → s.slot ≠ [] → s.critical = []

/-- An admitted delta does not follow a picture that a parameter set discarded,
or that an overflow discarded before a new stream ended the freeze. -/
def FollowsLast (s : Playback) (nal : ReassembledNal) : Prop :=
  s.sending = none → IsDelta nal.nalType → (s.gate.admitNal nal.nalId nal.nalType).2 = true →
    s.lossAt nal ≠ some .parameterSet ∧ s.lossAt nal ≠ some .restarted

/-- A NAL follows the last one, and the consumer takes the oldest. -/
def InTurn (s : Playback) : Event → Prop
  | .feed nal => s.FollowsLast nal
  | .send => True
  | .consume _ => s.TakesInTurn

instance (s : Playback) : ∀ e, Decidable (s.InTurn e)
  | .feed nal =>
      inferInstanceAs (Decidable (s.sending = none → IsDelta nal.nalType →
        (s.gate.admitNal nal.nalId nal.nalType).2 = true →
          s.lossAt nal ≠ some .parameterSet ∧ s.lossAt nal ≠ some .restarted))
  | .send => .isTrue trivial
  | .consume _ =>
      inferInstanceAs (Decidable (s.pc.looksIntoSlot = true → s.slot ≠ [] → s.critical = []))

/-! ## The way to the decoder -/

/-- Everything that is or will be at the decoder, in its order. -/
def pipeline (s : Playback) : List Handed :=
  s.delivered ++ s.pc.chunk ++ s.critical ++ (s.sending.elim [] Sending.critical) ++ s.slot

/-- A read of the consumer moves a NAL along the pipeline. -/
theorem receive_pipeline {s : Playback} {start empty : ConsumerPc} (hpc : s.pc.chunk = [])
    (hstart : start.chunk = []) (hempty : empty.chunk = []) :
    (s.receive start empty).pipeline = s.pipeline := by
  rw [receive]
  cases hcritical : s.critical with
  | nil => simp [pipeline, hpc, hempty, hcritical]
  | cons h rest => simp [pipeline, hpc, hstart, hcritical]

/-- So does a delta that is taken from the slot. -/
theorem takeDelta_pipeline {s : Playback} {start empty : ConsumerPc} (hpc : s.pc.chunk = [])
    (hstart : start.chunk = []) (hempty : empty.chunk = [])
    (hturn : s.slot ≠ [] → s.critical = [] ∧ s.sending.elim [] Sending.critical = []) :
    (s.takeDelta start empty).pipeline = s.pipeline := by
  rw [takeDelta]
  cases hslot : s.slot with
  | nil => simp [pipeline, hpc, hempty, hslot]
  | cons d rest =>
      obtain ⟨hcritical, hsending⟩ := hturn (by simp [hslot])
      simp [pipeline, hpc, hstart, hcritical, hsending, hslot]

/-- So do the deltas of a drained slot. -/
theorem drainSlot_pipeline {s : Playback} {chunk : List Handed} (hpc : s.pc = .drain chunk)
    (hturn : s.slot ≠ [] → s.critical = [] ∧ s.sending.elim [] Sending.critical = []) :
    (s.drainSlot chunk).pipeline = s.pipeline := by
  rw [drainSlot]
  cases hslot : s.slot with
  | nil => simp [pipeline, hpc, ConsumerPc.chunk, hslot]
  | cons d rest =>
      obtain ⟨hcritical, hsending⟩ := hturn (by simp [hslot])
      simp [pipeline, hpc, ConsumerPc.chunk, hcritical, hsending, hslot]

/-- What a step of the consumer leaves as it is. -/
structure SameConsole (s t : Playback) : Prop where
  gate : t.gate = s.gate
  sending : t.sending = s.sending
  handed : t.handed = s.handed
  lost : t.lost = s.lost
  slot : s.slot = [] → t.slot = []

theorem receive_console (s : Playback) (start empty : ConsumerPc) :
    SameConsole s (s.receive start empty) := by
  rw [receive]
  cases s.critical <;> exact ⟨rfl, rfl, rfl, rfl, id⟩

theorem takeDelta_console (s : Playback) (start empty : ConsumerPc) :
    SameConsole s (s.takeDelta start empty) := by
  rw [takeDelta]
  cases hslot : s.slot with
  | nil => exact ⟨rfl, rfl, rfl, rfl, fun _ => rfl⟩
  | cons d rest => exact ⟨rfl, rfl, rfl, rfl, fun h => by simp [hslot] at h⟩

theorem drainSlot_console (s : Playback) (chunk : List Handed) :
    SameConsole s (s.drainSlot chunk) := by
  rw [drainSlot]
  cases hslot : s.slot with
  | nil => exact ⟨rfl, rfl, rfl, rfl, fun _ => rfl⟩
  | cons d rest => exact ⟨rfl, rfl, rfl, rfl, fun h => by simp [hslot] at h⟩

/-- The consumer leaves the console's half alone. -/
theorem consume_console (s : Playback) (timedOut : Bool) : SameConsole s (s.consume timedOut) := by
  rw [consume]
  cases s.pc with
  | tryRecv => exact s.receive_console _ _
  | take => exact s.takeDelta_console _ _
  | recvTimeout => exact s.receive_console _ _
  | takeLate => exact s.takeDelta_console _ _
  | select => exact s.receive_console _ _
  | notified =>
      dsimp only
      split <;> exact ⟨rfl, rfl, rfl, rfl, id⟩
  | drain chunk => exact s.drainSlot_console chunk

/-! ## The invariant -/

/-- Each delta of a list follows the picture handed over right before it. -/
def Linked (handed l : List Handed) : Prop :=
  Always (fun past d => d.IsDelta → lastPicture past = lastPicture (handed.take d.seq)) l

/-- What goes through the pipeline is a part of what was handed over, in order and without a gap
that is not known. -/
structure Inv (s : Playback) : Prop where
  numbered : Always (fun past h => h.seq = past.length) s.handed
  order : s.pipeline.Sublist s.handed
  linked : Linked s.handed s.pipeline
  last : s.lost = none → lastPicture s.pipeline = lastPicture s.handed
  frozen : s.lost = some .overflow → s.gate.frozen = true
  cleared : s.sending.elim [] Sending.critical ≠ [] → s.slot = []

/-- The invariant holds when playback starts. -/
theorem Inv.new (backend : PlaybackBackend) : (new backend).Inv := by
  have hempty : (Playback.new backend).pipeline = [] := by cases backend <;> rfl
  refine ⟨always_nil _, ?_, ?_, ?_, nofun, fun _ => rfl⟩
  · rw [hempty]
    exact List.nil_sublist _
  · rw [Linked, hempty]
    exact always_nil _
  · intro _
    rw [hempty]
    rfl

/-- What was handed over is numbered below its count. -/
theorem Inv.seq_lt {s : Playback} (h : s.Inv) {d : Handed} (hd : d ∈ s.handed) :
    d.seq < s.handed.length := by
  obtain ⟨past, rest, hsplit⟩ := List.append_of_mem hd
  rw [h.numbered past d rest hsplit, hsplit, List.length_append, List.length_cons]
  omega

/-- A longer hand-off keeps the links of what was handed over before. -/
theorem Linked.grow {handed l : List Handed} {h : Handed} (hlinked : Linked handed l)
    (hseq : ∀ d ∈ l, d.seq ≤ handed.length) : Linked (handed ++ [h]) l := by
  intro past d rest hsplit hdelta
  have hd : d.seq ≤ handed.length := hseq d (by simp [hsplit])
  rw [List.take_append_of_le_length hd]
  exact hlinked past d rest hsplit hdelta

/-- A step that only moves the pipeline keeps the invariant. -/
theorem Inv.of_console {s t : Playback} (h : s.Inv) (ht : SameConsole s t)
    (hpipeline : t.pipeline = s.pipeline) : t.Inv where
  numbered := by
    rw [ht.handed]
    exact h.numbered
  order := by
    rw [ht.handed, hpipeline]
    exact h.order
  linked := by
    rw [ht.handed, hpipeline]
    exact h.linked
  last := by
    rw [ht.handed, hpipeline, ht.lost]
    exact h.last
  frozen := by
    rw [ht.gate, ht.lost]
    exact h.frozen
  cleared := by
    rw [ht.sending]
    exact fun hsending => ht.slot (h.cleared hsending)

/-- The consumer keeps it, if it takes in turn. -/
theorem Inv.consume {s : Playback} (h : s.Inv) (timedOut : Bool) (hturn : s.TakesInTurn) :
    (s.consume timedOut).Inv := by
  refine h.of_console (s.consume_console timedOut) ?_
  have hslot (hlooks : s.pc.looksIntoSlot = true) (hne : s.slot ≠ []) :
      s.critical = [] ∧ s.sending.elim [] Sending.critical = [] :=
    ⟨hturn hlooks hne, by_contra fun hsending => hne (h.cleared hsending)⟩
  rw [Playback.consume]
  cases hpc : s.pc with
  | tryRecv => exact receive_pipeline (by rw [hpc]; rfl) rfl rfl
  | take => exact takeDelta_pipeline (by rw [hpc]; rfl) rfl rfl (hslot (by rw [hpc]; rfl))
  | recvTimeout => exact receive_pipeline (by rw [hpc]; rfl) rfl (by cases timedOut <;> rfl)
  | takeLate => exact takeDelta_pipeline (by rw [hpc]; rfl) rfl rfl (hslot (by rw [hpc]; rfl))
  | select => exact receive_pipeline (by rw [hpc]; rfl) rfl rfl
  | notified =>
      dsimp only
      split <;> simp [pipeline, hpc, ConsumerPc.chunk]
  | drain chunk => exact drainSlot_pipeline hpc (hslot (by rw [hpc]; rfl))

/-- So does a send that finishes. -/
theorem Inv.finishSend {s : Playback} (h : s.Inv) : s.finishSend.Inv := by
  rw [Playback.finishSend]
  cases hsending : s.sending with
  | none => exact h
  | some sending =>
      cases sending with
      | queueCritical c =>
          have hslot : s.slot = [] := h.cleared (by simp [hsending, Sending.critical])
          have hpipeline : ({ s with critical := s.critical ++ [c], sending := none } :
              Playback).pipeline = s.pipeline := by
            simp [pipeline, hsending, Sending.critical]
          exact ⟨h.numbered, hpipeline ▸ h.order, hpipeline ▸ h.linked, hpipeline ▸ h.last,
            h.frozen, fun _ => hslot⟩
      | notify =>
          have hpipeline : ({ s with ready := true, sending := none } : Playback).pipeline =
              s.pipeline := by
            simp [pipeline, hsending, Sending.critical]
          exact ⟨h.numbered, hpipeline ▸ h.order, hpipeline ▸ h.linked, hpipeline ▸ h.last,
            h.frozen, fun hcritical => absurd rfl hcritical⟩

/-- The last picture is the newest one that was handed over. -/
theorem lastPicture_concat (l : List Handed) (h : Handed) :
    lastPicture (l ++ [h]) = h.picture?.or (lastPicture l) := by
  rw [lastPicture, latest_append, latest_singleton]
  rfl

theorem numbered_concat {s : Playback} (h : s.Inv) (nal : ReassembledNal) :
    Always (fun past (h : Handed) => h.seq = past.length) (s.handed ++ [s.next nal]) := by
  rw [always_concat]
  exact ⟨h.numbered, rfl⟩

/-- The links of what stays on its way when a NAL is handed over. -/
theorem Inv.linked_grow {s : Playback} (h : s.Inv) {l : List Handed} (hl : l <+: s.pipeline)
    (nal : ReassembledNal) : Linked (s.handed ++ [s.next nal]) l := by
  obtain ⟨rest, hrest⟩ := hl
  have hlinked := h.linked
  rw [Linked, ← hrest] at hlinked
  refine Linked.grow hlinked.of_append ?_
  intro d hd
  have hmem : d ∈ s.pipeline := by
    rw [← hrest]
    exact List.mem_append_left _ hd
  exact (h.seq_lt (h.order.subset hmem)).le

/-! ## What a NAL does -/

/-- Without a loss at a NAL there was none before. -/
theorem lossAt_eq_none {s : Playback} {nal : ReassembledNal} (h : s.lossAt nal = none) :
    s.lost = none := by
  unfold lossAt at h
  split_ifs at h
  exact h

/-- A loss that is an overflow at a NAL was one before, and the gate did not restart. -/
theorem lossAt_eq_overflow {s : Playback} {nal : ReassembledNal}
    (h : s.lossAt nal = some .overflow) :
    s.lost = some .overflow ∧ ¬ s.gate.Restarts nal.nalId := by
  unfold lossAt at h
  split_ifs at h with hrestarts
  · cases h
  · exact ⟨h, fun hr => hrestarts ⟨h, hr⟩⟩

/-- A freeze that an overflow began lasts until an IDR or a new stream. -/
theorem Inv.frozen_gated {s : Playback} (h : s.Inv) {nal : ReassembledNal}
    (hidr : nal.nalType = nalIdr → (s.gate.admitNal nal.nalId nal.nalType).2 = false)
    (hloss : s.lossAt nal = some .overflow) :
    (s.gated nal).gate.frozen = true ∧
      (IsDelta nal.nalType → (s.gate.admitNal nal.nalId nal.nalType).2 = false) := by
  obtain ⟨hlost, hrestarts⟩ := lossAt_eq_overflow hloss
  exact DeltaGate.admit_of_frozen (h.frozen hlost) hrestarts hidr

/-- A NAL that the gate holds is counted only. -/
theorem Inv.gated {s : Playback} (h : s.Inv) {nal : ReassembledNal}
    (hheld : (s.gate.admitNal nal.nalId nal.nalType).2 = false) : (s.gated nal).Inv where
  numbered := h.numbered
  order := h.order
  linked := h.linked
  last hloss := h.last (lossAt_eq_none hloss)
  frozen hloss := (h.frozen_gated (fun _ => hheld) hloss).1
  cleared := h.cleared

/-- What was on its way before the slot. -/
theorem pipeline_eq (s : Playback) (hsending : s.sending = none) :
    s.pipeline = s.delivered ++ s.pc.chunk ++ s.critical ++ s.slot := by
  simp [pipeline, hsending]

/-- A critical NAL is handed to the consumer's channel. -/
theorem Inv.beginCritical {s : Playback} (h : s.Inv) {nal : ReassembledNal}
    (hsending : s.sending = none) (hcritical : nal.isCritical = true) :
    ((s.gated nal).beginCritical (s.next nal)).Inv := by
  have hdelta : ¬ (s.next nal).IsDelta := (nalIsCritical_iff _).mp hcritical
  have hold := s.pipeline_eq hsending
  have hpipeline : ((s.gated nal).beginCritical (s.next nal)).pipeline =
      s.delivered ++ s.pc.chunk ++ s.critical ++ [s.next nal] := by
    simp [pipeline, Playback.beginCritical, Playback.gated, Sending.critical]
  refine ⟨numbered_concat h nal, ?_, ?_, ?_, ?_, fun _ => rfl⟩
  · rw [hpipeline]
    refine List.Sublist.append ?_ (.refl _)
    exact (List.sublist_append_left _ _).trans (hold ▸ h.order)
  · rw [Linked, hpipeline, always_concat]
    exact ⟨h.linked_grow (hold ▸ List.prefix_append _ _) nal, fun hd => absurd hd hdelta⟩
  · intro hloss
    rw [hpipeline]
    show _ = lastPicture (s.handed ++ [s.next nal])
    rw [lastPicture_concat, lastPicture_concat]
    change (if nal.nalType = nalIdr then none else if s.slot = [] then s.lossAt nal
      else some Loss.parameterSet) = none at hloss
    split_ifs at hloss with hidr hslot
    · have hpicture : (s.next nal).picture? = some (s.next nal) := if_pos (Or.inr hidr)
      rw [hpicture]
      rfl
    · have hlast := h.last (lossAt_eq_none hloss)
      rw [hold, hslot, List.append_nil] at hlast
      rw [hlast]
  · intro hloss
    change (if nal.nalType = nalIdr then none else if s.slot = [] then s.lossAt nal
      else some Loss.parameterSet) = some Loss.overflow at hloss
    split_ifs at hloss with hidr hslot
    · exact (h.frozen_gated (fun heq => absurd heq hidr) hloss).1
    · cases hloss

/-- Nothing is lost when a delta that follows the last picture is admitted. -/
theorem Inv.lost_eq_none {s : Playback} (h : s.Inv) {nal : ReassembledNal}
    (hsending : s.sending = none) (hdelta : IsDelta nal.nalType)
    (hadmitted : (s.gate.admitNal nal.nalId nal.nalType).2 = true) (hfollows : s.FollowsLast nal) :
    s.lost = none := by
  obtain ⟨hset, hrestarted⟩ := hfollows hsending hdelta hadmitted
  cases hloss : s.lossAt nal with
  | none => exact lossAt_eq_none hloss
  | some loss =>
      cases loss with
      | parameterSet => exact absurd hloss hset
      | restarted => exact absurd hloss hrestarted
      | overflow =>
          have hheld := (h.frozen_gated (fun hidr => absurd hidr hdelta.1) hloss).2 hdelta
          rw [hadmitted] at hheld
          cases hheld

/-- A delta that finds the slot full freezes the gate. -/
theorem Inv.overflow {s : Playback} (h : s.Inv) (nal : ReassembledNal)
    (hsending : s.sending = none) : ((s.gated nal).overflow (s.next nal)).Inv := by
  have hold := s.pipeline_eq hsending
  have hpipeline : ((s.gated nal).overflow (s.next nal)).pipeline =
      s.delivered ++ s.pc.chunk ++ s.critical := by
    simp [pipeline, Playback.overflow, Playback.gated, hsending]
  refine ⟨numbered_concat h nal, ?_, ?_, nofun, fun _ => DeltaGate.freeze_frozen _, fun _ => rfl⟩
  · rw [hpipeline]
    have hkept : (s.delivered ++ s.pc.chunk ++ s.critical).Sublist s.handed :=
      (List.sublist_append_left _ _).trans (hold ▸ h.order)
    exact hkept.trans (List.sublist_append_left _ _)
  · rw [hpipeline]
    exact h.linked_grow (hold ▸ List.prefix_append _ _) nal

/-- A delta that finds room waits in the slot. -/
theorem Inv.enqueue {s : Playback} (h : s.Inv) (nal : ReassembledNal) (hsending : s.sending = none)
    (hlost : s.lost = none) : ((s.gated nal).enqueue (s.next nal)).Inv := by
  have hlast := h.last hlost
  have hpipeline : ((s.gated nal).enqueue (s.next nal)).pipeline = s.pipeline ++ [s.next nal] := by
    rw [s.pipeline_eq hsending]
    simp [pipeline, Playback.enqueue, Playback.gated, Sending.critical]
  refine ⟨numbered_concat h nal, ?_, ?_, ?_, ?_, fun hcritical => absurd rfl hcritical⟩
  · rw [hpipeline]
    exact h.order.append (.refl _)
  · rw [hpipeline, Linked, always_concat]
    refine ⟨h.linked_grow (List.prefix_refl _) nal, fun _ => ?_⟩
    show lastPicture s.pipeline = lastPicture ((s.handed ++ [s.next nal]).take s.handed.length)
    rw [List.take_left, hlast]
  · intro _
    rw [hpipeline]
    show _ = lastPicture (s.handed ++ [s.next nal])
    rw [lastPicture_concat, lastPicture_concat, hlast]
  · intro hloss
    have hnone : s.lossAt nal = none := by
      rw [lossAt, hlost]
      rfl
    change s.lossAt nal = some Loss.overflow at hloss
    rw [hnone] at hloss
    cases hloss

/-- Either keeps the invariant. -/
theorem Inv.offer {s : Playback} (h : s.Inv) {nal : ReassembledNal} (hsending : s.sending = none)
    (hdelta : IsDelta nal.nalType) (hadmitted : (s.gate.admitNal nal.nalId nal.nalType).2 = true)
    (hfollows : s.FollowsLast nal) : ((s.gated nal).offer (s.next nal)).Inv := by
  by_cases hfull : deltaQueueCap ≤ s.slot.length
  · have heq : (s.gated nal).offer (s.next nal) = (s.gated nal).overflow (s.next nal) :=
      if_pos hfull
    rw [heq]
    exact h.overflow nal hsending
  · have heq : (s.gated nal).offer (s.next nal) = (s.gated nal).enqueue (s.next nal) :=
      if_neg hfull
    rw [heq]
    exact h.enqueue nal hsending (h.lost_eq_none hsending hdelta hadmitted hfollows)

/-- A NAL that follows the last one keeps the invariant. -/
theorem Inv.feed {s : Playback} (h : s.Inv) {nal : ReassembledNal} (hfollows : s.FollowsLast nal) :
    (s.feed nal).Inv := by
  rw [Playback.feed]
  cases hsending : s.sending with
  | some sending => exact h
  | none =>
      dsimp only
      split_ifs with hadmitted hcritical
      · exact h.beginCritical hsending hcritical
      · have hdelta : IsDelta nal.nalType :=
          (nalIsCritical_eq_false_iff _).mp (Bool.not_eq_true _ ▸ hcritical)
        exact h.offer hsending hdelta hadmitted hfollows
      · exact h.gated (Bool.not_eq_true _ ▸ hadmitted)

/-- So does every event in turn. -/
theorem Inv.step {s : Playback} {e : Event} (h : s.Inv) (he : s.InTurn e) : (s.step e).Inv := by
  cases e with
  | feed nal => exact h.feed he
  | send => exact h.finishSend
  | consume timedOut => exact h.consume timedOut he

/-- The invariant is about what is played. -/
theorem Inv.playsInOrder {s : Playback} (h : s.Inv) : s.PlaysInOrder where
  order := by
    refine List.Sublist.trans ?_ h.order
    simp only [pipeline, List.append_assoc]
    exact List.sublist_append_left _ _
  follows := by
    intro past d rest past' rest' hdelta hdelivered hhanded
    have hlinked := h.linked
    rw [Linked, pipeline, hdelivered] at hlinked
    simp only [List.append_assoc, List.cons_append] at hlinked
    have hpast := hlinked past d _ rfl hdelta
    have hseq := h.numbered past' d rest' hhanded
    rwa [hhanded, hseq, List.take_left] at hpast

/-! ## The rule -/

/-- In every run in which the consumer takes its deltas in turn and no delta is
admitted after a parameter set, or a new stream, has hidden a loss, playback
gets what it was handed in order and every delta after its picture. -/
theorem playsInOrder_of_inTurn (backend : PlaybackBackend) (events : List Event)
    (hturn : Along step InTurn (new backend) events) :
    (exec step (new backend) events).PlaysInOrder :=
  (exec_inv_along (I := Inv) (fun _ _ h he => h.step he) events (.new backend) hturn).playsInOrder

/-- A NAL that is only its start code and its type. -/
def bareNal (nalId : UInt32) (nalType : UInt8) : ReassembledNal where
  nalId := nalId
  nalBytes := [0, 0, 0, 1, nalType]

/-- The ffplay task receives an IDR and writes the two deltas after it in one
piece. -/
theorem playsInOrder_of_inTurn_chunk :
    (exec step (new .ffplay)
      [.feed (bareNal 0 nalIdr), .send, .consume false, .feed (bareNal 1 1), .send,
        .feed (bareNal 2 1), .send, .consume false, .consume false, .consume false,
        .consume false, .consume false]).PlaysInOrder :=
  playsInOrder_of_inTurn .ffplay _ (by decide)

/-- Delta 3 waits when SPS 0 arrives late, and delta 4 is shown without it. -/
def lateSpsRun : List Event :=
  [.feed (bareNal 2 nalIdr), .send, .consume false, .feed (bareNal 3 1), .send,
    .feed (bareNal 0 nalSps), .send, .feed (bareNal 4 1), .send, .consume false,
    .consume false, .consume false]

/-- A late parameter set drops the delta that waits, and its successor is shown. -/
theorem playsInOrder_fails_for_lateSps :
    ¬ (exec step (new .native) lateSpsRun).PlaysInOrder := by
  intro h
  have hpictures := h.follows [⟨0, bareNal 2 nalIdr⟩, ⟨2, bareNal 0 nalSps⟩] ⟨3, bareNal 4 1⟩ []
    [⟨0, bareNal 2 nalIdr⟩, ⟨1, bareNal 3 1⟩, ⟨2, bareNal 0 nalSps⟩] []
    (by decide) (by decide) (by decide)
  exact absurd hpictures (by decide)

/-- The consumer has found the queue empty when IDR 1 and delta 2 arrive, and
takes the delta first. -/
example : ¬ (exec step (new .native)
    [.feed (bareNal 0 nalIdr), .send, .consume false, .consume false, .feed (bareNal 1 nalIdr),
      .send, .feed (bareNal 2 1), .send, .consume false, .consume false]).PlaysInOrder :=
  fun h => absurd h.order (by decide)

end Playback

end RoboTele
