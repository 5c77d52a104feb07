import RoboTele.Core.NalRuns

/-!
# Video over several sessions

The robot numbers the NALs of each session from zero.  The console keeps one
`ChannelAReceiver` for all of them: a reconnect gives it a new delta gate and a
new bulk receiver, and leaves the NALs that the last session did not complete
pending.

`ShowsSession` is what the receiver is for.  It emits whole NALs of the current
session only, and it emits a NAL whose chunks arrive one right after the other.

Both fail once an id of the last session is still pending.  Its slots keep their
old payloads, so the receiver emits a mixture, or a chunk of the last session in
the place of a NAL of this one (`showsSession_fails_after_reconnect`).  And while
`maxPendingNals` higher ids are pending, the entry of a new NAL is the one with
the smallest id and is evicted as soon as it is made.  `showsSession_of_unmixed`
gives the rule for every run in which neither happens.
-/

namespace RoboTele

open Runs Slots NalReassembler

/-- How many NALs a receiver keeps open. -/
def maxPendingNals : Nat := 32

/-- The video receiver of one session. -/
structure ChannelAReceiver where
  reassembler : NalReassembler

namespace ChannelAReceiver

def startCode : Bytes := [0, 0, 0, 1]

def new : ChannelAReceiver where
  reassembler := .new maxPendingNals

/-- Feed one datagram, with the id and the Annex-B bytes of the NAL it
completes. -/
def onDatagram (rx : ChannelAReceiver) (data : Bytes) :
    ChannelAReceiver × Option (UInt32 × Bytes) :=
  ({ reassembler := (rx.reassembler.onDatagram data).1 },
    (rx.reassembler.onDatagram data).2.map fun out => (out.1, startCode ++ out.2))

end ChannelAReceiver

/-- The console's receiver, the next id and the NALs of the robot's session, and
the chunks that are neither lost nor there yet, each with its NAL. -/
structure VideoLink where
  videoRx : ChannelAReceiver
  nextNalId : UInt32
  sent : List Nal
  inFlight : List (Nal × Nat)

namespace VideoLink

def new : VideoLink where
  videoRx := .new
  nextNalId := 0
  sent := []
  inFlight := []

/-- A NAL is encoded, a chunk arrives, or the connection is made anew. -/
inductive Event where
  /-- The encoder hands over a NAL. -/
  | encode (nal : Bytes)
  /-- A chunk arrives, in any order. -/
  | deliver (k : Nat)
  | reconnect
deriving DecidableEq

/-- The robot encodes a NAL and sends its chunks. -/
def encode (l : VideoLink) (nal : Bytes) : VideoLink :=
  let n : Nal := { nalId := l.nextNalId, nal }
  { l with
    nextNalId := l.nextNalId + 1
    sent := l.sent ++ [n]
    inFlight := l.inFlight ++ (List.range (chunkCount nal.length)).map fun i => (n, i) }

/-- What the receiver makes of a chunk. -/
def receive (l : VideoLink) (p : Nal × Nat) : ChannelAReceiver × Option (UInt32 × Bytes) :=
  l.videoRx.onDatagram (chunk p.1.nalId p.1.nal p.2)

/-- A chunk arrives. -/
def deliver (l : VideoLink) (k : Nat) : VideoLink :=
  match l.inFlight[k]? with
  | some p => { l with videoRx := (l.receive p).1, inFlight := l.inFlight.eraseIdx k }
  | none => l

/-- The robot starts a new session.  The console keeps its receiver. -/
def reconnect (l : VideoLink) : VideoLink :=
  { l with nextNalId := 0, sent := [], inFlight := [] }

/-- What happens between the two. -/
def step (l : VideoLink) : Event → VideoLink
  | .encode nal => l.encode nal
  | .deliver k => l.deliver k
  | .reconnect => l.reconnect

/-- The link after a history. -/
def after (es : List Event) : VideoLink := exec step new es

/-- The chunk that the event delivers. -/
def arrival (l : VideoLink) : Event → Option (Nal × Nat)
  | .deliver k => l.inFlight[k]?
  | _ => none

/-- The NAL that the event emits. -/
def emission (l : VideoLink) (e : Event) : Option (UInt32 × Bytes) :=
  (l.arrival e).bind fun p => (l.receive p).2

/-! ## What the receiver is for -/

/-- Every emission is a whole NAL of the current session. -/
def EmitsSent (es : List Event) : Prop :=
  ∀ past e rest, es = past ++ e :: rest → ∀ id b, (after past).emission e = some (id, b) →
    ∃ n ∈ (after past).sent, n.nalId = id ∧ ChannelAReceiver.startCode ++ n.nal = b

/-- A NAL is emitted if its chunks arrive with no other chunk in between. -/
def EmitsArrived (es : List Event) : Prop :=
  ∀ past block rest, es = past ++ block ++ rest → .reconnect ∉ block →
    ∀ n : Nal, n.nal ≠ [] →
      (trace step arrival (after past) block).Perm
        ((List.range (chunkCount n.nal.length)).map fun i => (n, i)) →
      (n.nalId, ChannelAReceiver.startCode ++ n.nal) ∈ trace step emission (after past) block

/-- What comes out of a session was sent in it. -/
def ShowsSession (es : List Event) : Prop := EmitsSent es ∧ EmitsArrived es

/-! ## Where it holds -/

/-- The receiver has nothing of another NAL under this NAL's id, and has room
for its entry. -/
structure Unmixed (r : NalReassembler) (n : Nal) : Prop where
  fits : chunkCount n.nal.length ≤ 65536
  same : ∀ e ∈ r.pending.lookup n.nalId, e.Matches n
  room : r.pending.lookup n.nalId = none → chunkCount n.nal.length = 1 ∨
    r.pending.keys.length < r.maxPending ∨ ∃ other ∈ r.pending.keys, other < n.nalId

/-- What it takes of the pending table for a chunk to mix with no other NAL. -/
theorem unmixed_iff {r : NalReassembler} {n : Nal} : Unmixed r n ↔
    chunkCount n.nal.length ≤ 65536 ∧ (∀ e ∈ r.pending.lookup n.nalId, e.Matches n) ∧
      (r.pending.lookup n.nalId = none → chunkCount n.nal.length = 1 ∨
        r.pending.keys.length < r.maxPending ∨ ∃ other ∈ r.pending.keys, other < n.nalId) :=
  ⟨fun h => ⟨h.fits, h.same, h.room⟩, fun h => ⟨h.1, h.2.1, h.2.2⟩⟩

instance (r : NalReassembler) (n : Nal) : Decidable (Unmixed r n) :=
  decidable_of_iff _ unmixed_iff.symm

/-- The chunk that arrives finds the receiver like that. -/
def ArrivesUnmixed (l : VideoLink) (e : Event) : Prop :=
  ∀ p ∈ l.arrival e, Unmixed l.videoRx.reassembler p.1

instance (l : VideoLink) (e : Event) : Decidable (l.ArrivesUnmixed e) :=
  inferInstanceAs (Decidable (∀ p ∈ l.arrival e, Unmixed l.videoRx.reassembler p.1))

/-- What holds in every history. -/
structure WellFormed (l : VideoLink) : Prop where
  inFlight : ∀ p ∈ l.inFlight, p.1 ∈ l.sent ∧ p.2 < chunkCount p.1.nal.length
  counted : ∀ id, ∀ e ∈ l.videoRx.reassembler.pending.lookup id, e.Counted
  bounded : l.videoRx.reassembler.pending.keys.length ≤ l.videoRx.reassembler.maxPending

section

variable {r : NalReassembler} {n : Nal} {i : Nat}

/-- A datagram keeps the entries counted. -/
theorem counted_onDatagram (h : ∀ id, ∀ e ∈ r.pending.lookup id, e.Counted) (d : Bytes)
    (id : UInt32) : ∀ e ∈ (r.onDatagram d).1.pending.lookup id, e.Counted := by
  intro e he
  rw [onDatagram] at he
  split at he
  · exact h id e he
  · next header payload _ =>
      by_cases hid : id = header.nalId
      · subst hid
        rcases lookup_onChunk_self r header payload with hnone | hsome
        · rw [hnone] at he
          exact absurd he.symm (Option.some_ne_none e)
        · obtain rfl := Option.some.inj (hsome.symm.trans he)
          rw [stored]
          cases hold : r.pending.lookup header.nalId with
          | none => exact PendingNal.Counted.empty.store header payload
          | some e' => exact (h _ e' hold).store header payload
      · rcases lookup_onChunk_ne r header payload hid with hnone | hsame
        · rw [hnone] at he
          exact absurd he.symm (Option.some_ne_none e)
        · exact h id e (hsame ▸ he)

/-- A datagram keeps the table within its bound. -/
theorem bounded_onDatagram (h : r.pending.keys.length ≤ r.maxPending) (d : Bytes) :
    (r.onDatagram d).1.pending.keys.length ≤ (r.onDatagram d).1.maxPending := by
  rw [maxPending_onDatagram, onDatagram]
  split
  · exact h
  · exact length_keys_onChunk h _ _

/-- The entry of an unmixed NAL with one more chunk. -/
theorem Unmixed.stored (h : Unmixed r n) (hcounted : ∀ id, ∀ e ∈ r.pending.lookup id, e.Counted)
    (hi : i < chunkCount n.nal.length) :
    (r.stored (chunkParts n i).1 (chunkParts n i).2).Matches n ∧
      (r.stored (chunkParts n i).1 (chunkParts n i).2).Counted := by
  rw [NalReassembler.stored, show (chunkParts n i).1.nalId = n.nalId from rfl]
  cases hlookup : r.pending.lookup n.nalId with
  | none => exact ⟨PendingNal.Matches.empty.store h.fits hi, PendingNal.Counted.empty.store _ _⟩
  | some e => exact ⟨(h.same e hlookup).store h.fits hi, (hcounted _ e hlookup).store _ _⟩

/-- The entry is not evicted by the chunk that goes into it. -/
theorem Unmixed.lookup_evict (h : Unmixed r n) (hbounded : r.pending.keys.length ≤ r.maxPending)
    (hmore : chunkCount n.nal.length ≠ 1) (e : NalReassembler.PendingNal) :
    ({ r with pending := r.pending.insert n.nalId e } : NalReassembler).evict.pending.lookup
      n.nalId = some e := by
  have hlen : (r.pending.insert n.nalId e).keys.length =
      (r.pending.keys.erase n.nalId).length + 1 := by
    rw [AList.keys_insert, List.length_cons]
  have hfew : (r.pending.insert n.nalId e).keys.length ≤ r.maxPending →
      ({ r with pending := r.pending.insert n.nalId e } : NalReassembler).evict.pending.lookup
        n.nalId = some e := by
    intro hle
    rw [evict_of_le (r := { r with pending := r.pending.insert n.nalId e }) hle]
    exact AList.lookup_insert _
  cases hlookup : r.pending.lookup n.nalId with
  | none =>
      have hnew : n.nalId ∉ r.pending.keys := AList.lookup_eq_none.mp hlookup
      rcases h.room hlookup with hone | hroom | ⟨other, hmem, hlt⟩
      · exact absurd hone hmore
      · refine hfew ?_
        rw [hlen, List.erase_of_not_mem hnew]
        exact hroom
      · have hother : other ∈ (r.pending.insert n.nalId e).keys :=
          (AList.mem_insert _).mpr (.inr hmem)
        exact (lookup_evict_of_lt hother hlt).trans (AList.lookup_insert _)
  | some e' =>
      have hmem : n.nalId ∈ r.pending.keys :=
        AList.lookup_isSome.mp (by rw [hlookup]; rfl)
      refine hfew ?_
      rw [hlen, List.length_erase_of_mem hmem]
      have hpos := List.length_pos_of_mem hmem
      omega

/-- A chunk of an unmixed NAL completes it or is kept. -/
theorem Unmixed.onDatagram (h : Unmixed r n) (hcounted : ∀ id, ∀ e ∈ r.pending.lookup id, e.Counted)
    (hbounded : r.pending.keys.length ≤ r.maxPending) (hi : i < chunkCount n.nal.length) :
    (r.onDatagram (chunk n.nalId n.nal i)).2 = some (n.nalId, n.nal) ∨
      (r.onDatagram (chunk n.nalId n.nal i)).2 = none ∧
        ¬ (r.stored (chunkParts n i).1 (chunkParts n i).2).complete = true ∧
        (r.onDatagram (chunk n.nalId n.nal i)).1.pending.lookup n.nalId =
          some (r.stored (chunkParts n i).1 (chunkParts n i).2) := by
  obtain ⟨hmatches, hcount⟩ := h.stored hcounted hi
  have hne : n.nal ≠ [] := by
    intro hnil
    rw [hnil] at hi
    exact absurd hi (Nat.not_lt_zero i)
  rw [onDatagram_chunk]
  by_cases hcomplete : (r.stored (chunkParts n i).1 (chunkParts n i).2).complete = true
  · left
    rw [onChunk_of_complete hcomplete, hmatches.bytes_eq hcount hne hcomplete]
    rfl
  · right
    rw [onChunk_of_not_complete hcomplete]
    refine ⟨rfl, hcomplete, h.lookup_evict hbounded ?_ _⟩
    intro hone
    refine hcomplete ((hmatches.complete_iff hcount hne).mpr fun j hj => ?_)
    rw [NalReassembler.stored, PendingNal.slot_store_chunkParts h.fits hi,
      show i = j by omega, if_pos rfl]
    simp

end

/-! ## Histories -/

section

variable {l : VideoLink}

theorem WellFormed.new : VideoLink.new.WellFormed where
  inFlight := nofun
  counted id e h := by cases h
  bounded := Nat.zero_le _

/-- Every event keeps the receiver well formed. -/
theorem WellFormed.step (h : l.WellFormed) (e : Event) : (l.step e).WellFormed := by
  cases e with
  | encode nal =>
      refine ⟨?_, h.counted, h.bounded⟩
      intro p hp
      rcases List.mem_append.mp hp with hold | hnew
      · exact ⟨List.mem_append_left _ (h.inFlight p hold).1, (h.inFlight p hold).2⟩
      · obtain ⟨i, hi, rfl⟩ := List.mem_map.mp hnew
        exact ⟨List.mem_concat_self, List.mem_range.mp hi⟩
  | deliver k =>
      rw [VideoLink.step, deliver]
      split
      · next p _ =>
          refine ⟨?_, counted_onDatagram h.counted _, bounded_onDatagram h.bounded _⟩
          exact fun q hq => h.inFlight q (List.mem_of_mem_eraseIdx hq)
      · exact h
  | reconnect => exact ⟨nofun, h.counted, h.bounded⟩

/-- So does every run. -/
theorem wellFormed_after (es : List Event) : (after es).WellFormed :=
  exec_inv (fun _ e h => h.step e) es .new

/-- An arrival is a chunk of a NAL of the session. -/
theorem WellFormed.arrival (h : l.WellFormed) {e : Event} {p : Nal × Nat}
    (hp : l.arrival e = some p) : p.1 ∈ l.sent ∧ p.2 < chunkCount p.1.nal.length := by
  cases e with
  | encode nal => cases hp
  | deliver k => exact h.inFlight p (List.mem_of_getElem? hp)
  | reconnect => cases hp

/-- What an unmixed arrival emits. -/
theorem WellFormed.emission (h : l.WellFormed) {e : Event} {p : Nal × Nat}
    (hp : l.arrival e = some p) (hunmixed : l.ArrivesUnmixed e) :
    l.emission e = some (p.1.nalId, ChannelAReceiver.startCode ++ p.1.nal) ∨
      l.emission e = none := by
  have hcases := (hunmixed p hp).onDatagram h.counted h.bounded (h.arrival hp).2
  rw [VideoLink.emission, hp, Option.bind_some, receive, ChannelAReceiver.onDatagram]
  refine hcases.imp ?_ ?_
  · intro hsome
    rw [hsome]
    rfl
  · rintro ⟨hnone, -⟩
    rw [hnone]
    rfl

/-- Chunks that do not mix give NALs that were sent. -/
theorem emitsSent_of_unmixed {es : List Event} (h : Along step ArrivesUnmixed new es) :
    EmitsSent es := by
  rintro past e rest rfl id b hemits
  have hunmixed := ((along_append _ _ _ _ _).mp h).2.1
  have hwell := wellFormed_after past
  obtain ⟨p, hp, -⟩ := Option.bind_eq_some_iff.mp hemits
  rcases hwell.emission hp hunmixed with hsome | hnone
  · obtain ⟨hid, hb⟩ := Prod.mk.inj (Option.some.inj (hsome.symm.trans hemits))
    exact ⟨p.1, (hwell.arrival hp).1, hid, hb⟩
  · rw [hnone] at hemits
    exact absurd hemits.symm (Option.some_ne_none _)

/-- The entry of a NAL that is arriving, with the chunks in `q`. -/
def Collecting (n : Nal) (q : List (Nal × Nat)) (l : VideoLink) : Prop :=
  q = [] ∨ ∃ e, l.videoRx.reassembler.pending.lookup n.nalId = some e ∧ e.Matches n ∧
    ¬ e.complete = true ∧ ∀ p ∈ q, (slot e.chunks p.2).isSome

/-- One chunk of a NAL that is arriving. -/
theorem Collecting.deliver {q : List (Nal × Nat)} {p : Nal × Nat} (h : Collecting p.1 q l)
    (hwell : l.WellFormed) {k : Nat} (hp : l.inFlight[k]? = some p)
    (hunmixed : l.ArrivesUnmixed (.deliver k)) :
    l.emission (.deliver k) = some (p.1.nalId, ChannelAReceiver.startCode ++ p.1.nal) ∨
      Collecting p.1 (q ++ [p]) (l.deliver k) := by
  have hi := (hwell.inFlight p (List.mem_of_getElem? hp)).2
  have hu := hunmixed p hp
  rcases hu.onDatagram hwell.counted hwell.bounded hi with hsome | ⟨-, hcomplete, hlookup⟩
  · left
    rw [VideoLink.emission, VideoLink.arrival, hp, Option.bind_some, receive,
      ChannelAReceiver.onDatagram, hsome]
    rfl
  · right
    refine .inr ⟨_, ?_, (hu.stored hwell.counted hi).1, hcomplete, ?_⟩
    · rw [VideoLink.deliver, hp]
      exact hlookup
    · intro p' hp'
      rw [NalReassembler.stored, PendingNal.slot_store_chunkParts hu.fits hi]
      rcases List.mem_append.mp hp' with hold | hnew
      · rcases h with rfl | ⟨e, he, -, -, hslots⟩
        · exact absurd hold List.not_mem_nil
        · rw [show (chunkParts p.1 p.2).1.nalId = p.1.nalId from rfl, he, Option.getD_some,
            Option.isSome_or, hslots p' hold, Bool.true_or]
      · rw [List.mem_singleton.mp hnew, if_pos rfl]
        simp

/-- Chunks of one NAL, one right after the other. -/
theorem Collecting.exec {n : Nal} : ∀ {block : List Event} {q : List (Nal × Nat)} {l : VideoLink},
    Collecting n q l → l.WellFormed → Along step ArrivesUnmixed l block → .reconnect ∉ block →
      (∀ p ∈ trace step arrival l block, p.1 = n) →
        (n.nalId, ChannelAReceiver.startCode ++ n.nal) ∈ trace step emission l block ∨
          Collecting n (q ++ trace step arrival l block) (exec step l block)
  | [], q, l, h, _, _, _, _ => .inr (by rwa [trace_nil, List.append_nil])
  | e :: block, q, l, h, hwell, halong, hsession, hall => by
      rw [trace, List.forall_mem_append] at hall
      have hrest : .reconnect ∉ block := fun hmem => hsession (List.mem_cons_of_mem _ hmem)
      -- An event that delivers nothing leaves the receiver as it is.
      have hquiet : l.arrival e = none → Collecting n q (l.step e) →
          (n.nalId, ChannelAReceiver.startCode ++ n.nal) ∈ trace step emission l (e :: block) ∨
            Collecting n (q ++ trace step arrival l (e :: block))
              (Runs.exec step l (e :: block)) := by
        intro hnone hstep
        have ih := hstep.exec (hwell.step e) halong.2 hrest hall.2
        rw [trace, trace, VideoLink.emission, hnone]
        exact ih
      cases e with
      | encode nal => exact hquiet rfl h
      | reconnect => exact absurd List.mem_cons_self hsession
      | deliver k =>
          cases hp : l.inFlight[k]? with
          | none => exact hquiet hp (by rwa [VideoLink.step, VideoLink.deliver, hp])
          | some p =>
              have harrival : l.arrival (.deliver k) = some p := hp
              rw [harrival] at hall
              obtain rfl := hall.1 p (List.mem_singleton_self p)
              rw [trace, trace, harrival]
              rcases h.deliver hwell hp halong.1 with hemits | hstep
              · rw [hemits]
                exact .inl List.mem_cons_self
              · have ih := hstep.exec (hwell.step (.deliver k)) halong.2 hrest hall.2
                refine ih.imp (List.mem_append_right _) ?_
                intro hcollecting
                rwa [Option.toList_some, ← List.append_assoc]

/-- They give NALs whose chunks have arrived. -/
theorem emitsArrived_of_unmixed {es : List Event} (h : Along step ArrivesUnmixed new es) :
    EmitsArrived es := by
  rintro past block rest rfl hsession n hne hperm
  have hblock := ((along_append _ _ _ _ _).mp ((along_append _ _ _ _ _).mp h).1).2
  have hwell := wellFormed_after past
  have hall : ∀ p ∈ trace step arrival (after past) block, p.1 = n := by
    intro p hp
    obtain ⟨i, -, rfl⟩ := List.mem_map.mp (hperm.mem_iff.mp hp)
    rfl
  have hempty : Collecting n [] (after past) := .inl rfl
  refine (hempty.exec hwell hblock hsession hall).resolve_right ?_
  have hend := exec_inv (fun _ e h => h.step e) block hwell
  -- With every chunk there, the entry would be complete.
  rintro (hnil | ⟨e, hlookup, hmatches, hcomplete, hslots⟩)
  · rw [List.nil_append] at hnil
    have hlen := hperm.length_eq
    rw [hnil, List.length_map, List.length_range] at hlen
    exact absurd hlen (chunkCount_pos hne).ne
  · refine hcomplete ((hmatches.complete_iff (hend.counted _ e hlookup) hne).mpr ?_)
    intro i hi
    refine hslots (n, i) ?_
    rw [List.nil_append, hperm.mem_iff]
    exact List.mem_map.mpr ⟨i, List.mem_range.mpr hi, rfl⟩

end

/-- In every history whose chunks arrive unmixed, the receiver shows the
session. -/
theorem showsSession_of_unmixed (es : List Event) (h : Along step ArrivesUnmixed new es) :
    ShowsSession es :=
  ⟨emitsSent_of_unmixed h, emitsArrived_of_unmixed h⟩

/-- A NAL in two chunks, out of order, in a second session. -/
theorem showsSession_of_unmixed_reordered :
    ShowsSession [.encode [9], .deliver 0, .reconnect, .encode (List.replicate 1101 7),
      .deliver 1, .deliver 0] := by
  exact showsSession_of_unmixed _ (by decide +kernel)

/-- A session ends after the first chunk of its first NAL.  The first NAL of the
next session has one chunk, and the receiver emits the old one in its place. -/
def lossThenReconnect : List Event :=
  [.encode (List.replicate 1101 7), .deliver 0, .reconnect, .encode [9], .deliver 0]

/-- After a reconnect an old chunk joins a new NAL. -/
theorem showsSession_fails_after_reconnect : ¬ ShowsSession lossThenReconnect := by
  rintro ⟨hsent, -⟩
  have hmixed := hsent (lossThenReconnect.take 4) (.deliver 0) [] rfl 0
    (ChannelAReceiver.startCode ++ List.replicate 1100 7) (by decide +kernel)
  revert hmixed
  decide +kernel

end VideoLink

end RoboTele
