import RoboTele.RobotEdge.BulkSender
import RoboTele.Runs.Machine

/-!
# What the bulk sender keeps

`done` lists the versions that made way, each with its stream.  Some are written
whole, and the others are those whose stream failed.

`line` is what became of the versions of a key: the ones done, the one being
sent and the one that waits.  It is part of what was published of the key, in
its order, and ends with the newest (`InLine`).  Publishing adds to its end
and may leave out the waiting one.  Nothing else changes it.
-/

namespace RoboTele

open Tables

/-- A header and a payload that were published. -/
abbrev Published := BulkHeader × Bytes

/-- All bytes of a stream. -/
def Published.data (p : Published) : Bytes := p.1.encode ++ p.2

/-- What was published of a key. -/
def publishedOf (published : List Published) (k : SendKey) : List Published :=
  published.filter fun p => p.1.sendKey = k

namespace BulkSender

/-- The versions that made way, with their keys. -/
abbrev Done := List (SendKey × Outgoing)

/-- A stream was opened for this version. -/
def Opened (s : BulkSender) (done : Done) (k : SendKey) (o : Outgoing) : Prop :=
  (k, o) ∈ done ∨ s.active.lookup k = some o

/-- The versions of a key that were not superseded. -/
def line (s : BulkSender) (done : Done) (k : SendKey) : List Bytes :=
  (done.filter fun p => p.1 = k).map (fun p => p.2.data) ++
    ((s.active.lookup k).map Outgoing.data).toList ++ (s.waiting.lookup k).toList

/-- The versions done whose stream failed before they were written. -/
def droppedOf (done : Done) : Done := done.filter fun p => p.2.offset ≠ p.2.data.length

/-- How the streams stand to the sender and the connection.  `finished` are the
keys that are to make way in this call. -/
structure Streams (finished : List SendKey) (done : Done) (s : BulkSender) (c : Conn) : Prop where
  wire : ∀ k o, s.Opened done k o → OnWire c o ∧ o.streamId < s.nextStreamId
  doneIds : (done.map fun p => p.2.streamId).Nodup
  activeIds : ∀ k k' o o', s.active.lookup k = some o → s.active.lookup k' = some o' →
    o.streamId = o'.streamId → k = k'
  apart : ∀ p ∈ done, ∀ k o, s.active.lookup k = some o → p.2.streamId ≠ o.streamId
  unused : ∀ id, (∀ k o, s.Opened done k o → o.streamId ≠ id) →
    c.sent id = { bytes := [], fin := false }
  begun : ∀ k o, k ∉ finished → s.active.lookup k = some o → o.offset < o.data.length
  ended : ∀ k ∈ finished, ∃ o, s.active.lookup k = some o ∧
    (o.offset = o.data.length ∨ o.streamId ∈ c.failed)
  dropped : ∀ p ∈ done, p.2.offset = p.2.data.length ∨ p.2.streamId ∈ c.failed
  waits : ∀ k, s.active.lookup k = none → s.waiting.lookup k = none

/-- The line of each key is part of what was published of it and ends with the
newest. -/
def InLine (published : List Published) (done : Done) (s : BulkSender) : Prop :=
  ∀ k, (line s done k).Sublist ((publishedOf published k).map Published.data) ∧
    (line s done k).getLast? = ((publishedOf published k).map Published.data).getLast?

/-- The versions done that were written whole. -/
def wholeOf (done : Done) : Done := done.filter fun p => p.2.offset = p.2.data.length

/-- The counts, and every version published is in one place. -/
structure Counted (published : List Published) (done : Done) (s : BulkSender) : Prop where
  published : s.stats.published = published.length
  completed : s.stats.completed = (wholeOf done).length
  places : s.stats.published = s.stats.completed + s.stats.superseded + s.active.keys.length +
    s.waiting.keys.length + (droppedOf done).length

/-- The sender's streams, the order of the versions on them, and its counters. -/
structure Sends (finished : List SendKey) (published : List Published) (done : Done)
    (s : BulkSender) (c : Conn) : Prop where
  streams : Streams finished done s c
  line : InLine published done s
  counted : Counted published done s

section

variable {finished : List SendKey} {published : List Published} {done : Done} {s : BulkSender}
  {c : Conn} {k : SendKey}

theorem nodup_append_singleton {α : Type*} {l : List α} {x : α} (hx : x ∉ l) (h : l.Nodup) :
    (l ++ [x]).Nodup := by
  rw [← List.concat_eq_append]
  exact (List.nodup_concat l x).mpr ⟨hx, h⟩

theorem Published.length_data (p : Published) : bulkHeaderLen ≤ (Published.data p).length := by
  rw [Published.data, List.length_append, BulkHeader.length_encode]
  exact Nat.le_add_right _ _

/-- What is in line was published. -/
theorem InLine.exists_published (h : InLine published done s) {d : Bytes}
    (hd : d ∈ BulkSender.line s done k) :
    ∃ p ∈ published, p.1.sendKey = k ∧ Published.data p = d := by
  obtain ⟨p, hp, rfl⟩ := List.mem_map.mp ((h k).1.subset hd)
  obtain ⟨hp, hk⟩ := List.mem_filter.mp hp
  exact ⟨p, hp, of_decide_eq_true hk, rfl⟩

theorem InLine.length_pos (h : InLine published done s) {d : Bytes}
    (hd : d ∈ BulkSender.line s done k) : 0 < d.length := by
  obtain ⟨p, -, -, rfl⟩ := h.exists_published hd
  exact lt_of_lt_of_le (by decide) (Published.length_data p)

/-- The line of a key depends on what the maps and `done` have for it. -/
theorem line_congr {s' : BulkSender} {done' : Done}
    (hdone : (done'.filter fun p => p.1 = k) = done.filter fun p => p.1 = k)
    (hactive : (s'.active.lookup k).map Outgoing.data = (s.active.lookup k).map Outgoing.data)
    (hwaiting : s'.waiting.lookup k = s.waiting.lookup k) :
    BulkSender.line s' done' k = BulkSender.line s done k := by
  rw [BulkSender.line, BulkSender.line, hdone, hactive, hwaiting]

/-- What stands in line depends on the lines only. -/
theorem InLine.congr (h : InLine published done s) {s' : BulkSender} {done' : Done}
    (hline : ∀ j, BulkSender.line s' done' j = BulkSender.line s done j) :
    InLine published done' s' := by
  intro j
  rw [hline j]
  exact h j

/-- A new version is published for its own key. -/
theorem publishedOf_concat (published : List Published) (p : Published) (k : SendKey) :
    publishedOf (published ++ [p]) k =
      publishedOf published k ++ if p.1.sendKey = k then [p] else [] := by
  rw [publishedOf, List.filter_append, publishedOf]
  by_cases hk : p.1.sendKey = k <;> simp [hk]

/-! ## Starting a version -/

/-- An object that starts is at its own key, at offset zero. -/
theorem lookup_start (s : BulkSender) (k : SendKey) (data : Bytes) (j : SendKey) :
    (s.start k data).active.lookup j =
      if j = k then some { streamId := s.nextStreamId, data := data, offset := 0 }
      else s.active.lookup j :=
  lookup_insert_ite s.active k _ j

/-- A new sender has no streams. -/
theorem streams_new : Streams [] [] new Conn.new where
  wire _ o ho := ho.elim nofun fun ho => absurd ho (Option.some_ne_none o).symm
  doneIds := .nil
  activeIds _ _ o _ ho := absurd ho (Option.some_ne_none o).symm
  apart := nofun
  unused _ _ := rfl
  begun _ o _ ho := absurd ho (Option.some_ne_none o).symm
  ended := nofun
  dropped := nofun
  waits _ _ := rfl

/-- A new sender sends nothing. -/
theorem sends_new : Sends [] [] [] new Conn.new where
  streams := streams_new
  line _ := ⟨.slnil, rfl⟩
  counted := ⟨rfl, rfl, rfl⟩

/-- A key that nothing is being sent of gets a version. -/
theorem Streams.start {data : Bytes} (h : Streams finished done s c)
    (hnone : s.active.lookup k = none) (hfinished : k ∉ finished) (hdata : 0 < data.length) :
    Streams finished done (s.start k data) c := by
  -- no stream carries the new id yet
  have hfresh : ∀ j o, s.Opened done j o → o.streamId ≠ s.nextStreamId := fun j o ho =>
    Nat.ne_of_lt (h.wire j o ho).2
  have hsent := h.unused s.nextStreamId hfresh
  refine { wire := ?wire, doneIds := h.doneIds, activeIds := ?activeIds, apart := ?apart,
           unused := ?unused, begun := ?begun, ended := ?ended, dropped := h.dropped,
           waits := ?waits }
  case wire =>
    intro j o ho
    change OnWire c o ∧ o.streamId < s.nextStreamId + 4
    rcases ho with hdone | ho
    · obtain ⟨hwire, hlt⟩ := h.wire j o (.inl hdone)
      exact ⟨hwire, by omega⟩
    · rcases lookup_insert_eq_some ho with ⟨-, rfl⟩ | ⟨-, ho⟩
      · refine ⟨⟨Nat.zero_le _, ?_⟩, Nat.lt_add_of_pos_right (by decide)⟩
        rw [hsent, List.take_zero, decide_eq_false (Nat.ne_of_lt hdata)]
      · obtain ⟨hwire, hlt⟩ := h.wire j o (.inr ho)
        exact ⟨hwire, by omega⟩
  case activeIds =>
    intro j j' o o' ho ho' heq
    rcases lookup_insert_eq_some ho with ⟨hj, rfl⟩ | ⟨-, hold⟩ <;>
      rcases lookup_insert_eq_some ho' with ⟨hj', rfl⟩ | ⟨-, hold'⟩
    · exact hj.trans hj'.symm
    · exact absurd heq.symm (hfresh j' o' (.inr hold'))
    · exact absurd heq (hfresh j o (.inr hold))
    · exact h.activeIds j j' o o' hold hold' heq
  case apart =>
    intro p hp j o ho
    rcases lookup_insert_eq_some ho with ⟨-, rfl⟩ | ⟨-, ho⟩
    · exact hfresh p.1 p.2 (.inl hp)
    · exact h.apart p hp j o ho
  case unused =>
    intro id hid
    refine h.unused id fun j o ho => ?_
    rcases ho with hdone | ho
    · exact hid j o (.inl hdone)
    · refine hid j o (.inr ?_)
      rw [lookup_start, if_neg]
      · exact ho
      · rintro rfl
        rw [hnone] at ho
        exact absurd ho.symm (Option.some_ne_none o)
  case begun =>
    intro j o hj ho
    rcases lookup_insert_eq_some ho with ⟨-, rfl⟩ | ⟨-, ho⟩
    · exact hdata
    · exact h.begun j o hj ho
  case ended =>
    intro j hj
    obtain ⟨o, ho, hover⟩ := h.ended j hj
    refine ⟨o, ?_, hover⟩
    rw [lookup_start, if_neg]
    · exact ho
    · rintro rfl
      exact hfinished hj
  case waits =>
    intro j hj
    rw [lookup_start] at hj
    split_ifs at hj
    exact h.waits j hj

theorem length_keys_start {data : Bytes} (hnone : s.active.lookup k = none) :
    (s.start k data).active.keys.length = s.active.keys.length + 1 :=
  (length_keys_insert _ _ _).trans (if_neg (AList.lookup_eq_none.mp hnone))

/-! ## Publishing -/

/-- A sender with other counts. -/
theorem Streams.congr (h : Streams finished done s c) {s' : BulkSender}
    (hactive : s'.active = s.active) (hnext : s.nextStreamId ≤ s'.nextStreamId)
    (hwaits : ∀ k, s.active.lookup k = none → s'.waiting.lookup k = none) :
    Streams finished done s' c where
  wire j o ho := by
    obtain ⟨hwire, hlt⟩ := h.wire j o (by rwa [Opened, hactive] at ho)
    exact ⟨hwire, hlt.trans_le hnext⟩
  doneIds := h.doneIds
  activeIds := by
    rw [hactive]
    exact h.activeIds
  apart := by
    rw [hactive]
    exact h.apart
  unused id hid := h.unused id fun j o ho => hid j o (by rwa [Opened, hactive])
  begun := by
    rw [hactive]
    exact h.begun
  ended := by
    rw [hactive]
    exact h.ended
  dropped := h.dropped
  waits := by
    rw [hactive]
    exact hwaits

/-- A stream id may be passed over. -/
theorem Sends.allocateStream (h : Sends finished published done s c) :
    Sends finished published done s.allocateStream c where
  streams := h.streams.congr rfl (Nat.le_add_right _ 4) h.streams.waits
  line := h.line
  counted := ⟨h.counted.published, h.counted.completed, h.counted.places⟩

/-- A version at the end of the line. -/
theorem inLine_publish {s' : BulkSender} {p : Published} {base : List Bytes}
    (h : InLine published done s) (hsub : base.Sublist (BulkSender.line s done p.1.sendKey))
    (hown : BulkSender.line s' done p.1.sendKey = base ++ [Published.data p])
    (hothers : ∀ j, j ≠ p.1.sendKey → BulkSender.line s' done j = BulkSender.line s done j) :
    InLine (published ++ [p]) done s' := by
  intro j
  rw [publishedOf_concat]
  by_cases hj : p.1.sendKey = j
  · subst hj
    rw [if_pos rfl, hown, List.map_append, List.map_singleton, List.getLast?_concat,
      List.getLast?_concat]
    exact ⟨(hsub.trans (h _).1).append (List.Sublist.refl _), rfl⟩
  · rw [if_neg hj, List.append_nil, hothers j (Ne.symm hj)]
    exact h j

/-- A published version starts, waits, or replaces the one that waits. -/
theorem Sends.publish (h : Sends [] published done s c) (header : BulkHeader) (payload : Bytes) :
    Sends [] (published ++ [(header, payload)]) done (s.publish header payload) c := by
  have hpos : 0 < (header.encode ++ payload).length :=
    lt_of_lt_of_le (by decide) (Published.length_data (header, payload))
  obtain ⟨hpublished, hcompleted, hplaces⟩ := h.counted
  have hlength : (published ++ [(header, payload)]).length = published.length + 1 :=
    List.length_append
  rw [BulkSender.publish]
  simp only
  by_cases hactive : header.sendKey ∈ s.active
  · -- the key has a version on its way, and the new one waits for it
    rw [if_pos hactive]
    obtain ⟨o, ho⟩ := mem_iff_exists_lookup.mp hactive
    refine ⟨h.streams.congr rfl le_rfl ?_, ?_, ?_⟩
    · intro j hj
      refine (AList.lookup_insert_ne ?_).trans (h.streams.waits j hj)
      rintro rfl
      rw [ho] at hj
      exact Option.some_ne_none o hj
    · refine inLine_publish (p := (header, payload)) h.line
        (List.sublist_append_left _ _) ?_ ?_
      · rw [BulkSender.line]
        congr 1
        rw [show AList.lookup header.sendKey (AList.insert header.sendKey
          (header.encode ++ payload) s.waiting) = _ from AList.lookup_insert _]
        rfl
      · intro j hj
        exact line_congr rfl rfl (AList.lookup_insert_ne hj)
    · refine ⟨?_, hcompleted, ?_⟩
      · rw [hlength, ← hpublished]
      · have hkeys := length_keys_insert s.waiting header.sendKey (header.encode ++ payload)
        simp only
        rw [hkeys]
        split_ifs <;> omega
  · -- nothing of the key is on its way
    rw [if_neg hactive]
    have hnone : s.active.lookup header.sendKey = none := AList.lookup_eq_none.mpr hactive
    have hwaiting := h.streams.waits _ hnone
    set s' : BulkSender :=
      { s with stats := { s.stats with published := s.stats.published + 1 } } with hs'
    have hnone' : s'.active.lookup header.sendKey = none := hnone
    have hstreams : Streams [] done s' c := h.streams.congr rfl le_rfl h.streams.waits
    refine ⟨hstreams.start hnone' List.not_mem_nil hpos, ?_, ?_⟩
    · refine inLine_publish (p := (header, payload)) h.line (List.Sublist.refl _) ?_ ?_
      · have hwaiting' : (s'.start header.sendKey (header.encode ++ payload)).waiting.lookup
            header.sendKey = none := hwaiting
        rw [BulkSender.line, BulkSender.line, lookup_start, if_pos rfl, hnone, hwaiting,
          hwaiting']
        simp [Published.data]
      · intro j hj
        refine line_congr rfl ?_ rfl
        rw [lookup_start, if_neg hj]
    · refine ⟨?_, hcompleted, ?_⟩
      · rw [hlength, ← hpublished]
        rfl
      · rw [length_keys_start hnone']
        change s.stats.published + 1 = s.stats.completed + s.stats.superseded +
          (s.active.keys.length + 1) + s.waiting.keys.length + (droppedOf done).length
        omega

/-! ## Writing -/

/-- The sender while a call writes. -/
def Writing.sender (w : Writing) (s : BulkSender) : BulkSender := { s with active := w.active }

/-- An object is written, and its stream is as it was for the others. -/
theorem Streams.write {o : Outgoing} {r : Write} (h : Streams finished done s c)
    (hk : k ∉ finished) (ho : s.active.lookup k = some o) (hr : Wrote c o r) :
    Streams (if r.ended then finished ++ [k] else finished) done
      { s with active := s.active.insert k r.out } r.conn := by
  -- each stream id stays where it is
  have hid : ∀ j o', (s.active.insert k r.out).lookup j = some o' →
      ∃ old, s.active.lookup j = some old ∧ old.streamId = o'.streamId := by
    intro j o' ho'
    rcases lookup_insert_eq_some ho' with ⟨rfl, rfl⟩ | ⟨-, ho'⟩
    · exact ⟨o, ho, hr.streamId.symm⟩
    · exact ⟨o', ho', rfl⟩
  have hother : ∀ o', o'.streamId ≠ o.streamId → OnWire c o' → OnWire r.conn o' := by
    intro o' hne hwire
    exact ⟨hwire.1, (hr.others _ hne).trans hwire.2⟩
  have hmem : ∀ j, j ∈ (if r.ended then finished ++ [k] else finished) ↔
      j ∈ finished ∨ (r.ended = true ∧ j = k) := by
    intro j
    split_ifs with hover <;> simp [hover]
  refine { wire := ?wire, doneIds := h.doneIds, activeIds := ?activeIds, apart := ?apart,
           unused := ?unused, begun := ?begun, ended := ?ended, dropped := ?dropped,
           waits := ?waits }
  case wire =>
    intro j o' ho'
    rcases ho' with hdone | ho'
    · obtain ⟨hwire, hlt⟩ := h.wire j o' (.inl hdone)
      exact ⟨hother o' (h.apart _ hdone k o ho) hwire, hlt⟩
    · rcases lookup_insert_eq_some ho' with ⟨rfl, rfl⟩ | ⟨hj, ho'⟩
      · exact ⟨hr.onWire, hr.streamId ▸ (h.wire j o (.inr ho)).2⟩
      · obtain ⟨hwire, hlt⟩ := h.wire j o' (.inr ho')
        exact ⟨hother o' (fun heq => hj (h.activeIds j k o' o ho' ho heq)) hwire, hlt⟩
  case activeIds =>
    intro j j' o₁ o₂ h₁ h₂ heq
    obtain ⟨old₁, hold₁, hid₁⟩ := hid j o₁ h₁
    obtain ⟨old₂, hold₂, hid₂⟩ := hid j' o₂ h₂
    exact h.activeIds j j' old₁ old₂ hold₁ hold₂ (hid₁.trans (heq.trans hid₂.symm))
  case apart =>
    intro p hp j o' ho'
    obtain ⟨old, hold, hid⟩ := hid j o' ho'
    exact hid ▸ h.apart p hp j old hold
  case unused =>
    intro id hunused
    have hne : id ≠ o.streamId := by
      have hown := hunused k r.out (.inr (AList.lookup_insert _))
      exact fun heq => hown (hr.streamId.trans heq.symm)
    rw [hr.others id hne]
    refine h.unused id fun j o' ho' => ?_
    rcases ho' with hdone | ho'
    · exact hunused j o' (.inl hdone)
    · by_cases hj : j = k
      · subst hj
        rw [ho] at ho'
        exact Option.some.inj ho' ▸ hne.symm
      · exact hunused j o' (.inr ((AList.lookup_insert_ne hj).trans ho'))
  case begun =>
    intro j o' hj ho'
    rw [hmem, not_or] at hj
    rcases lookup_insert_eq_some ho' with ⟨rfl, rfl⟩ | ⟨-, ho'⟩
    · exact hr.begun (Bool.eq_false_iff.mpr fun hover => hj.2 ⟨hover, rfl⟩)
    · exact h.begun j o' hj.1 ho'
  case ended =>
    intro j hj
    rcases (hmem j).mp hj with hj | ⟨hover, rfl⟩
    · obtain ⟨o', ho', hwhole⟩ := h.ended j hj
      have hne : j ≠ k := fun heq => hk (heq ▸ hj)
      exact ⟨o', (AList.lookup_insert_ne hne).trans ho', hwhole.imp_right (hr.failed _)⟩
    · exact ⟨r.out, AList.lookup_insert _, hr.ended hover⟩
  case dropped =>
    intro p hp
    exact (h.dropped p hp).imp_right (hr.failed _)
  case waits =>
    intro j hj
    by_cases hjk : j = k
    · subst hjk
      exact absurd ((AList.lookup_insert _).symm.trans hj) (Option.some_ne_none _)
    · exact h.waits j ((AList.lookup_insert_ne hjk).symm.trans hj)

/-- The turn of one key keeps the account. -/
theorem Sends.writeKey {w : Writing} (h : Sends w.finished published done (w.sender s) w.conn)
    (hk : k ∉ w.finished) :
    Sends (BulkSender.writeKey w k).finished published done ((BulkSender.writeKey w k).sender s)
      (BulkSender.writeKey w k).conn := by
  rw [BulkSender.writeKey]
  cases ho : w.active.lookup k with
  | none => exact h
  | some o =>
      set r := writeObject w.conn w.left o w.answers
      have hr : Wrote w.conn o r :=
        writeObject_wrote w.answers (h.streams.wire k o (.inr ho)).1 (h.streams.begun k o hk ho)
      refine ⟨h.streams.write hk ho hr, ?_, ?_⟩
      · refine h.line.congr fun j => line_congr rfl ?_ rfl
        change ((w.active.insert k r.out).lookup j).map Outgoing.data =
          (w.active.lookup j).map Outgoing.data
        by_cases hj : j = k
        · subst hj
          rw [AList.lookup_insert, ho, Option.map_some, Option.map_some, hr.data]
        · rw [AList.lookup_insert_ne hj]
      · have hkeys := length_keys_insert w.active k r.out
        rw [if_pos (mem_iff_exists_lookup.mpr ⟨o, ho⟩)] at hkeys
        refine ⟨h.counted.published, h.counted.completed, ?_⟩
        change s.stats.published = s.stats.completed + s.stats.superseded +
          (w.active.insert k r.out).keys.length + s.waiting.keys.length + (droppedOf done).length
        rw [hkeys]
        exact h.counted.places

/-- The keys that make way are some of those written. -/
theorem mem_finished_writeKey {w : Writing} {j : SendKey}
    (hj : j ∈ (BulkSender.writeKey w k).finished) : j ∈ w.finished ∨ j = k := by
  rw [BulkSender.writeKey] at hj
  cases ho : w.active.lookup k with
  | none =>
      rw [ho] at hj
      exact .inl hj
  | some o =>
      rw [ho] at hj
      simp only at hj
      split_ifs at hj
      · exact (List.mem_append.mp hj).imp_right List.mem_singleton.mp
      · exact .inl hj

theorem nodup_finished_writeKey {w : Writing} (h : w.finished.Nodup) (hk : k ∉ w.finished) :
    (BulkSender.writeKey w k).finished.Nodup := by
  rw [BulkSender.writeKey]
  cases w.active.lookup k with
  | none => exact h
  | some o =>
      simp only
      split_ifs
      · exact nodup_append_singleton hk h
      · exact h

/-- It only adds to the connection's streams. -/
theorem Sends.grows_writeKey {w : Writing}
    (h : Sends w.finished published done (w.sender s) w.conn) (hk : k ∉ w.finished) :
    Grows w.conn (BulkSender.writeKey w k).conn := by
  rw [BulkSender.writeKey]
  cases ho : w.active.lookup k with
  | none => exact .refl w.conn
  | some o =>
      exact (writeObject_wrote w.answers (h.streams.wire k o (.inr ho)).1
        (h.streams.begun k o hk ho)).grows

/-- So do the turns of all keys. -/
theorem Sends.writeKeys :
    ∀ {ks : List SendKey} {w : Writing}, ks.Nodup → (∀ k ∈ ks, k ∉ w.finished) →
      w.finished.Nodup → Sends w.finished published done (w.sender s) w.conn →
      (ks.foldl BulkSender.writeKey w).finished.Nodup ∧
        Grows w.conn (ks.foldl BulkSender.writeKey w).conn ∧
        Sends (ks.foldl BulkSender.writeKey w).finished published done
          ((ks.foldl BulkSender.writeKey w).sender s) (ks.foldl BulkSender.writeKey w).conn
  | [], w, _, _, hfinished, h => ⟨hfinished, .refl w.conn, h⟩
  | k :: ks, w, hnodup, hapart, hfinished, h => by
      obtain ⟨hk, hnodup⟩ := List.nodup_cons.mp hnodup
      have hkw := hapart k List.mem_cons_self
      have hrest : ∀ j ∈ ks, j ∉ (BulkSender.writeKey w k).finished := by
        intro j hj hmem
        rcases mem_finished_writeKey hmem with hmem | rfl
        · exact hapart j (List.mem_cons_of_mem k hj) hmem
        · exact hk hj
      rw [List.foldl_cons]
      obtain ⟨hfinished, hgrows, hsends⟩ := Sends.writeKeys hnodup hrest
        (nodup_finished_writeKey hfinished hkw) (h.writeKey hkw)
      exact ⟨hfinished, (h.grows_writeKey hkw).trans hgrows, hsends⟩

/-! ## Making way -/

/-- The version of a key goes, and the one that waits is not started yet. -/
def remove (s : BulkSender) (k : SendKey) : BulkSender :=
  { s with active := s.active.erase k, waiting := s.waiting.erase k }

/-- A finished object leaves its key. -/
theorem Streams.remove {o : Outgoing} (h : Streams (k :: finished) done s c)
    (hk : k ∉ finished) (ho : s.active.lookup k = some o) :
    Streams finished (done ++ [(k, o)]) (s.remove k) c := by
  have hold : ∀ j o', (s.remove k).Opened (done ++ [(k, o)]) j o' → s.Opened done j o' := by
    intro j o' ho'
    rcases ho' with hdone | ho'
    · rcases List.mem_append.mp hdone with hdone | hlast
      · exact .inl hdone
      · obtain ⟨rfl, rfl⟩ := Prod.mk.inj (List.mem_singleton.mp hlast)
        exact .inr ho
    · exact .inr (lookup_erase_eq_some ho').2
  refine { wire := fun j o' ho' => h.wire j o' (hold j o' ho'), doneIds := ?doneIds,
           activeIds := ?activeIds, apart := ?apart, unused := ?unused, begun := ?begun,
           ended := ?ended, dropped := ?dropped, waits := ?waits }
  case doneIds =>
    rw [List.map_append, List.map_singleton]
    refine nodup_append_singleton ?_ h.doneIds
    intro hmem
    obtain ⟨p, hp, heq⟩ := List.mem_map.mp hmem
    exact h.apart p hp k o ho heq
  case activeIds =>
    intro j j' o₁ o₂ h₁ h₂
    exact h.activeIds j j' o₁ o₂ (lookup_erase_eq_some h₁).2 (lookup_erase_eq_some h₂).2
  case apart =>
    intro p hp j o' ho'
    obtain ⟨hj, ho'⟩ := lookup_erase_eq_some ho'
    rcases List.mem_append.mp hp with hp | hlast
    · exact h.apart p hp j o' ho'
    · rw [List.mem_singleton.mp hlast]
      exact fun heq => hj (h.activeIds k j o o' ho ho' heq).symm
  case unused =>
    intro id hid
    refine h.unused id fun j o' ho' => ?_
    rcases ho' with hdone | ho'
    · exact hid j o' (.inl (List.mem_append_left _ hdone))
    · by_cases hj : j = k
      · subst hj
        obtain rfl := Option.some.inj (ho.symm.trans ho')
        exact hid j o (.inl List.mem_concat_self)
      · exact hid j o' (.inr ((AList.lookup_erase_ne hj).trans ho'))
  case begun =>
    intro j o' hj ho'
    obtain ⟨hne, ho'⟩ := lookup_erase_eq_some ho'
    exact h.begun j o' (List.not_mem_cons_of_ne_of_not_mem hne hj) ho'
  case ended =>
    intro j hj
    obtain ⟨o', ho', hover⟩ := h.ended j (List.mem_cons_of_mem k hj)
    have hne : j ≠ k := by
      rintro rfl
      exact hk hj
    exact ⟨o', (AList.lookup_erase_ne hne).trans ho', hover⟩
  case dropped =>
    intro p hp
    rcases List.mem_append.mp hp with hp | hlast
    · exact h.dropped p hp
    · rw [List.mem_singleton.mp hlast]
      obtain ⟨o', ho', hover⟩ := h.ended k List.mem_cons_self
      exact Option.some.inj (ho'.symm.trans ho) ▸ hover
  case waits =>
    intro j hj
    by_cases hne : j = k
    · subst hne
      exact AList.lookup_erase j s.waiting
    · exact (AList.lookup_erase_ne hne).trans
        (h.waits j ((AList.lookup_erase_ne hne).symm.trans hj))

/-- The line stays as it is when the version that waits takes the place of the
one being sent. -/
theorem line_finish {s' : BulkSender} {o : Outgoing} (ho : s.active.lookup k = some o)
    (hactive : (s'.active.lookup k).map Outgoing.data = s.waiting.lookup k)
    (hwaiting : s'.waiting.lookup k = none)
    (hothers : ∀ j, j ≠ k →
      s'.active.lookup j = s.active.lookup j ∧ s'.waiting.lookup j = s.waiting.lookup j)
    (j : SendKey) : BulkSender.line s' (done ++ [(k, o)]) j = BulkSender.line s done j := by
  by_cases hj : j = k
  · subst hj
    rw [BulkSender.line, BulkSender.line, List.filter_append, hactive, hwaiting, ho]
    simp
  · obtain ⟨hactive, hwaiting⟩ := hothers j hj
    refine line_congr ?_ (by rw [hactive]) hwaiting
    rw [List.filter_append]
    simp [Ne.symm hj]

/-- The counts after a version made way. -/
def countsAfter (s : BulkSender) (o : Outgoing) : BulkSendStats :=
  if o.offset = o.data.length then { s.stats with completed := s.stats.completed + 1 }
  else s.stats

/-- A finished object counts as whole when its last byte was taken. -/
theorem length_wholeOf_concat (done : Done) (k : SendKey) (o : Outgoing) :
    (wholeOf (done ++ [(k, o)])).length =
      (wholeOf done).length + if o.offset = o.data.length then 1 else 0 := by
  rw [wholeOf, wholeOf, List.filter_append, List.length_append]
  by_cases hwhole : o.offset = o.data.length <;> simp [hwhole]

/-- Otherwise it counts as dropped. -/
theorem length_droppedOf_concat (done : Done) (k : SendKey) (o : Outgoing) :
    (droppedOf (done ++ [(k, o)])).length =
      (droppedOf done).length + if o.offset = o.data.length then 0 else 1 := by
  rw [droppedOf, droppedOf, List.filter_append, List.length_append]
  by_cases hwhole : o.offset = o.data.length <;> simp [hwhole]

/-- A version that makes way is counted as written or as dropped. -/
theorem Counted.countsAfter (h : Counted published done s) (o : Outgoing) {s' : BulkSender}
    (hstats : s'.stats = s.countsAfter o)
    (hkeys : s'.active.keys.length + s'.waiting.keys.length + 1 =
      s.active.keys.length + s.waiting.keys.length) :
    Counted published (done ++ [(k, o)]) s' := by
  obtain ⟨hpublished, hcompleted, hplaces⟩ := h
  refine ⟨?_, ?_, ?_⟩ <;> rw [hstats, BulkSender.countsAfter]
  · split_ifs <;> exact hpublished
  · rw [length_wholeOf_concat]
    split_ifs
    · exact congrArg (· + 1) hcompleted
    · exact hcompleted
  · rw [length_droppedOf_concat]
    split_ifs
    · simp only
      omega
    · omega

/-- An object that is finished is counted, and the one that waits takes its place. -/
theorem finish_eq_promote {o : Outgoing} (ho : s.active.lookup k = some o) :
    s.finish k =
      ({ s with active := s.active.erase k, stats := s.countsAfter o } : BulkSender).promote k := by
  rw [BulkSender.finish, ho, countsAfter]
  simp only
  by_cases hwhole : o.offset = o.data.length
  · rw [if_pos hwhole, if_pos hwhole]
  · rw [if_neg hwhole, if_neg hwhole]

/-- A version makes way, and the one that waits is started. -/
theorem Sends.finish {o : Outgoing} (h : Sends (k :: finished) published done s c)
    (hk : k ∉ finished) (ho : s.active.lookup k = some o) :
    Sends finished published (done ++ [(k, o)]) (s.finish k) c := by
  obtain ⟨hstreams, hline, hcounted⟩ := h
  have hremoved := hstreams.remove hk ho
  have hactive := length_keys_erase (mem_iff_exists_lookup.mpr ⟨o, ho⟩)
  rw [finish_eq_promote ho, BulkSender.promote]
  cases hw : s.waiting.lookup k with
  | none =>
      simp only
      refine ⟨hremoved.congr rfl le_rfl ?_, ?_, ?_⟩
      · intro j hj
        by_cases hne : j = k
        · exact hne ▸ hw
        · exact (AList.lookup_erase_ne hne).symm.trans (hremoved.waits j hj)
      · refine hline.congr (line_finish ho ?_ hw ?_)
        · rw [hw, AList.lookup_erase, Option.map_none]
        · intro j hj
          exact ⟨AList.lookup_erase_ne hj, rfl⟩
      · refine hcounted.countsAfter o rfl ?_
        simp only
        omega
  | some next =>
      have hpos : 0 < next.length := by
        refine hline.length_pos (k := k) (List.mem_append_right _ ?_)
        rw [hw]
        exact List.mem_singleton_self next
      have hwaiting := length_keys_erase (mem_iff_exists_lookup.mpr ⟨next, hw⟩)
      set s' : BulkSender := { s.remove k with stats := s.countsAfter o } with hs'
      have hnone : s'.active.lookup k = none := AList.lookup_erase k s.active
      have hstreams' : Streams finished (done ++ [(k, o)]) s' c :=
        hremoved.congr rfl le_rfl hremoved.waits
      change Sends finished published (done ++ [(k, o)]) (s'.start k next) c
      refine ⟨hstreams'.start hnone hk hpos, ?_, ?_⟩
      · refine hline.congr (line_finish ho ?_ ?_ ?_)
        · rw [lookup_start, if_pos rfl, hw, Option.map_some]
        · exact AList.lookup_erase k s.waiting
        · intro j hj
          rw [lookup_start, if_neg hj]
          exact ⟨AList.lookup_erase_ne hj, AList.lookup_erase_ne hj⟩
      · refine hcounted.countsAfter o rfl ?_
        rw [length_keys_start hnone]
        change (s.active.erase k).keys.length + 1 + (s.waiting.erase k).keys.length + 1 = _
        omega

theorem lookup_promote {j : SendKey} (hj : j ≠ k) :
    (s.promote k).active.lookup j = s.active.lookup j := by
  rw [BulkSender.promote]
  cases s.waiting.lookup k with
  | none => rfl
  | some next => exact (lookup_start _ _ _ _).trans (if_neg hj)

/-- The other keys are left alone. -/
theorem lookup_finish {j : SendKey} (hj : j ≠ k) :
    (s.finish k).active.lookup j = s.active.lookup j := by
  rw [BulkSender.finish]
  cases s.active.lookup k with
  | none => exact lookup_promote hj
  | some o =>
      simp only
      split_ifs
      · exact (lookup_promote hj).trans (AList.lookup_erase_ne hj)
      · exact (lookup_promote hj).trans (AList.lookup_erase_ne hj)

/-- The versions being sent of these keys. -/
def sendingOf (s : BulkSender) (ks : List SendKey) : Done :=
  ks.filterMap fun k => (s.active.lookup k).map (k, ·)

/-- All finished objects leave, each counted once. -/
theorem Sends.finishAll :
    ∀ {ks : List SendKey} {done : Done} {s : BulkSender}, ks.Nodup → Sends ks published done s c →
      Sends [] published (done ++ s.sendingOf ks) (ks.foldl BulkSender.finish s) c
  | [], _, _, _, h => by
      rw [sendingOf, List.filterMap_nil, List.append_nil]
      exact h
  | k :: ks, done, s, hnodup, h => by
      obtain ⟨hk, hnodup⟩ := List.nodup_cons.mp hnodup
      obtain ⟨o, ho, -⟩ := h.streams.ended k List.mem_cons_self
      have hrest : (s.finish k).sendingOf ks = s.sendingOf ks := by
        refine List.filterMap_congr fun j hj => ?_
        rw [lookup_finish]
        rintro rfl
        exact hk hj
      have hsending : s.sendingOf (k :: ks) = [(k, o)] ++ s.sendingOf ks := by
        rw [sendingOf, List.filterMap_cons, ho]
        rfl
      have ih := Sends.finishAll hnodup (h.finish hk ho)
      rwa [hrest, List.append_assoc, ← hsending] at ih

/-- The versions that make way in a call. -/
def leaving (s : BulkSender) (c : Conn) (budget : Option Nat) (answers : List Answer) : Done :=
  ((s.writeAll c budget answers).sender s).sendingOf (s.writeAll c budget answers).finished

/-- A pump keeps the account, and only adds to the connection's streams. -/
theorem Sends.pump (h : Sends [] published done s c) (budget : Option Nat)
    (answers : List Answer) :
    Grows c (s.pump c budget answers).2.1 ∧
      Sends [] published (done ++ s.leaving c budget answers) (s.pump c budget answers).1
        (s.pump c budget answers).2.1 := by
  obtain ⟨hnodup, hgrows, hsends⟩ := Sends.writeKeys (nodup_ascending s.active)
    (w := { active := s.active, conn := c, left := budget.getD usizeMax, finished := []
            answers := answers })
    (fun _ _ => List.not_mem_nil) .nil h
  exact ⟨hgrows, hsends.finishAll hnodup⟩

end

end BulkSender

end RoboTele
