import RoboTele.Core.BulkRuns
import Mathlib.Data.Finset.Card
import Mathlib.Data.Finset.Dedup

/-!
# What the receiver keeps of a stream

The receiver keeps a stream while it is open, and remembers a dropped one until
its end, so that nothing of a stream is left once it is over (`Bounded`).

A call that brings the end and at the same time drops the stream breaks this: the
stream is remembered and its end does not come again.  `memoryBounded_iff` says
that nothing else does.
-/

namespace RoboTele

open Runs Tables

namespace BulkReceiver

variable {r : BulkReceiver} {id k : Nat}

/-- Something is kept of the stream. -/
def Kept (r : BulkReceiver) (k : Nat) : Prop := k ∈ r.streams ∨ k ∈ r.dropped

/-- No stream is open and dropped. -/
def Apart (r : BulkReceiver) : Prop := ∀ k ∈ r.streams, k ∉ r.dropped

/-- With this data the stream has a good header of no older version, or none yet, and
no more bytes than it declares. -/
def Orderly (r : BulkReceiver) (id : Nat) (data : Bytes) : Prop :=
  let p := r.entry id
  let bytes := p.bytes ++ data
  if p.header = none ∧ bulkHeaderLen ≤ bytes.length then
    ∃ h, BulkHeader.decode bytes = .ok h ∧ ¬ r.IsOld h ∧
      (bytes.drop bulkHeaderLen).length ≤ h.length.toNat
  else ∀ h ∈ p.header, bytes.length ≤ h.length.toNat

/-- A stream that ends is orderly up to its end, or was dropped before. -/
def EndsOrderly (r : BulkReceiver) : Event → Prop
  | .data id data true => id ∈ r.dropped ∨ r.Orderly id data
  | _ => True

/-- The stream's last event is its end or a reset. -/
def Closed (es : List Event) (k : Nat) : Prop :=
  Past.Since (fun _ e => e.Ends k) (fun e => e.dataId = some k) es

instance (es : List Event) (k : Nat) : Decidable (Closed es k) :=
  inferInstanceAs (Decidable (Past.Since _ _ es))

/-- The streams that data came in for and that are not over. -/
def openIds (es : List Event) : Finset Nat :=
  (es.filterMap Event.dataId).toFinset.filter fun k => ¬ Closed es k

/-- Nothing is kept of a stream that is over, so there are no more entries than open
streams, and one version for each key. -/
structure Bounded (es : List Event) : Prop where
  closed : ∀ k, Closed es k → k ∉ (after es).streams ∧ k ∉ (after es).dropped
  entries : (after es).streams.keys.length + (after es).dropped.card ≤ (openIds es).card
  versions : (after es).latest.keys.Nodup

/-- Memory is bounded in every state of the run. -/
def MemoryBounded (es : List Event) : Prop := ∀ past later, es = past ++ later → Bounded past

/-! ## Streams that are dropped -/

/-- A dropped stream stays kept, as an id. -/
theorem kept_dropStream (j : Nat) : (r.dropStream j).Kept k ↔ r.Kept k := by
  rw [dropStream]
  split_ifs with hj
  · rw [Kept, AList.mem_erase, Finset.mem_insert, Kept]
    by_cases hk : k = j
    · subst hk
      exact iff_of_true (.inr (.inl rfl)) (.inl hj)
    · rw [and_iff_right hk, or_iff_right hk]
  · rfl

/-- It is not open at the same time. -/
theorem Apart.dropStream (h : r.Apart) (j : Nat) : (r.dropStream j).Apart := by
  rw [BulkReceiver.dropStream]
  split_ifs with hj
  · intro k hk hdropped
    obtain ⟨hne, hmem⟩ := AList.mem_erase.mp hk
    exact h k hmem ((Finset.mem_insert.mp hdropped).resolve_left hne)
  · exact h

/-- So it is with all the streams that a newer version replaces. -/
theorem kept_foldl_supersede (ks : List Nat) :
    ∀ r : BulkReceiver, (ks.foldl supersede r).Kept k ↔ r.Kept k := by
  induction ks with
  | nil => exact fun r => Iff.rfl
  | cons j ks ih => exact fun r => (ih (r.supersede j)).trans (kept_dropStream j)

theorem Apart.foldl_supersede (ks : List Nat) :
    ∀ {r : BulkReceiver}, r.Apart → (ks.foldl supersede r).Apart := by
  induction ks with
  | nil => exact id
  | cons j ks ih => exact fun h => ih (h.dropStream j)

/-- A stream that is not named stays as it is. -/
theorem stays_foldl_supersede (ks : List Nat) :
    ∀ {r : BulkReceiver}, k ∉ ks →
      (ks.foldl supersede r).streams.lookup k = r.streams.lookup k ∧
        (k ∈ (ks.foldl supersede r).dropped ↔ k ∈ r.dropped) := by
  induction ks with
  | nil => exact fun _ => ⟨rfl, Iff.rfl⟩
  | cons j ks ih =>
      intro r hk
      obtain ⟨hne, hk⟩ := not_or.mp (mt List.mem_cons.mpr hk)
      obtain ⟨hlookup, hdropped⟩ := ih (r := r.supersede j) hk
      rw [List.foldl_cons, hlookup, hdropped]
      change (r.dropStream j).streams.lookup k = _ ∧ (k ∈ (r.dropStream j).dropped ↔ _)
      rw [dropStream]
      split_ifs
      · exact ⟨AList.lookup_erase_ne hne, (Finset.mem_insert).trans (or_iff_right hne)⟩
      · exact ⟨rfl, Iff.rfl⟩

/-! ## Headers -/

/-- A version is below its key's newest exactly when it is old. -/
theorem lt_newest_iff {h : BulkHeader} : h.version < r.newest h ↔ r.IsOld h := by
  rw [newest, IsOld]
  cases hv : r.latest.lookup h.key with
  | none => simp
  | some v => simp

/-- A header forgets no stream. -/
theorem kept_onHeader (id : Nat) (h : BulkHeader) : (r.onHeader id h).Kept k ↔ r.Kept k := by
  rw [onHeader]
  split_ifs
  · exact (kept_dropStream id).trans (kept_foldl_supersede _ _)
  · exact kept_foldl_supersede _ _

theorem Apart.onHeader (h : r.Apart) (id : Nat) (header : BulkHeader) :
    (r.onHeader id header).Apart := by
  have hfold := Apart.foldl_supersede
    (stale { r with latest := r.latest.insert header.key (r.newest header) } id header)
    (r := { r with latest := r.latest.insert header.key (r.newest header) }) h
  rw [BulkReceiver.onHeader]
  split_ifs
  · exact hfold.dropStream id
  · exact hfold

/-- The header of no older version leaves its stream as it is. -/
theorem stays_onHeader (id : Nat) {h : BulkHeader} (hold : ¬ r.IsOld h) :
    (r.onHeader id h).streams.lookup id = r.streams.lookup id ∧
      (id ∈ (r.onHeader id h).dropped ↔ id ∈ r.dropped) := by
  rw [onHeader]
  rw [if_neg (mt lt_newest_iff.mp hold)]
  exact stays_foldl_supersede _ fun hmem => (mem_of_mem_stale hmem).1 rfl

/-- The header of an older version drops its stream. -/
theorem lookup_onHeader_of_isOld {h : BulkHeader} (hold : r.IsOld h) :
    (r.onHeader id h).streams.lookup id = none := by
  rw [onHeader]
  rw [if_pos (lt_newest_iff.mpr hold), AList.lookup_eq_none]
  exact fun hmem => ((streams_dropStream _ id id).mp hmem).1 rfl

/-! ## One call -/

/-- A stream that is put is kept. -/
theorem kept_put (p : Partial) : (r.put id p).Kept k ↔ k = id ∨ r.Kept k := by
  rw [Kept, mem_put, Kept, or_assoc]
  rfl

/-- A stream that is not dropped may be opened. -/
theorem Apart.put (h : r.Apart) (hid : id ∉ r.dropped) (p : Partial) : (r.put id p).Apart := by
  intro k hk
  rcases mem_put.mp hk with rfl | hk
  · exact hid
  · exact h k hk

/-- A stream that closes is forgotten. -/
theorem close_fst (id : Nat) (p : Partial) : ∃ stats,
    (r.close id p).1 = { r with streams := r.streams.erase id, stats := stats } := by
  rw [close]
  cases p.header with
  | none => exact ⟨_, rfl⟩
  | some h =>
      dsimp only
      split_ifs <;> exact ⟨_, rfl⟩

/-- The others are not. -/
theorem kept_close_of_ne (hk : k ≠ id) (p : Partial) : (r.close id p).1.Kept k ↔ r.Kept k := by
  obtain ⟨stats, hclose⟩ := r.close_fst id p
  rw [hclose, Kept, AList.mem_erase, and_iff_right hk]
  rfl

theorem Apart.close (h : r.Apart) (id : Nat) (p : Partial) : (r.close id p).1.Apart := by
  obtain ⟨stats, hclose⟩ := r.close_fst id p
  rw [hclose]
  exact fun k hk => h k (AList.mem_erase.mp hk).2

/-- A read of one stream forgets no other. -/
theorem kept_settle_of_ne (hk : k ≠ id) (fin : Bool) : (r.settle id fin).1.Kept k ↔ r.Kept k := by
  rw [settle]
  cases r.streams.lookup id with
  | none => rfl
  | some p =>
      dsimp only
      split_ifs
      · exact kept_dropStream id
      · exact kept_close_of_ne hk p
      · rfl

theorem Apart.settle (h : r.Apart) (id : Nat) (fin : Bool) : (r.settle id fin).1.Apart := by
  rw [BulkReceiver.settle]
  cases r.streams.lookup id with
  | none => exact h
  | some p =>
      dsimp only
      split_ifs
      · exact h.dropStream id
      · exact h.close id p
      · exact h

/-- The end of a stream leaves nothing of it unless the call drops it. -/
theorem not_kept_settle_iff {p : Partial} (hp : r.streams.lookup id = some p)
    (hid : id ∉ r.dropped) :
    ¬ (r.settle id true).1.Kept id ↔ ∀ h ∈ p.header, p.bytes.length ≤ h.length.toNat := by
  rw [settle, hp]
  simp only [if_true]
  split_ifs with hlong
  · refine iff_of_false (not_not_intro ?_) fun hfits => ?_
    · exact (kept_dropStream id).mpr (.inl (mem_iff_exists_lookup.mpr ⟨p, hp⟩))
    · obtain ⟨h, hh, hlt⟩ := hlong
      exact absurd (hfits h hh) (Nat.not_le.mpr hlt)
  · refine iff_of_true ?_ fun h hh => Nat.not_lt.mp fun hlt => hlong ⟨h, hh, hlt⟩
    obtain ⟨stats, hclose⟩ := r.close_fst id p
    rw [hclose, Kept, AList.mem_erase]
    exact not_or.mpr ⟨fun hmem => hmem.1 rfl, hid⟩

/-- Data of one stream forgets no other. -/
theorem kept_onData_of_ne (hk : k ≠ id) (data : Bytes) (fin : Bool) :
    (r.onData id data fin).1.Kept k ↔ r.Kept k := by
  have hput (r : BulkReceiver) (p : Partial) : (r.put id p).Kept k ↔ r.Kept k :=
    (kept_put p).trans (or_iff_right hk)
  rw [onData]
  dsimp only
  split_ifs
  · rw [Kept, Finset.mem_erase, and_iff_right hk]
    rfl
  · rfl
  · split
    · exact (kept_dropStream id).trans (hput r _)
    · refine (kept_settle_of_ne hk fin).trans ((kept_onHeader id _).trans ?_)
      exact (hput _ _).trans (hput r _)
  · exact (kept_settle_of_ne hk fin).trans (hput r _)

theorem Apart.onData (h : r.Apart) (id : Nat) (data : Bytes) (fin : Bool) :
    (r.onData id data fin).1.Apart := by
  rw [BulkReceiver.onData]
  dsimp only
  split_ifs with hid
  · exact fun k hk hdropped => h k hk (Finset.mem_of_mem_erase hdropped)
  · exact h
  · have hput (p : Partial) : (r.put id p).Apart := h.put hid p
    split
    · exact (hput _).dropStream id
    · exact (((hput _).put hid _).onHeader id _).settle id fin
  · exact (h.put hid _).settle id fin

/-- The end of a stream leaves nothing of it exactly if it was orderly up to there. -/
theorem not_kept_onData_iff (h : r.Apart) (data : Bytes) :
    ¬ (r.onData id data true).1.Kept id ↔ id ∈ r.dropped ∨ r.Orderly id data := by
  rw [onData]
  by_cases hid : id ∈ r.dropped
  · rw [if_pos hid]
    refine iff_of_true ?_ (.inl hid)
    exact not_or.mpr ⟨fun hmem => h id hmem hid, Finset.notMem_erase id _⟩
  rw [if_neg hid, or_iff_right hid, Orderly]
  dsimp only
  have hkept (r : BulkReceiver) (p : Partial) : (r.put id p).Kept id :=
    (kept_put p).mpr (.inl rfl)
  split_ifs with hheader
  · cases hdecode : BulkHeader.decode ((r.entry id).bytes ++ data) with
    | error e =>
        refine iff_of_false (not_not_intro ((kept_dropStream id).mpr (hkept r _))) ?_
        rintro ⟨header, hok, -⟩
        cases hok
    | ok header =>
        dsimp only
        generalize hput : (r.put id _).put id _ = r'
        have hlatest : r'.latest = r.latest := by rw [← hput]; rfl
        have hlookup : r'.streams.lookup id = some
            { header := some header
              bytes := ((r.entry id).bytes ++ data).drop bulkHeaderLen } := by
          rw [← hput, lookup_put, if_pos rfl]
        have hdropped : r'.dropped = r.dropped := by rw [← hput]; rfl
        have hisOld : r'.IsOld header ↔ r.IsOld header := by rw [IsOld, hlatest, IsOld]
        by_cases hold : r'.IsOld header
        · have hsettle : ((r'.onHeader id header).settle id true).1 = r'.onHeader id header := by
            rw [settle, lookup_onHeader_of_isOld hold]
          rw [hsettle]
          refine iff_of_false (not_not_intro ((kept_onHeader id header).mpr ?_)) ?_
          · exact .inl (mem_iff_exists_lookup.mpr ⟨_, hlookup⟩)
          · rintro ⟨header', hok, hnew, -⟩
            obtain rfl := Except.ok.inj hok
            exact hnew (hisOld.mp hold)
        · obtain ⟨hstays, hdrop⟩ := stays_onHeader id hold
          rw [not_kept_settle_iff (hstays.trans hlookup)
            (mt hdrop.mp (hdropped ▸ hid))]
          constructor
          · intro hfits
            exact ⟨header, rfl, mt hisOld.mpr hold, hfits header rfl⟩
          · rintro ⟨header', hok, -, hfits⟩ header'' hsome
            obtain rfl := Except.ok.inj hok
            obtain rfl := Option.some.inj hsome
            exact hfits
  · exact not_kept_settle_iff ((lookup_put r id _ id).trans (if_pos rfl)) hid

/-- A reset forgets its stream. -/
theorem not_kept_onReset (r : BulkReceiver) (id : Nat) : ¬ (r.onReset id).Kept id := by
  rw [onReset]
  dsimp only
  split_ifs with hid
  · exact not_or.mpr ⟨fun hmem => (AList.mem_erase.mp hmem).1 rfl, Finset.notMem_erase id _⟩
  · exact not_or.mpr ⟨hid, Finset.notMem_erase id _⟩

/-- It forgets no other. -/
theorem kept_onReset_of_ne (hk : k ≠ id) : (r.onReset id).Kept k ↔ r.Kept k := by
  rw [onReset]
  dsimp only
  split_ifs with hid
  · change k ∈ r.streams.erase id ∨ k ∈ r.dropped.erase id ↔ r.Kept k
    rw [AList.mem_erase, Finset.mem_erase, and_iff_right hk, and_iff_right hk, Kept]
  · rw [Kept, Finset.mem_erase, and_iff_right hk, Kept]

theorem Apart.onReset (h : r.Apart) (id : Nat) : (r.onReset id).Apart := by
  rw [BulkReceiver.onReset]
  dsimp only
  split_ifs with hid
  · intro k hk hdropped
    exact h k (AList.mem_erase.mp hk).2 (Finset.mem_of_mem_erase hdropped)
  · exact fun k hk hdropped => h k hk (Finset.mem_of_mem_erase hdropped)

/-! ## Runs -/

variable {es : List Event} {e : Event}

/-- Every event keeps open and dropped streams apart. -/
theorem Apart.next (h : r.Apart) (e : Event) : (r.next e).Apart := by
  cases e with
  | data id data fin => exact h.onData id data fin
  | reset id => exact h.onReset id

/-- So does every run. -/
theorem apart_after (es : List Event) : (after es).Apart :=
  exec_inv (I := Apart) (fun _ e h => h.next e) es fun _ hk => absurd hk (AList.notMem_empty _)

/-- An event of another stream. -/
theorem kept_next_of_ne (hdata : e.dataId ≠ some k) (hends : ¬ e.Ends k) :
    (r.next e).Kept k ↔ r.Kept k := by
  cases e with
  | data id data fin => exact kept_onData_of_ne (fun hk => hdata (congrArg some hk.symm)) data fin
  | reset id => exact kept_onReset_of_ne fun hk => hends hk.symm

/-- The event that ends a stream leaves nothing of it exactly if it is orderly. -/
theorem not_kept_next_iff (h : r.Apart) (hends : e.Ends k) :
    ¬ (r.next e).Kept k ↔ r.EndsOrderly e := by
  cases e with
  | data id data fin =>
      obtain ⟨rfl, rfl⟩ := hends
      exact not_kept_onData_iff h data
  | reset id =>
      subst hends
      exact iff_of_true (not_kept_onReset r id) trivial

/-- An event that ends no stream is orderly. -/
theorem endsOrderly_of_not_ends (hends : ∀ k, ¬ e.Ends k) : r.EndsOrderly e := by
  cases e with
  | data id data fin =>
      cases fin with
      | false => trivial
      | true => exact absurd ⟨rfl, rfl⟩ (hends id)
  | reset id => exact absurd rfl (hends id)

/-- A kept stream has started. -/
theorem started_of_kept (h : (after es).Kept k) : Started es k := by
  induction es using List.reverseRecOn with
  | nil =>
      rcases h with hk | hk
      · exact absurd hk (AList.notMem_empty k)
      · exact absurd hk (Finset.notMem_empty k)
  | append_singleton es e ih =>
      rw [started_concat]
      by_cases hdata : e.dataId = some k
      · exact .inl hdata
      · by_cases hends : e.Ends k
        · cases e with
          | data id data fin => exact absurd (congrArg some hends.1) hdata
          | reset id =>
              obtain rfl : id = k := hends
              rw [after_concat] at h
              exact absurd h (not_kept_onReset _ id)
        · rw [after_concat] at h
          exact .inr (ih ((kept_next_of_ne hdata hends).mp h))

/-- A stream is closed by its end, until data of it comes again. -/
theorem closed_concat :
    Closed (es ++ [e]) k ↔ e.Ends k ∨ Closed es k ∧ e.dataId ≠ some k :=
  Past.since_concat _ _ es e

/-- Nothing is kept of a stream that is over. -/
def ForgetsClosed (es : List Event) : Prop := ∀ k, Closed es k → ¬ (after es).Kept k

/-- A run goes on forgetting closed streams if its next event is orderly. -/
theorem forgetsClosed_concat_iff (h : ForgetsClosed es) (e : Event) :
    ForgetsClosed (es ++ [e]) ↔ (after es).EndsOrderly e := by
  constructor
  · intro hforgets
    by_cases hends : ∃ k, e.Ends k
    · obtain ⟨k, hends⟩ := hends
      refine (not_kept_next_iff (apart_after es) hends).mp ?_
      rw [← after_concat]
      exact hforgets k (closed_concat.mpr (.inl hends))
    · exact endsOrderly_of_not_ends (not_exists.mp hends)
  · intro horderly k hclosed
    rw [after_concat]
    by_cases hends : e.Ends k
    · exact (not_kept_next_iff (apart_after es) hends).mpr horderly
    · obtain ⟨hclosed, hdata⟩ := (closed_concat.mp hclosed).resolve_left hends
      exact mt (kept_next_of_ne hdata hends).mp (h k hclosed)

/-- The open streams have started and are not closed. -/
theorem mem_openIds : k ∈ openIds es ↔ Started es k ∧ ¬ Closed es k := by
  rw [openIds, Finset.mem_filter, List.mem_toFinset, List.mem_filterMap, Started]

/-- There are no more entries than open streams. -/
theorem ForgetsClosed.bounded (h : ForgetsClosed es) : Bounded es where
  closed k hclosed := not_or.mp (h k hclosed)
  entries := by
    have hdisjoint : Disjoint (after es).streams.keys.toFinset (after es).dropped := by
      refine Finset.disjoint_left.mpr fun k hk => apart_after es k ?_
      exact AList.mem_keys.mp (List.mem_toFinset.mp hk)
    rw [← List.toFinset_card_of_nodup (after es).streams.keys_nodup,
      ← Finset.card_union_of_disjoint hdisjoint]
    refine Finset.card_le_card fun k hk => ?_
    have hkept : (after es).Kept k := by
      refine (Finset.mem_union.mp hk).imp_left fun hk => ?_
      exact AList.mem_keys.mp (List.mem_toFinset.mp hk)
    exact mem_openIds.mpr ⟨started_of_kept hkept, fun hclosed => h k hclosed hkept⟩
  versions := (after es).latest.keys_nodup

/-- Memory is bounded exactly by forgetting what is closed. -/
theorem bounded_iff : Bounded es ↔ ForgetsClosed es :=
  ⟨fun h k hclosed => not_or.mpr (h.closed k hclosed), ForgetsClosed.bounded⟩

/-- Memory is bounded all along a run exactly if every stream that ends is orderly up
to its end, or was dropped before. -/
theorem memoryBounded_iff (es : List Event) :
    MemoryBounded es ↔ Along next EndsOrderly new es := by
  refine every_past_iff_along (bounded_iff.mpr ?_) (fun es e h => ?_) es
  · exact fun k hclosed => absurd hclosed (Past.since_nil _ _)
  · rw [bounded_iff] at h ⊢
    exact forgetsClosed_concat_iff h e

/-- A stream that is all in one piece, with a format that the receiver does not know. -/
def malformedStream : List Event := [.data 3 (List.replicate bulkHeaderLen 0) true]

/-- A malformed stream is kept after its end. -/
theorem not_memoryBounded_malformedStream : ¬ ∀ es, MemoryBounded es := by
  intro h
  have hbounded := h malformedStream malformedStream [] (List.append_nil _).symm
  have hkept : 3 ∈ (after malformedStream).dropped := by decide +kernel
  exact (hbounded.closed 3 (by decide)).2 hkept

end BulkReceiver

end RoboTele
