import RoboTele.Core.BulkInvariant
import RoboTele.Runs.Machine
import RoboTele.Runs.Past

/-!
# Runs of the bulk receiver

Streams come in by pieces, in any interleaving, and may be reset.  A stream id is
not used again once its stream has ended or was reset (`NotReused`).  Then every
object delivered is what its stream carries, the versions delivered of a key do
not go down, and a stream that was fed is open or gone, with one outcome
(`run_exact`).
-/

namespace RoboTele

open Runs Past

namespace BulkReceiver

/-! ## Events -/

/-- A piece of a stream, with its end or not, or a reset. -/
inductive Event where
  | data (id : Nat) (bytes : Bytes) (fin : Bool)
  | reset (id : Nat)

namespace Event

/-- The stream that data comes in for. -/
def dataId : Event → Option Nat
  | data id _ _ => some id
  | reset _ => none

/-- The bytes that come in for a stream. -/
def bytesFor (k : Nat) : Event → Bytes
  | data id bytes _ => if id = k then bytes else []
  | reset _ => []

/-- The stream is over. -/
def Ends (k : Nat) : Event → Prop
  | data id _ fin => id = k ∧ fin = true
  | reset id => id = k

instance (k : Nat) : ∀ e : Event, Decidable (e.Ends k)
  | data id _ fin => inferInstanceAs (Decidable (id = k ∧ fin = true))
  | reset id => inferInstanceAs (Decidable (id = k))

end Event

/-- What an arrival makes of the receiver, and what it gives. -/
def step (r : BulkReceiver) : Event → BulkReceiver × Except BulkError (Option BulkObject)
  | .data id bytes fin => r.onData id bytes fin
  | .reset id => (r.onReset id, .ok none)

/-- The receiver after an arrival. -/
def next (r : BulkReceiver) (e : Event) : BulkReceiver := (r.step e).1

/-- The object an event delivers, with its stream. -/
def delivers (r : BulkReceiver) (e : Event) : Option (Nat × BulkObject) :=
  match e.dataId, (r.step e).2 with
  | some id, .ok (some o) => some (id, o)
  | _, _ => none

/-- The stream an event has rejected. -/
def rejects (r : BulkReceiver) (e : Event) : Option Nat :=
  match e.dataId, (r.step e).2 with
  | some id, .error _ => some id
  | _, _ => none

/-- The receiver after a list of events. -/
def after (es : List Event) : BulkReceiver := exec next new es

/-- The objects delivered, with their streams. -/
def delivered (es : List Event) : List (Nat × BulkObject) := trace next delivers new es

/-- The streams rejected. -/
def rejected (es : List Event) : List Nat := trace next rejects new es

/-- The bytes that came in for a stream. -/
def streamBytes (es : List Event) (k : Nat) : Bytes := es.flatMap (Event.bytesFor k)

/-- Data came in for the stream. -/
def Started (es : List Event) (k : Nat) : Prop := ∃ e ∈ es, e.dataId = some k

/-- The stream is over. -/
def Ended (es : List Event) (k : Nat) : Prop := ∃ e ∈ es, e.Ends k

instance (es : List Event) (k : Nat) : Decidable (Ended es k) :=
  inferInstanceAs (Decidable (∃ e ∈ es, e.Ends k))

/-- No data comes in for a stream that is over. -/
def NotReused : List Event → Prop := Always fun past e => ∀ id ∈ e.dataId, ¬ Ended past id

instance (es : List Event) : Decidable (NotReused es) :=
  inferInstanceAs (Decidable (Always _ es))

/-- The versions delivered of a key. -/
def versions (key : BulkKey) (es : List Event) : List UInt32 :=
  ((delivered es).filter fun p => p.2.header.key = key).map fun p => p.2.header.version

section

variable (es : List Event) (e : Event)

theorem after_concat : after (es ++ [e]) = (after es).next e := exec_concat _ _ _ _

/-- An event adds what it delivers. -/
theorem delivered_concat : delivered (es ++ [e]) =
    delivered es ++ ((after es).delivers e).toList :=
  trace_concat _ _ _ _ _

/-- An event adds what it rejects. -/
theorem rejected_concat : rejected (es ++ [e]) = rejected es ++ ((after es).rejects e).toList :=
  trace_concat _ _ _ _ _

/-- An event adds its bytes to its stream. -/
theorem streamBytes_concat (k : Nat) :
    streamBytes (es ++ [e]) k = streamBytes es k ++ e.bytesFor k := by
  rw [streamBytes, List.flatMap_append, List.flatMap_singleton, streamBytes]

/-- Data starts its stream. -/
theorem started_concat (k : Nat) : Started (es ++ [e]) k ↔ e.dataId = some k ∨ Started es k := by
  simp only [Started, List.mem_append, List.mem_singleton, or_and_right, exists_or,
    exists_eq_left]
  exact or_comm

/-- A stream ends with an event that ends it. -/
theorem ended_concat (k : Nat) : Ended (es ++ [e]) k ↔ e.Ends k ∨ Ended es k := by
  simp only [Ended, List.mem_append, List.mem_singleton, or_and_right, exists_or, exists_eq_left]
  exact or_comm

end

/-- No data, no bytes. -/
theorem streamBytes_of_not_started {es : List Event} {k : Nat} (h : ¬ Started es k) :
    streamBytes es k = [] := by
  rw [streamBytes, List.flatMap_eq_nil_iff]
  intro e he
  cases e with
  | data id bytes fin =>
      refine if_neg fun hid => h ⟨_, he, ?_⟩
      rw [← hid]
      rfl
  | reset id => rfl

/-! ## The invariant along a run -/

/-- Only the end of a stream delivers an object. -/
theorem fin_of_settle {r : BulkReceiver} {id : Nat} {fin : Bool} {o : BulkObject}
    (h : (r.settle id fin).2 = .ok (some o)) : fin = true := by
  rw [settle] at h
  split at h
  · exact absurd (Except.ok.inj h).symm (Option.some_ne_none o)
  · split_ifs at h with hlong hfin
    · exact hfin
    · exact absurd (Except.ok.inj h).symm (Option.some_ne_none o)

/-- An object is delivered at the end of its stream. -/
theorem fin_of_onData {r : BulkReceiver} {id : Nat} {data : Bytes} {fin : Bool} {o : BulkObject}
    (h : (r.onData id data fin).2 = .ok (some o)) : fin = true := by
  rw [onData] at h
  simp only at h
  split_ifs at h with hdropped hfin hheader
  · exact absurd (Except.ok.inj h).symm (Option.some_ne_none o)
  · exact absurd (Except.ok.inj h).symm (Option.some_ne_none o)
  · split at h
    · exact absurd h (by simp)
    · exact fin_of_settle h
  · exact fin_of_settle h

theorem delivers_data_iff {r : BulkReceiver} {id : Nat} {data : Bytes} {fin : Bool}
    {p : Nat × BulkObject} : r.delivers (.data id data fin) = some p ↔
      id = p.1 ∧ (r.onData id data fin).2 = .ok (some p.2) := by
  obtain ⟨k, o⟩ := p
  rw [delivers]
  simp only [Event.dataId, step]
  rcases (r.onData id data fin).2 with e | _ | o' <;> simp

theorem deliveredId_eq (r : BulkReceiver) (id : Nat) (data : Bytes) (fin : Bool) :
    deliveredId id (r.onData id data fin).2 =
      ((r.delivers (.data id data fin)).toList).map Prod.fst := by
  rw [delivers]
  simp only [Event.dataId, step]
  rcases (r.onData id data fin).2 with e | _ | o <;> rfl

theorem rejectedId_eq (r : BulkReceiver) (id : Nat) (data : Bytes) (fin : Bool) :
    rejectedId id (r.onData id data fin).2 = (r.rejects (.data id data fin)).toList := by
  rw [rejects]
  simp only [Event.dataId, step]
  rcases (r.onData id data fin).2 with e | _ | o <;> rfl

theorem delivers_reset (r : BulkReceiver) (id : Nat) : r.delivers (.reset id) = none := rfl

theorem rejects_reset (r : BulkReceiver) (id : Nat) : r.rejects (.reset id) = none := rfl

/-- The invariant, and what was delivered so far. -/
structure RunKeeps (es : List Event) (gone : List (Nat × Outcome)) : Prop where
  keeps : Keeps (streamBytes es) (Started es) (Ended es) gone (after es)
  completed : idsWith .completed gone = (delivered es).map Prod.fst
  rejected : idsWith .rejected gone = rejected es
  carries : ∀ p ∈ delivered es, Ended es p.1 ∧ Carries (streamBytes es p.1) p.2
  shown : ∀ p ∈ delivered es,
    ∃ v ∈ (after es).latest.lookup p.2.header.key, p.2.header.version ≤ v
  ordered : ∀ key, (versions key es).Pairwise (· ≤ ·)

theorem RunKeeps.nil : RunKeeps [] [] where
  keeps :=
    { reads := nofun
      seen := nofun
      nodup := .nil
      apart := nofun
      known := fun k => ⟨nofun, fun h => h.elim (absurd · (AList.notMem_empty k)) nofun⟩
      ignored := nofun
      droppedGone := nofun
      counts := fun o => by cases o <;> rfl }
  completed := rfl
  rejected := rfl
  carries := nofun
  shown := nofun
  ordered _ := .nil

section

variable {es : List Event} {gone : List (Nat × Outcome)}

/-- What an event that delivers nothing new leaves. -/
theorem shown_of_latestLe {r r' : BulkReceiver} (hle : LatestLe r r') {o : BulkObject}
    (h : ∃ v ∈ r.latest.lookup o.header.key, o.header.version ≤ v) :
    ∃ v ∈ r'.latest.lookup o.header.key, o.header.version ≤ v := by
  obtain ⟨v, hv, hversion⟩ := h
  obtain ⟨v', hv', hle⟩ := hle _ v hv
  exact ⟨v', hv', UInt32.le_trans hversion hle⟩

/-- A stream that is over gets no more bytes. -/
theorem streamBytes_of_ended {id k : Nat} {data : Bytes} {fin : Bool} (hid : ¬ Ended es id)
    (hk : Ended es k) : streamBytes (es ++ [.data id data fin]) k = streamBytes es k := by
  have hne : id ≠ k := by
    rintro rfl
    exact hid hk
  rw [streamBytes_concat, Event.bytesFor, if_neg hne, List.append_nil]

/-- The versions of a key stay in order when a new one is no older than those before
it. -/
theorem pairwise_versions_concat {key : BulkKey} {e : Event}
    (h : (versions key es).Pairwise (· ≤ ·))
    (hnew : ∀ q ∈ (after es).delivers e, ∀ p ∈ delivered es,
      p.2.header.key = q.2.header.key → p.2.header.version ≤ q.2.header.version) :
    (versions key (es ++ [e])).Pairwise (· ≤ ·) := by
  rw [versions, delivered_concat, List.filter_append, List.map_append, List.pairwise_append]
  refine ⟨h, ?_, ?_⟩
  · cases (after es).delivers e with
    | none => exact .nil
    | some q =>
        refine List.Pairwise.sublist ((List.filter_sublist).map _) ?_
        exact List.pairwise_singleton _ _
  · intro v hv v' hv'
    obtain ⟨p, hp, rfl⟩ := List.mem_map.mp hv
    obtain ⟨q, hq, rfl⟩ := List.mem_map.mp hv'
    obtain ⟨hp, hpkey⟩ := List.mem_filter.mp hp
    obtain ⟨hq, hqkey⟩ := List.mem_filter.mp hq
    exact hnew q (Option.mem_toList.mp hq) p hp
      ((of_decide_eq_true hpkey).trans (of_decide_eq_true hqkey).symm)

/-- Data of a stream that has not ended keeps the account. -/
theorem RunKeeps.data (h : RunKeeps es gone) {id : Nat} (hid : ¬ Ended es id) (data : Bytes)
    (fin : Bool) : ∃ more, RunKeeps (es ++ [.data id data fin]) (gone ++ more) := by
  have hbytes : ∀ k, k ≠ id → streamBytes (es ++ [.data id data fin]) k = streamBytes es k := by
    intro k hk
    rw [streamBytes_concat, Event.bytesFor, if_neg (Ne.symm hk), List.append_nil]
  have hown : streamBytes (es ++ [.data id data fin]) id = streamBytes es id ++ data := by
    rw [streamBytes_concat, Event.bytesFor, if_pos rfl]
  have hstarted : ∀ k, Started (es ++ [.data id data fin]) k ↔ k = id ∨ Started es k := by
    intro k
    rw [started_concat, Event.dataId, Option.some_inj, eq_comm]
  have hended : ∀ k, Ended es k → Ended (es ++ [.data id data fin]) k := by
    intro k hk
    exact (ended_concat _ _ _).mpr (.inr hk)
  have hfin : fin = true → Ended (es ++ [.data id data fin]) id := by
    intro hfin
    exact (ended_concat _ _ _).mpr (.inl ⟨rfl, hfin⟩)
  obtain ⟨more, hleaves⟩ := onData_leaves h.keeps hid data fin hbytes hown
    streamBytes_of_not_started hstarted hended hfin
  have hnext : after (es ++ [.data id data fin]) = ((after es).onData id data fin).1 :=
    after_concat _ _
  have hlatest := hnext ▸ hleaves.latest
  have hnew : ∀ p ∈ (after es).delivers (.data id data fin),
      id = p.1 ∧ ((after es).onData id data fin).2 = .ok (some p.2) :=
    fun p hp => delivers_data_iff.mp hp
  refine ⟨more, { keeps := hnext ▸ hleaves.keeps, completed := ?completed, rejected := ?rejected,
                  carries := ?carries, shown := ?shown, ordered := ?ordered }⟩
  case completed =>
    rw [idsWith_append, h.completed, hleaves.completed, deliveredId_eq, delivered_concat,
      List.map_append]
  case rejected => rw [idsWith_append, h.rejected, hleaves.rejected, rejectedId_eq, rejected_concat]
  case carries =>
    intro p hp
    rw [delivered_concat] at hp
    rcases List.mem_append.mp hp with hp | hp
    · obtain ⟨hover, hcarries⟩ := h.carries p hp
      exact ⟨hended _ hover, (streamBytes_of_ended hid hover).symm ▸ hcarries⟩
    · obtain ⟨rfl, hout⟩ := hnew p (Option.mem_toList.mp hp)
      exact ⟨hfin (fin_of_onData hout), hleaves.carries _ hout⟩
  case shown =>
    intro p hp
    rw [delivered_concat] at hp
    rcases List.mem_append.mp hp with hp | hp
    · exact shown_of_latestLe hlatest (h.shown p hp)
    · obtain ⟨rfl, hout⟩ := hnew p (Option.mem_toList.mp hp)
      exact ⟨_, hnext ▸ hleaves.newest _ hout, UInt32.le_refl _⟩
  case ordered =>
    refine fun key => pairwise_versions_concat (h.ordered key) fun q hq p hp hkeys => ?_
    obtain ⟨-, hout⟩ := hnew q hq
    -- the new version is the latest one, and the old one was seen
    obtain ⟨w, hw, hle⟩ := shown_of_latestLe hleaves.latest (h.shown p hp)
    rw [hkeys, hleaves.newest _ hout] at hw
    exact Option.some.inj hw ▸ hle

/-- So does a reset. -/
theorem RunKeeps.reset (h : RunKeeps es gone) (id : Nat) :
    ∃ more, RunKeeps (es ++ [.reset id]) (gone ++ more) := by
  have hbytes : streamBytes (es ++ [.reset id]) = streamBytes es := by
    funext k
    rw [streamBytes_concat, Event.bytesFor, List.append_nil]
  have hstarted : Started (es ++ [.reset id]) = Started es := by
    funext k
    rw [started_concat, Event.dataId, or_iff_right nofun]
  have hended : ∀ k, Ended es k → Ended (es ++ [.reset id]) k := by
    intro k hk
    exact (ended_concat _ _ _).mpr (.inr hk)
  have hdelivered : delivered (es ++ [.reset id]) = delivered es := by
    rw [delivered_concat, delivers_reset, Option.toList_none, List.append_nil]
  obtain ⟨more, hkeeps, hmore, hlatest⟩ :=
    onReset_keeps h.keeps id hended ((ended_concat _ _ _).mpr (.inl rfl))
  have hnext : after (es ++ [.reset id]) = (after es).onReset id := after_concat _ _
  refine ⟨more, { keeps := ?keeps, completed := ?completed, rejected := ?rejected,
                  carries := ?carries, shown := ?shown, ordered := ?ordered }⟩
  case keeps => rwa [hbytes, hstarted, hnext]
  case completed =>
    rw [idsWith_append, idsWith_of_superseded hmore (by decide), List.append_nil, hdelivered,
      h.completed]
  case rejected =>
    rw [idsWith_append, idsWith_of_superseded hmore (by decide), List.append_nil, h.rejected,
      rejected_concat, rejects_reset, Option.toList_none, List.append_nil]
  case carries =>
    rw [hdelivered, hbytes]
    exact fun p hp => ⟨hended _ (h.carries p hp).1, (h.carries p hp).2⟩
  case shown =>
    rw [hdelivered, hnext, hlatest]
    exact h.shown
  case ordered =>
    intro key
    rw [versions, hdelivered]
    exact h.ordered key

end

/-- Every run that reuses no stream id keeps the invariant. -/
theorem run_keeps {es : List Event} (h : NotReused es) : ∃ gone, RunKeeps es gone := by
  induction es using List.reverseRecOn with
  | nil => exact ⟨[], .nil⟩
  | append_singleton es e ih =>
      obtain ⟨hes, he⟩ := (always_concat _ _ _).mp h
      obtain ⟨gone, hgone⟩ := ih hes
      cases e with
      | data id data fin =>
          obtain ⟨more, hmore⟩ := hgone.data (he id rfl) data fin
          exact ⟨_, hmore⟩
      | reset id =>
          obtain ⟨more, hmore⟩ := hgone.reset id
          exact ⟨_, hmore⟩

/-! ## What a run delivers and counts -/

/-- Each stream that is gone has one outcome, the deliveries and the rejections
are two of them, and the counters count them. -/
structure Accounts (es : List Event) (gone : List (Nat × Outcome)) : Prop where
  once : (gone.map Prod.fst).Nodup
  openOrGone : ∀ k, Started es k ↔ Xor (k ∈ (after es).streams) (k ∈ gone.map Prod.fst)
  completed : idsWith .completed gone = (delivered es).map Prod.fst
  rejected : idsWith .rejected gone = rejected es
  counts : ∀ o, counter (after es).stats o = (idsWith o gone).length

theorem length_idsWith (o : Outcome) (gone : List (Nat × Outcome)) :
    (idsWith o gone).length = (gone.map Prod.snd).count o := by
  rw [idsWith, List.length_map, List.count, List.countP_map, List.countP_eq_length_filter]
  congr 1

/-- A run that keeps its account has one outcome for each stream. -/
theorem RunKeeps.accounts {es : List Event} {gone : List (Nat × Outcome)} (h : RunKeeps es gone) :
    Accounts es gone where
  once := h.keeps.nodup
  openOrGone k := by
    rw [h.keeps.known]
    constructor
    · rintro (hopen | hgone)
      · exact .inl ⟨hopen, fun hgone => h.keeps.apart k hgone hopen⟩
      · exact .inr ⟨hgone, h.keeps.apart k hgone⟩
    · rintro (hopen | hgone)
      · exact .inl hopen.1
      · exact .inr hgone.1
  completed := h.completed
  rejected := h.rejected
  counts o := by rw [length_idsWith, h.keeps.counts]

/-- Whatever comes in, an object delivered is what its stream carries, versions
do not go down, and a stream is open or gone with one outcome, counted once. -/
theorem run_exact (es : List Event) (h : NotReused es) :
    (∀ p ∈ delivered es, Carries (streamBytes es p.1) p.2) ∧
    (∀ key, (versions key es).Pairwise (· ≤ ·)) ∧
    ∃ gone, Accounts es gone := by
  obtain ⟨gone, hgone⟩ := run_keeps h
  exact ⟨fun p hp => (hgone.carries p hp).2, hgone.ordered, gone, hgone.accounts⟩

/-- A version of a grid with this many bytes. -/
def gridHeader (version : UInt32) (length : UInt64) : BulkHeader where
  kind := .occupancyGrid
  sourceId := 0
  encoding := 1
  version := version
  length := length
  captureTimeUs := 42

/-- A version is under way when the next one comes in whole. -/
def overtakenVersion : List Event :=
  [.data 3 ((gridHeader 1 3).encode ++ [1]) false, .data 7 ((gridHeader 2 2).encode ++ [5, 6]) true,
    .data 3 [2, 3] true, .data 11 [1] true]

/-- A newer version that overtakes an older one. -/
theorem run_exact_overtakenVersion :
    (∀ p ∈ delivered overtakenVersion, Carries (streamBytes overtakenVersion p.1) p.2) ∧
    (∀ key, (versions key overtakenVersion).Pairwise (· ≤ ·)) ∧
    ∃ gone, Accounts overtakenVersion gone :=
  run_exact overtakenVersion (by decide +kernel)

end BulkReceiver

end RoboTele
