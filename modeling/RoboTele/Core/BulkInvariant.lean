import RoboTele.Core.Bulk
import Mathlib.Data.List.Nodup

/-!
# What the bulk receiver keeps

`Keeps` relates the receiver to the streams fed so far: what is open of a stream
holds the stream's bytes, and a stream that was fed is open or gone.  `gone`
lists the streams that are no longer open with what became of them, and each of
the three counters counts one outcome in it.

A call opens a stream, may record a header, and takes streams out one by one.
Each of these keeps `Keeps`, and `Keeps.leave` is the last of them.
-/

namespace RoboTele

open Tables

namespace BulkReceiver

/-- What became of a stream that is no longer open. -/
inductive Outcome where
  | completed | superseded | rejected
deriving DecidableEq

/-- The counter that an outcome adds to. -/
def counter (stats : BulkStats) : Outcome → Nat
  | .completed => stats.completed
  | .superseded => stats.superseded
  | .rejected => stats.rejected

/-- One more stream with this outcome. -/
def count (r : BulkReceiver) : Outcome → BulkReceiver
  | .completed => r.countCompleted
  | .superseded => r.countSuperseded
  | .rejected => r.countRejected

/-- The entry holds the stream's bytes. -/
structure Reads (bytes : Bytes) (p : Partial) : Prop where
  none : p.header = none → p.bytes = bytes
  some : ∀ h, p.header = some h →
    BulkHeader.decode bytes = .ok h ∧ bulkHeaderLen ≤ bytes.length ∧
      p.bytes = bytes.drop bulkHeaderLen

/-- The receiver reads what has come on each stream it has not given up, and a stream that is gone
does not come back. -/
structure Keeps (bytesOf : Nat → Bytes) (started ended : Nat → Prop)
    (gone : List (Nat × Outcome)) (r : BulkReceiver) : Prop where
  reads : ∀ k p, r.streams.lookup k = some p → Reads (bytesOf k) p
  seen : ∀ k p h, r.streams.lookup k = some p → p.header = some h →
    ∃ v ∈ r.latest.lookup h.key, h.version ≤ v
  nodup : (gone.map Prod.fst).Nodup
  apart : ∀ k ∈ gone.map Prod.fst, k ∉ r.streams
  known : ∀ k, started k ↔ k ∈ r.streams ∨ k ∈ gone.map Prod.fst
  ignored : ∀ k ∈ gone.map Prod.fst, k ∈ r.dropped ∨ ended k
  droppedGone : ∀ k ∈ r.dropped, k ∈ gone.map Prod.fst
  counts : ∀ o, counter r.stats o = (gone.map Prod.snd).count o

section

variable {bytesOf : Nat → Bytes} {started ended : Nat → Prop} {gone : List (Nat × Outcome)}
  {r : BulkReceiver} {id : Nat}

/-! ## Entries -/

/-- More bytes of the stream are read on. -/
theorem Reads.append {bytes : Bytes} {p : Partial} (h : Reads bytes p) (data : Bytes) :
    Reads (bytes ++ data) { p with bytes := p.bytes ++ data } where
  none hnone := by rw [← h.none hnone]
  some header hsome := by
    obtain ⟨hdecode, hlen, hbytes⟩ := h.some header hsome
    refine ⟨(BulkHeader.decode_append hlen data).trans hdecode, ?_, ?_⟩
    · rw [List.length_append]
      exact hlen.trans (Nat.le_add_right _ _)
    · rw [hbytes, List.drop_append_of_le_length hlen]

theorem lookup_put (r : BulkReceiver) (id : Nat) (p : Partial) (k : Nat) :
    (r.put id p).streams.lookup k = if k = id then some p else r.streams.lookup k :=
  lookup_insert_ite r.streams id p k

theorem mem_put {p : Partial} {k : Nat} : k ∈ (r.put id p).streams ↔ k = id ∨ k ∈ r.streams :=
  AList.mem_insert _

/-- Writing the entry of a stream that is open or new. -/
theorem Keeps.put (h : Keeps bytesOf started ended gone r) (hid : id ∉ gone.map Prod.fst)
    {bytesOf' : Nat → Bytes} (hbytes : ∀ k, k ≠ id → bytesOf' k = bytesOf k)
    {started' : Nat → Prop} (hstarted : ∀ k, started' k ↔ k = id ∨ started k) {p : Partial}
    (hreads : Reads (bytesOf' id) p)
    (hseen : ∀ header, p.header = some header →
      ∃ v ∈ r.latest.lookup header.key, header.version ≤ v) :
    Keeps bytesOf' started' ended gone (r.put id p) where
  reads k q hq := by
    rw [lookup_put] at hq
    split_ifs at hq with hk
    · rw [hk, ← Option.some.inj hq]
      exact hreads
    · rw [hbytes k hk]
      exact h.reads k q hq
  seen k q header hq hheader := by
    rw [lookup_put] at hq
    split_ifs at hq with hk
    · rw [← Option.some.inj hq] at hheader
      exact hseen header hheader
    · exact h.seen k q header hq hheader
  nodup := h.nodup
  apart k hk hmem := by
    rcases mem_put.mp hmem with rfl | hmem
    · exact hid hk
    · exact h.apart k hk hmem
  known k := by
    rw [hstarted, h.known, mem_put, or_assoc]
  ignored := h.ignored
  droppedGone := h.droppedGone
  counts := h.counts

/-! ## Streams that leave -/

/-- An outcome raises its own counter. -/
theorem counter_count (r : BulkReceiver) (o o' : Outcome) :
    counter (r.count o).stats o' = counter r.stats o' + if o = o' then 1 else 0 := by
  cases o <;> cases o' <;> rfl

@[simp] theorem streams_count (r : BulkReceiver) (o : Outcome) :
    (r.count o).streams = r.streams := by
  cases o <;> rfl

@[simp] theorem latest_count (r : BulkReceiver) (o : Outcome) : (r.count o).latest = r.latest := by
  cases o <;> rfl

@[simp] theorem dropped_count (r : BulkReceiver) (o : Outcome) :
    (r.count o).dropped = r.dropped := by
  cases o <;> rfl

/-- An open stream that is taken out and counted.  From then on it is ignored, or
it has ended. -/
theorem Keeps.leave (h : Keeps bytesOf started ended gone r) (hid : id ∈ r.streams) (o : Outcome)
    {dropped : Finset Nat} (hdropped : ∀ k, k ∈ dropped → k = id ∨ k ∈ r.dropped)
    (hkeep : ∀ k ∈ r.dropped, k ∈ dropped ∨ ended k) (hown : id ∈ dropped ∨ ended id) :
    Keeps bytesOf started ended (gone ++ [(id, o)])
      (count { r with streams := r.streams.erase id, dropped := dropped } o) where
  reads k p hp := by
    rw [streams_count] at hp
    exact h.reads k p (lookup_erase_eq_some hp).2
  seen k p header hp hheader := by
    rw [streams_count] at hp
    rw [latest_count]
    exact h.seen k p header (lookup_erase_eq_some hp).2 hheader
  nodup := by
    rw [List.map_append, List.map_singleton, ← List.concat_eq_append, List.nodup_concat]
    exact ⟨fun hmem => h.apart id hmem hid, h.nodup⟩
  apart k hk := by
    rw [streams_count, AList.mem_erase]
    rw [List.map_append, List.mem_append, List.map_singleton, List.mem_singleton] at hk
    rintro ⟨hne, hmem⟩
    exact hk.elim (fun hk => h.apart k hk hmem) hne
  known k := by
    rw [h.known, streams_count, AList.mem_erase, List.map_append, List.mem_append,
      List.map_singleton, List.mem_singleton]
    by_cases hk : k = id
    · subst hk
      exact iff_of_true (.inl hid) (.inr (.inr rfl))
    · simp [hk]
  ignored k hk := by
    rw [dropped_count]
    rw [List.map_append, List.mem_append, List.map_singleton, List.mem_singleton] at hk
    rcases hk with hk | rfl
    · exact (h.ignored k hk).elim (hkeep k) .inr
    · exact hown
  droppedGone k hk := by
    rw [dropped_count] at hk
    rw [List.map_append, List.mem_append, List.map_singleton, List.mem_singleton]
    exact (hdropped k hk).elim .inr fun hk => .inl (h.droppedGone k hk)
  counts o' := by
    rw [counter_count, List.map_append, List.count_append, ← h.counts o', List.map_singleton,
      List.count_singleton]
    simp

/-- A stream whose rest is to be ignored. -/
theorem Keeps.drop (h : Keeps bytesOf started ended gone r) (hid : id ∈ r.streams) (o : Outcome) :
    Keeps bytesOf started ended (gone ++ [(id, o)]) ((r.dropStream id).count o) := by
  rw [dropStream, if_pos hid]
  exact h.leave hid o (fun k hk => Finset.mem_insert.mp hk)
    (fun k hk => .inl (Finset.mem_insert_of_mem hk)) (.inl (Finset.mem_insert_self _ _))

/-- Several such streams. -/
theorem Keeps.dropAll : ∀ {ks : List Nat} {gone : List (Nat × Outcome)} {r : BulkReceiver},
    Keeps bytesOf started ended gone r → ks.Nodup → (∀ k ∈ ks, k ∈ r.streams) →
      Keeps bytesOf started ended (gone ++ ks.map fun k => (k, .superseded))
        (ks.foldl supersede r)
  | [], gone, r, h, _, _ => by rwa [List.map_nil, List.append_nil]
  | k :: ks, gone, r, h, hnodup, hmem => by
      obtain ⟨hk, hnodup⟩ := List.nodup_cons.mp hnodup
      have hdrop := h.drop (hmem k List.mem_cons_self) .superseded
      have hrest : ∀ j ∈ ks, j ∈ (r.supersede k).streams := by
        intro j hj
        change j ∈ ((r.dropStream k).count .superseded).streams
        rw [streams_count, dropStream, if_pos (hmem k List.mem_cons_self)]
        refine AList.mem_erase.mpr ⟨?_, hmem j (List.mem_cons_of_mem k hj)⟩
        rintro rfl
        exact hk hj
      rw [List.foldl_cons, List.map_cons, List.append_cons]
      exact Keeps.dropAll hdrop hnodup hrest

/-! ## What a call returns -/

/-- The streams with this outcome. -/
def idsWith (o : Outcome) (gone : List (Nat × Outcome)) : List Nat :=
  (gone.filter fun p => p.2 = o).map Prod.fst

/-- The stream that a call delivered. -/
def deliveredId (id : Nat) : Except BulkError (Option BulkObject) → List Nat
  | .ok (some _) => [id]
  | _ => []

/-- The stream that a call rejected. -/
def rejectedId (id : Nat) : Except BulkError (Option BulkObject) → List Nat
  | .error _ => [id]
  | .ok _ => []

/-- The object is what the stream carries after its header. -/
structure Carries (bytes : Bytes) (o : BulkObject) : Prop where
  header : BulkHeader.decode bytes = .ok o.header
  whole : bulkHeaderLen ≤ bytes.length
  bytes : o.bytes = bytes.drop bulkHeaderLen
  length : o.bytes.length = o.header.length.toNat

/-- What comes first of an object sent with its length is delivered only whole. -/
theorem Carries.eq_of_prefix {h : BulkHeader} {payload bytes : Bytes} {o : BulkObject}
    (hcarries : Carries bytes o) (hpre : bytes <+: h.encode ++ payload)
    (hlength : h.length.toNat = payload.length) : o = { header := h, bytes := payload } := by
  obtain ⟨rest, rfl⟩ : h.encode <+: bytes := by
    refine List.prefix_of_prefix_length_le (List.prefix_append _ _) hpre ?_
    rw [BulkHeader.length_encode]
    exact hcarries.whole
  have hheader : o.header = h := BulkHeader.eq_of_decode_encode_append hcarries.header
  have hbytes : o.bytes = rest := by
    rw [hcarries.bytes, ← h.length_encode, List.drop_left]
  have hrest : rest = payload := by
    have hsame := hcarries.length
    rw [hbytes, hheader, hlength] at hsame
    exact ((List.prefix_append_right_inj _).mp hpre).eq_of_length hsame
  cases o
  simp only at hheader hbytes
  rw [hheader, hbytes, hrest]

/-- No version goes down. -/
def LatestLe (r r' : BulkReceiver) : Prop :=
  ∀ key, ∀ v ∈ r.latest.lookup key, ∃ v' ∈ r'.latest.lookup key, v ≤ v'

/-- The same table is not behind. -/
theorem LatestLe.of_eq {r r' : BulkReceiver} (h : r'.latest = r.latest) : LatestLe r r' := by
  intro key v hv
  exact ⟨v, h ▸ hv, UInt32.le_refl v⟩

theorem LatestLe.trans {r₁ r₂ r₃ : BulkReceiver} (h : LatestLe r₁ r₂) (h' : LatestLe r₂ r₃) :
    LatestLe r₁ r₃ := by
  intro key v hv
  obtain ⟨v₂, hv₂, hle⟩ := h key v hv
  obtain ⟨v₃, hv₃, hle'⟩ := h' key v₂ hv₂
  exact ⟨v₃, hv₃, UInt32.le_trans hle hle'⟩

/-- The call leaves the invariant with some streams more gone.  If it returns an
object, that is the stream's, and no newer version of it was seen. -/
structure Leaves (bytesOf : Nat → Bytes) (started ended : Nat → Prop)
    (gone : List (Nat × Outcome)) (r : BulkReceiver) (id : Nat)
    (out : BulkReceiver × Except BulkError (Option BulkObject)) (more : List (Nat × Outcome)) :
    Prop where
  keeps : Keeps bytesOf started ended (gone ++ more) out.1
  completed : idsWith .completed more = deliveredId id out.2
  rejected : idsWith .rejected more = rejectedId id out.2
  carries : ∀ o, out.2 = .ok (some o) → Carries (bytesOf id) o
  newest : ∀ o, out.2 = .ok (some o) →
    out.1.latest.lookup o.header.key = some o.header.version
  latest : LatestLe r out.1

/-- The streams with an outcome, of two runs. -/
theorem idsWith_append (o : Outcome) (gone more : List (Nat × Outcome)) :
    idsWith o (gone ++ more) = idsWith o gone ++ idsWith o more := by
  rw [idsWith, List.filter_append, List.map_append, idsWith, idsWith]

/-- Nothing is returned and nothing is gone. -/
theorem Leaves.nothing (h : Keeps bytesOf started ended gone r) :
    Leaves bytesOf started ended gone r id (r, .ok none) [] where
  keeps := by rwa [List.append_nil]
  completed := rfl
  rejected := rfl
  carries := nofun
  newest := nofun
  latest := .of_eq rfl

/-- A stream is rejected. -/
theorem Leaves.reject (h : Keeps bytesOf started ended gone r) (hid : id ∈ r.streams)
    (e : BulkError) :
    Leaves bytesOf started ended gone r id (r.reject id, .error e) [(id, .rejected)] where
  keeps := h.drop hid .rejected
  completed := rfl
  rejected := rfl
  carries := nofun
  newest := nofun
  latest := by
    refine .of_eq ?_
    change (dropStream r id).latest = r.latest
    rw [dropStream, if_pos hid]

/-- A stream that closes leaves with one outcome. -/
theorem close_leaves (h : Keeps bytesOf started ended gone r) {p : Partial}
    (hp : r.streams.lookup id = some p) (hended : ended id) :
    ∃ o, Leaves bytesOf started ended gone r id (r.close id p) [(id, o)] := by
  have hid : id ∈ r.streams := mem_iff_exists_lookup.mpr ⟨p, hp⟩
  have hleave : ∀ o, Keeps bytesOf started ended (gone ++ [(id, o)])
      (count { r with streams := r.streams.erase id } o) := fun o =>
    h.leave hid o (fun _ hk => .inr hk) (fun _ hk => .inl hk) (.inr hended)
  cases hheader : p.header with
  | none =>
      have hclose : r.close id p =
          (count { r with streams := r.streams.erase id } .rejected, .error .shortHeader) := by
        rw [close, hheader]
        rfl
      rw [hclose]
      exact ⟨.rejected, hleave _, rfl, rfl, nofun, nofun, .of_eq rfl⟩
  | some header =>
      by_cases hlen : p.bytes.length = header.length.toNat
      · by_cases hold : { r with streams := r.streams.erase id }.IsOld header
        · have hclose : r.close id p =
              (count { r with streams := r.streams.erase id } .superseded, .ok none) := by
            rw [close, hheader]
            exact (if_neg (not_not.mpr hlen)).trans (if_pos hold)
          rw [hclose]
          exact ⟨.superseded, hleave _, rfl, rfl, nofun, nofun, .of_eq rfl⟩
        · have hclose : r.close id p =
              (count { r with streams := r.streams.erase id } .completed,
                .ok (some { header := header, bytes := p.bytes })) := by
            rw [close, hheader]
            exact (if_neg (not_not.mpr hlen)).trans (if_neg hold)
          rw [hclose]
          refine ⟨.completed, hleave _, rfl, rfl, ?_, ?_, .of_eq rfl⟩
          · rintro o ho
            obtain rfl := Option.some.inj (Except.ok.inj ho)
            obtain ⟨hdecode, hwhole, hbytes⟩ := (h.reads id p hp).some header hheader
            exact ⟨hdecode, hwhole, hbytes, hlen⟩
          · rintro o ho
            obtain rfl := Option.some.inj (Except.ok.inj ho)
            obtain ⟨v, hv, hle⟩ := h.seen id p header hp hheader
            -- the stream's version was seen, and no newer one
            have heq : v = header.version := by
              refine UInt32.le_antisymm (UInt32.not_lt.mp fun hlt => hold ⟨v, hv, hlt⟩) hle
            exact heq ▸ hv
      · have hclose : r.close id p = (count { r with streams := r.streams.erase id } .rejected,
            .error (.truncated p.bytes.length header.length.toNat)) := by
          rw [close, hheader]
          exact if_pos hlen
        rw [hclose]
        exact ⟨.rejected, hleave _, rfl, rfl, nofun, nofun, .of_eq rfl⟩

/-- So do those that a read completes, rejects or supersedes. -/
theorem settle_leaves (h : Keeps bytesOf started ended gone r) {fin : Bool}
    (hended : fin = true → ended id) :
    ∃ more, Leaves bytesOf started ended gone r id (r.settle id fin) more := by
  rw [settle]
  cases hp : r.streams.lookup id with
  | none => exact ⟨[], .nothing h⟩
  | some p =>
      simp only
      split_ifs with hlong hfin
      · exact ⟨_, .reject h (mem_iff_exists_lookup.mpr ⟨p, hp⟩) .tooLong⟩
      · obtain ⟨o, hclose⟩ := close_leaves h hp (hended hfin)
        exact ⟨_, hclose⟩
      · exact ⟨[], .nothing h⟩

/-! ## Headers -/

/-- Raising the latest version of a key. -/
theorem Keeps.raise (h : Keeps bytesOf started ended gone r) (header : BulkHeader) :
    Keeps bytesOf started ended gone
      { r with latest := r.latest.insert header.key (r.newest header) } where
  reads := h.reads
  seen k p header' hp hheader := by
    obtain ⟨v, hv, hle⟩ := h.seen k p header' hp hheader
    by_cases hkey : header'.key = header.key
    · refine ⟨r.newest header, ?_, ?_⟩
      · rw [hkey]
        exact AList.lookup_insert _
      · rw [hkey] at hv
        rw [newest, hv, Option.getD_some]
        exact hle.trans (le_max_left _ _)
    · exact ⟨v, (AList.lookup_insert_ne hkey).trans hv, hle⟩
  nodup := h.nodup
  apart := h.apart
  known := h.known
  ignored := h.ignored
  droppedGone := h.droppedGone
  counts := h.counts

/-- A newer version only raises its key. -/
theorem latestLe_raise (r : BulkReceiver) (header : BulkHeader) :
    LatestLe r { r with latest := r.latest.insert header.key (r.newest header) } := by
  intro key v hv
  by_cases hkey : key = header.key
  · subst hkey
    refine ⟨r.newest header, AList.lookup_insert _, ?_⟩
    rw [newest, show r.latest.lookup header.key = some v from hv, Option.getD_some]
    exact le_max_left _ _
  · exact ⟨v, (AList.lookup_insert_ne hkey).trans hv, UInt32.le_refl v⟩

/-- Only that stream is dropped. -/
theorem streams_dropStream (r : BulkReceiver) (k j : Nat) :
    j ∈ (r.dropStream k).streams ↔ j ≠ k ∧ j ∈ r.streams := by
  rw [dropStream]
  split_ifs with hk
  · exact AList.mem_erase
  · refine ⟨fun hj => ⟨?_, hj⟩, And.right⟩
    rintro rfl
    exact hk hj

theorem latest_supersede (r : BulkReceiver) (k : Nat) : (r.supersede k).latest = r.latest := by
  change (r.dropStream k).latest = r.latest
  rw [dropStream]
  split_ifs <;> rfl

/-- Superseding touches the streams it names and no version. -/
theorem foldl_supersede (ks : List Nat) :
    ∀ (r : BulkReceiver) {j : Nat}, j ∉ ks →
      (j ∈ (ks.foldl supersede r).streams ↔ j ∈ r.streams) ∧
        (ks.foldl supersede r).latest = r.latest := by
  induction ks with
  | nil => exact fun r j _ => ⟨Iff.rfl, rfl⟩
  | cons k ks ih =>
      intro r j hj
      obtain ⟨hne, hj⟩ := not_or.mp (mt List.mem_cons.mpr hj)
      obtain ⟨hmem, hlatest⟩ := ih (r.supersede k) hj
      have hstreams : j ∈ (r.supersede k).streams ↔ j ∈ r.streams := by
        refine (streams_dropStream r k j).trans ?_
        exact ⟨And.right, fun h => ⟨hne, h⟩⟩
      exact ⟨hmem.trans hstreams, hlatest.trans (latest_supersede r k)⟩

theorem nodup_stale (r : BulkReceiver) (id : Nat) (header : BulkHeader) :
    (r.stale id header).Nodup :=
  r.streams.keys_nodup.filter _

/-- What is stale is another stream that is open. -/
theorem mem_of_mem_stale {header : BulkHeader} {k : Nat} (h : k ∈ r.stale id header) :
    k ≠ id ∧ k ∈ r.streams := by
  obtain ⟨hmem, hstale⟩ := List.mem_filter.mp h
  exact ⟨(of_decide_eq_true hstale).1, hmem⟩

/-- A header takes out some older streams, its own among them if it is old. -/
theorem onHeader_keeps {header : BulkHeader}
    (h : Keeps bytesOf started ended gone
      { r with latest := r.latest.insert header.key (r.newest header) })
    (hid : id ∈ r.streams) :
    ∃ more, Keeps bytesOf started ended (gone ++ more) (r.onHeader id header) ∧
      (∀ p ∈ more, p.2 = .superseded) ∧ LatestLe r (r.onHeader id header) := by
  set r' := { r with latest := r.latest.insert header.key (r.newest header) } with hr'
  have hstale := h.dropAll (nodup_stale r' id header) fun k hk => (mem_of_mem_stale hk).2
  have hsuperseded : ∀ p ∈ (r'.stale id header).map fun k => (k, Outcome.superseded),
      p.2 = .superseded := by
    intro p hp
    obtain ⟨k, -, rfl⟩ := List.mem_map.mp hp
    rfl
  obtain ⟨hmem, hlatest⟩ := foldl_supersede (r'.stale id header) r' (j := id)
    fun hmem => (mem_of_mem_stale hmem).1 rfl
  have hle := (latestLe_raise r header).trans (.of_eq hlatest)
  rw [onHeader]
  simp only [← hr']
  split_ifs
  · refine ⟨_, List.append_assoc _ _ _ ▸ hstale.drop (hmem.mpr hid) .superseded, ?_, ?_⟩
    · intro p hp
      rcases List.mem_append.mp hp with hp | hp
      · exact hsuperseded p hp
      · rw [List.mem_singleton.mp hp]
    · exact hle.trans (.of_eq (latest_supersede _ _))
  · exact ⟨_, hstale, hsuperseded, hle⟩

theorem idsWith_of_superseded {more : List (Nat × Outcome)} (h : ∀ p ∈ more, p.2 = .superseded)
    {o : Outcome} (ho : o ≠ .superseded) : idsWith o more = [] := by
  rw [idsWith, List.map_eq_nil_iff, List.filter_eq_nil_iff]
  intro p hp hpo
  exact ho ((of_decide_eq_true hpo).symm.trans (h p hp))

/-- The call starts by changing no version. -/
theorem Leaves.of_latest {out : BulkReceiver × Except BulkError (Option BulkObject)}
    {r' : BulkReceiver} {more : List (Nat × Outcome)}
    (h : Leaves bytesOf started ended gone r' id out more) (hlatest : r'.latest = r.latest) :
    Leaves bytesOf started ended gone r id out more where
  keeps := h.keeps
  completed := h.completed
  rejected := h.rejected
  carries := h.carries
  newest := h.newest
  latest := (LatestLe.of_eq hlatest).trans h.latest

/-- Some streams are superseded before the call returns. -/
theorem Leaves.after {out : BulkReceiver × Except BulkError (Option BulkObject)} {r' : BulkReceiver}
    {before more : List (Nat × Outcome)}
    (h : Leaves bytesOf started ended (gone ++ before) r' id out more)
    (hbefore : ∀ p ∈ before, p.2 = .superseded) (hle : LatestLe r r') :
    Leaves bytesOf started ended gone r id out (before ++ more) where
  keeps := List.append_assoc _ _ _ ▸ h.keeps
  completed := by
    rw [idsWith_append, idsWith_of_superseded hbefore (by decide), List.nil_append,
      h.completed]
  rejected := by
    rw [idsWith_append, idsWith_of_superseded hbefore (by decide), List.nil_append,
      h.rejected]
  carries := h.carries
  newest := h.newest
  latest := hle.trans h.latest

/-! ## Data -/

/-- A stream that ends may only close more. -/
theorem Keeps.mono (h : Keeps bytesOf started ended gone r) {ended' : Nat → Prop}
    (hended : ∀ k, ended k → ended' k) : Keeps bytesOf started ended' gone r where
  reads := h.reads
  seen := h.seen
  nodup := h.nodup
  apart := h.apart
  known := h.known
  ignored k hk := (h.ignored k hk).imp_right (hended k)
  droppedGone := h.droppedGone
  counts := h.counts

/-- The entry of a stream, or a new one. -/
theorem Keeps.reads_entry (h : Keeps bytesOf started ended gone r) (hid : id ∉ gone.map Prod.fst)
    (hempty : ¬ started id → bytesOf id = []) : Reads (bytesOf id) (r.entry id) := by
  rw [entry]
  cases hp : r.streams.lookup id with
  | some p => exact h.reads id p hp
  | none =>
      have hnew : ¬ started id := by
        rw [h.known, not_or]
        exact ⟨AList.lookup_eq_none.mp hp, hid⟩
      rw [Option.getD_none, hempty hnew]
      exact ⟨fun _ => rfl, nofun⟩

/-- The newest version of a key is not behind any header that was read. -/
theorem Keeps.seen_entry (h : Keeps bytesOf started ended gone r) {header : BulkHeader}
    (hheader : (r.entry id).header = some header) :
    ∃ v ∈ r.latest.lookup header.key, header.version ≤ v := by
  rw [entry] at hheader
  cases hp : r.streams.lookup id with
  | some p =>
      rw [hp] at hheader
      exact h.seen id p header hp hheader
  | none =>
      rw [hp] at hheader
      exact absurd hheader.symm (Option.some_ne_none header)

/-- Data for a stream that is ignored. -/
theorem ignored_leaves (h : Keeps bytesOf started ended gone r) (hid : id ∈ r.dropped)
    {bytesOf' : Nat → Bytes} (hbytes : ∀ k, k ≠ id → bytesOf' k = bytesOf k) {started' : Nat → Prop}
    (hstarted : ∀ k, started' k ↔ k = id ∨ started k) {fin : Bool}
    (hended : fin = true → ended id) :
    Leaves bytesOf' started' ended gone r id
      ((if fin then { r with dropped := r.dropped.erase id } else r), .ok none) [] := by
  have hgone := h.droppedGone id hid
  have hreads : ∀ k p, r.streams.lookup k = some p → Reads (bytesOf' k) p := by
    intro k p hp
    rw [hbytes]
    · exact h.reads k p hp
    · rintro rfl
      exact h.apart k hgone (mem_iff_exists_lookup.mpr ⟨p, hp⟩)
  have hknown : ∀ k, started' k ↔ k ∈ r.streams ∨ k ∈ gone.map Prod.fst := by
    intro k
    rw [hstarted, h.known, or_iff_right_of_imp]
    rintro rfl
    exact .inr hgone
  have hkeeps : Keeps bytesOf' started' ended gone r :=
    ⟨hreads, h.seen, h.nodup, h.apart, hknown, h.ignored, h.droppedGone, h.counts⟩
  cases fin with
  | false => exact .nothing hkeeps
  | true =>
      refine ⟨?_, rfl, rfl, nofun, nofun, .of_eq rfl⟩
      rw [List.append_nil]
      refine ⟨hreads, h.seen, h.nodup, h.apart, hknown, ?_, ?_, h.counts⟩
      · intro k hk
        by_cases hkid : k = id
        · exact .inr (hkid ▸ hended rfl)
        · exact (h.ignored k hk).imp_left fun hk => Finset.mem_erase.mpr ⟨hkid, hk⟩
      · intro k hk
        exact h.droppedGone k (Finset.mem_of_mem_erase hk)

/-- Data for a stream that has not ended. -/
theorem onData_leaves (h : Keeps bytesOf started ended gone r) (hid : ¬ ended id) (data : Bytes)
    (fin : Bool) {bytesOf' : Nat → Bytes} (hbytes : ∀ k, k ≠ id → bytesOf' k = bytesOf k)
    (hown : bytesOf' id = bytesOf id ++ data) (hempty : ¬ started id → bytesOf id = [])
    {started' : Nat → Prop} (hstarted : ∀ k, started' k ↔ k = id ∨ started k)
    {ended' : Nat → Prop} (hended : ∀ k, ended k → ended' k) (hfin : fin = true → ended' id) :
    ∃ more, Leaves bytesOf' started' ended' gone r id (r.onData id data fin) more := by
  have hmono := h.mono hended
  rw [onData]
  by_cases hdropped : id ∈ r.dropped
  · rw [if_pos hdropped]
    exact ⟨[], ignored_leaves hmono hdropped hbytes hstarted hfin⟩
  have hgone : id ∉ gone.map Prod.fst := fun hmem => (h.ignored id hmem).elim hdropped hid
  have hreads := (h.reads_entry hgone hempty).append data
  rw [← hown] at hreads
  have hput := hmono.put hgone hbytes hstarted hreads fun header hsome => h.seen_entry hsome
  rw [if_neg hdropped]
  simp only
  split_ifs with hheader
  · obtain ⟨hnone, hlen⟩ := hheader
    have hraw : (r.entry id).bytes ++ data = bytesOf' id := hreads.none hnone
    rw [hraw] at hlen hput ⊢
    cases hdecode : BulkHeader.decode (bytesOf' id) with
    | error e =>
        exact ⟨_, (Leaves.reject hput (mem_put.mpr (.inl rfl)) e).of_latest rfl⟩
    | ok header =>
        have hread : Reads (bytesOf' id)
            { header := some header, bytes := (bytesOf' id).drop bulkHeaderLen } := by
          refine ⟨fun hno => absurd hno (Option.some_ne_none header), ?_⟩
          intro header' hsome
          exact ⟨Option.some.inj hsome ▸ hdecode, hlen, rfl⟩
        have hraise := (hmono.raise header).put hgone hbytes hstarted hread (by
          intro header' hsome
          obtain rfl := Option.some.inj hsome
          exact ⟨_, AList.lookup_insert _, le_max_right _ _⟩)
        have htwice : ∀ p q : Partial, (r.put id p).put id q = r.put id q := by
          intro p q
          rw [put, put, AList.insert_insert]
          rfl
        simp only [htwice]
        obtain ⟨before, hkeeps, hbefore, hle⟩ := onHeader_keeps (r := r.put id _) hraise
          (mem_put.mpr (.inl rfl))
        obtain ⟨more, hleaves⟩ := settle_leaves hkeeps hfin
        exact ⟨_, (hleaves.after hbefore hle).of_latest rfl⟩
  · obtain ⟨more, hleaves⟩ := settle_leaves hput hfin
    exact ⟨more, hleaves.of_latest rfl⟩

/-! ## Resets -/

/-- A stream that is reset, or was never open. -/
theorem onReset_keeps (h : Keeps bytesOf started ended gone r) (id : Nat) {ended' : Nat → Prop}
    (hended : ∀ k, ended k → ended' k) (hown : ended' id) :
    ∃ more, Keeps bytesOf started ended' (gone ++ more) (r.onReset id) ∧
      (∀ p ∈ more, p.2 = .superseded) ∧ (r.onReset id).latest = r.latest := by
  have hmono := h.mono hended
  rw [onReset]
  simp only
  split_ifs with hid
  · refine ⟨[(id, .superseded)], ?_, ?_, rfl⟩
    · refine hmono.leave hid .superseded (fun k hk => .inr (Finset.mem_of_mem_erase hk)) ?_
        (.inr hown)
      intro k hk
      by_cases hkid : k = id
      · exact .inr (hkid ▸ hown)
      · exact .inl (Finset.mem_erase.mpr ⟨hkid, hk⟩)
    · intro p hp
      rw [List.mem_singleton.mp hp]
  · refine ⟨[], ?_, nofun, rfl⟩
    rw [List.append_nil]
    refine ⟨h.reads, h.seen, h.nodup, h.apart, h.known, ?_, ?_, h.counts⟩
    · intro k hk
      by_cases hkid : k = id
      · exact .inr (hkid ▸ hown)
      · exact (hmono.ignored k hk).imp_left fun hk => Finset.mem_erase.mpr ⟨hkid, hk⟩
    · intro k hk
      exact h.droppedGone k (Finset.mem_of_mem_erase hk)

end

end BulkReceiver

end RoboTele
