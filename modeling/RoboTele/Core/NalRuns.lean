import RoboTele.Core.NalReassembler

/-!
# Runs of the NAL reassembler

Two invariants carry everything here.

* `PendingNal.Holds`: an entry holds what arrived for its id since the id was
  last not pending, and of several chunks with one index the first.  It holds
  whatever is fed, so `firstReceived_of_emits` says what every emission is.
* `Tracks`: the entries are those of the incomplete NALs, each with the chunks
  that arrived.  It holds of a `Delivery`, the chunks of NALs with distinct ids
  in any order.  Then eviction never happens, and a NAL is emitted at the last
  of its chunks (`Delivery.emitted_iff`).

`PendingNal.Matches` is the part of the second that speaks of one entry.
-/

namespace RoboTele

open Runs Past Slots

namespace NalReassembler

/-! ## What an entry holds -/

/-- A chunk with the number of its slot. -/
def numbered (c : Chunk) : Nat × Bytes := (c.1.chunkIndex.toNat, c.2)

/-- The number of chunks that a chunk flagged last tells. -/
def lastLength (c : Chunk) : Option Nat :=
  if c.1.isLast then some (c.1.chunkIndex.toNat + 1) else none

namespace PendingNal

/-- The entry holds what arrived, and of several chunks with one index the
first. -/
structure Holds (arrived : List Chunk) (e : PendingNal) : Prop where
  slots : ∀ i, slot e.chunks i = firstAt (arrived.map numbered) i
  bound : ∀ c ∈ arrived, c.1.chunkIndex.toNat < e.chunks.length
  total : e.total = latest lastLength arrived
  counted : e.Counted

theorem Holds.empty : PendingNal.empty.Holds [] where
  slots _ := rfl
  bound := nofun
  total := rfl
  counted := .empty

/-- An entry holds the chunks that have arrived. -/
theorem Holds.store {arrived : List Chunk} {e : PendingNal} (h : e.Holds arrived) (c : Chunk) :
    (e.store c.1 c.2).Holds (arrived ++ [c]) where
  slots i := by
    rw [slot_store, h.slots, List.map_append, List.map_singleton, numbered, firstAt_concat]
  bound c' hc' := by
    rw [length_store]
    rcases List.mem_append.mp hc' with hold | hnew
    · exact lt_max_of_lt_left (h.bound c' hold)
    · rw [List.mem_singleton.mp hnew]
      exact lt_max_of_lt_right (Nat.lt_succ_self _)
  total := by
    rw [latest_append, latest_singleton, lastLength, ← h.total, PendingNal.store]
    cases c.1.isLast <;> rfl
  counted := h.counted.store c.1 c.2

/-- The bytes are the payloads that arrived first for the indices up to `k`, and
a chunk with index `k` was flagged last. -/
structure FirstReceived (arrived : List Chunk) (k : Nat) (b : Bytes) : Prop where
  payloads : ∃ ps : List Bytes, b = ps.flatten ∧
    (List.range (k + 1)).map (firstAt (arrived.map numbered)) = ps.map some
  last : ∃ c ∈ arrived, c.1.chunkIndex.toNat = k ∧ c.1.isLast = true
  bound : ∀ c ∈ arrived, c.1.chunkIndex.toNat ≤ k

/-- A NAL is complete when all its chunks are there. -/
theorem complete_iff {e : PendingNal} :
    e.complete = true ↔ e.total = some e.received ∧ full e.chunks = true := by
  rw [complete, Bool.and_eq_true, decide_eq_true_iff]

/-- A complete entry has as many slots as it was told. -/
theorem Counted.total_of_complete {e : PendingNal} (h : e.Counted) (hcomplete : e.complete = true) :
    e.total = some e.chunks.length := by
  obtain ⟨htotal, hfull⟩ := complete_iff.mp hcomplete
  rw [htotal, h, filled_of_full hfull]

/-- A complete entry holds the first copy of each chunk. -/
theorem Holds.firstReceived {arrived : List Chunk} {e : PendingNal} (h : e.Holds arrived)
    (hcomplete : e.complete = true) : ∃ k, FirstReceived arrived k e.bytes := by
  have hfull := (complete_iff.mp hcomplete).2
  have hlatest := h.total.symm.trans (h.counted.total_of_complete hcomplete)
  obtain ⟨c, hc, hlast⟩ := List.mem_filterMap.mp (List.mem_of_getLast? hlatest)
  rw [lastLength] at hlast
  split_ifs at hlast with hflag
  have hlength := Option.some.inj hlast
  refine ⟨c.1.chunkIndex.toNat, ⟨⟨e.chunks.reduceOption, rfl, ?_⟩, ⟨c, hc, rfl, hflag⟩, ?_⟩⟩
  · rw [hlength, map_some_reduceOption hfull]
    conv_rhs => rw [← map_slot_range e.chunks]
    exact List.map_congr_left fun i _ => (h.slots i).symm
  · intro c' hc'
    have hbound := h.bound c' hc'
    omega

end PendingNal

/-! ## Entries of one NAL -/

namespace PendingNal

/-- Everything the entry holds is of this NAL. -/
structure Matches (n : Nal) (e : PendingNal) : Prop where
  slots : ∀ i p, slot e.chunks i = some p →
    i < chunkCount n.nal.length ∧ p = chunkPayload n.nal i
  bound : e.chunks.length ≤ chunkCount n.nal.length
  total : e.total = none ∨ e.total = some (chunkCount n.nal.length)
  last : (slot e.chunks (chunkCount n.nal.length - 1)).isSome →
    e.total = some (chunkCount n.nal.length)

variable {n : Nal} {e : PendingNal}

/-- Only the slots that are there matter. -/
theorem matches_iff : e.Matches n ↔
    (∀ i < e.chunks.length, ∀ p ∈ slot e.chunks i,
      i < chunkCount n.nal.length ∧ p = chunkPayload n.nal i) ∧
    e.chunks.length ≤ chunkCount n.nal.length ∧
    (e.total = none ∨ e.total = some (chunkCount n.nal.length)) ∧
    ((slot e.chunks (chunkCount n.nal.length - 1)).isSome →
      e.total = some (chunkCount n.nal.length)) := by
  constructor
  · intro h
    exact ⟨fun i _ p hp => h.slots i p hp, h.bound, h.total, h.last⟩
  · rintro ⟨hslots, hbound, htotal, hlast⟩
    refine ⟨?_, hbound, htotal, hlast⟩
    intro i p hp
    refine hslots i ?_ p hp
    by_contra hlt
    rw [slot_of_le (Nat.not_lt.mp hlt)] at hp
    exact absurd hp.symm (Option.some_ne_none p)

instance (n : Nal) (e : PendingNal) : Decidable (e.Matches n) :=
  decidable_of_iff _ matches_iff.symm

theorem Matches.empty : PendingNal.empty.Matches n where
  slots i p h := by simp [PendingNal.empty] at h
  bound := Nat.zero_le _
  total := .inl rfl
  last h := by simp [PendingNal.empty] at h

/-- The number of a chunk of a NAL that fits fits. -/
theorem toNat_chunkIndex {i : Nat} (hfits : chunkCount n.nal.length ≤ 65536)
    (hi : i < chunkCount n.nal.length) : (chunkParts n i).1.chunkIndex.toNat = i :=
  UInt16.toNat_ofNat_of_lt (hi.trans_le hfits)

theorem slot_store_chunkParts {i : Nat} (hfits : chunkCount n.nal.length ≤ 65536)
    (hi : i < chunkCount n.nal.length) (j : Nat) :
    slot (e.store (chunkParts n i).1 (chunkParts n i).2).chunks j =
      (slot e.chunks j).or (if i = j then some (chunkPayload n.nal i) else none) := by
  rw [slot_store, toNat_chunkIndex hfits hi]
  rfl

/-- A chunk of the NAL keeps the entry matching it. -/
theorem Matches.store (h : e.Matches n) {i : Nat} (hfits : chunkCount n.nal.length ≤ 65536)
    (hi : i < chunkCount n.nal.length) :
    (e.store (chunkParts n i).1 (chunkParts n i).2).Matches n where
  slots j p hp := by
    rw [slot_store_chunkParts hfits hi, Option.or_eq_some_iff] at hp
    rcases hp with hold | ⟨-, hnew⟩
    · exact h.slots j p hold
    · split_ifs at hnew with hij
      exact hij ▸ ⟨hi, (Option.some.inj hnew).symm⟩
  bound := by
    rw [length_store, toNat_chunkIndex hfits hi]
    exact max_le h.bound hi
  total := by
    simp only [PendingNal.store, toNat_chunkIndex hfits hi]
    split_ifs with hlast
    · exact .inr (congrArg some (of_decide_eq_true hlast))
    · exact h.total
  last hslot := by
    simp only [PendingNal.store, toNat_chunkIndex hfits hi]
    split_ifs with hlast
    · exact congrArg some (of_decide_eq_true hlast)
    · refine h.last ?_
      have hne : i ≠ chunkCount n.nal.length - 1 := by
        rintro rfl
        exact hlast (decide_eq_true (by omega))
      rwa [slot_store_chunkParts hfits hi, if_neg hne, Option.or_none] at hslot

/-- An entry that matches a NAL is complete when it has every chunk of it. -/
theorem Matches.complete_iff (h : e.Matches n) (hcounted : e.Counted) (hne : n.nal ≠ []) :
    e.complete = true ↔ ∀ i < chunkCount n.nal.length, (slot e.chunks i).isSome := by
  have hpos := chunkCount_pos hne
  constructor
  · intro hcomplete
    have htotal := hcounted.total_of_complete hcomplete
    have hlen : e.chunks.length = chunkCount n.nal.length := by
      rcases h.total with hnone | hsome
      · rw [hnone] at htotal
        exact absurd htotal.symm (Option.some_ne_none _)
      · exact Option.some.inj (htotal.symm.trans hsome)
    exact hlen ▸ full_iff.mp (PendingNal.complete_iff.mp hcomplete).2
  · intro hall
    have hlen : e.chunks.length = chunkCount n.nal.length := by
      refine h.bound.antisymm ?_
      by_contra hlt
      have hlast := hall (chunkCount n.nal.length - 1) (by omega)
      rw [slot_of_le (by omega)] at hlast
      exact absurd hlast (by simp)
    have hfull : full e.chunks = true := full_iff.mpr (hlen ▸ hall)
    rw [PendingNal.complete_iff, hcounted, filled_of_full hfull, hlen]
    exact ⟨h.last (hall _ (by omega)), hfull⟩

/-- A complete entry of a NAL holds the NAL. -/
theorem Matches.bytes_eq (h : e.Matches n) (hcounted : e.Counted) (hne : n.nal ≠ [])
    (hcomplete : e.complete = true) : e.bytes = n.nal := by
  have hall := (h.complete_iff hcounted hne).mp hcomplete
  have hchunks : e.chunks =
      ((List.range (chunkCount n.nal.length)).map (chunkPayload n.nal)).map some := by
    have hlen : chunkCount n.nal.length ≤ e.chunks.length := by
      by_contra hlt
      have hlast := hall e.chunks.length (by omega)
      rw [slot_of_le le_rfl] at hlast
      exact absurd hlast (by simp)
    refine eq_map_some (by simpa using h.bound.antisymm hlen) ?_
    intro i hi
    have hi' := hi.trans_le h.bound
    obtain ⟨p, hp⟩ := Option.isSome_iff_exists.mp (hall i hi')
    rw [hp, (h.slots i p hp).2, List.getElem?_map, List.getElem?_range hi']
    rfl
  rw [bytes, hchunks, reduceOption_map_some, flatten_chunkPayload]

end PendingNal

/-! ## Runs -/

/-- A chunk arrives. -/
def step (r : NalReassembler) (c : Chunk) : NalReassembler := (r.onChunk c.1 c.2).1

/-- The reassembler after a list of chunks. -/
def after (maxPending : Nat) (cs : List Chunk) : NalReassembler := exec step (new maxPending) cs

theorem after_concat (maxPending : Nat) (cs : List Chunk) (c : Chunk) :
    after maxPending (cs ++ [c]) = (after maxPending cs).step c :=
  exec_concat step (new maxPending) cs c

/-- No run has more than `maxPending` ids pending. -/
theorem length_keys_after (maxPending : Nat) (cs : List Chunk) :
    (after maxPending cs).pending.keys.length ≤ maxPending := by
  have hinv : (after maxPending cs).maxPending = maxPending ∧
      (after maxPending cs).pending.keys.length ≤ maxPending := by
    refine exec_inv (I := fun r : NalReassembler =>
      r.maxPending = maxPending ∧ r.pending.keys.length ≤ maxPending) ?_ cs ⟨rfl, Nat.zero_le _⟩
    rintro r c ⟨hmax, hlen⟩
    refine ⟨(maxPending_onChunk r c.1 c.2).trans hmax, ?_⟩
    exact hmax ▸ length_keys_onChunk (hmax ▸ hlen) c.1 c.2
  exact hinv.2

/-- `arrived` are the chunks of an id since it was last not pending. -/
def ArrivedSincePending (maxPending : Nat) (cs : List Chunk) (id : UInt32)
    (arrived : List Chunk) : Prop :=
  ∃ before since, cs = before ++ since ∧ arrived = since.filter (fun c => c.1.nalId = id) ∧
    id ∉ (after maxPending before).pending ∧
    ∀ part, part <+: since → part ≠ [] → id ∈ (after maxPending (before ++ part)).pending

section

variable {maxPending : Nat} {cs : List Chunk} {id : UInt32} {arrived : List Chunk}

/-- Of a NAL that is not pending nothing counts. -/
theorem ArrivedSincePending.of_not_pending (h : id ∉ (after maxPending cs).pending) :
    ArrivedSincePending maxPending cs id [] := by
  refine ⟨cs, [], (List.append_nil cs).symm, rfl, h, ?_⟩
  intro part hpart hne
  exact absurd (List.prefix_nil.mp hpart) hne

/-- An id that stays pending. -/
theorem ArrivedSincePending.concat (h : ArrivedSincePending maxPending cs id arrived) {c : Chunk}
    (hpending : id ∈ (after maxPending (cs ++ [c])).pending) :
    ArrivedSincePending maxPending (cs ++ [c]) id
      (arrived ++ [c].filter (fun c => c.1.nalId = id)) := by
  obtain ⟨before, since, rfl, rfl, hbefore, hsince⟩ := h
  refine ⟨before, since ++ [c], List.append_assoc _ _ _, (List.filter_append _ _).symm, hbefore, ?_⟩
  intro part hpart hne
  rcases List.prefix_concat_iff.mp hpart with rfl | hpart
  · rwa [← List.append_assoc]
  · exact hsince part hpart hne

/-- At every moment, what is pending under an id is what arrived since the id
was last not pending. -/
theorem exists_arrivedSincePending (maxPending : Nat) (cs : List Chunk) (id : UInt32) :
    ∃ arrived, ArrivedSincePending maxPending cs id arrived ∧
      (((after maxPending cs).pending.lookup id).getD .empty).Holds arrived := by
  induction cs using List.reverseRecOn with
  | nil => exact ⟨[], .of_not_pending (AList.notMem_empty id), .empty⟩
  | append_singleton cs c ih =>
      by_cases hpending : id ∈ (after maxPending (cs ++ [c])).pending
      · obtain ⟨arrived, hsince, hholds⟩ := ih
        refine ⟨_, hsince.concat hpending, ?_⟩
        rw [after_concat, step] at hpending ⊢
        by_cases hid : c.1.nalId = id
        · subst hid
          rcases lookup_onChunk_self (after maxPending cs) c.1 c.2 with hnone | hsome
          · exact absurd hpending (AList.lookup_eq_none.mp hnone)
          · rw [hsome, List.filter_singleton, decide_eq_true rfl]
            exact hholds.store c
        · rcases lookup_onChunk_ne (after maxPending cs) c.1 c.2 (Ne.symm hid) with hnone | hsame
          · exact absurd hpending (AList.lookup_eq_none.mp hnone)
          · rw [hsame, List.filter_singleton, decide_eq_false hid]
            simpa using hholds
      · refine ⟨[], .of_not_pending hpending, ?_⟩
        rw [AList.lookup_eq_none.mpr hpending]
        exact .empty

/-- Whatever was fed, an emission is what arrived first for each index. -/
theorem firstReceived_of_emits (maxPending : Nat) (cs : List Chunk) (c : Chunk) {b : Bytes}
    (hemits : ((after maxPending cs).onChunk c.1 c.2).2 = some b) :
    ∃ arrived k, ArrivedSincePending maxPending cs c.1.nalId arrived ∧
      PendingNal.FirstReceived (arrived ++ [c]) k b := by
  obtain ⟨arrived, hsince, hholds⟩ := exists_arrivedSincePending maxPending cs c.1.nalId
  by_cases hcomplete : ((after maxPending cs).stored c.1 c.2).complete = true
  · rw [onChunk_of_complete hcomplete] at hemits
    obtain ⟨k, hk⟩ := (hholds.store c).firstReceived hcomplete
    exact ⟨arrived, k, hsince, Option.some.inj hemits ▸ hk⟩
  · rw [onChunk_of_not_complete hcomplete] at hemits
    exact absurd hemits (Option.some_ne_none b).symm

end

/-! ## NALs in chunks, in any order -/

/-- Feed one datagram, with the id and the bytes of the NAL it completes. -/
def onDatagram (r : NalReassembler) (d : Bytes) : NalReassembler × Option (UInt32 × Bytes) :=
  match ChunkHeader.decode d with
  | none => (r, none)
  | some (header, payload) =>
      ((r.onChunk header payload).1,
        (r.onChunk header payload).2.map fun nal => (header.nalId, nal))

/-- The reassembler after a list of datagrams. -/
def afterDatagrams (maxPending : Nat) (ds : List Bytes) : NalReassembler :=
  exec (fun r d => (r.onDatagram d).1) (new maxPending) ds

/-- What the `k`-th datagram completes. -/
def emitted (maxPending : Nat) (ds : List Bytes) (k : Nat) : Option (UInt32 × Bytes) :=
  ds[k]?.bind fun d => ((afterDatagrams maxPending (ds.take k)).onDatagram d).2

/-- A datagram with a chunk is that chunk. -/
theorem onDatagram_chunk (r : NalReassembler) (n : Nal) (i : Nat) :
    r.onDatagram (chunk n.nalId n.nal i) =
      ((r.onChunk (chunkParts n i).1 (chunkParts n i).2).1,
        (r.onChunk (chunkParts n i).1 (chunkParts n i).2).2.map fun nal => (n.nalId, nal)) := by
  rw [onDatagram, decode_chunk]
  rfl

end NalReassembler

namespace Nal

/-- What the robot sends of a NAL. -/
def chunks (n : Nal) : List Bytes := chunkNal n.nalId n.nal

/-- Some of its chunks arrived and some did not. -/
def IncompleteIn (n : Nal) (ds : List Bytes) : Prop :=
  (∃ d ∈ n.chunks, d ∈ ds) ∧ ∃ d ∈ n.chunks, d ∉ ds

instance (n : Nal) (ds : List Bytes) : Decidable (n.IncompleteIn ds) :=
  inferInstanceAs (Decidable (_ ∧ _))

/-- The `k`-th datagram is the last of its chunks to arrive. -/
def LastArrivesAt (n : Nal) (ds : List Bytes) (k : Nat) : Prop :=
  (∀ d ∈ n.chunks, d ∈ ds.take (k + 1)) ∧ ∃ d ∈ n.chunks, d ∉ ds.take k

/-- The chunks of a NAL are its datagrams. -/
theorem mem_chunks {n : Nal} {d : Bytes} :
    d ∈ n.chunks ↔ ∃ i < chunkCount n.nal.length, chunk n.nalId n.nal i = d := by
  simp [chunks, chunkNal]

theorem forall_mem_chunks {n : Nal} {p : Bytes → Prop} :
    (∀ d ∈ n.chunks, p d) ↔ ∀ i < chunkCount n.nal.length, p (chunk n.nalId n.nal i) := by
  simp [chunks, chunkNal]

/-- A chunk tells the id of its NAL. -/
theorem nalId_eq_of_mem {n m : Nal} {d : Bytes} (hn : d ∈ n.chunks) (hm : d ∈ m.chunks) :
    n.nalId = m.nalId := by
  obtain ⟨i, -, rfl⟩ := mem_chunks.mp hn
  obtain ⟨j, -, heq⟩ := mem_chunks.mp hm
  have hparts := (decode_chunk m j).symm.trans ((congrArg _ heq).trans (decode_chunk n i))
  exact (congrArg (fun c => c.1.nalId) (Option.some.inj hparts)).symm

/-- Distinct chunks of a NAL that fits are distinct byte strings. -/
theorem chunk_inj {n : Nal} (hfits : chunkCount n.nal.length ≤ 65536) {i j : Nat}
    (hi : i < chunkCount n.nal.length) (hj : j < chunkCount n.nal.length)
    (heq : chunk n.nalId n.nal i = chunk n.nalId n.nal j) : i = j := by
  have hparts := (decode_chunk n i).symm.trans ((congrArg _ heq).trans (decode_chunk n j))
  have hindex := congrArg (fun c => c.1.chunkIndex.toNat) (Option.some.inj hparts)
  rwa [NalReassembler.PendingNal.toNat_chunkIndex hfits hi,
    NalReassembler.PendingNal.toNat_chunkIndex hfits hj] at hindex

/-- No two of them are the same. -/
theorem nodup_chunks {n : Nal} (hfits : chunkCount n.nal.length ≤ 65536) : n.chunks.Nodup := by
  refine List.Nodup.map_on ?_ List.nodup_range
  intro i hi j hj heq
  exact chunk_inj hfits (List.mem_range.mp hi) (List.mem_range.mp hj) heq

/-- The last chunk of a NAL arrives once. -/
theorem LastArrivesAt.unique {n : Nal} {ds : List Bytes} {k l : Nat} (hk : n.LastArrivesAt ds k)
    (hl : n.LastArrivesAt ds l) : k = l := by
  have hle : ∀ {k l : Nat}, n.LastArrivesAt ds k → n.LastArrivesAt ds l → l ≤ k := by
    intro k l hk hl
    by_contra hlt
    obtain ⟨d, hd, hmissing⟩ := hl.2
    exact hmissing (List.take_subset_take_left ds (by omega) (hk.1 d hd))
  exact (hle hl hk).antisymm (hle hk hl)

/-- A NAL all of whose chunks arrive has a last one. -/
theorem exists_lastArrivesAt {n : Nal} {ds : List Bytes} (hne : n.nal ≠ [])
    (hall : ∀ d ∈ n.chunks, d ∈ ds) : ∃ k < ds.length, n.LastArrivesAt ds k := by
  have hex : ∃ k, ∀ d ∈ n.chunks, d ∈ ds.take k := ⟨ds.length, by simpa using hall⟩
  obtain ⟨k, hk⟩ : ∃ k, Nat.find hex = k + 1 := by
    refine Nat.exists_eq_succ_of_ne_zero fun hzero => ?_
    have hnone := hzero ▸ Nat.find_spec hex
    exact absurd (hnone _ (mem_chunks.mpr ⟨0, chunkCount_pos hne, rfl⟩)) (by simp)
  have hmissing : ∃ d ∈ n.chunks, d ∉ ds.take k := by
    have hnot := Nat.find_min hex (m := k) (by omega)
    simpa only [not_forall, exists_prop] using hnot
  refine ⟨k, ?_, hk ▸ Nat.find_spec hex, hmissing⟩
  by_contra hle
  obtain ⟨d, hd, hnot⟩ := hmissing
  rw [List.take_of_length_le (by omega)] at hnot
  exact hnot (hall d hd)

end Nal

namespace NalReassembler

/-- NALs with distinct ids whose chunks arrive in some order, each once, with
never more than `maxPending` NALs incomplete. -/
structure Delivery (nals : List Nal) (maxPending : Nat) (ds : List Bytes) : Prop where
  ids : (nals.map Nal.nalId).Nodup
  nonempty : ∀ n ∈ nals, n.nal ≠ []
  fits : ∀ n ∈ nals, n.nal.length ≤ 65536 * maxChunkPayload
  perm : ds.Perm (nals.flatMap Nal.chunks)
  room : ∀ k, (nals.filter fun n => n.IncompleteIn (ds.take k)).length ≤ maxPending

section

variable {nals : List Nal} {maxPending : Nat} {ds q : List Bytes} {r : NalReassembler} {n : Nal}

/-- Every NAL of a delivery has at most 65536 chunks. -/
theorem Delivery.chunkCount_le (h : Delivery nals maxPending ds) (hn : n ∈ nals) :
    chunkCount n.nal.length ≤ 65536 :=
  RoboTele.chunkCount_le (h.fits n hn)

/-- The NAL with an id. -/
theorem Delivery.eq_of_nalId (h : Delivery nals maxPending ds) {m : Nal} (hn : n ∈ nals)
    (hm : m ∈ nals) (hid : n.nalId = m.nalId) : n = m :=
  List.inj_on_of_nodup_map h.ids hn hm hid

/-- No datagram of a delivery comes twice. -/
theorem Delivery.nodup (h : Delivery nals maxPending ds) : ds.Nodup := by
  refine h.perm.nodup_iff.mpr (List.nodup_flatMap.mpr ⟨?_, ?_⟩)
  · intro n hn
    exact Nal.nodup_chunks (h.chunkCount_le hn)
  · refine (List.pairwise_map.mp h.ids).imp ?_
    intro n m hne d hdn hdm
    exact hne (Nal.nalId_eq_of_mem hdn hdm)

/-- What the entry of a chunk's NAL is once the chunk is in it. -/
structure StoredOf (n : Nal) (q : List Bytes) (e : PendingNal) : Prop where
  entryMatches : e.Matches n
  counted : e.Counted
  slots : ∀ i < chunkCount n.nal.length,
    (slot e.chunks i).isSome ↔ chunk n.nalId n.nal i ∈ q

theorem StoredOf.empty (h : ∀ d ∈ n.chunks, d ∉ q) : StoredOf n q .empty where
  entryMatches := .empty
  counted := .empty
  slots i hi := by
    simpa [PendingNal.empty] using h _ (Nal.mem_chunks.mpr ⟨i, hi, rfl⟩)

/-- A chunk that arrives is stored. -/
theorem StoredOf.store {e : PendingNal} (h : StoredOf n q e) {i : Nat}
    (hfits : chunkCount n.nal.length ≤ 65536) (hi : i < chunkCount n.nal.length) :
    StoredOf n (q ++ [chunk n.nalId n.nal i])
      (e.store (chunkParts n i).1 (chunkParts n i).2) where
  entryMatches := h.entryMatches.store hfits hi
  counted := h.counted.store _ _
  slots j hj := by
    rw [PendingNal.slot_store_chunkParts hfits hi, List.mem_append, List.mem_singleton,
      ← h.slots j hj]
    by_cases hij : i = j
    · simp [hij]
    · have hne : chunk n.nalId n.nal j ≠ chunk n.nalId n.nal i :=
        fun heq => hij (Nal.chunk_inj hfits hi hj heq.symm)
      simp [hij, hne]

/-- A chunk of another NAL changes nothing for this one. -/
theorem StoredOf.of_notMem {e : PendingNal} (h : StoredOf n q e) {d : Bytes} (hd : d ∉ n.chunks) :
    StoredOf n (q ++ [d]) e where
  entryMatches := h.entryMatches
  counted := h.counted
  slots i hi := by
    have hne : chunk n.nalId n.nal i ≠ d := fun heq => hd (Nal.mem_chunks.mpr ⟨i, hi, heq⟩)
    rw [h.slots i hi, List.mem_append, List.mem_singleton, or_iff_left hne]

/-- It is complete when every chunk of the NAL arrived. -/
theorem StoredOf.complete_iff {e : PendingNal} (h : StoredOf n q e) (hne : n.nal ≠ []) :
    e.complete = true ↔ ∀ d ∈ n.chunks, d ∈ q := by
  rw [h.entryMatches.complete_iff h.counted hne, Nal.forall_mem_chunks]
  exact forall₂_congr h.slots

/-- The entries are those of the incomplete NALs, with the chunks in `q`. -/
structure Tracks (nals : List Nal) (q : List Bytes) (r : NalReassembler) : Prop where
  known : ∀ id ∈ r.pending, ∃ n ∈ nals, n.nalId = id ∧ n.IncompleteIn q
  entry : ∀ n ∈ nals, n.IncompleteIn q →
    ∃ e, r.pending.lookup n.nalId = some e ∧ StoredOf n q e

/-- No more entries than NALs that are incomplete. -/
theorem length_keys_le
    (hknown : ∀ id ∈ r.pending, ∃ n ∈ nals, n.nalId = id ∧ n.IncompleteIn q) :
    r.pending.keys.length ≤ (nals.filter fun n => n.IncompleteIn q).length := by
  have hlength : ((nals.filter fun n => n.IncompleteIn q).map Nal.nalId).length =
      (nals.filter fun n => n.IncompleteIn q).length := List.length_map _
  rw [← hlength]
  refine (r.pending.keys_nodup.subperm ?_).length_le
  intro id hid
  obtain ⟨n, hn, rfl, hincomplete⟩ := hknown id (AList.mem_keys.mpr hid)
  exact List.mem_map_of_mem (List.mem_filter.mpr ⟨hn, decide_eq_true hincomplete⟩)

/-- The chunks of other NALs leave a NAL as incomplete as it was. -/
theorem incompleteIn_concat_iff {d : Bytes} (hd : d ∉ n.chunks) :
    n.IncompleteIn (q ++ [d]) ↔ n.IncompleteIn q := by
  have hmem : ∀ c ∈ n.chunks, (c ∈ q ++ [d] ↔ c ∈ q) := by
    intro c hc
    rw [List.mem_append, List.mem_singleton, or_iff_left]
    rintro rfl
    exact hd hc
  refine and_congr ?_ ?_
  · exact exists_congr fun c => and_congr_right fun hc => hmem c hc
  · exact exists_congr fun c => and_congr_right fun hc => not_congr (hmem c hc)

/-- The entry of a NAL, or a new one, before its next chunk. -/
theorem Tracks.storedOf (h : Tracks nals q r) (hids : (nals.map Nal.nalId).Nodup) (hn : n ∈ nals)
    (hmissing : ∃ d ∈ n.chunks, d ∉ q) :
    StoredOf n q ((r.pending.lookup n.nalId).getD .empty) := by
  by_cases hincomplete : n.IncompleteIn q
  · obtain ⟨e, he, hstored⟩ := h.entry n hn hincomplete
    rwa [he]
  · have hnone : r.pending.lookup n.nalId = none := by
      rw [AList.lookup_eq_none]
      intro hmem
      obtain ⟨m, hm, hid, hm'⟩ := h.known _ hmem
      exact hincomplete (List.inj_on_of_nodup_map hids hm hn hid ▸ hm')
    rw [hnone]
    refine .empty ?_
    intro d hd hmem
    exact hincomplete ⟨⟨d, hd, hmem⟩, hmissing⟩

/-- Nothing is evicted while the incomplete NALs have room. -/
theorem Tracks.evict (h : Tracks nals q r)
    (hroom : (nals.filter fun n => n.IncompleteIn q).length ≤ r.maxPending) :
    Tracks nals q r.evict := by
  rwa [evict_of_le ((length_keys_le h.known).trans hroom)]

/-- A chunk of a NAL is no chunk of another one. -/
theorem notMem_chunks_of_ne {m : Nal} (hids : (nals.map Nal.nalId).Nodup) (hn : n ∈ nals)
    (hm : m ∈ nals) (hne : m ≠ n) {d : Bytes} (hd : d ∈ n.chunks) : d ∉ m.chunks :=
  fun hdm => hne (List.inj_on_of_nodup_map hids hm hn (Nal.nalId_eq_of_mem hdm hd))

/-- The last chunk of a NAL removes its entry. -/
theorem Tracks.erase (h : Tracks nals q r) (hids : (nals.map Nal.nalId).Nodup) (hn : n ∈ nals)
    {d : Bytes} (hd : d ∈ n.chunks) (hall : ∀ c ∈ n.chunks, c ∈ q ++ [d]) :
    Tracks nals (q ++ [d]) { r with pending := r.pending.erase n.nalId } where
  known id hid := by
    obtain ⟨hne, hmem⟩ := AList.mem_erase.mp hid
    obtain ⟨m, hm, rfl, hincomplete⟩ := h.known id hmem
    have hmn : m ≠ n := fun heq => hne (congrArg Nal.nalId heq)
    exact ⟨m, hm, rfl,
      (incompleteIn_concat_iff (notMem_chunks_of_ne hids hn hm hmn hd)).mpr hincomplete⟩
  entry m hm hincomplete := by
    have hmn : m ≠ n := by
      rintro rfl
      obtain ⟨c, hc, hmissing⟩ := hincomplete.2
      exact hmissing (hall c hc)
    have hdm := notMem_chunks_of_ne hids hn hm hmn hd
    obtain ⟨e, he, hstored⟩ := h.entry m hm ((incompleteIn_concat_iff hdm).mp hincomplete)
    refine ⟨e, ?_, hstored.of_notMem hdm⟩
    exact (AList.lookup_erase_ne fun heq => hmn (List.inj_on_of_nodup_map hids hm hn heq)).trans he

/-- Any other chunk leaves its NAL with an entry. -/
theorem Tracks.insert (h : Tracks nals q r) (hids : (nals.map Nal.nalId).Nodup) (hn : n ∈ nals)
    {d : Bytes} (hd : d ∈ n.chunks) (hmissing : ∃ c ∈ n.chunks, c ∉ q ++ [d]) {e : PendingNal}
    (he : StoredOf n (q ++ [d]) e) :
    Tracks nals (q ++ [d]) { r with pending := r.pending.insert n.nalId e } where
  known id hid := by
    rcases (AList.mem_insert _).mp hid with rfl | hmem
    · exact ⟨n, hn, rfl, ⟨d, hd, List.mem_concat_self⟩, hmissing⟩
    · obtain ⟨m, hm, rfl, hincomplete⟩ := h.known id hmem
      by_cases hmn : m = n
      · subst hmn
        exact ⟨m, hm, rfl, ⟨d, hd, List.mem_concat_self⟩, hmissing⟩
      · exact ⟨m, hm, rfl,
          (incompleteIn_concat_iff (notMem_chunks_of_ne hids hn hm hmn hd)).mpr hincomplete⟩
  entry m hm hincomplete := by
    by_cases hmn : m = n
    · subst hmn
      exact ⟨e, AList.lookup_insert _, he⟩
    · have hdm := notMem_chunks_of_ne hids hn hm hmn hd
      obtain ⟨e', he', hstored⟩ := h.entry m hm ((incompleteIn_concat_iff hdm).mp hincomplete)
      refine ⟨e', ?_, hstored.of_notMem hdm⟩
      exact (AList.lookup_insert_ne
        fun heq => hmn (List.inj_on_of_nodup_map hids hm hn heq)).trans he'

/-- One more chunk. -/
theorem Tracks.onDatagram (h : Tracks nals q r) (hids : (nals.map Nal.nalId).Nodup)
    (hn : n ∈ nals) (hne : n.nal ≠ []) (hfits : chunkCount n.nal.length ≤ 65536) {i : Nat}
    (hi : i < chunkCount n.nal.length) (hnew : chunk n.nalId n.nal i ∉ q)
    (hroom : (nals.filter fun m => m.IncompleteIn (q ++ [chunk n.nalId n.nal i])).length ≤
      r.maxPending) :
    Tracks nals (q ++ [chunk n.nalId n.nal i]) (r.onDatagram (chunk n.nalId n.nal i)).1 ∧
      (r.onDatagram (chunk n.nalId n.nal i)).2 =
        if ∀ d ∈ n.chunks, d ∈ q ++ [chunk n.nalId n.nal i] then some (n.nalId, n.nal)
        else none := by
  have hd : chunk n.nalId n.nal i ∈ n.chunks := Nal.mem_chunks.mpr ⟨i, hi, rfl⟩
  have hstored : StoredOf n (q ++ [chunk n.nalId n.nal i])
      (r.stored (chunkParts n i).1 (chunkParts n i).2) :=
    (h.storedOf hids hn ⟨_, hd, hnew⟩).store hfits hi
  rw [onDatagram_chunk]
  by_cases hall : ∀ d ∈ n.chunks, d ∈ q ++ [chunk n.nalId n.nal i]
  · have hcomplete := (hstored.complete_iff hne).mpr hall
    rw [onChunk_of_complete hcomplete, if_pos hall,
      hstored.entryMatches.bytes_eq hstored.counted hne hcomplete]
    exact ⟨(h.erase hids hn hd hall).evict hroom, rfl⟩
  · rw [onChunk_of_not_complete (mt (hstored.complete_iff hne).mp hall), if_neg hall]
    have hmissing : ∃ d ∈ n.chunks, d ∉ q ++ [chunk n.nalId n.nal i] := by
      simpa only [not_forall, exists_prop] using hall
    exact ⟨(h.insert hids hn hd hmissing hstored).evict hroom, rfl⟩

@[simp] theorem maxPending_onDatagram (r : NalReassembler) (d : Bytes) :
    (r.onDatagram d).1.maxPending = r.maxPending := by
  rw [onDatagram]
  split
  · rfl
  · exact maxPending_onChunk _ _ _

/-- The datagram after the first `k`. -/
theorem Delivery.exists_chunk (h : Delivery nals maxPending ds) {k : Nat} (hk : k < ds.length) :
    ∃ n ∈ nals, ∃ i < chunkCount n.nal.length, ds[k] = chunk n.nalId n.nal i := by
  obtain ⟨n, hn, hd⟩ := List.mem_flatMap.mp (h.perm.mem_iff.mp (List.getElem_mem hk))
  obtain ⟨i, hi, heq⟩ := Nal.mem_chunks.mp hd
  exact ⟨n, hn, i, hi, heq.symm⟩

theorem Delivery.notMem_take (h : Delivery nals maxPending ds) {k : Nat} (hk : k < ds.length) :
    ds[k] ∉ ds.take k := by
  intro hmem
  obtain ⟨j, hj, heq⟩ := List.getElem_of_mem hmem
  rw [List.length_take] at hj
  rw [List.getElem_take] at heq
  have hjk := (h.nodup.getElem_inj_iff).mp heq
  omega

/-- After any number of datagrams the entries are those of the incomplete NALs. -/
theorem Delivery.tracks (h : Delivery nals maxPending ds) :
    ∀ k ≤ ds.length, Tracks nals (ds.take k) (afterDatagrams maxPending (ds.take k)) ∧
      (afterDatagrams maxPending (ds.take k)).maxPending = maxPending
  | 0, _ => by
      refine ⟨⟨?_, ?_⟩, rfl⟩
      · intro id hid
        exact absurd hid (AList.notMem_empty id)
      · rintro n - ⟨⟨d, -, hd⟩, -⟩
        exact absurd hd (List.not_mem_nil)
  | k + 1, hk => by
      obtain ⟨htracks, hmax⟩ := h.tracks k (by omega)
      obtain ⟨n, hn, i, hi, hd⟩ := h.exists_chunk (k := k) (by omega)
      have hnew := h.notMem_take (k := k) (by omega)
      have hroom := h.room (k + 1)
      rw [List.take_succ_eq_append_getElem (by omega)] at hroom ⊢
      rw [hd] at hnew hroom ⊢
      rw [afterDatagrams, exec_concat]
      refine ⟨?_, (maxPending_onDatagram _ _).trans hmax⟩
      exact (htracks.onDatagram h.ids hn (h.nonempty n hn) (h.chunkCount_le hn) hi hnew
        (hmax.symm ▸ hroom)).1

/-- A datagram completes the NAL whose last chunk it is. -/
theorem Delivery.emitted_iff (h : Delivery nals maxPending ds) (k : Nat) (id : UInt32)
    (b : Bytes) : emitted maxPending ds k = some (id, b) ↔
      ∃ n ∈ nals, (n.nalId, n.nal) = (id, b) ∧ k < ds.length ∧ n.LastArrivesAt ds k := by
  by_cases hk : k < ds.length
  · obtain ⟨htracks, hmax⟩ := h.tracks k hk.le
    obtain ⟨n, hn, i, hi, hd⟩ := h.exists_chunk hk
    have hnew := h.notMem_take hk
    have hroom := h.room (k + 1)
    have htake := List.take_succ_eq_append_getElem hk
    rw [htake, hd] at hroom
    rw [hd] at hnew
    have hout := (htracks.onDatagram h.ids hn (h.nonempty n hn) (h.chunkCount_le hn) hi hnew
      (hmax.symm ▸ hroom)).2
    rw [emitted, List.getElem?_eq_getElem hk, Option.bind_some, hd, hout]
    rw [hd] at htake
    have hmem : chunk n.nalId n.nal i ∈ n.chunks := Nal.mem_chunks.mpr ⟨i, hi, rfl⟩
    constructor
    · intro hsome
      split_ifs at hsome with hall
      exact ⟨n, hn, Option.some.inj hsome, hk, htake ▸ hall, _, hmem, hnew⟩
    · rintro ⟨m, hm, hpair, -, hall, c, hc, hmissing⟩
      have hcnew : c = chunk n.nalId n.nal i := by
        have hc' := htake ▸ hall c hc
        exact (List.mem_append.mp hc').elim (absurd · hmissing) List.mem_singleton.mp
      obtain rfl := h.eq_of_nalId hm hn (Nal.nalId_eq_of_mem (hcnew ▸ hc) hmem)
      rw [if_pos (htake ▸ hall), hpair]
  · rw [emitted, List.getElem?_eq_none (Nat.not_lt.mp hk)]
    simp [hk]

/-- Each NAL is completed once. -/
theorem Delivery.existsUnique_emitted (h : Delivery nals maxPending ds) (hn : n ∈ nals) :
    ∃! k, emitted maxPending ds k = some (n.nalId, n.nal) := by
  have hall : ∀ d ∈ n.chunks, d ∈ ds := by
    intro d hd
    exact h.perm.mem_iff.mpr (List.mem_flatMap.mpr ⟨n, hn, hd⟩)
  obtain ⟨k, hk, hlast⟩ := Nal.exists_lastArrivesAt (h.nonempty n hn) hall
  refine ⟨k, (h.emitted_iff k _ _).mpr ⟨n, hn, rfl, hk, hlast⟩, ?_⟩
  intro l hl
  obtain ⟨m, hm, hpair, -, hlast'⟩ := (h.emitted_iff l _ _).mp hl
  obtain rfl := h.eq_of_nalId hm hn (Prod.mk.inj hpair).1
  exact hlast'.unique hlast

end

/-- Every NAL is emitted once, when its last chunk arrives.  Whatever is fed, an
emission is what arrived first for each index, and no more than `maxPending`
ids stay pending. -/
theorem reassembles (maxPending : Nat) :
    (∀ nals ds, Delivery nals maxPending ds →
      (∀ n ∈ nals, ∃! k, emitted maxPending ds k = some (n.nalId, n.nal)) ∧
      ∀ k id b, emitted maxPending ds k = some (id, b) ↔
        ∃ n ∈ nals, (n.nalId, n.nal) = (id, b) ∧ k < ds.length ∧ n.LastArrivesAt ds k) ∧
    (∀ cs c b, ((after maxPending cs).onChunk c.1 c.2).2 = some b →
      ∃ arrived k, ArrivedSincePending maxPending cs c.1.nalId arrived ∧
        PendingNal.FirstReceived (arrived ++ [c]) k b) ∧
    ∀ cs, (after maxPending cs).pending.keys.length ≤ maxPending := by
  refine ⟨?_, fun cs c b => firstReceived_of_emits maxPending cs c, length_keys_after maxPending⟩
  intro nals ds h
  exact ⟨fun n hn => h.existsUnique_emitted hn, h.emitted_iff⟩

/-- A NAL in two chunks around one in a single chunk. -/
theorem reassembles_interleaved :
    ∃! k, emitted 1 [chunk 0 (List.replicate 1101 1) 1, chunk 1 [2] 0,
      chunk 0 (List.replicate 1101 1) 0] k = some (0, List.replicate 1101 1) := by
  refine ((reassembles 1).1 [⟨0, List.replicate 1101 1⟩, ⟨1, [2]⟩] _ ?_).1 _ List.mem_cons_self
  refine ⟨by decide, by decide +kernel, by decide +kernel, by decide +kernel, ?_⟩
  intro k
  match k with
  | 0 => decide +kernel
  | 1 => decide +kernel
  | 2 => decide +kernel
  | k + 3 =>
      rw [List.take_of_length_le (Nat.le_add_left 3 k)]
      decide +kernel

end NalReassembler

end RoboTele
