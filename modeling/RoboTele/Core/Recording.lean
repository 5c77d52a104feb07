import RoboTele.Bytes.BigEndian
import RoboTele.Bytes.Incremental
import RoboTele.Core.Datagram
import Mathlib.Data.List.GetD

/-!
# Recorded records

A segment file is a list of records.  Each has 13 bytes in front: its length,
the time of its capture and the control source.

`RecordIter` reads a file record by record and stops at the first one that is not
whole.  A file that was cut off anywhere gives the records before the cut, and
whatever the bytes are, what is read is how they begin (`decodeRecords_exact`).
-/

namespace RoboTele

open Incremental

/-- Length, capture time and control source. -/
def recordHeaderLen : Nat := 4 + 8 + 1

/-- When a record was captured, and who was in control then. -/
structure RecordHeader where
  captureUs : UInt64
  controlSource : UInt8
deriving DecidableEq

/-- The bytes that one record appends. -/
def encodeRecord (header : RecordHeader) (payload : Bytes) : Bytes :=
  BigEndian.encode 4 payload.length ++ BigEndian.encode 8 header.captureUs.toNat ++
    [header.controlSource] ++ payload

/-- Records encoded one after the other. -/
def encodeRecords (records : List (RecordHeader × Bytes)) : Bytes :=
  (records.map fun r => encodeRecord r.1 r.2).flatten

/-- What is left of the file. -/
structure RecordIter where
  buf : Bytes
deriving DecidableEq

namespace RecordIter

/-- A length never overflows here: `usize` has 64 bits and a length 32. -/
def next (it : RecordIter) : RecordIter × Option (RecordHeader × Bytes) :=
  if it.buf.length < recordHeaderLen then (it, none)
  else
    let recordLen := BigEndian.decode (it.buf.take 4)
    let captureUs := UInt64.ofNat (BigEndian.decode ((it.buf.drop 4).take 8))
    let controlSource := it.buf.getD 12 0
    let total := recordHeaderLen + recordLen
    if it.buf.length < total then ({ buf := [] }, none)
    else
      ({ buf := it.buf.drop total },
        some ({ captureUs, controlSource }, (it.buf.drop recordHeaderLen).take recordLen))

/-- What the first `n` calls of `next` return. -/
def calls : Nat → RecordIter → List (Option (RecordHeader × Bytes))
  | 0, _ => []
  | n + 1, it => it.next.2 :: calls n it.next.1

/-- The iterator returns these records, and after them nothing. -/
def Yields (it : RecordIter) (records : List (RecordHeader × Bytes)) : Prop :=
  ∀ n, it.calls n = (records.take n).map some ++ List.replicate (n - records.length) none

/-- No record is read from less than a header. -/
theorem next_of_short {it : RecordIter} (h : it.buf.length < recordHeaderLen) :
    it.next = (it, none) :=
  if_pos h

/-- The header that was read is the first 13 bytes. -/
theorem header_eq_take {buf : Bytes} (h : recordHeaderLen ≤ buf.length) :
    BigEndian.encode 4 (BigEndian.decode (buf.take 4)) ++
        BigEndian.encode 8 (UInt64.ofNat (BigEndian.decode ((buf.drop 4).take 8))).toNat ++
      [buf.getD 12 0] = buf.take recordHeaderLen := by
  have hlen : 13 ≤ buf.length := h
  have hfour : (buf.take 4).length = 4 := by
    rw [List.length_take]
    omega
  have height : ((buf.drop 4).take 8).length = 8 := by
    rw [List.length_take, List.length_drop]
    omega
  have hcapture : BigEndian.decode ((buf.drop 4).take 8) < 2 ^ 64 := by
    have hlt := BigEndian.decode_lt ((buf.drop 4).take 8)
    rwa [height] at hlt
  have hsource : [buf.getD 12 0] = (buf.drop 12).take 1 := by
    rw [List.drop_eq_getElem_cons (show 12 < buf.length by omega), List.take_succ_cons,
      List.take_zero, List.getD_eq_getElem]
  rw [BigEndian.encode_decode_of_length hfour, UInt64.toNat_ofNat_of_lt' hcapture,
    BigEndian.encode_decode_of_length height, hsource, ← List.take_add, ← List.take_add]
  rfl

/-- A record that was read is the front of what was left. -/
theorem buf_of_next {it rest : RecordIter} {r : RecordHeader × Bytes}
    (h : it.next = (rest, some r)) :
    r.2.length < 2 ^ 32 ∧ it.buf = encodeRecord r.1 r.2 ++ rest.buf := by
  rw [next] at h
  split_ifs at h with hshort
  · cases h
  · simp only at h
    split_ifs at h with hcut
    · cases h
    · obtain ⟨rfl, hr⟩ := Prod.mk.inj h
      obtain rfl := Option.some.inj hr
      have hpayload : ((it.buf.drop recordHeaderLen).take
          (BigEndian.decode (it.buf.take 4))).length = BigEndian.decode (it.buf.take 4) := by
        rw [List.length_take, List.length_drop]
        omega
      have hlt : BigEndian.decode (it.buf.take 4) < 2 ^ 32 :=
        (BigEndian.decode_lt _).trans_le
          (Nat.pow_le_pow_right (by decide) (List.length_take_le _ _))
      simp only [encodeRecord]
      refine ⟨hpayload.trans_lt hlt, ?_⟩
      rw [hpayload, header_eq_take (Nat.not_lt.mp hshort), ← List.take_add, List.take_append_drop]

/-- A record in front is read back. -/
theorem next_encodeRecord (header : RecordHeader) {payload : Bytes} (h : payload.length < 2 ^ 32)
    (rest : Bytes) : next { buf := encodeRecord header payload ++ rest } =
      ({ buf := rest }, some (header, payload)) := by
  have htake :
      (encodeRecord header payload ++ rest).take 4 = BigEndian.encode 4 payload.length := by
    simp only [encodeRecord, List.append_assoc]
    exact List.take_left' (BigEndian.length_encode _ _)
  have hlen : BigEndian.decode (BigEndian.encode 4 payload.length) = payload.length :=
    BigEndian.decode_encode_of_lt h
  have hcapture : ((encodeRecord header payload ++ rest).drop 4).take 8 =
      BigEndian.encode 8 header.captureUs.toNat := by
    simp only [encodeRecord, List.append_assoc]
    exact BigEndian.take_drop_encode (BigEndian.length_encode _ _) _ _ _
  have hdrop : (encodeRecord header payload ++ rest).drop 13 = payload ++ rest := by
    rw [encodeRecord, List.append_assoc]
    exact List.drop_left' (by simp)
  have hsource : (encodeRecord header payload ++ rest).getD 12 0 = header.controlSource := by
    simp only [encodeRecord, List.append_assoc]
    rw [List.getD_append_right _ _ _ _ (by simp), List.getD_append_right _ _ _ _ (by simp)]
    simp
  have hlength : (encodeRecord header payload ++ rest).length =
      recordHeaderLen + payload.length + rest.length := by
    simp [encodeRecord, recordHeaderLen]
    omega
  simp only [next, htake, hlen, hcapture, hsource]
  rw [if_neg (by omega), if_neg (by omega), BigEndian.decode_encode_of_lt header.captureUs.toNat_lt,
    UInt64.ofNat_toNat, ← List.drop_drop, show recordHeaderLen = 13 from rfl, hdrop,
    List.take_left' rfl, List.drop_left' rfl]

/-- Part of a record is not read. -/
theorem next_of_isPrefix {r : RecordHeader × Bytes} (h : r.2.length < 2 ^ 32) {buf : Bytes}
    (hbuf : buf <+: encodeRecord r.1 r.2) (hlt : buf.length < (encodeRecord r.1 r.2).length) :
    (next { buf }).2 = none := by
  have hlength : (encodeRecord r.1 r.2).length = recordHeaderLen + r.2.length := by
    simp [encodeRecord, recordHeaderLen]
    omega
  by_cases hshort : buf.length < recordHeaderLen
  · rw [next_of_short hshort]
  · have htake : buf.take 4 = BigEndian.encode 4 r.2.length := by
      obtain ⟨rest, hrest⟩ := hbuf
      have hsame : (buf ++ rest).take 4 = buf.take 4 :=
        List.take_append_of_le_length ((by decide : 4 ≤ recordHeaderLen).trans
          (Nat.not_lt.mp hshort))
      rw [← hsame, hrest]
      simp only [encodeRecord, List.append_assoc]
      exact List.take_left' (BigEndian.length_encode _ _)
    have hlen : BigEndian.decode (BigEndian.encode 4 r.2.length) = r.2.length :=
      BigEndian.decode_encode_of_lt h
    simp only [next, htake, hlen]
    rw [if_neg hshort, if_pos (hlength ▸ hlt)]

/-- Once nothing is returned, what is left is too little. -/
theorem length_of_next {it : RecordIter} (h : it.next.2 = none) :
    it.next.1.buf.length < recordHeaderLen := by
  by_cases hshort : it.buf.length < recordHeaderLen
  · rw [next_of_short hshort]
    exact hshort
  · simp only [next, if_neg hshort] at h ⊢
    split_ifs at h ⊢
    decide

/-- An iterator that ended stays at its end. -/
theorem calls_of_none : ∀ (n : Nat) {it : RecordIter}, it.next.2 = none →
    it.calls n = List.replicate n none
  | 0, _, _ => rfl
  | n + 1, it, h => by
      have hnext : it.next.1.next.2 = none := congrArg Prod.snd (next_of_short (length_of_next h))
      rw [calls, h, calls_of_none n hnext, List.replicate_succ]

/-! ## Reading a file -/

/-- The front of a file. -/
def nextFront (buf : Bytes) : Next UInt8 (RecordHeader × Bytes) :=
  match (RecordIter.mk buf).next.2 with
  | none => .more
  | some r => .item r (RecordIter.mk buf).next.1.buf

/-- What is read is an encoded record at the front. -/
theorem nextFront_eq_item {buf rest : Bytes} {r : RecordHeader × Bytes} :
    nextFront buf = .item r rest ↔
      r.2.length < 2 ^ 32 ∧ buf = encodeRecord r.1 r.2 ++ rest := by
  constructor
  · intro h
    rw [nextFront] at h
    cases hnext : (RecordIter.mk buf).next.2 with
    | none =>
        rw [hnext] at h
        cases h
    | some r' =>
        rw [hnext] at h
        obtain ⟨rfl, rfl⟩ := Next.item.inj h
        exact buf_of_next (Prod.ext rfl hnext)
  · rintro ⟨hlt, rfl⟩
    rw [nextFront, next_encodeRecord r.1 hlt rest]

/-- The records of a file. -/
def recordFrames : Reader UInt8 (RecordHeader × Bytes) where
  next := nextFront
  shorter := by
    intro buf out rest h
    obtain ⟨-, rfl⟩ := nextFront_eq_item.mp h
    simp [encodeRecord]
    omega
  item_append := by
    intro buf out rest more h
    obtain ⟨hlt, rfl⟩ := nextFront_eq_item.mp h
    exact nextFront_eq_item.mpr ⟨hlt, List.append_assoc _ _ _⟩
  fail_append := by
    intro buf out more h
    simp only [nextFront] at h
    split at h <;> cases h

/-- Encoded records tell where they end. -/
theorem recordFrames_framed : recordFrames.Framed (fun r => encodeRecord r.1 r.2) id
    fun r => r.2.length < 2 ^ 32 where
  nil := rfl
  frame_append _ h _ := nextFront_eq_item.mpr ⟨h, rfl⟩
  of_isPrefix r h buf hbuf hlt := by
    show nextFront buf = .more
    rw [nextFront, next_of_isPrefix h hbuf hlt]

/-- The iterator yields what the reader takes off. -/
theorem yields_drainAll (buf : Bytes) :
    Yields { buf } (recordFrames.drainAll buf).1 := by
  cases hnext : (RecordIter.mk buf).next.2 with
  | none =>
      have hmore : recordFrames.next buf = .more := by
        show nextFront buf = .more
        rw [nextFront, hnext]
      rw [Reader.drainAll_of_more hmore]
      intro n
      rw [calls_of_none n hnext]
      simp
  | some r =>
      have hitem : recordFrames.next buf = .item r (RecordIter.mk buf).next.1.buf := by
        show nextFront buf = _
        rw [nextFront, hnext]
      have hlt := recordFrames.shorter hitem
      have ih := yields_drainAll (RecordIter.mk buf).next.1.buf
      rw [Reader.drainAll_of_item hitem]
      intro n
      cases n with
      | zero => simp [calls]
      | succ n =>
          rw [calls, hnext, List.take_succ_cons, List.map_cons, List.length_cons,
            Nat.succ_sub_succ, List.cons_append]
          exact congrArg (some r :: ·) (ih n)
  termination_by buf.length

end RecordIter

/-- The first records that fit in `n` bytes. -/
def wholeWithin (records : List (RecordHeader × Bytes)) (n : Nat) : List (RecordHeader × Bytes) :=
  (Framing.complete (fun r => (encodeRecord r.1 r.2).length) records n).1

/-- A file cut off anywhere yields the records that are whole in it, and what any
file yields is written as it begins. -/
theorem decodeRecords_exact :
    (∀ records : List (RecordHeader × Bytes), (∀ r ∈ records, r.2.length < 2 ^ 32) → ∀ n,
      RecordIter.Yields { buf := (encodeRecords records).take n } (wholeWithin records n)) ∧
    ∀ buf, ∃ records, RecordIter.Yields { buf } records ∧ encodeRecords records <+: buf := by
  constructor
  · intro records hshort n
    obtain ⟨left, hleft⟩ := RecordIter.recordFrames_framed.drainAll_frames records
      ((encodeRecords records).take n) hshort (List.take_prefix _ _)
    have hyields := RecordIter.yields_drainAll ((encodeRecords records).take n)
    rw [hleft, List.map_id] at hyields
    have hlength : (encodeRecords records).length =
        (records.map fun r => (encodeRecord r.1 r.2).length).sum := by
      rw [encodeRecords, List.length_flatten, List.map_map]
      rfl
    rw [wholeWithin]
    rcases Nat.le_total n (encodeRecords records).length with hle | hle
    · rwa [List.length_take_of_le hle] at hyields
    · rw [List.take_of_length_le hle, Framing.complete_of_sum_le _ hlength.ge] at hyields
      rwa [Framing.complete_of_sum_le _ (hlength ▸ hle), List.take_of_length_le hle]
  · intro buf
    refine ⟨_, RecordIter.yields_drainAll buf, Reader.drainAll_isPrefix ?_ ?_ buf⟩
    · intro buf out rest h
      exact (RecordIter.nextFront_eq_item.mp h).2
    · intro buf out h
      simp only [RecordIter.recordFrames, RecordIter.nextFront] at h
      split at h <;> cases h

/-- Two records of one byte each. -/
def twoRecords : List (RecordHeader × Bytes) := [(⟨1000, 1⟩, [7]), (⟨2000, 1⟩, [8])]

/-- The second record is cut off. -/
theorem decodeRecords_exact_twoRecords :
    wholeWithin twoRecords 20 = twoRecords.take 1 ∧
      RecordIter.Yields { buf := (encodeRecords twoRecords).take 20 } (wholeWithin twoRecords 20) :=
  ⟨by decide, decodeRecords_exact.1 twoRecords (by decide) 20⟩

end RoboTele
