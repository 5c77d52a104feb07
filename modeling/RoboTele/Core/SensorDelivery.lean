import RoboTele.Core.FrameRuns
import RoboTele.Core.SensorFrames

/-!
# A frame from its datagrams

The datagrams of a frame reach the assembler in any order, some of them never
and some more than once, among those of other frames and between polls.  When
the frame is emitted, by its last slice, by a poll or by eviction, it holds the
slices whose datagrams arrived, and so restores the elements of these
(`restores_of_emitted`).
-/

namespace RoboTele

open Runs Slots Strided Tables

namespace FrameAssembler

/-! ## Datagrams -/

/-- A slice without its tag. -/
def Slice.decode (bytes : Bytes) : Option Slice :=
  match h : SliceHeader.decode bytes with
  | none => none
  | some (header, payload) => some ⟨header, payload, SliceHeader.sliceIndex_lt_of_decode h⟩

/-- The slice of a datagram. -/
def Slice.ofDatagram (d : Bytes) : Option Slice :=
  (untag d).bind fun (t, payload) =>
    if t = datagramTagSensorSlice then Slice.decode payload else none

theorem Slice.decode_of_decode {bytes : Bytes} {s : Slice}
    (h : SliceHeader.decode bytes = some (s.header, s.payload)) : Slice.decode bytes = some s := by
  rw [Slice.decode]
  split
  · rename_i hnone
    rw [hnone] at h
    exact absurd h.symm (Option.some_ne_none _)
  · rename_i hsome
    obtain ⟨hheader, hpayload⟩ := Prod.mk.inj (Option.some.inj (hsome.symm.trans h))
    subst hheader hpayload
    rfl

/-- Slice `k` of a frame. -/
def frameSlice (sensorId : UInt8) (frameSeq : UInt32) (captureTimeUs : UInt64) {n k : Nat}
    (hn : n < 65536) (hk : k < n) (payload : Bytes) : Slice where
  header := sliceHeader sensorId frameSeq captureTimeUs n k
  payload := payload
  inRange := by
    rw [sliceHeader, UInt16.lt_iff_toNat_lt]
    simp only [UInt16.toNat_ofNat']
    rwa [Nat.mod_eq_of_lt hn, Nat.mod_eq_of_lt (hk.trans hn)]

section

variable {sensorId : UInt8} {frameSeq : UInt32} {captureTimeUs : UInt64} {elements : Bytes}
  {size maxPayload n k : Nat} {ds payloads : List Bytes}

theorem idx_frameSlice (hn : n < 65536) (hk : k < n) (payload : Bytes) :
    (frameSlice sensorId frameSeq captureTimeUs hn hk payload).idx = k :=
  UInt16.toNat_ofNat_of_lt (hk.trans hn)

theorem count_frameSlice (hn : n < 65536) (hk : k < n) (payload : Bytes) :
    (frameSlice sensorId frameSeq captureTimeUs hn hk payload).count = n :=
  UInt16.toNat_ofNat_of_lt hn

/-- The datagram of a slice gives the slice back. -/
theorem ofDatagram_frameSlice (hn : n < 65536) (hk : k < n) (payload : Bytes) :
    Slice.ofDatagram ([datagramTagSensorSlice] ++
        (sliceHeader sensorId frameSeq captureTimeUs n k).encode ++ payload) =
      some (frameSlice sensorId frameSeq captureTimeUs hn hk payload) := by
  rw [Slice.ofDatagram, List.append_assoc, List.singleton_append, untag, Option.bind_some]
  exact (if_pos rfl).trans (Slice.decode_of_decode (SliceHeader.decode_encode
    (frameSlice sensorId frameSeq captureTimeUs hn hk payload).inRange payload))

/-- The datagrams of a frame are those of its slices. -/
structure Datagrams (sensorId : UInt8) (frameSeq : UInt32) (captureTimeUs : UInt64)
    (n : Nat) (payloads ds : List Bytes) : Prop where
  length : ds.length = n
  lengthPayloads : payloads.length = n
  slice : ∀ k (hn : n < 65536) (hk : k < n), ∃ d payload, ds[k]? = some d ∧
    payloads[k]? = some payload ∧
    Slice.ofDatagram d = some (frameSlice sensorId frameSeq captureTimeUs hn hk payload)

/-- A frame that is sliced has its payloads in its datagrams. -/
theorem sliceFrame_ok
    (h : sliceFrame sensorId frameSeq captureTimeUs elements size maxPayload = .ok ds) :
    ∃ n payloads, Sliced size maxPayload (elements.length / size) n elements payloads ∧
      Datagrams sensorId frameSeq captureTimeUs n payloads ds := by
  rw [sliceFrame] at h
  cases hinter : interleave elements size maxPayload with
  | error e =>
      rw [hinter] at h
      exact absurd h (by simp [Except.map])
  | ok payloads =>
      rw [hinter] at h
      obtain ⟨n, hsliced⟩ := interleave_ok hinter
      have hlen : payloads.length = n := by
        rw [hsliced.payloads_eq, List.length_map, List.length_range]
      have hds := (Except.ok.inj h).symm
      refine ⟨n, payloads, hsliced, ?_, hlen, ?_⟩
      · rw [hds, List.length_map, List.length_zipIdx, hlen]
      · intro k hn hk
        have hk' : k < payloads.length := hlen ▸ hk
        refine ⟨_, payloads[k], ?_, List.getElem?_eq_getElem hk',
          ofDatagram_frameSlice hn hk payloads[k]⟩
        rw [hds, List.getElem?_map, List.getElem?_zipIdx, List.getElem?_eq_getElem hk', hlen]
        simp

end

/-! ## Arrivals -/

/-- What comes in: a datagram or a poll, at its time. -/
inductive Arrival where
  | datagram (d : Bytes) (nowUs : Nat)
  | poll (nowUs : Nat)

/-- The datagram of an arrival. -/
def Arrival.bytes : Arrival → Option Bytes
  | .datagram d _ => some d
  | .poll _ => none

/-- What the assembler is called with, nothing for a datagram that is no slice. -/
def Arrival.event : Arrival → Option Event
  | .datagram d nowUs => (Slice.ofDatagram d).map fun s => .slice s nowUs
  | .poll nowUs => some (.poll nowUs)

/-- The frames that the last arrival makes ready. -/
def emittedAt (deadlineUs maxPending : Nat) (as : List Arrival) (last : Arrival) :
    List AssembledFrame :=
  match last.event with
  | none => []
  | some e => (after deadlineUs maxPending (as.filterMap Arrival.event)).out e

/-- The datagrams that came in. -/
def arrivedBytes (as : List Arrival) : List Bytes := as.filterMap Arrival.bytes

/-- The slices received are those of the datagrams. -/
theorem received_eq (as : List Arrival) :
    received (as.filterMap Arrival.event) = (arrivedBytes as).filterMap Slice.ofDatagram := by
  rw [received, arrivedBytes, List.filterMap_filterMap, List.filterMap_filterMap]
  refine List.filterMap_congr fun a _ => ?_
  cases a with
  | datagram d nowUs =>
      rw [Arrival.event, Arrival.bytes, Option.bind_some]
      cases Slice.ofDatagram d <;> rfl
  | poll nowUs => rfl

/-- The datagram of slice `k` came in. -/
def SliceArrived (ds : List Bytes) (as : List Arrival) (k : Nat) : Prop :=
  ∃ d ∈ ds[k]?, d ∈ arrivedBytes as

instance (ds : List Bytes) (as : List Arrival) : DecidablePred (SliceArrived ds as) :=
  fun k => inferInstanceAs (Decidable (∃ d ∈ ds[k]?, d ∈ arrivedBytes as))

section

variable {sensorId : UInt8} {frameSeq : UInt32} {captureTimeUs : UInt64}
  {n : Nat} {ds payloads : List Bytes} {as : List Arrival} {f : AssembledFrame}

/-- Every slice of the frame that was received is one of the sender's. -/
theorem Datagrams.exists_of_received
    (h : Datagrams sensorId frameSeq captureTimeUs n payloads ds) (hn : n < 65536)
    (hours : ∀ d ∈ arrivedBytes as, ∀ s ∈ Slice.ofDatagram d, s.seq = frameSeq → d ∈ ds)
    {s : Slice} (hs : s ∈ received (as.filterMap Arrival.event)) (hseq : s.seq = frameSeq) :
    s.count = n ∧ s.idx < n ∧ SliceArrived ds as s.idx ∧ payloads[s.idx]? = some s.payload := by
  rw [received_eq] at hs
  obtain ⟨d, hd, hslice⟩ := List.mem_filterMap.mp hs
  obtain ⟨k, hk, rfl⟩ := List.getElem_of_mem (hours d hd s hslice hseq)
  have hkn : k < n := h.length ▸ hk
  obtain ⟨d', payload, hget, hpayload, hof⟩ := h.slice k hn hkn
  rw [List.getElem?_eq_getElem hk] at hget
  obtain rfl := Option.some.inj hget
  obtain rfl := Option.some.inj (hslice.symm.trans hof)
  rw [idx_frameSlice, count_frameSlice]
  exact ⟨rfl, hkn, ⟨_, List.getElem?_eq_getElem hk, hd⟩, hpayload⟩

/-- A slice that arrived was received. -/
theorem Datagrams.exists_received
    (h : Datagrams sensorId frameSeq captureTimeUs n payloads ds) (hn : n < 65536) {k : Nat}
    (hk : SliceArrived ds as k) :
    ∃ s ∈ received (as.filterMap Arrival.event), s.seq = frameSeq ∧ s.count = n ∧ s.idx = k := by
  obtain ⟨d, hget, hd⟩ := hk
  have hkn : k < n := h.length ▸ (List.getElem?_eq_some_iff.mp hget).1
  obtain ⟨d', payload, hget', -, hof⟩ := h.slice k hn hkn
  obtain rfl := Option.some.inj (hget.symm.trans hget')
  have hmem : frameSlice sensorId frameSeq captureTimeUs hn hkn payload ∈
      received (as.filterMap Arrival.event) := by
    rw [received_eq]
    exact List.mem_filterMap.mpr ⟨d, hd, hof⟩
  exact ⟨_, hmem, rfl, count_frameSlice hn hkn payload, idx_frameSlice hn hkn payload⟩

/-- The slots of the frame hold the slices that arrived. -/
theorem Datagrams.slots (h : Datagrams sensorId frameSeq captureTimeUs n payloads ds)
    (hn : n < 65536)
    (hours : ∀ d ∈ arrivedBytes as, ∀ s ∈ Slice.ofDatagram d, s.seq = frameSeq → d ∈ ds)
    (hseq : f.frameSeq = frameSeq)
    (hcollects : Collects (received (as.filterMap Arrival.event)) f) :
    f.slices.length = n ∧
      ∀ k, slot f.slices k = if SliceArrived ds as k then payloads[k]? else none := by
  have hlen : f.slices.length = n := by
    obtain ⟨s, hfind, -, -, hlen⟩ := hcollects.first
    have hs : s.seq = f.frameSeq := by simpa using List.find?_some hfind
    rw [hlen]
    exact (h.exists_of_received hn hours (List.mem_of_find?_eq_some hfind) (hs.trans hseq)).1
  refine ⟨hlen, fun k => ?_⟩
  rw [hcollects.slots]
  split_ifs with hk
  · obtain ⟨s, hs, hsseq, hcount, hidx⟩ := h.exists_received hn hk
    have hmem : s ∈ slicesOf (received (as.filterMap Arrival.event)) f :=
      List.mem_filter.mpr ⟨hs, decide_eq_true ⟨hsseq.trans hseq.symm, hcount.trans hlen.symm⟩⟩
    have hsome := firstAt_isSome_iff.mpr ⟨numbered s, List.mem_map_of_mem hmem, hidx⟩
    obtain ⟨payload, hpayload⟩ := Option.isSome_iff_exists.mp hsome
    obtain ⟨t, ht, hnumbered⟩ := List.mem_map.mp (mem_of_firstAt hpayload)
    obtain ⟨rfl, rfl⟩ := Prod.mk.inj hnumbered
    obtain ⟨htmem, htof⟩ := List.mem_filter.mp ht
    have htseq := (of_decide_eq_true htof).1.trans hseq
    rw [hpayload, (h.exists_of_received hn hours htmem htseq).2.2.2]
  · rw [← Option.not_isSome_iff_eq_none, firstAt_isSome_iff]
    rintro ⟨p, hp, rfl⟩
    obtain ⟨t, ht, rfl⟩ := List.mem_map.mp hp
    obtain ⟨htmem, htof⟩ := List.mem_filter.mp ht
    have htseq := (of_decide_eq_true htof).1.trans hseq
    exact hk (h.exists_of_received hn hours htmem htseq).2.2.1

/-- What is emitted collects slices that arrived. -/
theorem collects_of_mem_emittedAt {deadlineUs maxPending : Nat} {last : Arrival}
    (hf : f ∈ emittedAt deadlineUs maxPending as last) :
    Collects (received ((as ++ [last]).filterMap Arrival.event)) f := by
  rw [emittedAt] at hf
  cases hevent : last.event with
  | none =>
      rw [hevent] at hf
      exact absurd hf List.not_mem_nil
  | some e =>
      rw [hevent] at hf
      have hcollects := collects_of_mem_out _ _ _ _ hf
      rwa [List.filterMap_append, List.filterMap_cons_some hevent, List.filterMap_nil]

end

/-- No slice of a frame is over the limit.  Whatever else arrives, a frame that
is emitted restores the elements of the slices that arrived. -/
theorem restores_of_emitted {sensorId : UInt8} {frameSeq : UInt32} {captureTimeUs : UInt64}
    {elements : Bytes} {size maxPayload : Nat} {ds : List Bytes}
    (hframe : sliceFrame sensorId frameSeq captureTimeUs elements size maxPayload = .ok ds) :
    (∀ d ∈ ds, ∃ s ∈ Slice.ofDatagram d, s.payload.length ≤ maxPayload) ∧
    ∀ deadlineUs maxPending (as : List Arrival) (last : Arrival),
      (∀ d ∈ arrivedBytes (as ++ [last]), ∀ s ∈ Slice.ofDatagram d,
        s.seq = frameSeq → d ∈ ds) →
      ∀ f ∈ emittedAt deadlineUs maxPending as last, f.frameSeq = frameSeq →
        Restores size ds.length elements (SliceArrived ds (as ++ [last])) f := by
  obtain ⟨n, payloads, hsliced, hds⟩ := sliceFrame_ok hframe
  refine ⟨?_, ?_⟩
  · intro d hd
    obtain ⟨k, hk, rfl⟩ := List.getElem_of_mem hd
    obtain ⟨d', payload, hget, hpayload, hof⟩ := hds.slice k hsliced.lt (hds.length ▸ hk)
    rw [List.getElem?_eq_getElem hk] at hget
    obtain rfl := Option.some.inj hget
    exact ⟨_, hof, hsliced.bound payload (List.mem_of_getElem? hpayload)⟩
  · intro deadlineUs maxPending as last hours f hf hseq
    obtain ⟨hlen, hslots⟩ :=
      hds.slots hsliced.lt hours hseq (collects_of_mem_emittedAt hf)
    rw [hds.length]
    exact hsliced.restores hlen hslots

/-- Five elements of one byte in three slices. -/
def fiveElements : List Bytes := (sliceFrame 1 7 9 [1, 2, 3, 4, 5] 1 2).toOption.getD []

/-- The last slice comes twice, then the first one, and then the deadline. -/
def lossyArrivals : List Arrival :=
  [.datagram (fiveElements.getD 2 []) 0, .datagram (fiveElements.getD 2 []) 1,
    .datagram (fiveElements.getD 0 []) 2]

theorem sliceFrame_fiveElements : sliceFrame 1 7 9 [1, 2, 3, 4, 5] 1 2 = .ok fiveElements := rfl

/-- A frame of five elements that loses a slice. -/
theorem restores_of_emitted_lossy :
    Restores 1 3 [1, 2, 3, 4, 5] (SliceArrived fiveElements (lossyArrivals ++ [.poll 100]))
      { sensorId := 1, frameSeq := 7, captureTimeUs := 9
        slices := [some [1, 4], none, some [3]] } :=
  (restores_of_emitted sliceFrame_fiveElements).2 100 2 lossyArrivals (.poll 100)
    (by decide +kernel) _ (by decide +kernel) rfl

end FrameAssembler

end RoboTele
