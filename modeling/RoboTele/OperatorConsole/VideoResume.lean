import RoboTele.OperatorConsole.VideoPath

/-!
# The picture comes back

Whatever was dropped, lost, delayed or repeated before: once an IDR arrives that is newer than
every NAL of which anything has arrived, and with it what the encoder made next, playback gets
the IDR and all of the rest.  The chunks of a NAL may arrive in any order.

Nothing is left over in the receiver that could get in the way.  Its pending ids are smaller,
so a new NAL is never the one that is evicted.
-/

namespace RoboTele

open Runs Queues NalReassembler

namespace VideoPath

/-- The video payload that arrives with an event. -/
def arrived (p : VideoPath) : Event → Option Bytes
  | .robot _ => none
  | .arrive k _ => (p.pipeline.queue.sent[k]?.bind fun c => untag c.2).map Prod.snd

/-- An IDR, newer than all that arrived before, arrives with the NALs after it, and playback
takes them. -/
structure ArrivesFrom (policy : SensorFramePolicy) (past block : List Event) (nals : List Nal) :
    Prop where
  idr : ∃ idr rest, nals = idr :: rest ∧ idr.nalType = nalIdr ∧
    ∀ payload ∈ trace step arrived (new policy) past, ∃ old : Nal,
      old.nalId < idr.nalId ∧ payload ∈ old.chunks
  encoded : nals <:+: (exec step (new policy) (past ++ block)).pipeline.encoded.map Prod.snd
  nonempty : ∀ n ∈ nals, n.nal ≠ []
  whole : ∃ blocks, List.Forall₂ (fun n b => b.Perm (Nal.chunks n)) nals blocks ∧
    trace step arrived (exec step (new policy) past) block = blocks.flatten
  taken : ∀ k, .arrive k false ∉ block

/-! ## Steps -/

section

variable {p : VideoPath}

/-- A chunk that arrives goes to the receiver. -/
theorem step_of_arrived {e : Event} {payload : Bytes} (h : p.arrived e = some payload) :
    ∃ k taken, e = .arrive k taken ∧ p.step e = p.onVideoDatagram payload taken := by
  cases e with
  | robot e => cases h
  | arrive k taken =>
      refine ⟨k, taken, rfl, ?_⟩
      rw [arrived] at h
      rw [VideoPath.step]
      cases hsent : p.pipeline.queue.sent[k]?.bind fun c => untag c.2 with
      | none =>
          rw [hsent] at h
          cases h
      | some c =>
          rw [hsent] at h
          obtain rfl := Option.some.inj h
          rfl

/-- The console's part of the state. -/
structure SameConsole (p p' : VideoPath) : Prop where
  videoRx : p'.videoRx = p.videoRx
  videoGate : p'.videoGate = p.videoGate
  given : p'.given = p.given

/-- Everything else leaves the console alone. -/
theorem step_of_not_arrived {e : Event} (h : p.arrived e = none) : SameConsole p (p.step e) := by
  cases e with
  | robot e => exact ⟨rfl, rfl, rfl⟩
  | arrive k taken =>
      rw [arrived] at h
      rw [VideoPath.step]
      cases hsent : p.pipeline.queue.sent[k]?.bind fun c => untag c.2 with
      | none => exact ⟨rfl, rfl, rfl⟩
      | some c =>
          rw [hsent] at h
          cases h

/-! ## The gate -/

theorem le_saturatingAdd (a b : UInt32) : a ≤ saturatingAdd a b := by
  rw [saturatingAdd]
  split
  · next h =>
      rw [UInt32.le_iff_toNat_le, UInt32.toNat_add, Nat.mod_eq_of_lt h]
      exact Nat.le_add_right _ _
  · have := a.toNat_lt
    rw [UInt32.le_iff_toNat_le]
    exact Nat.le_of_lt_succ this

/-- An id that is not below the expected one restarts nothing. -/
theorem not_restarts {g : DeltaGate} {nalId : UInt32} (h : ∀ e ∈ g.nextId, e ≤ nalId) :
    ¬ g.Restarts nalId := by
  rintro ⟨expected, hexpected, hlt⟩
  have hle := UInt32.le_trans (h expected hexpected) (le_saturatingAdd nalId restartGap)
  exact absurd hlt (UInt32.not_lt.mpr hle)

/-- The gate lets the NAL through and is open behind it. -/
def Opens (g : DeltaGate) (n : Nal) : Prop :=
  (n.nalType = nalIdr ∧ ∀ e ∈ g.nextId, e ≤ n.nalId) ∨ (g.nextId = some n.nalId ∧ g.frozen = false)

theorem Opens.le {g : DeltaGate} {n : Nal} (h : Opens g n) : ∀ e ∈ g.nextId, e ≤ n.nalId := by
  rcases h with ⟨-, hle⟩ | ⟨hnext, -⟩
  · exact hle
  · rw [hnext]
    rintro _ ⟨⟩
    exact UInt32.le_refl _

/-- An IDR passes the gate, and opens it. -/
theorem admitNext_opens {g : DeltaGate} {n : Nal} (h : n.nalType = nalIdr ∨ g.frozen = false) :
    (g.admitNext n.nalId n.nalType).2 = true ∧
      (g.admitNext n.nalId n.nalType).1.frozen = false := by
  by_cases hidr : n.nalType = nalIdr
  · rw [hidr]
    exact ⟨rfl, rfl⟩
  · have hopen := h.resolve_left hidr
    rw [DeltaGate.admitNext_frozen hidr]
    refine ⟨?_, hopen⟩
    by_contra hrejected
    have hfrozen := (admitNext_rejected (Bool.not_eq_true _ ▸ hrejected)).1
    rw [hopen] at hfrozen
    cases hfrozen

/-- So it is with the NAL the gate waits for. -/
theorem Opens.admitNal {g : DeltaGate} {n : Nal} (h : Opens g n) :
    (g.admitNal n.nalId n.nalType).2 = true ∧
      (g.admitNal n.nalId n.nalType).1.nextId = some (n.nalId + 1) ∧
      (g.admitNal n.nalId n.nalType).1.frozen = false := by
  have hopens : ∃ f : DeltaGate, g.admitNal n.nalId n.nalType = f.admitNext n.nalId n.nalType ∧
      (n.nalType = nalIdr ∨ f.frozen = false) := by
    rcases DeltaGate.admit_cases (not_restarts h.le) n.nalType with
      ⟨expected, hnext, hlate, -⟩ | ⟨expected, hnext, hgap, heq⟩ | ⟨-, heq⟩
    · exact absurd (h.le expected hnext) (UInt32.not_le.mpr hlate)
    · rcases h with ⟨hidr, -⟩ | ⟨hsome, -⟩
      · exact ⟨_, heq, .inl hidr⟩
      · obtain rfl := Option.some.inj (hnext.symm.trans hsome)
        exact absurd hgap (UInt32.lt_irrefl _)
    · rcases h with ⟨hidr, -⟩ | ⟨-, hopen⟩
      · exact ⟨_, heq, .inl hidr⟩
      · exact ⟨_, heq, .inr hopen⟩
  obtain ⟨f, heq, hf⟩ := hopens
  rw [heq]
  exact ⟨(admitNext_opens hf).1, DeltaGate.admitNext_nextId _ _ _, (admitNext_opens hf).2⟩

/-! ## The receiver -/

theorem keys_evict_subset (r : NalReassembler) : r.evict.pending.keys ⊆ r.pending.keys := by
  by_cases h : r.maxPending < r.pending.keys.length
  · obtain ⟨oldest, -, -, hevict⟩ := evict_of_lt h
    rw [hevict, AList.keys_erase]
    exact List.erase_subset
  · rw [evict_of_le (Nat.not_lt.mp h)]
    exact List.Subset.refl _

/-- A chunk adds its own NAL to the pending ones, and no other. -/
theorem keys_onChunk (r : NalReassembler) (header : ChunkHeader) (payload : Bytes) :
    ∀ id ∈ (r.onChunk header payload).1.pending.keys, id = header.nalId ∨ id ∈ r.pending.keys := by
  intro id hid
  rw [onChunk] at hid
  split at hid
  · have hold := keys_evict_subset _ hid
    rw [AList.keys_erase] at hold
    exact .inr (List.mem_of_mem_erase hold)
  · have hold := keys_evict_subset _ hid
    rw [AList.keys_insert] at hold
    exact (List.mem_cons.mp hold).imp_right List.mem_of_mem_erase

/-- The receiver while chunks of one NAL arrive, those in `q` so far. -/
structure Collecting (n : Nal) (q : List Bytes) (rx : ChannelAReceiver) : Prop where
  bounded : rx.reassembler.pending.keys.length ≤ rx.reassembler.maxPending
  room : 0 < rx.reassembler.maxPending
  older : ∀ id ∈ rx.reassembler.pending.keys, id ≠ n.nalId → id < n.nalId
  entry : StoredOf n q ((rx.reassembler.pending.lookup n.nalId).getD .empty)

/-- Nothing of a NAL from this id on is in the receiver. -/
structure Older (id : UInt32) (rx : ChannelAReceiver) : Prop where
  bounded : rx.reassembler.pending.keys.length ≤ rx.reassembler.maxPending
  room : 0 < rx.reassembler.maxPending
  older : ∀ id' ∈ rx.reassembler.pending.keys, id' < id

theorem Older.collecting {n : Nal} {rx : ChannelAReceiver} (h : Older n.nalId rx) :
    Collecting n [] rx where
  bounded := h.bounded
  room := h.room
  older id hid _ := h.older id hid
  entry := by
    have hnone : rx.reassembler.pending.lookup n.nalId = none := by
      refine AList.lookup_eq_none.mpr fun hmem => ?_
      exact UInt32.lt_irrefl _ (h.older _ hmem)
    rw [hnone]
    exact .empty fun _ _ => List.not_mem_nil

/-- Chunks of older NALs leave only older NALs pending. -/
theorem Older.onDatagram {id : UInt32} {rx : ChannelAReceiver} (h : Older id rx) {old : Nal}
    (hold : old.nalId < id) {payload : Bytes} (hpayload : payload ∈ old.chunks) :
    Older id (rx.onDatagram payload).1 ∧
      ∀ out ∈ (rx.onDatagram payload).2, out.1 < id := by
  obtain ⟨i, -, rfl⟩ := Nal.mem_chunks.mp hpayload
  have hbounded := VideoLink.bounded_onDatagram h.bounded (chunk old.nalId old.nal i)
  rw [ChannelAReceiver.onDatagram]
  refine ⟨⟨hbounded, ?_, ?_⟩, ?_⟩
  · rw [maxPending_onDatagram]
    exact h.room
  · intro id' hid'
    rw [onDatagram_chunk] at hid'
    rcases keys_onChunk _ _ _ id' hid' with rfl | hmem
    · exact hold
    · exact h.older id' hmem
  · intro out hout
    rw [onDatagram_chunk] at hout
    obtain ⟨nal, hnal, rfl⟩ := Option.map_eq_some_iff.mp hout
    obtain ⟨b, -, rfl⟩ := Option.map_eq_some_iff.mp hnal
    exact hold

section

variable {n : Nal} {q : List Bytes} {rx : ChannelAReceiver}

/-- The chunks of one NAL are stored in its entry. -/
theorem Collecting.stored (h : Collecting n q rx) (hfits : chunkCount n.nal.length ≤ 65536)
    {i : Nat} (hi : i < chunkCount n.nal.length) :
    StoredOf n (q ++ [chunk n.nalId n.nal i])
      (rx.reassembler.stored (chunkParts n i).1 (chunkParts n i).2) :=
  h.entry.store hfits hi

/-- The entry of the newest NAL is not the one that goes. -/
theorem Collecting.lookup_evict (h : Collecting n q rx) (e : NalReassembler.PendingNal) :
    ({ rx.reassembler with
        pending := rx.reassembler.pending.insert n.nalId e } : NalReassembler).evict.pending.lookup
      n.nalId = some e := by
  by_cases hother : ∃ id ∈ rx.reassembler.pending.keys, id ≠ n.nalId
  · obtain ⟨id, hid, hne⟩ := hother
    have hmem : id ∈ (rx.reassembler.pending.insert n.nalId e).keys :=
      (AList.mem_insert _).mpr (.inr hid)
    exact (lookup_evict_of_lt hmem (h.older id hid hne)).trans (AList.lookup_insert _)
  · have hfew : (rx.reassembler.pending.insert n.nalId e).keys.length ≤
        rx.reassembler.maxPending := by
      have hempty : rx.reassembler.pending.keys.erase n.nalId = [] := by
        refine List.eq_nil_iff_forall_not_mem.mpr fun id hid => hother ?_
        obtain ⟨hne, hmem⟩ := (List.Nodup.mem_erase_iff rx.reassembler.pending.nodupKeys).mp hid
        exact ⟨id, hmem, hne⟩
      rw [AList.keys_insert, hempty]
      exact h.room
    rw [evict_of_le hfew]
    exact AList.lookup_insert _

/-- One more chunk, and not all are there. -/
theorem Collecting.onDatagram_more (h : Collecting n q rx) (hfits : chunkCount n.nal.length ≤ 65536)
    {d : Bytes} (hd : d ∈ n.chunks) (hmore : ∃ d' ∈ n.chunks, d' ∉ q ++ [d]) :
    (rx.onDatagram d).2 = none ∧ Collecting n (q ++ [d]) (rx.onDatagram d).1 := by
  obtain ⟨i, hi, rfl⟩ := Nal.mem_chunks.mp hd
  have hstored := h.stored hfits hi
  have hne : n.nal ≠ [] := by
    intro hnil
    rw [hnil] at hi
    exact absurd hi (Nat.not_lt_zero i)
  have hcomplete :
      ¬ (rx.reassembler.stored (chunkParts n i).1 (chunkParts n i).2).complete = true := by
    rw [hstored.complete_iff hne]
    intro hall
    obtain ⟨d', hd', hmissing⟩ := hmore
    exact hmissing (hall d' hd')
  have hbounded := VideoLink.bounded_onDatagram h.bounded (chunk n.nalId n.nal i)
  rw [ChannelAReceiver.onDatagram]
  refine ⟨?_, hbounded, ?_, ?_, ?_⟩
  · rw [onDatagram_chunk, onChunk_of_not_complete hcomplete]
    rfl
  · rw [maxPending_onDatagram]
    exact h.room
  · intro id hid hne
    rw [onDatagram_chunk] at hid
    exact h.older id ((keys_onChunk _ _ _ id hid).resolve_left hne) hne
  · rw [onDatagram_chunk, onChunk_of_not_complete hcomplete]
    have hlookup := h.lookup_evict (rx.reassembler.stored (chunkParts n i).1 (chunkParts n i).2)
    rw [show (chunkParts n i).1.nalId = n.nalId from rfl, hlookup]
    exact hstored

/-- The last chunk. -/
theorem Collecting.onDatagram_last (h : Collecting n q rx) (hfits : chunkCount n.nal.length ≤ 65536)
    {d : Bytes} (hd : d ∈ n.chunks) (hall : ∀ d' ∈ n.chunks, d' ∈ q ++ [d]) :
    (rx.onDatagram d).2 = some n.annexB ∧ ∀ id, n.nalId < id → Older id (rx.onDatagram d).1 := by
  obtain ⟨i, hi, rfl⟩ := Nal.mem_chunks.mp hd
  have hstored := h.stored hfits hi
  have hne : n.nal ≠ [] := by
    intro hnil
    rw [hnil] at hi
    exact absurd hi (Nat.not_lt_zero i)
  have hcomplete := (hstored.complete_iff hne).mpr hall
  have hbounded := VideoLink.bounded_onDatagram h.bounded (chunk n.nalId n.nal i)
  rw [ChannelAReceiver.onDatagram]
  refine ⟨?_, fun id hid => ⟨hbounded, ?_, ?_⟩⟩
  · rw [onDatagram_chunk, onChunk_of_complete hcomplete,
      hstored.entryMatches.bytes_eq hstored.counted hne hcomplete]
    rfl
  · rw [maxPending_onDatagram]
    exact h.room
  · intro id' hid'
    by_cases hsame : id' = n.nalId
    · rw [hsame]
      exact hid
    · rw [onDatagram_chunk] at hid'
      have hold := (keys_onChunk _ _ _ id' hid').resolve_left hsame
      exact UInt32.lt_trans (h.older id' hold hsame) hid

end

end

/-! ## Runs -/

/-- Nothing of a NAL from this id on has arrived. -/
structure Before (id : UInt32) (p : VideoPath) : Prop where
  older : Older id p.videoRx
  bound : ∀ e ∈ p.videoGate.nextId, e ≤ id

/-- An older NAL does not raise the expected id above the bound. -/
theorem bound_admitNal {g : DeltaGate} {id nalId : UInt32} (h : ∀ e ∈ g.nextId, e ≤ id)
    (hlt : nalId < id) (nalType : UInt8) : ∀ e ∈ (g.admitNal nalId nalType).1.nextId, e ≤ id := by
  have hsucc : nalId + 1 ≤ id := by
    have := id.toNat_lt
    rw [UInt32.lt_iff_toNat_lt] at hlt
    rw [UInt32.le_iff_toNat_le, UInt32.toNat_add, UInt32.toNat_one]
    omega
  have hnext : ∀ f : DeltaGate, ∀ e ∈ (f.admitNext nalId nalType).1.nextId, e ≤ id := by
    intro f
    rw [DeltaGate.admitNext_nextId]
    rintro _ ⟨⟩
    exact hsucc
  by_cases hrestarts : g.Restarts nalId
  · rw [DeltaGate.admit_of_restarts hrestarts]
    exact hnext _
  · rcases DeltaGate.admit_cases hrestarts nalType with ⟨_, -, -, heq⟩ | ⟨_, -, -, heq⟩ | ⟨-, heq⟩
    · rw [heq]
      exact h
    · rw [heq]
      exact hnext _
    · rw [heq]
      exact hnext _

section

variable {p : VideoPath}

theorem onNal_videoRx (p : VideoPath) (nalId : UInt32) (nalBytes : Bytes) (taken : Bool) :
    (p.onNal nalId nalBytes taken).videoRx = p.videoRx := by
  rw [onNal]
  cases p.videoGate.admitNal nalId (annexBNalType nalBytes) with
  | mk videoGate admitted => cases admitted <;> cases taken <;> rfl

theorem onNal_nextId (p : VideoPath) (nalId : UInt32) (nalBytes : Bytes) (taken : Bool) :
    (p.onNal nalId nalBytes taken).videoGate.nextId =
      (p.videoGate.admitNal nalId (annexBNalType nalBytes)).1.nextId := by
  rw [onNal]
  cases p.videoGate.admitNal nalId (annexBNalType nalBytes) with
  | mk videoGate admitted =>
      cases admitted with
      | false => rfl
      | true =>
          cases taken with
          | true => rfl
          | false => exact nextId_freeze videoGate

/-- Older chunks keep the console before the id. -/
theorem Before.onVideoDatagram {id : UInt32} (h : Before id p) {old : Nal} (hold : old.nalId < id)
    {payload : Bytes} (hpayload : payload ∈ old.chunks) (taken : Bool) :
    Before id (p.onVideoDatagram payload taken) := by
  obtain ⟨holder, hout⟩ := h.older.onDatagram hold hpayload
  rw [VideoPath.onVideoDatagram]
  cases hrx : p.videoRx.onDatagram payload with
  | mk videoRx out =>
      rw [hrx] at holder hout
      cases out with
      | none => exact ⟨holder, h.bound⟩
      | some nal =>
          refine ⟨?_, ?_⟩
          · rw [onNal_videoRx]
            exact holder
          · rw [onNal_nextId]
            exact bound_admitNal h.bound (hout nal rfl) _

/-- So does a run of them. -/
theorem Before.exec {id : UInt32} {past : List Event} (h : Before id p)
    (hpast : ∀ payload ∈ trace VideoPath.step arrived p past, ∃ old : Nal,
      old.nalId < id ∧ payload ∈ old.chunks) : Before id (Runs.exec VideoPath.step p past) := by
  induction past generalizing p with
  | nil => exact h
  | cons e past ih =>
      rw [trace, List.forall_mem_append] at hpast
      refine ih ?_ hpast.2
      cases harrived : p.arrived e with
      | none =>
          have hsame := step_of_not_arrived harrived
          exact ⟨hsame.videoRx ▸ h.older, hsame.videoGate ▸ h.bound⟩
      | some payload =>
          obtain ⟨k, taken, -, hstep⟩ := step_of_arrived harrived
          rw [harrived] at hpast
          obtain ⟨old, hold, hpayload⟩ := hpast.1 payload (List.mem_singleton_self payload)
          rw [hstep]
          exact h.onVideoDatagram hold hpayload taken

/-- Nothing arrives, and playback is given nothing. -/
theorem given_of_quiet {block : List Event} (h : trace VideoPath.step arrived p block = []) :
    (Runs.exec VideoPath.step p block).given = p.given := by
  induction block generalizing p with
  | nil => rfl
  | cons e block ih =>
      rw [trace, List.append_eq_nil_iff] at h
      have harrived : p.arrived e = none := Option.toList_eq_nil_iff.mp h.1
      rw [exec_cons, ih h.2]
      exact (step_of_not_arrived harrived).given

/-- A NAL that opens the gate is given to playback. -/
theorem onNal_opens {n : Nal} (h : Opens p.videoGate n) :
    (p.onNal n.annexB.1 n.annexB.2 true).given = p.given ++ [n.annexB] ∧
      (p.onNal n.annexB.1 n.annexB.2 true).videoGate.nextId = some (n.nalId + 1) ∧
      (p.onNal n.annexB.1 n.annexB.2 true).videoGate.frozen = false := by
  obtain ⟨hadmitted, hnext, hopen⟩ := h.admitNal
  have hsame : ¬ p.videoGate.Restarts n.nalId := not_restarts h.le
  rw [onNal, Nal.annexB_nalType, show n.annexB.1 = n.nalId from rfl, if_neg hsame]
  cases hverdict : p.videoGate.admitNal n.nalId n.nalType with
  | mk videoGate admitted =>
      rw [hverdict] at hadmitted hnext hopen
      obtain rfl : admitted = true := hadmitted
      exact ⟨rfl, hnext, hopen⟩

end

/-- Nonempty NALs that fit, with one id after the other. -/
structure Consecutive (nals : List Nal) : Prop where
  ids : nals.IsChain fun n n' => n'.nalId = n.nalId + 1 ∧ n.nalId < n'.nalId
  nonempty : ∀ n ∈ nals, n.nal ≠ []
  fits : ∀ n ∈ nals, chunkCount n.nal.length ≤ 65536

theorem Consecutive.tail {n : Nal} {rest : List Nal} (h : Consecutive (n :: rest)) :
    Consecutive rest where
  ids := h.ids.tail
  nonempty m hm := h.nonempty m (List.mem_cons_of_mem n hm)
  fits m hm := h.fits m (List.mem_cons_of_mem n hm)

theorem chunks_ne_nil {n : Nal} (h : n.nal ≠ []) : n.chunks ≠ [] :=
  List.ne_nil_of_mem (Nal.mem_chunks.mpr ⟨0, chunkCount_pos h, rfl⟩)

section

variable {p : VideoPath} {n : Nal} {q : List Bytes} {d : Bytes}

/-- A chunk that is not the last. -/
theorem onVideoDatagram_more (h : Collecting n q p.videoRx)
    (hfits : chunkCount n.nal.length ≤ 65536) (hd : d ∈ n.chunks)
    (hmore : ∃ d' ∈ n.chunks, d' ∉ q ++ [d]) :
    Collecting n (q ++ [d]) (p.onVideoDatagram d true).videoRx ∧
      (p.onVideoDatagram d true).videoGate = p.videoGate ∧
      (p.onVideoDatagram d true).given = p.given := by
  obtain ⟨hnone, hnext⟩ := h.onDatagram_more hfits hd hmore
  rw [onVideoDatagram]
  cases hrx : p.videoRx.onDatagram d with
  | mk videoRx out =>
      rw [hrx] at hnone hnext
      obtain rfl : out = none := hnone
      exact ⟨hnext, rfl, rfl⟩

/-- The last chunk of a NAL that the gate lets through. -/
theorem onVideoDatagram_last (h : Collecting n q p.videoRx) (hopens : Opens p.videoGate n)
    (hfits : chunkCount n.nal.length ≤ 65536) (hd : d ∈ n.chunks)
    (hall : ∀ d' ∈ n.chunks, d' ∈ q ++ [d]) :
    (p.onVideoDatagram d true).given = p.given ++ [n.annexB] ∧
      ∀ n' : Nal, n'.nalId = n.nalId + 1 → n.nalId < n'.nalId →
        Collecting n' [] (p.onVideoDatagram d true).videoRx ∧
          Opens (p.onVideoDatagram d true).videoGate n' := by
  obtain ⟨hsome, holder⟩ := h.onDatagram_last hfits hd hall
  rw [onVideoDatagram]
  cases hrx : p.videoRx.onDatagram d with
  | mk videoRx out =>
      rw [hrx] at hsome holder
      obtain rfl : out = some n.annexB := hsome
      obtain ⟨hgiven, hnext, hopen⟩ := onNal_opens (p := { p with videoRx }) hopens
      refine ⟨hgiven, fun n' hid hlt => ⟨?_, .inr ⟨?_, hopen⟩⟩⟩
      · show Collecting n' [] (onNal { p with videoRx } n.annexB.1 n.annexB.2 true).videoRx
        rw [onNal_videoRx]
        exact (holder n'.nalId hlt).collecting
      · rw [hid]
        exact hnext

end

/-- The chunks `b` of the NAL are still to arrive, then the rest. -/
theorem given_of_arrives {block : List Event} : ∀ {p : VideoPath} {n : Nal} {rest : List Nal}
    {q b : List Bytes} {blocks : List (List Bytes)}, Collecting n q p.videoRx →
      Opens p.videoGate n → Consecutive (n :: rest) → (q ++ b).Perm n.chunks → b ≠ [] →
      List.Forall₂ (fun n b => b.Perm (Nal.chunks n)) rest blocks →
      trace step arrived p block = b ++ blocks.flatten → (∀ k, .arrive k false ∉ block) →
        (exec step p block).given = p.given ++ (n :: rest).map Nal.annexB := by
  induction block with
  | nil =>
      intro p n rest q b blocks _ _ _ _ hb _ htrace _
      exact absurd (List.append_eq_nil_iff.mp htrace.symm).1 hb
  | cons e block ih =>
      intro p n rest q b blocks hcollecting hopens hnals hperm hb hblocks htrace htaken
      have htaken' : ∀ k, .arrive k false ∉ block :=
        fun k hk => htaken k (List.mem_cons_of_mem e hk)
      rw [trace] at htrace
      rw [exec_cons]
      cases harrived : p.arrived e with
      | none =>
          have hsame := step_of_not_arrived harrived
          rw [harrived] at htrace
          rw [← hsame.given]
          exact ih (hsame.videoRx ▸ hcollecting) (hsame.videoGate ▸ hopens) hnals hperm hb hblocks
            htrace htaken'
      | some payload =>
          obtain ⟨k, taken, rfl, hstep⟩ := step_of_arrived harrived
          obtain rfl : taken = true := by
            cases taken with
            | true => rfl
            | false => exact absurd List.mem_cons_self (htaken k)
          rw [harrived, Option.toList_some, List.singleton_append, hstep] at htrace
          rw [hstep]
          have hfits := hnals.fits n List.mem_cons_self
          cases b with
          | nil => exact absurd rfl hb
          | cons d b =>
              obtain ⟨rfl, hrest⟩ := List.cons.inj htrace
              have hd : payload ∈ n.chunks :=
                hperm.mem_iff.mp (List.mem_append_right q List.mem_cons_self)
              rw [List.append_cons] at hperm
              cases b with
              | cons c b =>
                  have hc : c ∉ q ++ [payload] := by
                    intro hmem
                    have hnodup := hperm.nodup_iff.mpr (Nal.nodup_chunks hfits)
                    exact (List.nodup_append.mp hnodup).2.2 c hmem c List.mem_cons_self rfl
                  have hmem : c ∈ n.chunks :=
                    hperm.mem_iff.mp (List.mem_append_right _ List.mem_cons_self)
                  obtain ⟨hnext, hgate, hgiven⟩ :=
                    onVideoDatagram_more hcollecting hfits hd ⟨c, hmem, hc⟩
                  rw [← hgiven]
                  exact ih hnext (hgate ▸ hopens) hnals hperm (List.cons_ne_nil c b) hblocks
                    hrest htaken'
              | nil =>
                  rw [List.append_nil] at hperm
                  obtain ⟨hgiven, hnext⟩ := onVideoDatagram_last hcollecting hopens hfits hd
                    fun d' hd' => hperm.mem_iff.mpr hd'
                  cases hblocks with
                  | nil =>
                      rw [given_of_quiet hrest, hgiven]
                      rfl
                  | @cons n' b' rest blocks hb' hblocks =>
                      obtain ⟨⟨hid, hlt⟩, -⟩ := List.isChain_cons_cons.mp hnals.ids
                      obtain ⟨hcollecting', hopens'⟩ := hnext n' hid hlt
                      have hne : b' ≠ [] := by
                        rintro rfl
                        refine chunks_ne_nil (hnals.tail.nonempty n' List.mem_cons_self) ?_
                        exact List.nil_perm.mp hb'
                      refine (ih hcollecting' hopens' hnals.tail hb' hne hblocks hrest
                        htaken').trans ?_
                      rw [hgiven, List.append_assoc]
                      rfl

/-! ## From the encoder's numbers -/

/-- NALs that were made in a row have ids in a row. -/
theorem consecutive_of_infix {p : VideoPath} {nals : List Nal} (h : p.Inv) (hfits : p.Fits)
    (hmade : nals <:+: p.pipeline.encoded.map Prod.snd) (hne : ∀ n ∈ nals, n.nal ≠ []) :
    Consecutive nals where
  ids := by
    refine List.IsChain.infix ?_ hmade
    rw [List.isChain_iff_getElem]
    intro i hi
    rw [List.length_map] at hi
    have hid : ∀ j (hj : j < p.pipeline.encoded.length),
        (p.pipeline.encoded[j]).2.nalId = UInt32.ofNat j :=
      fun j hj => h.numbered j _ (List.getElem?_eq_getElem hj)
    have hlt : i + 1 < UInt32.size := hi.trans hfits.few
    rw [List.getElem_map, List.getElem_map, hid, hid]
    refine ⟨?_, ?_⟩
    · exact UInt32.ofNat_add i 1
    · rw [UInt32.lt_iff_toNat_lt, UInt32.toNat_ofNat_of_lt' hlt,
        UInt32.toNat_ofNat_of_lt' ((Nat.lt_succ_self i).trans hlt)]
      exact Nat.lt_succ_self i
  nonempty := hne
  fits n hn := by
    obtain ⟨x, hx, rfl⟩ := List.mem_map.mp (hmade.subset hn)
    exact chunkCount_le (hfits.small x hx)

theorem Before.new (policy : SensorFramePolicy) (id : UInt32) : Before id (new policy) where
  older := ⟨Nat.zero_le _, Nat.zero_lt_succ _, nofun⟩
  bound := nofun

/-- A group whose chunks arrive in a row is given whole, after any past. -/
theorem videoPath_resumes (policy : SensorFramePolicy) (past block : List Event) (nals : List Nal)
    (hfits : (exec step (new policy) (past ++ block)).Fits)
    (harrives : ArrivesFrom policy past block nals) :
    (exec step (new policy) (past ++ block)).given =
      (exec step (new policy) past).given ++ nals.map Nal.annexB := by
  obtain ⟨idr, rest, rfl, hidr, hpast⟩ := harrives.idr
  obtain ⟨blocks, hblocks, htrace⟩ := harrives.whole
  have hnals := consecutive_of_infix (inv_exec hfits) hfits harrives.encoded harrives.nonempty
  have hbefore : Before idr.nalId (exec step (new policy) past) :=
    (Before.new policy idr.nalId).exec hpast
  rw [exec_append]
  cases hblocks with
  | @cons _ b _ blocks hb hblocks =>
      have hne : b ≠ [] := by
        rintro rfl
        exact chunks_ne_nil (hnals.nonempty idr List.mem_cons_self) (List.nil_perm.mp hb)
      exact given_of_arrives hbefore.older.collecting (.inl ⟨hidr, hbefore.bound⟩) hnals hb hne
        hblocks htrace harrives.taken

/-- An IDR and the second delta after it arrive, the first does not. -/
def brokenPast : List Event :=
  ([[5], [1, 1], [1, 2]].flatMap produce) ++ [.arrive 0 true, .arrive 2 true]

/-- The next IDR and the delta after it arrive. -/
def nextGroup : List Event :=
  ([[5, 2], [1, 3]].flatMap produce) ++ [.arrive 3 true, .arrive 4 true]

/-- A group that follows a broken one. -/
theorem videoPath_resumes_nextGroup :
    (exec step (new .cut) (brokenPast ++ nextGroup)).given =
      (exec step (new .cut) brokenPast).given ++ [⟨3, [5, 2]⟩, ⟨4, [1, 3]⟩].map Nal.annexB := by
  refine videoPath_resumes .cut brokenPast nextGroup [⟨3, [5, 2]⟩, ⟨4, [1, 3]⟩]
    ⟨by decide +kernel, by decide +kernel⟩ ⟨⟨⟨3, [5, 2]⟩, [⟨4, [1, 3]⟩], rfl, by decide, ?_⟩,
      ⟨[⟨0, [5]⟩, ⟨1, [1, 1]⟩, ⟨2, [1, 2]⟩], [], by decide +kernel⟩, by decide,
      ⟨[Nal.chunks ⟨3, [5, 2]⟩, Nal.chunks ⟨4, [1, 3]⟩], .cons (.refl _) (.cons (.refl _) .nil),
        by decide +kernel⟩, ?_⟩
  · have hpast : trace step arrived (new .cut) brokenPast =
        Nal.chunks ⟨0, [5]⟩ ++ Nal.chunks ⟨2, [1, 2]⟩ := by decide +kernel
    rw [hpast]
    intro payload hpayload
    rcases List.mem_append.mp hpayload with hfirst | hsecond
    · exact ⟨⟨0, [5]⟩, by decide, hfirst⟩
    · exact ⟨⟨2, [1, 2]⟩, by decide, hsecond⟩
  · simp [nextGroup, produce]

end VideoPath

end RoboTele
