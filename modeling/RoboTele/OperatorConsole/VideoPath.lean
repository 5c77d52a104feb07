import RoboTele.OperatorConsole.VideoSessions
import RoboTele.OperatorConsole.DeltaGate
import RoboTele.RobotEdge.VideoPipeline

/-!
# From the encoder to playback

The NALs of one session on their way from the robot's encoder to the console's playback.  The
robot drops deltas that are stale or too many, the network loses, delays and repeats
datagrams, the receiver puts NALs together, and the gate holds deltas back.

A delta is decoded with the help of the picture before it.  `ShowsChains` says that playback
gets a delta right after that picture, once an IDR has begun the stream, whatever was dropped
or lost before, and that it gets no picture twice or out of order.  All that the gate sees for
this is the ids.
-/

namespace RoboTele

open Runs Queues

instance (nalType : UInt8) : Decidable (IsPicture nalType) :=
  inferInstanceAs (Decidable (IsDelta nalType ∨ nalType = nalIdr))

/-- The type of a NAL behind its start code, zero for none. -/
def annexBNalType (nalBytes : Bytes) : UInt8 :=
  (nalBytes[4]?).elim 0 (· &&& 0x1F)

/-- A NAL as the receiver emits it. -/
def Nal.annexB (n : Nal) : UInt32 × Bytes := (n.nalId, ChannelAReceiver.startCode ++ n.nal)

@[simp] theorem Nal.annexB_nalType (n : Nal) : annexBNalType n.annexB.2 = n.nalType := by
  rw [annexB, nalType]
  cases n.nal <;> rfl

/-- The robot's pipeline, and the receiver, the gate and playback of the console. -/
structure VideoPath where
  pipeline : VideoPipeline
  videoRx : ChannelAReceiver
  videoGate : DeltaGate
  /-- What playback was given since the gate last took an id for a new stream. -/
  given : List (UInt32 × Bytes)

namespace VideoPath

def new (policy : SensorFramePolicy) : VideoPath where
  pipeline := .new policy
  videoRx := .new
  videoGate := .new
  given := []

/-- Playback is given a NAL, and says whether it has taken it. -/
def offer (p : VideoPath) (nal : UInt32 × Bytes) (taken : Bool) : VideoPath :=
  if taken then { p with given := p.given ++ [nal] }
  else { p with videoGate := p.videoGate.playbackOverflowed }

/-- A NAL that the receiver has put together. -/
def onNal (p : VideoPath) (nalId : UInt32) (nalBytes : Bytes) (taken : Bool) : VideoPath :=
  let given := if p.videoGate.Restarts nalId then [] else p.given
  match p.videoGate.admitNal nalId (annexBNalType nalBytes) with
  | (videoGate, false) => { p with videoGate, given }
  | (videoGate, true) => { p with videoGate, given }.offer (nalId, nalBytes) taken

/-- The console's branch for a video datagram. -/
def onVideoDatagram (p : VideoPath) (payload : Bytes) (taken : Bool) : VideoPath :=
  match p.videoRx.onDatagram payload with
  | (videoRx, none) => { p with videoRx }
  | (videoRx, some (nalId, nalBytes)) => { p with videoRx }.onNal nalId nalBytes taken

/-- A step of the robot, or the arrival of a datagram. -/
inductive Event where
  | robot (e : VideoPipeline.Event)
  /-- The `k`-th video datagram that left arrives.  One may arrive again, or never. -/
  | arrive (k : Nat) (taken : Bool)

/-- What happens on the path. -/
def step (p : VideoPath) : Event → VideoPath
  | .robot e => { p with pipeline := p.pipeline.step e }
  | .arrive k taken =>
      match p.pipeline.queue.sent[k]?.bind fun c => untag c.2 with
      | some (_, payload) => p.onVideoDatagram payload taken
      | none => p

/-! ## What playback is given -/

/-- The pictures among some NALs. -/
def pictures (nals : List (UInt32 × Bytes)) : List (UInt32 × Bytes) :=
  nals.filter fun g => IsPicture (annexBNalType g.2)

/-- The encoder's last picture before an id. -/
def pictureBefore (encoded : List (Nat × Nal)) (nalId : UInt32) : Option (UInt32 × Bytes) :=
  (pictures ((encoded.take nalId.toNat).map fun x => x.2.annexB)).getLast?

/-- Every NAL is one of the encoder's, the pictures are in the encoder's order with none of
them twice, and every delta that comes after an IDR comes right after the encoder's picture
before it. -/
structure ShowsChains (p : VideoPath) : Prop where
  whole : ∀ g ∈ p.given, ∃ x ∈ p.pipeline.encoded, g = x.2.annexB
  ordered : (pictures p.given).Pairwise fun g g' => g.1 < g'.1
  chained : ∀ before d after, p.given = before ++ d :: after → IsDelta (annexBNalType d.2) →
    (∃ g ∈ before, annexBNalType g.2 = nalIdr) →
      (pictures before).getLast? = pictureBefore p.pipeline.encoded d.1

/-- The NALs are few enough for ids of 32 bits and small enough for chunk numbers of 16. -/
structure Fits (p : VideoPath) : Prop where
  few : p.pipeline.encoded.length < UInt32.size
  small : ∀ x ∈ p.pipeline.encoded, x.2.nal.length ≤ 65536 * maxChunkPayload

/-! ## The robot's side -/

/-- The ids are the places. -/
def Numbered (encoded : List (Nat × Nal)) : Prop :=
  ∀ i x, encoded[i]? = some x → x.2.nalId = UInt32.ofNat i

/-- The encoder adds a NAL, or nothing happens to what it made. -/
theorem encoded_step (s : VideoPipeline) (e : VideoPipeline.Event) :
    (s.step e).encoded = s.encoded ∨
      ∃ nal, (s.step e).encoded = s.encoded ++ [s.number nal] := by
  cases e with
  | encode nal => exact .inr ⟨nal, rfl⟩
  | recv now =>
      left
      rw [VideoPipeline.step, VideoPipeline.recv]
      cases s.rx.recv with
      | mk rx nal => cases nal <;> rfl
  | pushSensorFrame sensorId datagrams => exact .inl rfl
  | pop now => exact .inl rfl

theorem prefix_step (s : VideoPipeline) (e : VideoPipeline.Event) :
    s.encoded <+: (s.step e).encoded := by
  rcases encoded_step s e with hsame | ⟨nal, hmore⟩
  · rw [hsame]
  · rw [hmore]
    exact List.prefix_append _ _

/-- NALs are numbered as they are made. -/
theorem Numbered.step {s : VideoPipeline} (h : Numbered s.encoded) (e : VideoPipeline.Event) :
    Numbered (s.step e).encoded := by
  rcases encoded_step s e with hsame | ⟨nal, hmore⟩
  · rwa [hsame]
  · rw [hmore]
    intro i x hx
    rcases Nat.lt_or_ge i s.encoded.length with hlt | hge
    · rw [List.getElem?_append_left hlt] at hx
      exact h i x hx
    · rw [List.getElem?_append_right hge] at hx
      have hi := (List.getElem?_eq_some_iff.mp hx).1
      rw [List.length_singleton] at hi
      obtain rfl : i = s.encoded.length := by omega
      rw [Nat.sub_self] at hx
      obtain rfl : s.number nal = x := Option.some.inj hx
      rfl

/-- A video datagram that left is a chunk of a NAL of the encoder. -/
theorem chunk_of_sent {s : VideoPipeline} (h : s.Inv) {k : Nat} {c : Nat × Bytes}
    (hc : s.queue.sent[k]? = some c) :
    ∃ x ∈ s.encoded, ∃ i < chunkCount x.2.nal.length,
      c.2 = tag datagramTagChannelA (chunk x.2.nalId x.2.nal i) := by
  have hkept := h.kept
  obtain ⟨x, hx⟩ := hkept.onlyReceived c (List.mem_of_getElem? hc)
  have hmem : c.2 ∈ sentIn s.queue.sent c.1 :=
    List.mem_filterMap.mpr ⟨c, List.mem_of_getElem? hc, if_pos rfl⟩
  have hdatagram : c.2 ∈ x.2.datagrams := (hkept.inOrder c.1 x hx).subset hmem
  obtain ⟨d, hd, htag⟩ := List.mem_map.mp hdatagram
  obtain ⟨i, hi, hchunk⟩ := List.mem_map.mp hd
  refine ⟨x, h.mem_encoded hx, i, List.mem_range.mp hi, ?_⟩
  rw [← htag, ← hchunk]

/-! ## What the receiver emits -/

section

variable {p : VideoPath}

/-- Every NAL that is not complete is one of the encoder's. -/
def Collects (encoded : List (Nat × Nal)) (rx : ChannelAReceiver) : Prop :=
  ∀ id, ∀ e ∈ rx.reassembler.pending.lookup id,
    ∃ x ∈ encoded, x.2.nalId = id ∧ e.Matches x.2 ∧ e.Counted

/-- While the ids fit, they tell the NALs apart. -/
theorem Fits.nalId_inj (h : p.Fits) (hnumbered : Numbered p.pipeline.encoded) {x y : Nat × Nal}
    (hx : x ∈ p.pipeline.encoded) (hy : y ∈ p.pipeline.encoded) (hid : x.2.nalId = y.2.nalId) :
    x = y := by
  obtain ⟨i, hi⟩ := List.mem_iff_getElem?.mp hx
  obtain ⟨j, hj⟩ := List.mem_iff_getElem?.mp hy
  have hplace {k : Nat} {z : Nat × Nal} (hz : p.pipeline.encoded[k]? = some z) :
      z.2.nalId.toNat = k := by
    have hk := (List.getElem?_eq_some_iff.mp hz).1
    rw [hnumbered k z hz, UInt32.toNat_ofNat_of_lt' (hk.trans h.few)]
  have hij : i = j := by rw [← hplace hi, ← hplace hj, hid]
  rw [hij, hj] at hi
  exact (Option.some.inj hi).symm

/-- A chunk of one of the encoder's NALs completes it or is kept. -/
theorem Collects.onDatagram (h : Collects p.pipeline.encoded p.videoRx) (hfits : p.Fits)
    (hnumbered : Numbered p.pipeline.encoded) {x : Nat × Nal} (hx : x ∈ p.pipeline.encoded)
    {i : Nat} (hi : i < chunkCount x.2.nal.length) :
    Collects p.pipeline.encoded (p.videoRx.onDatagram (chunk x.2.nalId x.2.nal i)).1 ∧
      ((p.videoRx.onDatagram (chunk x.2.nalId x.2.nal i)).2 = none ∨
        (p.videoRx.onDatagram (chunk x.2.nalId x.2.nal i)).2 = some x.2.annexB) := by
  have hsmall : chunkCount x.2.nal.length ≤ 65536 := chunkCount_le (hfits.small x hx)
  have hne : x.2.nal ≠ [] := by
    intro hnil
    rw [hnil] at hi
    exact absurd hi (Nat.not_lt_zero i)
  obtain ⟨hmatches, hcounted⟩ :
      (p.videoRx.reassembler.stored (chunkParts x.2 i).1 (chunkParts x.2 i).2).Matches x.2 ∧
        (p.videoRx.reassembler.stored (chunkParts x.2 i).1 (chunkParts x.2 i).2).Counted := by
    rw [NalReassembler.stored]
    have hid : (chunkParts x.2 i).1.nalId = x.2.nalId := rfl
    rw [hid]
    cases hlookup : p.videoRx.reassembler.pending.lookup x.2.nalId with
    | none =>
        exact ⟨NalReassembler.PendingNal.Matches.empty.store hsmall hi,
          NalReassembler.PendingNal.Counted.empty.store _ _⟩
    | some e =>
        obtain ⟨y, hy, hyid, hmatches, hcounted⟩ := h _ e hlookup
        obtain rfl := hfits.nalId_inj hnumbered hy hx hyid
        exact ⟨hmatches.store hsmall hi, hcounted.store _ _⟩
  rw [ChannelAReceiver.onDatagram, NalReassembler.onDatagram_chunk]
  constructor
  · intro id e he
    by_cases hid : id = (chunkParts x.2 i).1.nalId
    · subst hid
      rcases NalReassembler.lookup_onChunk_self p.videoRx.reassembler (chunkParts x.2 i).1
        (chunkParts x.2 i).2 with hnone | hsome
      · exact absurd (hnone.symm.trans he) (Option.some_ne_none e).symm
      · obtain rfl := Option.some.inj (hsome.symm.trans he)
        exact ⟨x, hx, rfl, hmatches, hcounted⟩
    · rcases NalReassembler.lookup_onChunk_ne p.videoRx.reassembler (chunkParts x.2 i).1
        (chunkParts x.2 i).2 hid with hnone | hsame
      · exact absurd (hnone.symm.trans he) (Option.some_ne_none e).symm
      · exact h id e (hsame.symm.trans he)
  · by_cases hcomplete : (p.videoRx.reassembler.stored (chunkParts x.2 i).1
        (chunkParts x.2 i).2).complete = true
    · right
      rw [NalReassembler.onChunk_of_complete hcomplete, hmatches.bytes_eq hcounted hne hcomplete]
      rfl
    · left
      rw [NalReassembler.onChunk_of_not_complete hcomplete]
      rfl

end

/-! ## What the gate lets through -/

/-- The pictures among the NALs. -/
theorem pictures_concat (nals : List (UInt32 × Bytes)) (g : UInt32 × Bytes) :
    pictures (nals ++ [g]) =
      pictures nals ++ if IsPicture (annexBNalType g.2) then [g] else [] := by
  rw [pictures, List.filter_append, List.filter_singleton]
  by_cases h : IsPicture (annexBNalType g.2)
  · rw [if_pos h, decide_eq_true h]
    rfl
  · rw [if_neg h, decide_eq_false h]
    rfl

theorem getLast?_pictures_of_picture (nals : List (UInt32 × Bytes)) {g : UInt32 × Bytes}
    (h : IsPicture (annexBNalType g.2)) : (pictures (nals ++ [g])).getLast? = some g := by
  rw [pictures_concat, if_pos h, List.getLast?_concat]

theorem pictures_of_not_picture (nals : List (UInt32 × Bytes)) {g : UInt32 × Bytes}
    (h : ¬ IsPicture (annexBNalType g.2)) : pictures (nals ++ [g]) = pictures nals := by
  rw [pictures_concat, if_neg h, List.append_nil]

section

variable {encoded : List (Nat × Nal)} {x : Nat × Nal}

/-- One more NAL of the encoder's. -/
theorem pictureBefore_succ (hx : encoded[x.2.nalId.toNat]? = some x)
    (hfew : encoded.length < UInt32.size) :
    (x.2.nalId + 1).toNat = x.2.nalId.toNat + 1 ∧
      pictureBefore encoded (x.2.nalId + 1) =
        (pictures (((encoded.take x.2.nalId.toNat).map fun y => y.2.annexB) ++
          [x.2.annexB])).getLast? := by
  have hlt := (List.getElem?_eq_some_iff.mp hx).1
  have hnext : (x.2.nalId + 1).toNat = x.2.nalId.toNat + 1 := by
    rw [UInt32.toNat_add]
    exact Nat.mod_eq_of_lt (Nat.lt_of_le_of_lt hlt hfew)
  refine ⟨hnext, ?_⟩
  rw [pictureBefore, hnext, List.take_add_one, hx, Option.toList_some, List.map_append,
    List.map_singleton]

/-- Later NALs do not change what came before. -/
theorem pictureBefore_append {nalId : UInt32} (h : nalId.toNat ≤ encoded.length)
    (more : List (Nat × Nal)) :
    pictureBefore (encoded ++ more) nalId = pictureBefore encoded nalId := by
  rw [pictureBefore, List.take_append_of_le_length h, pictureBefore]

/-- The gate and what playback was given. -/
structure Follows (encoded : List (Nat × Nal)) (g : DeltaGate) (given : List (UInt32 × Bytes)) :
    Prop where
  whole : ∀ n ∈ given, ∃ x ∈ encoded, n = x.2.annexB
  ordered : (pictures given).Pairwise fun n n' => n.1 < n'.1
  chained : ∀ before d after, given = before ++ d :: after → IsDelta (annexBNalType d.2) →
    (∃ n ∈ before, annexBNalType n.2 = nalIdr) →
      d.1.toNat ≤ encoded.length ∧ (pictures before).getLast? = pictureBefore encoded d.1
  bound : ∀ e ∈ g.nextId, e.toNat ≤ encoded.length
  below : ∀ e ∈ g.nextId, ∀ n ∈ pictures given, n.1 < e
  started : g.nextId = none → given = []
  /-- An open gate expects what comes after the last picture that playback was given. -/
  next : g.frozen = false → ∀ e ∈ g.nextId, (∃ n ∈ given, annexBNalType n.2 = nalIdr) →
    (pictures given).getLast? = pictureBefore encoded e

variable {g g' : DeltaGate} {given : List (UInt32 × Bytes)}

theorem Follows.new (encoded : List (Nat × Nal)) (stats : GateStats) :
    Follows encoded { DeltaGate.new with stats } [] where
  whole := nofun
  ordered := .nil
  chained _ _ _ h := absurd h.symm (List.append_ne_nil_of_right_ne_nil _ nofun)
  bound := nofun
  below := nofun
  started _ := rfl
  next _ _ := nofun

/-- Nor do they change what was given. -/
theorem Follows.append (h : Follows encoded g given) (more : List (Nat × Nal)) :
    Follows (encoded ++ more) g given where
  whole n hn := by
    obtain ⟨x, hx, hg⟩ := h.whole n hn
    exact ⟨x, List.mem_append_left more hx, hg⟩
  ordered := h.ordered
  chained before d after hgiven hdelta hidr := by
    obtain ⟨hle, hlast⟩ := h.chained before d after hgiven hdelta hidr
    rw [pictureBefore_append hle]
    exact ⟨hle.trans (List.prefix_append _ _).length_le, hlast⟩
  bound e he := (h.bound e he).trans (List.prefix_append _ _).length_le
  below := h.below
  started := h.started
  next hopen e he hidr := by
    rw [pictureBefore_append (h.bound e he)]
    exact h.next hopen e he hidr

/-- Playback is given nothing, and the gate is frozen. -/
theorem Follows.frozen (h : Follows encoded g given) (hfrozen : g'.frozen = true)
    (hnext : g'.nextId = g.nextId ∨
      ∃ e, g'.nextId = some e ∧ e.toNat ≤ encoded.length ∧ ∀ n ∈ pictures given, n.1 < e) :
    Follows encoded g' given where
  whole := h.whole
  ordered := h.ordered
  chained := h.chained
  bound := by
    rcases hnext with hsame | ⟨e, hmoved, hle, -⟩
    · rw [hsame]
      exact h.bound
    · rw [hmoved]
      rintro _ ⟨⟩
      exact hle
  below := by
    rcases hnext with hsame | ⟨e, hmoved, -, hbelow⟩
    · rw [hsame]
      exact h.below
    · rw [hmoved]
      rintro _ ⟨⟩
      exact hbelow
  started hnone := by
    rcases hnext with hsame | ⟨e, hmoved, -⟩
    · exact h.started (hsame.symm.trans hnone)
    · cases hmoved.symm.trans hnone
  next hopen := by
    rw [hfrozen] at hopen
    cases hopen

/-- Playback is given one more NAL. -/
theorem Follows.give (h : Follows encoded g given) (hx : encoded[x.2.nalId.toNat]? = some x)
    (hchain : IsDelta x.2.nalType → (∃ n ∈ given, annexBNalType n.2 = nalIdr) →
      (pictures given).getLast? = pictureBefore encoded x.2.nalId)
    (hnew : IsPicture x.2.nalType → ∀ n ∈ pictures given, n.1 < x.2.nalId)
    {e : UInt32} (hnext : g'.nextId = some e) (hle : e.toNat ≤ encoded.length)
    (hbelow : (∀ n ∈ pictures given, n.1 < e) ∧ (IsPicture x.2.nalType → x.2.nalId < e))
    (hopen : g'.frozen = false → (∃ n ∈ given ++ [x.2.annexB], annexBNalType n.2 = nalIdr) →
      (pictures (given ++ [x.2.annexB])).getLast? = pictureBefore encoded e) :
    Follows encoded g' (given ++ [x.2.annexB]) where
  whole n hn := by
    rcases List.mem_append.mp hn with hold | hnew
    · exact h.whole n hold
    · exact ⟨x, List.mem_of_getElem? hx, List.mem_singleton.mp hnew⟩
  ordered := by
    rw [pictures_concat]
    split
    · next hpicture =>
        refine List.pairwise_append.mpr ⟨h.ordered, List.pairwise_singleton _ _, ?_⟩
        intro n hn n' hn'
        rw [List.mem_singleton.mp hn']
        rw [Nal.annexB_nalType] at hpicture
        exact hnew hpicture n hn
    · rw [List.append_nil]
      exact h.ordered
  chained before d after hgiven hdelta hidr := by
    rcases List.eq_nil_or_concat after with rfl | ⟨after, last, rfl⟩
    · obtain ⟨rfl, hd⟩ := List.append_inj' hgiven rfl
      obtain rfl := List.singleton_inj.mp hd
      refine ⟨(List.getElem?_eq_some_iff.mp hx).1.le, ?_⟩
      refine hchain ?_ hidr
      rw [← Nal.annexB_nalType]
      exact hdelta
    · rw [List.concat_eq_append, ← List.cons_append, ← List.append_assoc] at hgiven
      exact h.chained before d after (List.append_inj' hgiven rfl).1 hdelta hidr
  bound := by
    rw [hnext]
    rintro _ ⟨⟩
    exact hle
  below := by
    rw [hnext]
    rintro _ ⟨⟩ n hn
    rw [pictures_concat] at hn
    rcases List.mem_append.mp hn with hold | hlast
    · exact hbelow.1 n hold
    · split at hlast
      · next hpicture =>
          rw [List.mem_singleton.mp hlast]
          rw [Nal.annexB_nalType] at hpicture
          exact hbelow.2 hpicture
      · cases hlast
  started hnone := by cases hnext.symm.trans hnone
  next hunfrozen e' he' hidr := by
    obtain rfl : e = e' := Option.some.inj (hnext.symm.trans he')
    exact hopen hunfrozen hidr

/-- What a gate and playback may make of a NAL. -/
structure Admits (encoded : List (Nat × Nal)) (given : List (UInt32 × Bytes)) (n : Nal)
    (r : DeltaGate × Bool) : Prop where
  rejected : r.2 = false → Follows encoded r.1 given
  taken : r.2 = true → Follows encoded r.1 (given ++ [n.annexB])
  overflowed : r.2 = true → Follows encoded r.1.playbackOverflowed given

theorem nextId_freeze (g : DeltaGate) : g.freeze.nextId = g.nextId := by
  rw [DeltaGate.freeze]
  split <;> rfl

/-- Only a frozen gate rejects a NAL that is not late. -/
theorem admitNext_rejected {nalId : UInt32} {nalType : UInt8}
    (h : (g.admitNext nalId nalType).2 = false) : g.frozen = true ∧ nalType ≠ nalIdr := by
  simp only [DeltaGate.admitNext] at h
  split at h
  · cases h
  · split at h
    · cases h
    · next hidr =>
        split at h
        · next hfrozen => exact ⟨hfrozen, hidr⟩
        · cases h

/-- A NAL that is not late, and is the expected one if the gate is open. -/
theorem Follows.admitNext (h : Follows encoded g given) (hfew : encoded.length < UInt32.size)
    (hx : encoded[x.2.nalId.toNat]? = some x)
    (hlate : ∀ e ∈ g.nextId, e ≤ x.2.nalId)
    (hexpects : g.frozen = false → g.nextId = none ∨ g.nextId = some x.2.nalId) :
    Admits encoded given x.2 (g.admitNext x.2.nalId x.2.nalType) := by
  have hlt := (List.getElem?_eq_some_iff.mp hx).1
  obtain ⟨hsucc, hbefore⟩ := pictureBefore_succ hx hfew
  have htype : annexBNalType x.2.annexB.2 = x.2.nalType := x.2.annexB_nalType
  have hle : (x.2.nalId + 1).toNat ≤ encoded.length := hsucc.trans_le hlt
  have hgrows : x.2.nalId < x.2.nalId + 1 := by
    rw [UInt32.lt_iff_toNat_lt, hsucc]
    exact Nat.lt_succ_self _
  have hnew : ∀ n ∈ pictures given, n.1 < x.2.nalId := by
    cases hnone : g.nextId with
    | none =>
        rw [h.started hnone]
        exact nofun
    | some e =>
        intro n hn
        exact UInt32.lt_of_lt_of_le (h.below e hnone n hn) (hlate e hnone)
  have hbelow : ∀ n ∈ pictures given, n.1 < x.2.nalId + 1 :=
    fun n hn => UInt32.lt_trans (hnew n hn) hgrows
  have hmoved : ∀ f : DeltaGate, f.nextId = some (x.2.nalId + 1) → f.frozen = true →
      Follows encoded f given :=
    fun f hnext hfrozen => h.frozen hfrozen (.inr ⟨_, hnext, hle, hbelow⟩)
  have hover : ∀ f : DeltaGate, f.nextId = some (x.2.nalId + 1) →
      Follows encoded f.playbackOverflowed given :=
    fun f hnext => hmoved _ ((nextId_freeze f).trans hnext) (DeltaGate.freeze_frozen f)
  -- what an open gate has is the picture before this one
  have hchain : g.frozen = false → (∃ n ∈ given, annexBNalType n.2 = nalIdr) →
      (pictures given).getLast? = pictureBefore encoded x.2.nalId := by
    intro hopen hidr
    rcases hexpects hopen with hnone | hsome
    · rw [h.started hnone] at hidr
      obtain ⟨n, hn, -⟩ := hidr
      cases hn
    · exact h.next hopen _ hsome hidr
  have hnextId := DeltaGate.admitNext_nextId g x.2.nalId x.2.nalType
  refine ⟨fun hrejected => ?_, fun hadmitted => ?_, fun _ => hover _ hnextId⟩
  · obtain ⟨hfrozen, hidr⟩ := admitNext_rejected hrejected
    exact hmoved _ hnextId ((DeltaGate.admitNext_frozen hidr).trans hfrozen)
  · by_cases hpicture : IsPicture x.2.nalType
    · have hlast : (pictures (given ++ [x.2.annexB])).getLast? =
          pictureBefore encoded (x.2.nalId + 1) := by
        rw [hbefore, getLast?_pictures_of_picture _ (htype ▸ hpicture),
          getLast?_pictures_of_picture _ (htype ▸ hpicture)]
      refine h.give hx (fun hdelta => hchain ?_) (fun _ => hnew) hnextId hle
        ⟨hbelow, fun _ => hgrows⟩ fun _ _ => hlast
      rw [DeltaGate.admitNext_delta hdelta] at hadmitted
      exact Bool.not_eq_true' _ ▸ hadmitted
    · obtain ⟨hdelta, hidr⟩ := not_or.mp hpicture
      refine h.give hx (fun hd => absurd hd hdelta) (fun _ => hnew) hnextId hle
        ⟨hbelow, fun _ => hgrows⟩ fun hopen hsome => ?_
      rw [DeltaGate.admitNext_frozen hidr] at hopen
      rw [hbefore, pictures_of_not_picture _ (htype ▸ hpicture),
        pictures_of_not_picture _ (htype ▸ hpicture)]
      refine hchain hopen ?_
      obtain ⟨n, hn, hnidr⟩ := hsome
      rcases List.mem_append.mp hn with hold | hnew
      · exact ⟨n, hold, hnidr⟩
      · rw [List.mem_singleton.mp hnew, htype] at hnidr
        exact absurd hnidr hidr

/-- A NAL that is late is a parameter set or is not shown. -/
theorem Follows.admitLate (h : Follows encoded g given)
    (hx : encoded[x.2.nalId.toNat]? = some x) {expected : UInt32}
    (hnext : g.nextId = some expected) :
    Admits encoded given x.2 (g, decide (x.2.nalType = nalSps ∨ x.2.nalType = nalPps)) := by
  have htype : annexBNalType x.2.annexB.2 = x.2.nalType := x.2.annexB_nalType
  have hle : expected.toNat ≤ encoded.length := h.bound expected hnext
  refine ⟨fun _ => h, fun hadmitted => ?_, fun _ =>
    h.frozen (DeltaGate.freeze_frozen g) (.inl (nextId_freeze g))⟩
  have hparameters : x.2.nalType = nalSps ∨ x.2.nalType = nalPps := of_decide_eq_true hadmitted
  have hidr : x.2.nalType ≠ nalIdr := by
    intro h
    rw [h] at hparameters
    exact absurd hparameters (by decide)
  have hdelta : ¬ IsDelta x.2.nalType := by
    rintro ⟨-, hsps, hpps⟩
    exact hparameters.elim hsps hpps
  have hpicture : ¬ IsPicture (annexBNalType x.2.annexB.2) := by
    rw [htype]
    exact not_or.mpr ⟨hdelta, hidr⟩
  have hnot : ¬ IsPicture x.2.nalType := htype ▸ hpicture
  refine h.give hx (fun hd => absurd hd hdelta) (fun hp => absurd hp hnot) hnext hle
    ⟨h.below expected hnext, fun hp => absurd hp hnot⟩ fun hopen hsome => ?_
  rw [pictures_of_not_picture _ hpicture]
  refine h.next hopen expected hnext ?_
  obtain ⟨n, hn, hnidr⟩ := hsome
  rcases List.mem_append.mp hn with hold | hnew
  · exact ⟨n, hold, hnidr⟩
  · rw [List.mem_singleton.mp hnew, htype] at hnidr
    exact absurd hnidr hidr

/-- One NAL at the gate. -/
theorem Follows.admitNal (h : Follows encoded g given) (hfew : encoded.length < UInt32.size)
    (hx : encoded[x.2.nalId.toNat]? = some x) :
    Admits encoded (if g.Restarts x.2.nalId then [] else given) x.2
      (g.admitNal x.2.nalId x.2.nalType) := by
  by_cases hrestarts : g.Restarts x.2.nalId
  · rw [if_pos hrestarts, DeltaGate.admit_of_restarts hrestarts]
    exact (Follows.new encoded g.stats).admitNext hfew hx nofun fun _ => .inl rfl
  · rw [if_neg hrestarts]
    rcases DeltaGate.admit_cases hrestarts x.2.nalType with
      ⟨expected, hnext, -, heq⟩ | ⟨expected, hnext, hgap, heq⟩ | ⟨hnext, heq⟩
    · rw [heq]
      exact h.admitLate hx hnext
    · rw [heq]
      refine (h.frozen (DeltaGate.freeze_frozen g) (.inl (nextId_freeze g))).admitNext hfew hx ?_ ?_
      · intro e he
        obtain rfl := Option.some.inj (hnext.symm.trans ((nextId_freeze g).symm.trans he))
        exact UInt32.le_of_lt hgap
      · intro hopen
        rw [DeltaGate.freeze_frozen] at hopen
        cases hopen
    · rw [heq]
      refine h.admitNext hfew hx ?_ fun _ => hnext
      rcases hnext with hnone | hsome
      · rw [hnone]
        exact nofun
      · rw [hsome]
        rintro _ ⟨⟩
        exact UInt32.le_refl _

end

/-! ## Whole runs -/

/-- The pipeline, the receiver and the gate all know only NALs of the encoder. -/
structure Inv (p : VideoPath) : Prop where
  pipeline : p.pipeline.Inv
  numbered : Numbered p.pipeline.encoded
  collects : Collects p.pipeline.encoded p.videoRx
  follows : Follows p.pipeline.encoded p.videoGate p.given

theorem Inv.new (policy : SensorFramePolicy) : (new policy).Inv where
  pipeline := .new policy
  numbered := nofun
  collects _ := nofun
  follows := .new [] DeltaGate.new.stats

section

variable {p : VideoPath}

/-- A NAL's id is its index. -/
theorem Numbered.getElem? (h : Numbered p.pipeline.encoded) (hfits : p.Fits) {x : Nat × Nal}
    (hx : x ∈ p.pipeline.encoded) : p.pipeline.encoded[x.2.nalId.toNat]? = some x := by
  obtain ⟨i, hi⟩ := List.mem_iff_getElem?.mp hx
  have hlt := (List.getElem?_eq_some_iff.mp hi).1
  rw [h i x hi, UInt32.toNat_ofNat_of_lt' (hlt.trans hfits.few)]
  exact hi

/-- A NAL that is whole keeps the invariant, whether playback takes it or not. -/
theorem Inv.onNal (h : p.Inv) (hfits : p.Fits) {x : Nat × Nal} (hx : x ∈ p.pipeline.encoded)
    (taken : Bool) : (p.onNal x.2.annexB.1 x.2.annexB.2 taken).Inv := by
  have hadmits := h.follows.admitNal hfits.few (h.numbered.getElem? hfits hx)
  rw [VideoPath.onNal, Nal.annexB_nalType]
  show Inv (match p.videoGate.admitNal x.2.nalId x.2.nalType with
    | (videoGate, false) =>
      { p with videoGate, given := if p.videoGate.Restarts x.2.nalId then [] else p.given }
    | (videoGate, true) =>
      { p with videoGate, given := if p.videoGate.Restarts x.2.nalId then [] else p.given }.offer
        x.2.annexB taken)
  cases hverdict : p.videoGate.admitNal x.2.nalId x.2.nalType with
  | mk videoGate admitted =>
      rw [hverdict] at hadmits
      cases admitted with
      | false => exact ⟨h.pipeline, h.numbered, h.collects, hadmits.rejected rfl⟩
      | true =>
          cases taken with
          | false => exact ⟨h.pipeline, h.numbered, h.collects, hadmits.overflowed rfl⟩
          | true => exact ⟨h.pipeline, h.numbered, h.collects, hadmits.taken rfl⟩

/-- So does a chunk that arrives. -/
theorem Inv.onVideoDatagram (h : p.Inv) (hfits : p.Fits) {x : Nat × Nal}
    (hx : x ∈ p.pipeline.encoded) {i : Nat} (hi : i < chunkCount x.2.nal.length) (taken : Bool) :
    (p.onVideoDatagram (chunk x.2.nalId x.2.nal i) taken).Inv := by
  obtain ⟨hcollects, hout⟩ := h.collects.onDatagram hfits h.numbered hx hi
  rw [VideoPath.onVideoDatagram]
  cases hrx : p.videoRx.onDatagram (chunk x.2.nalId x.2.nal i) with
  | mk videoRx out =>
      rw [hrx] at hcollects hout
      have hinv : Inv { p with videoRx } := ⟨h.pipeline, h.numbered, hcollects, h.follows⟩
      rcases hout with rfl | rfl
      · exact hinv
      · exact hinv.onNal ⟨hfits.few, hfits.small⟩ hx taken

theorem onVideoDatagram_pipeline (p : VideoPath) (payload : Bytes) (taken : Bool) :
    (p.onVideoDatagram payload taken).pipeline = p.pipeline := by
  have honNal (p : VideoPath) (nalId : UInt32) (nalBytes : Bytes) :
      (p.onNal nalId nalBytes taken).pipeline = p.pipeline := by
    rw [VideoPath.onNal]
    cases p.videoGate.admitNal nalId (annexBNalType nalBytes) with
    | mk videoGate admitted => cases admitted <;> cases taken <;> rfl
  rw [VideoPath.onVideoDatagram]
  cases p.videoRx.onDatagram payload with
  | mk videoRx out =>
      cases out with
      | none => rfl
      | some nal => exact honNal _ nal.1 nal.2

theorem encoded_prefix_step (p : VideoPath) (e : Event) :
    p.pipeline.encoded <+: (p.step e).pipeline.encoded := by
  cases e with
  | robot e => exact prefix_step p.pipeline e
  | arrive k taken =>
      rw [VideoPath.step]
      cases p.pipeline.queue.sent[k]?.bind fun c => untag c.2 with
      | none => exact List.prefix_rfl
      | some payload => exact (onVideoDatagram_pipeline p payload.2 taken) ▸ List.prefix_rfl

/-- What fits at the end fits before. -/
theorem Fits.of_step {e : Event} (h : (p.step e).Fits) : p.Fits where
  few := (encoded_prefix_step p e).length_le.trans_lt h.few
  small x hx := h.small x ((encoded_prefix_step p e).subset hx)

/-- So does every event of the path. -/
theorem Inv.step (h : p.Inv) (e : Event) (hfits : p.Fits) : (p.step e).Inv := by
  cases e with
  | robot e =>
      have hgrown := prefix_step p.pipeline e
      refine ⟨h.pipeline.step e, h.numbered.step e, ?_, ?_⟩
      · intro id entry hentry
        obtain ⟨x, hx, hof⟩ := h.collects id entry hentry
        exact ⟨x, hgrown.subset hx, hof⟩
      · obtain ⟨more, hmore⟩ := hgrown
        show Follows (p.pipeline.step e).encoded p.videoGate p.given
        rw [← hmore]
        exact h.follows.append more
  | arrive k taken =>
      rw [VideoPath.step]
      cases hsent : p.pipeline.queue.sent[k]? with
      | none => exact h
      | some c =>
          obtain ⟨x, hx, i, hi, hc⟩ := chunk_of_sent h.pipeline hsent
          rw [Option.bind_some, hc]
          exact h.onVideoDatagram hfits hx hi taken

end

/-- The invariant holds of every run whose ids fit. -/
theorem inv_exec {policy : SensorFramePolicy} {events : List Event}
    (hfits : (exec step (VideoPath.new policy) events).Fits) :
    (exec step (VideoPath.new policy) events).Inv := by
  induction events using List.reverseRecOn with
  | nil => exact .new policy
  | append_singleton events e ih =>
      rw [exec_concat] at hfits ⊢
      exact (ih hfits.of_step).step e hfits.of_step

/-- The invariant is about what is given to playback. -/
theorem Inv.showsChains {p : VideoPath} (h : p.Inv) : p.ShowsChains where
  whole := h.follows.whole
  ordered := h.follows.ordered
  chained before d after hgiven hdelta hidr :=
    (h.follows.chained before d after hgiven hdelta hidr).2

/-- What is given to playback are whole NALs, each delta behind its predecessor. -/
theorem videoPath_exact (policy : SensorFramePolicy) (events : List Event)
    (hfits : (exec step (new policy) events).Fits) :
    (exec step (new policy) events).ShowsChains :=
  (inv_exec hfits).showsChains

/-- The robot encodes a NAL and sends it. -/
def produce (nal : Bytes) : List Event :=
  [.encode nal, .recv 0, .recv 0, .recv 0, .pop 0].map .robot

/-- A delta is lost, the one after it arrives, and the next IDR arrives twice. -/
def lossyRun : List Event :=
  ([[5], [1, 1], [1, 2], [5, 2], [1, 3]].flatMap produce) ++
    [.arrive 0 true, .arrive 2 true, .arrive 3 true, .arrive 4 true, .arrive 3 true]

/-- A lost delta closes the gate until the next IDR. -/
theorem videoPath_exact_lossyRun :
    (exec step (new .cut) lossyRun).given =
        [(0, [0, 0, 0, 1, 5]), (3, [0, 0, 0, 1, 5, 2]), (4, [0, 0, 0, 1, 1, 3])] ∧
      (exec step (new .cut) lossyRun).ShowsChains :=
  ⟨by decide +kernel, videoPath_exact .cut lossyRun ⟨by decide +kernel, by decide +kernel⟩⟩

end VideoPath

end RoboTele
