import RoboTele.Bytes.Framing
import RoboTele.RobotEdge.SessionRuns
import Mathlib.Data.List.SplitLengths

/-!
# Messages on the operator's streams

The operator writes E-Stop messages to stream 5, action triggers to stream 4 and
camera controls to stream 8.  A stream has no message boundaries, and
`on_stream_data` takes what one `stream_recv` returned for one message.

`Session.Follows` compares the session with one that processes each message at
the read that completes it, whatever else it handles between the reads.  The two
agree on the latch, the triggers that fire and the camera controls that are
applied exactly if every read carries one whole message (`messagesFollowed_iff`).
-/

namespace RoboTele

/-- One `stream_recv` of a message stream, and what the session handled since the
one before. -/
structure StreamRead where
  before : List Session.Event
  data : Bytes
  clk : Clock
  write : Session.StreamWrite

/-- A read with nothing handled before it. -/
def StreamRead.plain (data : Bytes) : StreamRead :=
  { before := [], data, clk := .const 0, write := .done }

theorem StreamRead.map_plain_data (datas : List Bytes) :
    (datas.map plain).map data = datas := by
  rw [List.map_map]
  exact List.map_id datas

theorem StreamRead.map_plain_length (datas : List Bytes) :
    (datas.map plain).map (fun r => r.data.length) = datas.map List.length := by
  rw [List.map_map]
  rfl

namespace Session

/-! ## Reading -/

/-- The session when the read begins. -/
def arrive (fb : FlatBuffers) (s : Session) (r : StreamRead) : Session :=
  r.before.foldl (step fb) s

/-- The loop takes what the read returned for a message. -/
def readStream (fb : FlatBuffers) (streamId : Nat) (s : Session) (r : StreamRead) : Session :=
  (s.arrive fb r).step fb (.streamData streamId r.data r.clk r.write)

/-! ## Processing messages -/

/-- An E-Stop message, unless the session has ended. -/
def processEstop (s : Session) (r : StreamRead) (d : EstopDatagram) : Session :=
  if s.ended.isSome then s else s.applyEstop d (r.clk.read 0)

/-- `m` is the buffer of one message. -/
def processTrigger (fb : FlatBuffers) (s : Session) (r : StreamRead) (m : Bytes) : Session :=
  if s.ended.isSome then s
  else if s.phase = .operating then s.onActionTrigger (decodeActionTrigger fb m) r.clk
  else s

/-- Camera settings, in a session that operates. -/
def processControl (fb : FlatBuffers) (s : Session) (_ : StreamRead) (m : Bytes) : Session :=
  if s.ended.isSome then s
  else if s.phase = .operating then s.onCameraControl (decodeCameraControl fb m)
  else s

/-! ## What the messages bring about -/

/-- An action went to the bridge. -/
def firedAction : Act → Option UInt8
  | .queued (.action id _) => some id
  | _ => none

/-- The actions triggered so far, oldest first. -/
def firedActions (s : Session) : List UInt8 := s.log.filterMap firedAction

theorem firedActions_record (s : Session) (a : Act) :
    firedActions (s.record a) = firedActions s ++ (firedAction a).toList := by
  rw [firedActions, record, List.filterMap_append]
  cases ha : firedAction a <;> simp [firedActions, ha]

/-- Settings went to the camera. -/
def appliedControl : Act → Option CameraControls
  | .appliedCamera controls => some controls
  | _ => none

/-- The camera controls applied so far, oldest first. -/
def appliedControls (s : Session) : List CameraControls := s.log.filterMap appliedControl

theorem appliedControls_record (s : Session) (a : Act) :
    appliedControls (s.record a) = appliedControls s ++ (appliedControl a).toList := by
  rw [appliedControls, record, List.filterMap_append]
  cases ha : appliedControl a <;> simp [appliedControls, ha]

/-- After each read, what is observed of the session is what processing every
message at the read that completes it brings about. -/
def Follows {μ ο : Type} (fb : FlatBuffers) (streamId : Nat) (size : μ → Nat)
    (process : Session → StreamRead → μ → Session) (observe : Session → ο) (ms : List μ)
    (reads : List StreamRead) : Prop :=
  ∀ (s : Session) (pre : List StreamRead), pre <+: reads →
    observe (pre.foldl (readStream fb streamId) s) =
      observe (Framing.assemble size (arrive fb) process (fun r => r.data.length) s ms 0 pre)

end Session

/-! ## Splits -/

theorem estopDatagramLen_pos : 0 < estopDatagramLen := by decide

/-- The lengths of the reads that return the bytes of so many E-Stop messages. -/
structure EstopSplit where
  messages : Nat
  lengths : List Nat
  nonempty : ∀ l ∈ lengths, 0 < l
  total : lengths.sum = estopDatagramLen * messages

/-- The messages of a stream and what its reads return.  The operator numbers its
messages, so no two are the same bytes. -/
structure StreamSplit where
  messages : List Bytes
  reads : List Bytes
  messages_nonempty : ∀ m ∈ messages, m ≠ []
  reads_nonempty : ∀ r ∈ reads, r ≠ []
  inOrder : reads.flatten = messages.flatten
  distinct : messages.Nodup

theorem StreamSplit.messages_pos (split : StreamSplit) : ∀ m ∈ split.messages, 0 < m.length :=
  fun m hm => List.length_pos_of_ne_nil (split.messages_nonempty m hm)

namespace Session

/-- The latch follows E-Stop messages of any content. -/
def EstopFollowed (split : EstopSplit) : Prop :=
  ∀ (fb : FlatBuffers) (ds : List EstopDatagram) (reads : List StreamRead),
    ds.length = split.messages → reads.map (fun r => r.data.length) = split.lengths →
      (reads.map StreamRead.data).flatten = (ds.map EstopDatagram.encode).flatten →
        Follows fb estopStreamId (fun _ => estopDatagramLen) processEstop
          (fun s => s.safety.isEstopped) ds reads

/-- The fired actions follow the triggers. -/
def TriggersFollowed (split : StreamSplit) : Prop :=
  ∀ (fb : FlatBuffers) (reads : List StreamRead), reads.map StreamRead.data = split.reads →
    Follows fb actionTriggerStreamId List.length (processTrigger fb) firedActions split.messages
      reads

/-- The applied camera controls follow the messages. -/
def ControlsFollowed (split : StreamSplit) : Prop :=
  ∀ (fb : FlatBuffers) (reads : List StreamRead), reads.map StreamRead.data = split.reads →
    Follows fb cameraControlStreamId List.length (processControl fb) appliedControls split.messages
      reads

/-- Each message is processed once, in order, on all three streams. -/
structure MessagesFollowed (estop : EstopSplit) (triggers controls : StreamSplit) : Prop where
  estop : EstopFollowed estop
  triggers : TriggersFollowed triggers
  controls : ControlsFollowed controls

/-! ## Reads of one message each -/

theorem readStream_estop {fb : FlatBuffers} (s : Session) {r : StreamRead} {d : EstopDatagram}
    (h : r.data = d.encode) :
    readStream fb estopStreamId s r = processEstop (s.arrive fb r) r d := by
  simp [readStream, processEstop, step, handle, onStreamData, estopStreamId, h]

theorem readStream_trigger {fb : FlatBuffers} (s : Session) (r : StreamRead) :
    readStream fb actionTriggerStreamId s r = processTrigger fb (s.arrive fb r) r r.data := by
  simp [readStream, processTrigger, step, handle, onStreamData, estopStreamId,
    actionTriggerStreamId, cameraControlStreamId]

theorem readStream_control {fb : FlatBuffers} (s : Session) (r : StreamRead) :
    readStream fb cameraControlStreamId s r = processControl fb (s.arrive fb r) r r.data := by
  simp [readStream, processControl, step, handle, onStreamData, estopStreamId,
    actionTriggerStreamId, cameraControlStreamId]

/-- Reads that carry the messages follow them. -/
theorem follows_of_carries {μ ο : Type} {fb : FlatBuffers} {streamId : Nat} {size : μ → Nat}
    {process : Session → StreamRead → μ → Session} {C : StreamRead → μ → Prop}
    (hread : ∀ s r m, C r m → r.data.length = size m ∧
      readStream fb streamId s r = process (s.arrive fb r) r m) (observe : Session → ο)
    {ms : List μ} {reads : List StreamRead} (hpos : ∀ m ∈ ms, 0 < size m)
    (h : List.Forall₂ C reads ms) :
    Follows fb streamId size process observe ms reads := by
  intro s pre hpre
  have hcarries : List.Forall₂ C pre (ms.take pre.length) := by
    rw [List.prefix_iff_eq_take.mp hpre, List.length_take_of_le hpre.length_le]
    exact List.forall₂_take _ h
  rw [Framing.assemble_aligned hread s hpos hcarries]

theorem forall₂_map_eq {α β γ : Type} {f : α → γ} {g : β → γ} {as : List α} {bs : List β}
    (h : as.map f = bs.map g) : List.Forall₂ (fun a b => f a = g b) as bs := by
  rw [← List.forall₂_eq_eq_eq, List.forall₂_map_left_iff, List.forall₂_map_right_iff] at h
  exact h

theorem estopFollowed_of_lengths {split : EstopSplit}
    (h : split.lengths = List.replicate split.messages estopDatagramLen) :
    EstopFollowed split := by
  intro fb ds reads hds hlengths hbytes
  have hsame : reads.map StreamRead.data = ds.map EstopDatagram.encode := by
    rw [List.eq_iff_flatten_eq]
    refine ⟨hbytes, ?_⟩
    rw [List.map_map, List.map_map]
    refine hlengths.trans (h.trans ?_)
    rw [← hds]
    simp [Function.comp_def]
  refine follows_of_carries (C := fun r d => r.data = d.encode) ?_ _ ?_
    (forall₂_map_eq hsame)
  · intro s r d hr
    exact ⟨by rw [hr, EstopDatagram.length_encode], readStream_estop s hr⟩
  · exact fun _ _ => estopDatagramLen_pos

theorem triggersFollowed_of_reads {split : StreamSplit} (h : split.reads = split.messages) :
    TriggersFollowed split := by
  intro fb reads hreads
  refine follows_of_carries (C := fun r m => r.data = m) ?_ _ split.messages_pos ?_
  · rintro s r m rfl
    exact ⟨rfl, readStream_trigger s r⟩
  · rw [← h, ← hreads, List.forall₂_map_right_iff]
    exact List.forall₂_same.mpr fun _ _ => rfl

theorem controlsFollowed_of_reads {split : StreamSplit} (h : split.reads = split.messages) :
    ControlsFollowed split := by
  intro fb reads hreads
  refine follows_of_carries (C := fun r m => r.data = m) ?_ _ split.messages_pos ?_
  · rintro s r m rfl
    exact ⟨rfl, readStream_control s r⟩
  · rw [← h, ← hreads, List.forall₂_map_right_iff]
    exact List.forall₂_same.mpr fun _ _ => rfl

/-! ## E-Stop reads that went astray -/

/-- Messages that clear, and from the `j`-th on stop. -/
def stopFrom (n j : Nat) : List EstopDatagram :=
  (List.range n).map fun i => { latched := decide (j ≤ i), seq := 0 }

/-- An open session, which is unlatched. -/
def Unlatched (s : Session) : Prop := s.ended = none ∧ s.safety.isEstopped = false

theorem applyEstop_latched (s : Session) (d : EstopDatagram) (now : Instant) :
    (s.applyEstop d now).ended = s.ended ∧
      (s.applyEstop d now).safety.isEstopped = d.latched := by
  cases hd : d.latched with
  | true => simp [applyEstop, hd, triggerExplicitEstop, record]
  | false => simp [applyEstop, hd, clearExplicitEstop, record]

theorem readStream_plain_estop (fb : FlatBuffers) (s : Session) (data : Bytes) :
    readStream fb estopStreamId s (.plain data) =
      match EstopDatagram.decode data with
      | some d => processEstop s (.plain data) d
      | none => s := by
  cases hdecode : EstopDatagram.decode data with
  | some d =>
      simp [readStream, arrive, StreamRead.plain, processEstop, step, handle, onStreamData,
        estopStreamId, hdecode]
  | none =>
      simp [readStream, arrive, StreamRead.plain, step, handle, onStreamData, estopStreamId,
        hdecode]

/-- The first read that latches holds a stop. -/
theorem first_latched (fb : FlatBuffers) : ∀ (datas : List Bytes) (s : Session), s.Unlatched →
    ((datas.map StreamRead.plain).foldl (readStream fb estopStreamId) s).safety.isEstopped = true →
      ∃ p data q d, datas = p ++ data :: q ∧ EstopDatagram.decode data = some d ∧
        d.latched = true ∧
          ((p.map StreamRead.plain).foldl (readStream fb estopStreamId) s).safety.isEstopped = false
  | [], s, hs, h => by
      rw [List.map_nil, List.foldl_nil, hs.2] at h
      cases h
  | data :: datas, s, hs, h => by
      rw [List.map_cons, List.foldl_cons] at h
      have hread := readStream_plain_estop fb s data
      cases hdecode : EstopDatagram.decode data with
      | none =>
          rw [hdecode] at hread
          rw [hread] at h
          obtain ⟨p, data', q, d, hsplit, hd, hlatched, hp⟩ := first_latched fb datas s hs h
          refine ⟨data :: p, data', q, d, by rw [hsplit, List.cons_append], hd, hlatched, ?_⟩
          rw [List.map_cons, List.foldl_cons, hread]
          exact hp
      | some d =>
          cases hd : d.latched with
          | true => exact ⟨[], data, datas, d, rfl, hdecode, hd, hs.2⟩
          | false =>
              have hopen : (readStream fb estopStreamId s (.plain data)).Unlatched := by
                rw [hread, hdecode]
                obtain ⟨hended, hlatch⟩ := applyEstop_latched s d 0
                simp only [processEstop, hs.1, Option.isSome_none, Bool.false_eq_true, if_false]
                exact ⟨hended.trans hs.1, hlatch.trans hd⟩
              obtain ⟨p, data', q, d', hsplit, hd', hlatched, hp⟩ :=
                first_latched fb datas _ hopen h
              refine ⟨data :: p, data', q, d', by rw [hsplit, List.cons_append], hd', hlatched, ?_⟩
              rw [List.map_cons, List.foldl_cons]
              exact hp

/-- Every message a list of plain reads completes is processed in order. -/
theorem assemble_plain {μ : Type} (fb : FlatBuffers) {size : μ → Nat}
    {process : Session → StreamRead → μ → Session}
    (hprocess : ∀ s data m, process s (.plain data) m = process s (.plain []) m)
    (datas : List Bytes) (s : Session) {ms : List μ} (hpos : ∀ m ∈ ms, 0 < size m) :
    Framing.assemble size (arrive fb) process (fun r => r.data.length) s ms 0
        (datas.map .plain) =
      (Framing.complete size ms datas.flatten.length).1.foldl
        (fun s m => process s (.plain []) m) s := by
  rw [Framing.assemble_const _ _ _ _ _ _ (by rw [Framing.complete_zero size hpos]),
    StreamRead.map_plain_length, Nat.zero_add, List.length_flatten]
  · intro r hr s
    obtain ⟨data, -, rfl⟩ := List.mem_map.mp hr
    rfl
  · intro r hr s m
    obtain ⟨data, -, rfl⟩ := List.mem_map.mp hr
    exact hprocess s data m

theorem foldl_processEstop_ended (ds : List EstopDatagram) {s : Session} (hs : s.ended = none) :
    (ds.foldl (fun s d => processEstop s (.plain []) d) s).ended = none := by
  induction ds generalizing s with
  | nil => exact hs
  | cons d ds ih =>
      refine ih ?_
      show (processEstop s (.plain []) d).ended = none
      rw [processEstop, hs, if_neg (by simp)]
      exact (applyEstop_latched s d _).1.trans hs

/-- The messages that enough bytes complete end with a stop. -/
theorem assemble_stopFrom (fb : FlatBuffers) {n j : Nat} (hj : j < n) (datas : List Bytes)
    {s : Session} (hs : s.ended = none)
    (hbytes : estopDatagramLen * (j + 1) ≤ datas.flatten.length) :
    (Framing.assemble (fun _ => estopDatagramLen) (arrive fb) processEstop
      (fun r => r.data.length) s (stopFrom n j) 0 (datas.map .plain)).safety.isEstopped = true := by
  rw [assemble_plain fb (fun _ _ _ => rfl) _ _ fun _ _ => estopDatagramLen_pos,
    Framing.complete_const estopDatagramLen_pos]
  have hcount : j + 1 ≤ datas.flatten.length / estopDatagramLen := by
    rwa [Nat.le_div_iff_mul_le estopDatagramLen_pos, Nat.mul_comm]
  obtain ⟨k, hk⟩ : ∃ k, min (datas.flatten.length / estopDatagramLen) n = k + 1 :=
    Nat.exists_eq_succ_of_ne_zero (by omega)
  have htake : (stopFrom n j).take (datas.flatten.length / estopDatagramLen) =
      stopFrom k j ++ [{ latched := true, seq := 0 }] := by
    have hjk : j ≤ k := by omega
    rw [stopFrom, ← List.map_take, List.take_range, hk, List.range_succ, List.map_append,
      List.map_singleton, decide_eq_true hjk]
    rfl
  rw [htake, List.foldl_append, List.foldl_cons, List.foldl_nil, processEstop,
    foldl_processEstop_ended _ hs, if_neg (by simp)]
  exact (applyEstop_latched _ _ _).2

/-- A message numbered zero has its magic byte in one place. -/
theorem encode_magic : ∀ latched : Bool, ∀ k < estopDatagramLen,
    (EstopDatagram.encode { latched, seq := 0 })[k]? = some estopDatagramMagic → k = 0 := by
  decide

/-- What reads as a stop is the start of one. -/
theorem stopFrom_start {n j o : Nat} {b : UInt8}
    (hmagic : ((stopFrom n j).map EstopDatagram.encode).flatten[o]? = some estopDatagramMagic)
    (hflag : ((stopFrom n j).map EstopDatagram.encode).flatten[o + 1]? = some b) (hb : b ≠ 0) :
    ∃ i, o = estopDatagramLen * i ∧ j ≤ i := by
  have hlen : ∀ m ∈ (stopFrom n j).map EstopDatagram.encode, m.length = estopDatagramLen := by
    intro m hm
    obtain ⟨d, -, rfl⟩ := List.mem_map.mp hm
    exact d.length_encode
  obtain ⟨i, k, hk, rfl⟩ : ∃ i k, k < estopDatagramLen ∧ o = estopDatagramLen * i + k :=
    ⟨o / estopDatagramLen, o % estopDatagramLen, Nat.mod_lt _ estopDatagramLen_pos,
      (Nat.div_add_mod _ _).symm⟩
  rw [Framing.getElem?_flatten hlen i hk, List.getElem?_map, Option.bind_map,
    Option.bind_eq_some_iff] at hmagic
  obtain ⟨d, hd, hmagic⟩ := hmagic
  obtain rfl : d = { latched := decide (j ≤ i), seq := 0 } := by
    rw [stopFrom, List.getElem?_map, Option.map_eq_some_iff] at hd
    obtain ⟨i', hi', rfl⟩ := hd
    obtain ⟨hlt, rfl⟩ := List.getElem?_eq_some_iff.mp hi'
    simp
  obtain rfl := encode_magic _ k hk hmagic
  refine ⟨i, Nat.add_zero _, ?_⟩
  rw [Nat.add_zero, Framing.getElem?_flatten hlen i (by decide), List.getElem?_map, hd] at hflag
  by_contra hij
  rw [decide_eq_false hij] at hflag
  exact hb (Option.some.inj hflag).symm

/-- What decodes to a stop starts with the magic byte and a flag. -/
theorem of_decode_latched {data : Bytes} {d : EstopDatagram}
    (hdecode : EstopDatagram.decode data = some d) (hlatched : d.latched = true) :
    estopDatagramLen ≤ data.length ∧ data[0]? = some estopDatagramMagic ∧
      ∃ b, data[1]? = some b ∧ b ≠ 0 := by
  unfold EstopDatagram.decode at hdecode
  split_ifs at hdecode with h
  obtain rfl := Option.some.inj hdecode
  rw [not_or, Nat.not_lt, not_not] at h
  obtain ⟨hlen, hhead⟩ := h
  have hone : 1 < data.length := Nat.lt_of_lt_of_le (by decide) hlen
  refine ⟨hlen, ?_, data.getD 1 0, ?_, of_decide_eq_true hlatched⟩
  · rw [← List.head?_eq_getElem?, hhead]
  · rw [List.getD_eq_getElem?_getD, List.getElem?_eq_getElem hone, Option.getD_some]

theorem length_stopFrom (n j : Nat) :
    ((stopFrom n j).map EstopDatagram.encode).flatten.length = estopDatagramLen * n := by
  simp [List.length_flatten, stopFrom, Function.comp_def, Nat.mul_comm]

/-- A read of a whole message starts where each message does. -/
theorem starts_of_estopFollowed {split : EstopSplit} (h : EstopFollowed split) :
    Framing.StartsEverywhere estopDatagramLen split.messages split.lengths := by
  intro j hj
  let s : Session := .new sampleArgs (.new 0) 0
  have hs : s.Unlatched := ⟨rfl, rfl⟩
  let bytes := ((stopFrom split.messages j).map EstopDatagram.encode).flatten
  have hbytes : bytes.length = split.lengths.sum := (length_stopFrom _ _).trans split.total.symm
  let datas := split.lengths.splitLengths bytes
  have hdatas : datas.flatten = bytes := List.flatten_splitLengths _ _ hbytes.le
  have hlengths : datas.map List.length = split.lengths :=
    List.map_splitLengths_length _ _ hbytes.ge
  have hfollows := h FlatBuffers.fixedLayout (stopFrom split.messages j) (datas.map .plain)
    (by simp [stopFrom]) (by rw [StreamRead.map_plain_length, hlengths])
    (by rw [StreamRead.map_plain_data, hdatas]) s
  have hend := (hfollows _ List.prefix_rfl).trans (assemble_stopFrom _ hj datas hs.1
    (by rw [hdatas, length_stopFrom]; exact Nat.mul_le_mul_left _ hj))
  obtain ⟨p, data, q, d, hsplit, hdecode, hlatched, hp⟩ := first_latched _ datas s hs hend
  have hbefore : p.flatten.length < estopDatagramLen * (j + 1) := by
    by_contra hle
    have hpre : p.map StreamRead.plain <+: datas.map .plain :=
      ⟨(data :: q).map .plain, by rw [hsplit, List.map_append]⟩
    have hlate := (hfollows _ hpre).trans (assemble_stopFrom _ hj p hs.1 (Nat.not_lt.mp hle))
    exact Bool.false_ne_true (hp.symm.trans hlate)
  obtain ⟨hlen, hmagic, b, hflag, hb⟩ := of_decode_latched hdecode hlatched
  have hat : ∀ k < data.length, bytes[p.flatten.length + k]? = data[k]? := by
    intro k hk
    rw [← hdatas, hsplit, List.flatten_append, List.flatten_cons,
      List.getElem?_append_right (Nat.le_add_right _ _), Nat.add_sub_cancel_left,
      List.getElem?_append_left hk]
  obtain ⟨i, hi, hji⟩ := stopFrom_start ((hat 0 (Nat.lt_of_lt_of_le (by decide) hlen)).trans hmagic)
    ((hat 1 (Nat.lt_of_lt_of_le (by decide) hlen)).trans hflag) hb
  rw [Nat.add_zero] at hi
  obtain rfl : i = j := by
    rw [hi] at hbefore
    have := Nat.lt_of_mul_lt_mul_left hbefore
    omega
  refine ⟨p.map List.length, data.length, q.map List.length, ?_, ?_, hlen⟩
  · rw [← hlengths, hsplit, List.map_append, List.map_cons]
  · rw [← List.length_flatten, hi]

theorem estopFollowed_iff (split : EstopSplit) :
    EstopFollowed split ↔
      split.lengths = List.replicate split.messages estopDatagramLen := by
  constructor
  · intro h
    exact Framing.eq_replicate_of_starts estopDatagramLen_pos split.nonempty split.total
      (starts_of_estopFollowed h)
  · exact estopFollowed_of_lengths

/-! ## Trigger and control reads that went astray -/

/-- Full Teleoperation with a camera, number one applied on both streams. -/
def readySession : Session :=
  let s := Session.new sampleArgs (.new 0) 0
  { s with
    phase := .operating
    cameraAttached := true
    safety := { s.safety with deadmanHeld := true, commandFresh := true }
    triggerDedup := { lastApplied := some 1 }
    cameraControlDedup := { lastApplied := some 1 } }

/-- A codec that reads number two, with one content each, off `a` and `c`, and
number one off every other buffer. -/
def pairCodec (a c : Bytes) : FlatBuffers :=
  { FlatBuffers.fixedLayout with
    actionTriggerRoot := fun m =>
      { actionId := if m = a then 1 else 3, triggerSeq := if m = a ∨ m = c then 2 else 1 }
    cameraControlRoot := fun m =>
      { brightness := 0, contrast := 0, ev := 0, shutterUs := if m = a then 1 else 3
        controlSeq := if m = a ∨ m = c then 2 else 1 } }

/-- The session is open and arbitrates as `readySession` does. -/
structure Armed (s : Session) : Prop where
  ended : s.ended = none
  phase : s.phase = .operating
  safety : s.safety = readySession.safety
  camera : s.cameraAttached = true

theorem readySession_armed : readySession.Armed := ⟨rfl, rfl, rfl, rfl⟩

theorem ready_poll : readySession.safety.poll 0 = readySession.safety := by
  have hquiet : ¬ readySession.safety.watchdog.thresholdMs ≤
      readySession.safety.watchdog.blackoutMs 0 := by
    decide +kernel
  have hcheck : (readySession.safety.watchdog.check 0).1 = readySession.safety.watchdog := by
    rw [Watchdog.check, if_neg (by decide), if_neg hquiet]
  rw [SafetyTask.poll, hcheck]

theorem ready_arbitrate (asserted : Bool) :
    RoboTele.arbitrate (readySession.safety.inputs asserted) = .fullTeleoperation := by
  cases asserted <;> rfl

theorem Armed.arbitrate {s : Session} (h : s.Armed) :
    ∃ inputs, s.arbitrate 0 0 = (s.record (.arbitrated inputs), .fullTeleoperation) := by
  refine ⟨readySession.safety.inputs (s.autonomyGoal.asserted 0), ?_⟩
  have hsame : { s with safety := readySession.safety } = s := by
    rw [← h.safety]
  simp only [Session.arbitrate, SafetyTask.tick, h.safety, ready_poll, ready_arbitrate, hsame]

/-- An armed session fires a trigger it has not seen. -/
theorem Armed.onActionTrigger {s : Session} (h : s.Armed) {t : ActionTrigger}
    {dedup : TriggerDedup} (hnew : s.triggerDedup.accept t = (dedup, true))
    (hstand : t.actionId ≠ standActionId) (hsit : t.actionId ≠ sitActionId) :
    (s.onActionTrigger t (.const 0)).triggerDedup = dedup ∧
      firedActions (s.onActionTrigger t (.const 0)) = firedActions s ++ [t.actionId] := by
  obtain ⟨inputs, harbitrate⟩ := Armed.arbitrate (s := { s with triggerDedup := dedup })
    ⟨h.ended, h.phase, h.safety, h.camera⟩
  simp only [Session.onActionTrigger, hnew, Clock.const_read, harbitrate, hstand, hsit]
  refine ⟨rfl, ?_⟩
  show firedActions (send _ _) = _
  rw [send, firedActions_record]
  show firedActions (record _ _) ++ _ = _
  rw [firedActions_record]
  simp [firedAction, firedActions]

theorem Armed.onCameraControl {s : Session} (h : s.Armed) {control : CameraControl}
    {dedup : CameraControlDedup} (hnew : s.cameraControlDedup.accept control = (dedup, true)) :
    (s.onCameraControl control).cameraControlDedup = dedup ∧
      appliedControls (s.onCameraControl control) = appliedControls s ++
        [{ brightness := max (-1) (min control.brightness 1)
           contrast := max 0 (min control.contrast 2)
           ev := max (-4) (min control.ev 4)
           shutterUs := min control.shutterUs 100000 }] := by
  simp only [Session.onCameraControl, hnew, h.camera]
  refine ⟨rfl, ?_⟩
  show appliedControls (record _ _) = _
  rw [appliedControls_record]
  rfl

/-- A number seen before changes nothing. -/
theorem processTrigger_of_seen (fb : FlatBuffers) (s : Session) (r : StreamRead) {m : Bytes}
    (hseen : s.triggerDedup.accept (decodeActionTrigger fb m) = (s.triggerDedup, false)) :
    processTrigger fb s r m = s := by
  simp [processTrigger, Session.onActionTrigger, hseen]

theorem processControl_of_seen (fb : FlatBuffers) (s : Session) (r : StreamRead) {m : Bytes}
    (hseen : s.cameraControlDedup.accept (decodeCameraControl fb m) =
      (s.cameraControlDedup, false)) : processControl fb s r m = s := by
  simp [processControl, Session.onCameraControl, hseen]

/-- Plain reads that are followed lead where the messages lead. -/
theorem follows_plain {ο : Type} {fb : FlatBuffers} {streamId : Nat}
    {process : Session → StreamRead → Bytes → Session} {observe : Session → ο}
    {split : StreamSplit}
    (hprocess : ∀ s data m, process s (.plain data) m = process s (.plain []) m)
    (hread : ∀ s data, readStream fb streamId s (.plain data) = process s (.plain []) data)
    (h : Follows fb streamId List.length process observe split.messages (split.reads.map .plain))
    (s : Session) :
    observe (split.reads.foldl (fun s m => process s (.plain []) m) s) =
      observe (split.messages.foldl (fun s m => process s (.plain []) m) s) := by
  have hwhole : split.reads.flatten.length = (split.messages.map List.length).sum := by
    rw [split.inOrder, List.length_flatten]
  have hend := h s _ List.prefix_rfl
  rw [assemble_plain fb hprocess _ _ split.messages_pos, hwhole, Framing.complete_sum,
    List.foldl_map] at hend
  simpa only [hread] using hend

theorem Armed.processTrigger {s : Session} (h : s.Armed) (fb : FlatBuffers) (r : StreamRead)
    (m : Bytes) :
    processTrigger fb s r m = s.onActionTrigger (decodeActionTrigger fb m) r.clk := by
  simp [Session.processTrigger, h.ended, h.phase]

theorem Armed.processControl {s : Session} (h : s.Armed) (fb : FlatBuffers) (r : StreamRead)
    (m : Bytes) : processControl fb s r m = s.onCameraControl (decodeCameraControl fb m) := by
  simp [Session.processControl, h.ended, h.phase]

/-- Which of the two a message is shows in its content. -/
theorem eq_of_content {β : Type} {x y : β} (hxy : x ≠ y) {a c m m' : Bytes} (hm : m = a ∨ m = c)
    (hm' : m' = a ∨ m' = c) (h : (if m = a then x else y) = if m' = a then x else y) : m = m' := by
  by_cases ha : m = a
  · by_cases ha' : m' = a
    · rw [ha, ha']
    · rw [if_pos ha, if_neg ha'] at h
      exact absurd h hxy
  · by_cases ha' : m' = a
    · rw [if_neg ha, if_pos ha'] at h
      exact absurd h.symm hxy
    · rw [hm.resolve_left ha, hm'.resolve_left ha']

/-- A handler that deduplicates by number, and shows each message an armed session
takes, shows which of `a` and `c` comes first. -/
theorem find?_of_numbered {β : Type} {process : Session → Bytes → Session}
    {observe : Session → List β} (dedup : Session → SeqDedup) (seqOf : Bytes → UInt64)
    (f : Bytes → β) {a c : Bytes} (hseq : ∀ m, seqOf m = if m = a ∨ m = c then 2 else 1)
    (hseen : ∀ s m, (dedup s).accept (seqOf m) = (dedup s, false) → process s m = s)
    (hnew : ∀ s m d, s.Armed → (dedup s).accept (seqOf m) = (d, true) →
      dedup (process s m) = d ∧ observe (process s m) = observe s ++ [f m])
    (hf : ∀ m m', m = a ∨ m = c → m' = a ∨ m' = c → f m = f m' → m = m')
    (hready : (dedup readySession).lastApplied = some 1) {reads messages : List Bytes}
    (h : observe (reads.foldl process readySession) =
      observe (messages.foldl process readySession)) :
    reads.find? (fun m => m = a ∨ m = c) = messages.find? (fun m => m = a ∨ m = c) := by
  refine Framing.find?_eq_of_foldl (f := f)
    (W := fun s => s.Armed ∧ (dedup s).lastApplied = some 1)
    (D := fun s => (dedup s).lastApplied = some 2) ?_ ?_ ?_ ?_ ⟨readySession_armed, hready⟩ h
  · rintro s m ⟨-, hone⟩ hm
    refine hseen s m (SeqDedup.accept_of_le hone ?_)
    rw [hseq, if_neg (of_decide_eq_false hm)]
    exact UInt64.le_refl 1
  · rintro s m ⟨harmed, hone⟩ hm
    have htwo : seqOf m = 2 := (hseq m).trans (if_pos (of_decide_eq_true hm))
    have hlater : 1 < seqOf m := by
      rw [htwo]
      decide
    obtain ⟨hdedup, hobserve⟩ := hnew s m _ harmed (SeqDedup.accept_of_lt hone hlater)
    exact ⟨by rw [hdedup, htwo], hobserve⟩
  · intro s m htwo
    refine hseen s m (SeqDedup.accept_of_le htwo ?_)
    rw [hseq]
    split_ifs <;> decide
  · intro m m' hm hm'
    exact hf m m' (of_decide_eq_true hm) (of_decide_eq_true hm')

/-- Of the messages read with `pairCodec`, the first that is `a` or `c` fires. -/
theorem find?_of_triggersFollowed {split : StreamSplit} (h : TriggersFollowed split) (a c : Bytes) :
    split.reads.find? (fun m => m = a ∨ m = c) = split.messages.find? (fun m => m = a ∨ m = c) := by
  have hfollows := follows_plain (fun _ _ _ => rfl) (fun s data => readStream_trigger s _)
    (h (pairCodec a c) _ (StreamRead.map_plain_data _)) readySession
  refine find?_of_numbered triggerDedup
    (fun m => (decodeActionTrigger (pairCodec a c) m).triggerSeq)
    (fun m => if m = a then 1 else 3) (fun _ => rfl) (fun s m => processTrigger_of_seen _ s _)
    ?_ ?_ rfl hfollows
  · intro s m d harmed hnew
    have hid : (decodeActionTrigger (pairCodec a c) m).actionId = if m = a then 1 else 3 := rfl
    rw [harmed.processTrigger]
    exact harmed.onActionTrigger hnew (by rw [hid]; split_ifs <;> decide)
      (by rw [hid]; split_ifs <;> decide)
  · intro m m' hm hm'
    exact eq_of_content (by decide) hm hm'

/-- What is applied of a message that sets the shutter time alone. -/
def plainControls (shutterUs : UInt32) : CameraControls :=
  { brightness := max (-1) (min 0 1)
    contrast := max 0 (min 0 2)
    ev := max (-4) (min 0 4)
    shutterUs := min shutterUs 100000 }

/-- Of the messages read with `pairCodec`, the first that is `a` or `c` is applied. -/
theorem find?_of_controlsFollowed {split : StreamSplit} (h : ControlsFollowed split) (a c : Bytes) :
    split.reads.find? (fun m => m = a ∨ m = c) = split.messages.find? (fun m => m = a ∨ m = c) := by
  have hfollows := follows_plain (fun _ _ _ => rfl) (fun s data => readStream_control s _)
    (h (pairCodec a c) _ (StreamRead.map_plain_data _)) readySession
  refine find?_of_numbered cameraControlDedup
    (fun m => (decodeCameraControl (pairCodec a c) m).controlSeq)
    (fun m => plainControls (if m = a then 1 else 3)) (fun _ => rfl)
    (fun s m => processControl_of_seen _ s _) ?_ ?_ rfl hfollows
  · intro s m d harmed hnew
    rw [harmed.processControl]
    exact harmed.onCameraControl hnew
  · intro m m' hm hm' hcontrols
    have hshutter := congrArg CameraControls.shutterUs hcontrols
    refine eq_of_content (x := (1 : UInt32)) (y := 3) (by decide) hm hm' ?_
    -- Both shutter times are below the limit.
    split_ifs at hshutter ⊢
    · rfl
    · exact absurd hshutter (by decide)
    · exact absurd hshutter (by decide)
    · rfl

theorem triggersFollowed_iff (split : StreamSplit) :
    TriggersFollowed split ↔ split.reads = split.messages := by
  constructor
  · intro h
    exact Framing.eq_of_find? split.distinct split.reads_nonempty split.inOrder
      (find?_of_triggersFollowed h)
  · exact triggersFollowed_of_reads

theorem controlsFollowed_iff (split : StreamSplit) :
    ControlsFollowed split ↔ split.reads = split.messages := by
  constructor
  · intro h
    exact Framing.eq_of_find? split.distinct split.reads_nonempty split.inOrder
      (find?_of_controlsFollowed h)
  · exact controlsFollowed_of_reads

/-! ## The rule -/

/-- Messages are processed once each, in order, exactly if every read carries one. -/
theorem messagesFollowed_iff (estop : EstopSplit) (triggers controls : StreamSplit) :
    MessagesFollowed estop triggers controls ↔
      estop.lengths = List.replicate estop.messages estopDatagramLen ∧
        triggers.reads = triggers.messages ∧ controls.reads = controls.messages := by
  rw [← estopFollowed_iff, ← triggersFollowed_iff, ← controlsFollowed_iff]
  constructor
  · intro h
    exact ⟨h.estop, h.triggers, h.controls⟩
  · rintro ⟨hestop, htriggers, hcontrols⟩
    exact ⟨hestop, htriggers, hcontrols⟩

/-- Two E-Stop messages in one read. -/
def coalescedEstop : EstopSplit :=
  { messages := 2, lengths := [20], nonempty := by decide, total := by decide }

/-- A stream nothing was written to. -/
def silentStream : StreamSplit :=
  { messages := [], reads := [], messages_nonempty := by simp, reads_nonempty := by simp
    inOrder := rfl, distinct := List.nodup_nil }

/-- The stop behind a clear is lost. -/
theorem messagesFollowed_fails_for_coalesced :
    ¬ MessagesFollowed coalescedEstop silentStream silentStream := by
  intro h
  let clear : EstopDatagram := { latched := false, seq := 1 }
  let stop : EstopDatagram := { latched := true, seq := 2 }
  have hlatch := h.estop FlatBuffers.fixedLayout [clear, stop]
    [.plain (clear.encode ++ stop.encode)] rfl rfl rfl (.new sampleArgs (.new 0) 0) _
    List.prefix_rfl
  exact absurd hlatch (by decide)

end Session

end RoboTele
