import RoboTele.Bytes.Incremental
import RoboTele.Bytes.Framing
import RoboTele.Core.Topic

/-!
# The reliable topic stream

A stream starts with two fixed bytes and then carries samples in frames, a
length and that many bytes.  The reader takes the bytes in any pieces.  A frame
whose sample does not decode is an error and the stream goes on.  A wrong header
or a frame that is too long fails the stream.

`feed_flatten` says that the pieces do not matter.  `feed_streamOf` says what the
reader makes of a stream of good samples cut off anywhere: the samples whose
frames are complete.
-/

namespace RoboTele

open Incremental

/-- The first byte of a topic stream. -/
def topicStreamMagic : UInt8 := 0x54

/-- The second one. -/
def topicStreamVersion : UInt8 := 1

/-- What a stream of samples begins with. -/
def topicStreamHeader : Bytes := [topicStreamMagic, topicStreamVersion]

/-- A decoded sample or the error it gave. -/
abbrev TopicOutcome := Except TopicError TopicSample

/-- A sample with its length before it. -/
def TopicSample.frame (s : TopicSample) : Bytes := BigEndian.encode 4 s.encodedLen ++ s.encode

/-- The length of a framed sample. -/
def TopicSample.frameLen (s : TopicSample) : Nat := 4 + s.encodedLen

@[simp] theorem TopicSample.length_frame (s : TopicSample) : s.frame.length = s.frameLen := by
  rw [frame, List.length_append, BigEndian.length_encode, length_encode, frameLen]

/-- The frame at the front of the stream. -/
def nextFrame (buf : Bytes) : Next UInt8 TopicOutcome :=
  if buf.length < 4 then .more
  else
    let len := BigEndian.decode (buf.take 4)
    if maxTopicSample < len then .fail (.error (.tooLarge len))
    else if buf.length < 4 + len then .more
    else .item (TopicSample.decode ((buf.drop 4).take len)) (buf.drop (4 + len))

theorem nextFrame_append {buf more : Bytes} (h : ¬ buf.length < 4) :
    (buf ++ more).take 4 = buf.take 4 :=
  List.take_append_of_le_length (Nat.not_lt.mp h)

/-- The frames of the stream. -/
def topicFrames : Reader UInt8 TopicOutcome where
  next := nextFrame
  shorter := by
    intro buf out rest h
    simp only [nextFrame] at h
    split_ifs at h with hshort
    obtain ⟨-, rfl⟩ := Next.item.inj h
    rw [List.length_drop]
    omega
  item_append := by
    intro buf out rest more h
    simp only [nextFrame] at h ⊢
    split_ifs at h with hshort hlong hless
    obtain ⟨rfl, rfl⟩ := Next.item.inj h
    have hle : 4 + BigEndian.decode (buf.take 4) ≤ buf.length := Nat.not_lt.mp hless
    rw [nextFrame_append hshort, if_neg (by rw [List.length_append]; omega), if_neg hlong,
      if_neg (by rw [List.length_append]; omega), List.drop_append_of_le_length (by omega),
      List.take_append_of_le_length (by rw [List.length_drop]; omega),
      List.drop_append_of_le_length hle]
  fail_append := by
    intro buf out more h
    simp only [nextFrame] at h ⊢
    split_ifs at h with hshort hlong
    rw [nextFrame_append hshort, if_neg (by rw [List.length_append]; omega), if_pos hlong]
    exact h

/-! ## The reader -/

/-- What has come on a stream and was not a whole sample yet.  A reader that failed once stays so.
-/
structure TopicStreamReader where
  buf : Bytes
  headerSeen : Bool
  failed : Bool
deriving DecidableEq

namespace TopicStreamReader

/-- Nothing has been read. -/
def new : TopicStreamReader where
  buf := []
  headerSeen := false
  failed := false

/-- Nothing more is read. -/
def fail (r : TopicStreamReader) : TopicStreamReader := { r with buf := [], failed := true }

/-- The reader after its frames were taken off. -/
def afterFrames (r : TopicStreamReader) (left : Option Bytes) : TopicStreamReader :=
  match left with
  | some rest => { r with buf := rest }
  | none => r.fail

/-- Take the frames off the buffer. -/
def readFrames (r : TopicStreamReader) (buf : Bytes) : TopicStreamReader × List TopicOutcome :=
  (r.afterFrames (topicFrames.drainAll buf).2, (topicFrames.drainAll buf).1)

/-- Take the header off the buffer and then the frames. -/
def readHeader (r : TopicStreamReader) (buf : Bytes) : TopicStreamReader × List TopicOutcome :=
  if buf.length < 2 then ({ r with buf }, [])
  else if buf.take 2 ≠ topicStreamHeader then (r.fail, [.error .badStreamHeader])
  else { r with headerSeen := true }.readFrames (buf.drop 2)

/-- Feed bytes, with the samples and the errors in the order of their frames. -/
def push (r : TopicStreamReader) (data : Bytes) : TopicStreamReader × List TopicOutcome :=
  if r.failed then (r, [])
  else if r.headerSeen then r.readFrames (r.buf ++ data)
  else r.readHeader (r.buf ++ data)

/-- Feed bytes in pieces. -/
def feed (r : TopicStreamReader) : List Bytes → TopicStreamReader × List TopicOutcome
  | [] => (r, [])
  | data :: rest =>
      ((feed (r.push data).1 rest).1, (r.push data).2 ++ (feed (r.push data).1 rest).2)

end TopicStreamReader

/-- The samples among the outcomes, in order. -/
def samplesOf (outs : List TopicOutcome) : List TopicSample :=
  outs.filterMap fun
    | .ok s => some s
    | .error _ => none

/-- The errors among the outcomes, in order. -/
def errorsOf (outs : List TopicOutcome) : List TopicError :=
  outs.filterMap fun
    | .ok _ => none
    | .error e => some e

namespace TopicStreamReader

variable {r : TopicStreamReader}

/-- A reader that failed reads nothing more. -/
theorem push_of_failed (h : r.failed = true) (data : Bytes) : r.push data = (r, []) := by
  rw [push, if_pos h]

/-- Behind the header come frames. -/
theorem push_of_seen (hfailed : r.failed = false) (hseen : r.headerSeen = true) (data : Bytes) :
    r.push data = r.readFrames (r.buf ++ data) := by
  rw [push, if_neg (by simp [hfailed]), if_pos hseen]

/-- First comes the header. -/
theorem push_of_unseen (hfailed : r.failed = false) (hseen : r.headerSeen = false) (data : Bytes) :
    r.push data = r.readHeader (r.buf ++ data) := by
  rw [push, if_neg (by simp [hfailed]), if_neg (by simp [hseen])]

/-- A header that is not whole is waited for. -/
theorem readHeader_of_short {buf : Bytes} (h : buf.length < 2) :
    r.readHeader buf = ({ r with buf }, []) :=
  if_pos h

theorem feed_of_failed (h : r.failed = true) : ∀ chunks : List Bytes, r.feed chunks = (r, [])
  | [] => rfl
  | data :: rest => by
      rw [feed, push_of_failed h, feed_of_failed h rest]
      rfl

/-- The frames of two pieces. -/
theorem readFrames_append (hfailed : r.failed = false) (hseen : r.headerSeen = true)
    (buf more : Bytes) :
    r.readFrames (buf ++ more) =
      (((r.readFrames buf).1.push more).1,
        (r.readFrames buf).2 ++ ((r.readFrames buf).1.push more).2) := by
  rw [readFrames, topicFrames.drainAll_append buf more, readFrames]
  cases hleft : (topicFrames.drainAll buf).2 with
  | none => rfl
  | some rest =>
      have hpush : (r.afterFrames (some rest)).push more =
          (r.afterFrames (some rest)).readFrames (rest ++ more) :=
        push_of_seen (r := r.afterFrames (some rest)) hfailed hseen more
      rw [hpush]
      rfl

/-- Two pieces are read like one. -/
theorem push_append (r : TopicStreamReader) (data more : Bytes) :
    r.push (data ++ more) =
      (((r.push data).1.push more).1, (r.push data).2 ++ ((r.push data).1.push more).2) := by
  by_cases hfailed : r.failed = true
  · rw [push_of_failed hfailed, push_of_failed hfailed, push_of_failed hfailed]
    rfl
  · rw [Bool.not_eq_true] at hfailed
    by_cases hseen : r.headerSeen = true
    · rw [push_of_seen hfailed hseen, push_of_seen hfailed hseen, ← List.append_assoc]
      exact readFrames_append hfailed hseen _ _
    · rw [Bool.not_eq_true] at hseen
      rw [push_of_unseen hfailed hseen, push_of_unseen hfailed hseen, ← List.append_assoc]
      by_cases hshort : (r.buf ++ data).length < 2
      · rw [readHeader_of_short hshort]
        have hpush := push_of_unseen (r := { r with buf := r.buf ++ data }) hfailed hseen more
        rw [hpush]
        rfl
      · have htake : (r.buf ++ data ++ more).take 2 = (r.buf ++ data).take 2 :=
          List.take_append_of_le_length (Nat.not_lt.mp hshort)
        have hlong : ¬ (r.buf ++ data ++ more).length < 2 := by
          rw [List.length_append]
          omega
        rw [readHeader, readHeader, if_neg hshort, if_neg hlong, htake]
        by_cases hheader : (r.buf ++ data).take 2 ≠ topicStreamHeader
        · rw [if_pos hheader, if_pos hheader]
          rfl
        · rw [if_neg hheader, if_neg hheader,
            List.drop_append_of_le_length (Nat.not_lt.mp hshort)]
          exact readFrames_append (r := { r with headerSeen := true }) hfailed rfl _ _

/-- Pieces are read like their concatenation. -/
theorem feed_eq_push : ∀ (chunks : List Bytes) (r : TopicStreamReader), chunks ≠ [] →
    r.feed chunks = r.push chunks.flatten
  | [], _, h => absurd rfl h
  | [data], r, _ => by
      rw [feed, feed, List.append_nil, List.flatten_singleton]
  | data :: next :: rest, r, _ => by
      have ih := feed_eq_push (next :: rest) (r.push data).1 (List.cons_ne_nil _ _)
      rw [feed, ih]
      exact (push_append r data (next :: rest).flatten).symm

/-- However a stream is split, it gives what it gives in one piece. -/
theorem feed_flatten (chunks : List Bytes) :
    (new.feed chunks).2 = (new.push chunks.flatten).2 := by
  by_cases hnil : chunks = []
  · subst hnil
    rfl
  · rw [feed_eq_push chunks new hnil]

/-- Every outcome comes from a frame, the length of a frame or the header. -/
theorem forall_push {P : TopicOutcome → Prop} (hframe : ∀ bytes, P (TopicSample.decode bytes))
    (hlong : ∀ len, P (.error (.tooLarge len))) (hheader : P (.error .badStreamHeader))
    (r : TopicStreamReader) (data : Bytes) : ∀ out ∈ (r.push data).2, P out := by
  have hframes : ∀ buf, ∀ out ∈ (topicFrames.drainAll buf).1, P out := by
    refine Reader.forall_drainAll ?_ ?_
    · intro buf out rest h
      simp only [topicFrames, nextFrame] at h
      split_ifs at h
      obtain ⟨rfl, -⟩ := Next.item.inj h
      exact hframe _
    · intro buf out h
      simp only [topicFrames, nextFrame] at h
      split_ifs at h
      obtain rfl := Next.fail.inj h
      exact hlong _
  rw [push]
  split_ifs
  · nofun
  · exact hframes _
  · rw [readHeader]
    split_ifs
    · nofun
    · intro out hout
      exact List.mem_singleton.mp hout ▸ hheader
    · exact hframes _

/-- No sample with a bad key is yielded. -/
theorem checkKey_of_mem_samplesOf {data : Bytes} {s : TopicSample}
    (h : s ∈ samplesOf (r.push data).2) : checkKey s.key = .ok () := by
  obtain ⟨out, hout, hs⟩ := List.mem_filterMap.mp h
  have hgood := forall_push (P := fun out => ∀ s, out = .ok s → checkKey s.key = .ok ())
    (fun _ _ => TopicSample.checkKey_of_decode) nofun nofun r data out hout
  cases out with
  | ok s' => exact hgood s (congrArg _ (Option.some.inj hs))
  | error e => cases hs

end TopicStreamReader

/-! ## Streams of good samples -/

/-- What the outbox accepts with a key that can be republished. -/
structure TopicSample.Sendable (s : TopicSample) : Prop where
  fits : s.encodedLen ≤ maxTopicSample
  key : checkKey s.key = .ok ()

/-- The stream of some samples, nothing for none. -/
def streamOf (ss : List TopicSample) : Bytes :=
  if ss = [] then [] else topicStreamHeader ++ (ss.map TopicSample.frame).flatten

theorem TopicSample.frameLen_pos (s : TopicSample) : 0 < s.frameLen := by
  rw [frameLen]
  omega

/-- A stream has the length of its header and its frames. -/
theorem length_streamOf (ss : List TopicSample) :
    (streamOf ss).length =
      if ss = [] then 0
      else topicStreamHeader.length + (ss.map TopicSample.frameLen).sum := by
  rw [streamOf]
  split_ifs with hnil
  · rfl
  · rw [List.length_append, List.length_flatten, List.map_map]
    congr 2
    exact List.map_congr_left fun s _ => s.length_frame

/-- A frame's length is read back. -/
theorem TopicSample.Sendable.decode_len {s : TopicSample} (h : s.Sendable) :
    BigEndian.decode (BigEndian.encode 4 s.encodedLen) = s.encodedLen := by
  refine BigEndian.decode_encode_of_lt (h.fits.trans_lt ?_)
  decide

/-- A whole frame is read back as its sample. -/
theorem nextFrame_frame {s : TopicSample} (h : s.Sendable) (rest : Bytes) :
    nextFrame (s.frame ++ rest) = .item (.ok s) rest := by
  have htake : (s.frame ++ rest).take 4 = BigEndian.encode 4 s.encodedLen := by
    rw [TopicSample.frame, List.append_assoc]
    exact List.take_left' (BigEndian.length_encode _ _)
  have hdrop : (s.frame ++ rest).drop 4 = s.encode ++ rest := by
    rw [TopicSample.frame, List.append_assoc]
    exact List.drop_left' (BigEndian.length_encode _ _)
  have hlen : (s.frame ++ rest).length = 4 + s.encodedLen + rest.length := by
    rw [List.length_append, TopicSample.length_frame, TopicSample.frameLen]
  simp only [nextFrame]
  rw [htake, h.decode_len, if_neg (by omega), if_neg (Nat.not_lt.mpr h.fits), if_neg (by omega),
    hdrop, List.take_left' s.length_encode, TopicSample.decode_encode h.fits h.key,
    ← TopicSample.frameLen, List.drop_left' s.length_frame]

/-- Part of a frame is too little. -/
theorem nextFrame_of_isPrefix {s : TopicSample} (h : s.Sendable) {buf : Bytes}
    (hbuf : buf <+: s.frame) (hlt : buf.length < s.frameLen) : nextFrame buf = .more := by
  by_cases hshort : buf.length < 4
  · exact if_pos hshort
  · have htake : buf.take 4 = BigEndian.encode 4 s.encodedLen := by
      obtain ⟨rest, hrest⟩ := hbuf
      have hsame : (buf ++ rest).take 4 = buf.take 4 := nextFrame_append hshort
      rw [← hsame, hrest, TopicSample.frame]
      exact List.take_left' (BigEndian.length_encode _ _)
    simp only [nextFrame]
    rw [if_neg hshort, htake, h.decode_len, if_neg (Nat.not_lt.mpr h.fits),
      ← TopicSample.frameLen, if_pos hlt]

/-- The frames of the stream tell where they end. -/
theorem topicFrames_framed : topicFrames.Framed TopicSample.frame .ok TopicSample.Sendable where
  nil := rfl
  frame_append _ hs rest := nextFrame_frame hs rest
  of_isPrefix s hs _ hbuf hlt := nextFrame_of_isPrefix hs hbuf (s.length_frame ▸ hlt)

/-- Draining the frames of good samples, cut off anywhere. -/
theorem drainAll_frames (ss : List TopicSample) (buf : Bytes) (hgood : ∀ s ∈ ss, s.Sendable)
    (hbuf : buf <+: (ss.map TopicSample.frame).flatten) :
    ∃ left, topicFrames.drainAll buf =
      ((Framing.complete TopicSample.frameLen ss buf.length).1.map .ok, some left) := by
  obtain ⟨left, hleft⟩ := topicFrames_framed.drainAll_frames ss buf hgood hbuf
  simp only [TopicSample.length_frame] at hleft
  exact ⟨left, hleft⟩

namespace TopicStreamReader

/-- The reader of a stream of good samples, cut off anywhere, yields the samples
whose frames are complete. -/
theorem push_streamOf {ss : List TopicSample} (hgood : ∀ s ∈ ss, s.Sendable) {b : Bytes}
    (hb : b <+: streamOf ss) :
    (new.push b).2 = (Framing.complete TopicSample.frameLen ss (b.length - 2)).1.map .ok := by
  rw [push_of_unseen rfl rfl, show new.buf ++ b = b from rfl]
  by_cases hshort : b.length < 2
  · rw [readHeader_of_short hshort, Nat.sub_eq_zero_of_le hshort.le,
      Framing.complete_zero _ fun s _ => s.frameLen_pos]
    rfl
  · rw [streamOf] at hb
    split_ifs at hb with hnil
    · obtain rfl := List.prefix_nil.mp hb
      exact absurd (by decide) hshort
    · obtain ⟨rest, rfl⟩ : topicStreamHeader <+: b :=
        List.prefix_of_prefix_length_le (List.prefix_append _ _) hb (Nat.not_lt.mp hshort)
      obtain ⟨left, hleft⟩ := drainAll_frames ss rest hgood ((List.prefix_append_right_inj _).mp hb)
      have htake : (topicStreamHeader ++ rest).take 2 = topicStreamHeader := rfl
      have hdrop : (topicStreamHeader ++ rest).drop 2 = rest := rfl
      rw [readHeader, if_neg hshort, htake, if_neg (not_not_intro rfl), hdrop, readFrames, hleft]
      rfl

/-- A part of the stream gives the samples whose frames it completes. -/
theorem feed_streamOf {ss : List TopicSample} (hgood : ∀ s ∈ ss, s.Sendable) {chunks : List Bytes}
    (hchunks : chunks.flatten <+: streamOf ss) :
    (new.feed chunks).2 =
      (Framing.complete TopicSample.frameLen ss (chunks.flatten.length - 2)).1.map .ok := by
  rw [feed_flatten, push_streamOf hgood hchunks]

end TopicStreamReader

end RoboTele
