import RoboTele.Bytes.BigEndian
import RoboTele.Core.Datagram
import Mathlib.Data.List.Infix

/-!
# Samples of forwarded topics

A sample is a key, an attachment and a payload.  On the wire the key and the
attachment carry their lengths and the payload is the rest.

A key is sent on only if it is concrete and not under the prefix that belongs to
the robot itself.  The receiver checks that too, so no peer can make it
republish such a key (`checkKey_of_decode`).
-/

namespace RoboTele

/-- No sample is larger. -/
def maxTopicSample : Nat := 16 * 1024 * 1024

/-- Keys under this prefix are the robot's own. -/
def reservedPrefix : String := "robotele/"

/-- A sample of a forwarded topic. -/
structure TopicSample where
  key : String
  attachment : Bytes
  payload : Bytes
deriving DecidableEq

/-- Why a sample or a stream of samples is refused. -/
inductive TopicError where
  | short
  | keyNotUtf8
  | badKey (key : String)
  | reservedKey (key : String)
  | tooLarge (len : Nat)
  | badStreamHeader
deriving DecidableEq

/-! ## Keys -/

/-- The UTF-8 bytes of a string. -/
def asBytes (s : String) : Bytes := s.toByteArray.data.toList

/-- The string with these UTF-8 bytes. -/
def fromUtf8 (bytes : Bytes) : Option String := String.fromUTF8? ⟨bytes.toArray⟩

@[simp] theorem fromUtf8_asBytes (s : String) : fromUtf8 (asBytes s) = some s := by
  rw [fromUtf8, asBytes, Array.toArray_toList, String.fromUTF8?, dif_pos s.isValidUTF8]
  rfl

theorem asBytes_of_fromUtf8 {bytes : Bytes} {s : String} (h : fromUtf8 bytes = some s) :
    asBytes s = bytes := by
  rw [fromUtf8, String.fromUTF8?] at h
  split_ifs at h with hvalid
  obtain rfl := Option.some.inj h
  rfl

/-- A Zenoh key without wildcards and empty chunks. -/
def IsConcrete (key : String) : Prop :=
  key ≠ "" ∧ (asBytes key).length ≤ 65535 ∧ key.toList.head? ≠ some '/' ∧
    key.toList.getLast? ≠ some '/' ∧ ¬ ['/', '/'] <:+: key.toList ∧
      ∀ c ∈ key.toList, c ∉ ['*', '$', '?', '#']

instance (key : String) : Decidable (IsConcrete key) :=
  have : Decidable (∀ c ∈ key.toList, c ∉ ['*', '$', '?', '#']) := List.decidableBAll _ _
  inferInstanceAs (Decidable (_ ∧ _ ∧ _ ∧ _ ∧ _ ∧ _))

/-- `check_key`: whether a key can be republished as it is. -/
def checkKey (key : String) : Except TopicError Unit :=
  if ¬ IsConcrete key then .error (.badKey key)
  else if reservedPrefix.toList <+: key.toList then .error (.reservedKey key)
  else .ok ()

theorem checkKey_eq_ok_iff {key : String} :
    checkKey key = .ok () ↔ IsConcrete key ∧ ¬ reservedPrefix.toList <+: key.toList := by
  rw [checkKey]
  split_ifs with hconcrete hreserved <;> simp_all

/-! ## Encoding -/

namespace TopicSample

/-- The length of an encoded sample. -/
def encodedLen (s : TopicSample) : Nat :=
  2 + (asBytes s.key).length + 4 + s.attachment.length + s.payload.length

/-- Key and attachment with their lengths, and then the payload. -/
def encode (s : TopicSample) : Bytes :=
  BigEndian.encode 2 (asBytes s.key).length ++ asBytes s.key ++
    BigEndian.encode 4 s.attachment.length ++ s.attachment ++ s.payload

@[simp] theorem length_encode (s : TopicSample) : s.encode.length = s.encodedLen := by
  simp only [encode, encodedLen, List.length_append, BigEndian.length_encode]

/-- `bytes.get(..n)` with the rest. -/
def splitAt? (bytes : Bytes) (n : Nat) : Except TopicError (Bytes × Bytes) :=
  if n ≤ bytes.length then .ok (bytes.take n, bytes.drop n) else .error .short

theorem ok_bind {α β : Type} (a : α) (f : α → Except TopicError β) : (.ok a >>= f) = f a := rfl

theorem bind_eq_ok {α β : Type} {x : Except TopicError α} {f : α → Except TopicError β} {b : β}
    (h : x >>= f = .ok b) : ∃ a, x = .ok a ∧ f a = .ok b := by
  cases x with
  | error e => cases h
  | ok a => exact ⟨a, rfl, h⟩

/-- A key that can be republished. -/
def decodeKey (bytes : Bytes) : Except TopicError String :=
  match fromUtf8 bytes with
  | none => .error .keyNotUtf8
  | some key => (checkKey key).map fun _ => key

/-- Decode a sample and check its key. -/
def decode (bytes : Bytes) : Except TopicError TopicSample :=
  if maxTopicSample < bytes.length then .error (.tooLarge bytes.length)
  else do
    let (keyLen, rest) ← splitAt? bytes 2
    let (keyBytes, rest) ← splitAt? rest (BigEndian.decode keyLen)
    let key ← decodeKey keyBytes
    let (attLen, rest) ← splitAt? rest 4
    let (attachment, payload) ← splitAt? rest (BigEndian.decode attLen)
    return { key, attachment, payload }

theorem splitAt?_append {a : Bytes} {n : Nat} (h : a.length = n) (b : Bytes) :
    splitAt? (a ++ b) n = .ok (a, b) := by
  rw [splitAt?, if_pos (by rw [List.length_append]; omega), List.take_left' h, List.drop_left' h]

/-- A sample that is not too large and has a good key comes back. -/
theorem decode_encode {s : TopicSample} (hlen : s.encodedLen ≤ maxTopicSample)
    (hkey : checkKey s.key = .ok ()) : decode s.encode = .ok s := by
  have hkeyLen := (checkKey_eq_ok_iff.mp hkey).1.2.1
  have hatt : s.attachment.length < 256 ^ 4 := by
    simp only [encodedLen, maxTopicSample] at hlen
    omega
  have hdecodeKey : decodeKey (asBytes s.key) = .ok s.key := by
    simp only [decodeKey, fromUtf8_asBytes, hkey]
    rfl
  rw [decode, if_neg (by rw [length_encode]; omega), encode]
  simp only [List.append_assoc, splitAt?_append (BigEndian.length_encode _ _), ok_bind]
  rw [BigEndian.decode_encode_of_lt (by omega), splitAt?_append rfl, ok_bind, hdecodeKey, ok_bind,
    splitAt?_append (BigEndian.length_encode _ _), ok_bind, BigEndian.decode_encode_of_lt hatt,
    splitAt?_append rfl]
  rfl

theorem eq_ok_of_decodeKey {bytes : Bytes} {key : String} (h : decodeKey bytes = .ok key) :
    fromUtf8 bytes = some key ∧ checkKey key = .ok () := by
  rw [decodeKey] at h
  split at h
  · cases h
  · next key' hutf8 =>
      cases hcheck : checkKey key' with
      | error e =>
          rw [hcheck] at h
          cases h
      | ok u =>
          rw [hcheck] at h
          obtain rfl := Except.ok.inj h
          exact ⟨hutf8, hcheck⟩

theorem append_of_splitAt? {bytes a b : Bytes} {n : Nat} (h : splitAt? bytes n = .ok (a, b)) :
    a ++ b = bytes ∧ a.length = n := by
  rw [splitAt?] at h
  split_ifs at h with hn
  obtain ⟨rfl, rfl⟩ := Prod.mk.inj (Except.ok.inj h)
  exact ⟨List.take_append_drop n bytes, List.length_take_of_le hn⟩

/-- A decoded sample has a good key and is encoded as the bytes it was decoded from. -/
theorem encode_of_decode {bytes : Bytes} {s : TopicSample} (h : decode bytes = .ok s) :
    s.encode = bytes ∧ checkKey s.key = .ok () := by
  rw [decode] at h
  split_ifs at h
  obtain ⟨⟨keyLen, rest⟩, hkeyLen, h⟩ := bind_eq_ok h
  obtain ⟨⟨keyBytes, rest'⟩, hkeyBytes, h⟩ := bind_eq_ok h
  obtain ⟨key, hkey, h⟩ := bind_eq_ok h
  obtain ⟨⟨attLen, rest''⟩, hattLen, h⟩ := bind_eq_ok h
  obtain ⟨⟨attachment, payload⟩, hatt, h⟩ := bind_eq_ok h
  obtain rfl := Except.ok.inj h
  obtain ⟨hbytes, hkeyLen⟩ := append_of_splitAt? hkeyLen
  obtain ⟨hrest, hkeyBytes⟩ := append_of_splitAt? hkeyBytes
  obtain ⟨hrest', hattLen⟩ := append_of_splitAt? hattLen
  obtain ⟨hrest'', hatt⟩ := append_of_splitAt? hatt
  obtain ⟨hutf8, hcheck⟩ := eq_ok_of_decodeKey hkey
  refine ⟨?_, hcheck⟩
  rw [encode, asBytes_of_fromUtf8 hutf8, hkeyBytes, hatt, BigEndian.encode_decode_of_length hkeyLen,
    BigEndian.encode_decode_of_length hattLen, ← hbytes, ← hrest, ← hrest', ← hrest'']
  simp only [List.append_assoc]

/-- No decoded sample has a bad key. -/
theorem checkKey_of_decode {bytes : Bytes} {s : TopicSample} (h : decode bytes = .ok s) :
    checkKey s.key = .ok () :=
  (encode_of_decode h).2

theorem length_le_of_decode {bytes : Bytes} {s : TopicSample} (h : decode bytes = .ok s) :
    bytes.length ≤ maxTopicSample := by
  rw [decode] at h
  split_ifs at h with hlarge
  exact Nat.not_lt.mp hlarge

/-- The bytes before the payload. -/
def headLen (s : TopicSample) : Nat := 2 + (asBytes s.key).length + 4 + s.attachment.length

/-- A sample that is encoded as the beginning of another one has all but its payload. -/
theorem headLen_eq_of_prefix {s t : TopicSample} (hkey : (asBytes s.key).length < 256 ^ 2)
    (hkey' : (asBytes t.key).length < 256 ^ 2) (hatt : s.attachment.length < 256 ^ 4)
    (hatt' : t.attachment.length < 256 ^ 4) (h : t.encode <+: s.encode) :
    t.headLen = s.headLen := by
  obtain ⟨rest, hrest⟩ := h
  simp only [encode, List.append_assoc] at hrest
  obtain ⟨hkeyLen, hrest⟩ := List.append_inj hrest (by simp)
  have hkeyEq : (asBytes t.key).length = (asBytes s.key).length := by
    have hdecode := congrArg BigEndian.decode hkeyLen
    rwa [BigEndian.decode_encode_of_lt hkey', BigEndian.decode_encode_of_lt hkey] at hdecode
  obtain ⟨-, hrest⟩ := List.append_inj hrest hkeyEq
  obtain ⟨hattLen, -⟩ := List.append_inj hrest (by simp)
  have hattEq : t.attachment.length = s.attachment.length := by
    have hdecode := congrArg BigEndian.decode hattLen
    rwa [BigEndian.decode_encode_of_lt hatt', BigEndian.decode_encode_of_lt hatt] at hdecode
  rw [headLen, headLen, hkeyEq, hattEq]

/-- What is cut before the payload is not decoded. -/
theorem decode_take_of_lt {s : TopicSample} (hkey : (asBytes s.key).length < 256 ^ 2)
    (hatt : s.attachment.length < 256 ^ 4) {cut : Nat} (hcut : cut < s.headLen) :
    ∃ e, decode (s.encode.take cut) = .error e := by
  cases hdecode : decode (s.encode.take cut) with
  | error e => exact ⟨e, rfl⟩
  | ok t =>
      obtain ⟨hencode, hcheck⟩ := encode_of_decode hdecode
      have hlen : t.encodedLen = min cut s.encodedLen := by
        rw [← length_encode, hencode, List.length_take, length_encode]
      have hmax := length_le_of_decode hdecode
      rw [← hencode, length_encode, maxTopicSample] at hmax
      have hkey' := (checkKey_eq_ok_iff.mp hcheck).1.2.1
      have hatt' : t.attachment.length ≤ t.encodedLen := by
        rw [encodedLen]
        omega
      have hhead := headLen_eq_of_prefix hkey (show _ < 65536 by omega) hatt
        (show _ < 4294967296 by omega) (hencode ▸ List.take_prefix cut s.encode)
      rw [headLen] at hhead
      rw [encodedLen] at hlen
      omega

/-- Both round trips, and what is cut in the key, the attachment or their lengths is
rejected. -/
theorem roundTrips :
    (∀ s : TopicSample, checkKey s.key = .ok () → s.encodedLen ≤ maxTopicSample →
      decode s.encode = .ok s) ∧
    (∀ bytes s, decode bytes = .ok s → s.encode = bytes ∧ checkKey s.key = .ok ()) ∧
    ∀ s : TopicSample, (asBytes s.key).length < 256 ^ 2 → s.attachment.length < 256 ^ 4 →
      ∀ cut < 2 + (asBytes s.key).length + 4 + s.attachment.length,
        ∃ e, decode (s.encode.take cut) = .error e :=
  ⟨fun _ hkey hlen => decode_encode hlen hkey, fun _ _ h => encode_of_decode h,
    fun _ hkey hatt _ hcut => decode_take_of_lt hkey hatt hcut⟩

/-- A pose with a time attached. -/
def pose : TopicSample := { key := "robot/pose", attachment := [7], payload := [1, 2, 3] }

/-- The pose, and what is left of it when it is cut. -/
theorem roundTrips_pose : decode pose.encode = .ok pose ∧ checkKey pose.key = .ok () ∧
    ∃ e, decode (pose.encode.take 3) = .error e := by
  have hdecode : decode pose.encode = .ok pose := roundTrips.1 pose (by decide) (by decide)
  exact ⟨hdecode, (roundTrips.2.1 _ _ hdecode).2,
    roundTrips.2.2 pose (by decide) (by decide) 3 (by decide)⟩

end TopicSample

end RoboTele
