import RoboTele.Core.Datagram
import RoboTele.Tables.Ordered
import Mathlib.Data.Finset.Basic

/-!
# Bulk objects

An object travels on a stream of its own: a fixed header, as many bytes as the
header declares, and the end of the stream.  The receiver keeps what has come in
of each open stream.  The header of a newer version of an object drops the older
ones that are open, and a header older than one seen before drops its own
stream.  The rest of a dropped stream is ignored until its end.
-/

namespace RoboTele

open Tables

/-! ## Headers -/

/-- The format's version. -/
def bulkFormat : UInt8 := 1

/-- Format, kind, source, encoding, version, length and time. -/
def bulkHeaderLen : Nat := 1 + 1 + 1 + 1 + 4 + 8 + 8

/-- No object is larger. -/
def maxBulkObject : Nat := 64 * 1024 * 1024

/-- What a bulk object holds. -/
inductive BulkKind where
  | occupancyGrid
  | keyframeCloud
  | depthSnapshot
  | blob
deriving DecidableEq

namespace BulkKind

/-- A kind on the wire. -/
def toU8 : BulkKind → UInt8
  | occupancyGrid => 1
  | keyframeCloud => 2
  | depthSnapshot => 3
  | blob => 255

/-- A kind from the wire. -/
def fromU8 (v : UInt8) : Option BulkKind :=
  if v = 1 then some occupancyGrid
  else if v = 2 then some keyframeCloud
  else if v = 3 then some depthSnapshot
  else if v = 255 then some blob
  else none

@[simp] theorem fromU8_toU8 (k : BulkKind) : fromU8 k.toU8 = some k := by
  cases k <;> rfl

theorem toU8_injective : Function.Injective toU8 := by
  intro k l h
  have hk := fromU8_toU8 k
  rw [h, fromU8_toU8] at hk
  exact (Option.some.inj hk).symm

end BulkKind

/-- What comes before the bytes of a bulk object on its stream. -/
structure BulkHeader where
  kind : BulkKind
  sourceId : UInt8
  encoding : UInt8
  version : UInt32
  length : UInt64
  captureTimeUs : UInt64
deriving DecidableEq

/-- Why a stream is rejected. -/
inductive BulkError where
  | shortHeader
  | unknownFormat (format : UInt8)
  | unknownKind (kind : UInt8)
  | tooLarge (length : UInt64)
  | tooLong
  | truncated (got expected : Nat)
deriving DecidableEq

/-- What a version is a version of. -/
abbrev BulkKey := BulkKind × UInt8

namespace BulkHeader

/-- What the newest version is kept of. -/
def key (h : BulkHeader) : BulkKey := (h.kind, h.sourceId)

/-- `BulkHeader::encode`.  All integers are big-endian. -/
def encode (h : BulkHeader) : Bytes :=
  [bulkFormat, h.kind.toU8, h.sourceId, h.encoding] ++ BigEndian.encode 4 h.version.toNat ++
    BigEndian.encode 8 h.length.toNat ++ BigEndian.encode 8 h.captureTimeUs.toNat

/-- The length field of a header's bytes. -/
def lengthOf (bytes : Bytes) : UInt64 :=
  UInt64.ofNat (BigEndian.decode ((bytes.drop 8).take 8))

/-- The version field of a header's bytes. -/
def versionOf (bytes : Bytes) : UInt32 :=
  UInt32.ofNat (BigEndian.decode ((bytes.drop 4).take 4))

/-- `BulkHeader::decode`: the first thing that is wrong is the error. -/
def decode (bytes : Bytes) : Except BulkError BulkHeader :=
  if bytes.length < bulkHeaderLen then .error .shortHeader
  else if bytes.getD 0 0 ≠ bulkFormat then .error (.unknownFormat (bytes.getD 0 0))
  else
    match BulkKind.fromU8 (bytes.getD 1 0) with
    | none => .error (.unknownKind (bytes.getD 1 0))
    | some kind =>
        if maxBulkObject < (lengthOf bytes).toNat then .error (.tooLarge (lengthOf bytes))
        else
          .ok
            { kind
              sourceId := bytes.getD 2 0
              encoding := bytes.getD 3 0
              version := versionOf bytes
              length := lengthOf bytes
              captureTimeUs := UInt64.ofNat (BigEndian.decode ((bytes.drop 16).take 8)) }

@[simp] theorem length_encode (h : BulkHeader) : h.encode.length = bulkHeaderLen := by
  simp [encode, bulkHeaderLen]

/-- Only the bytes of the header matter. -/
theorem decode_append {bytes : Bytes} (hlen : bulkHeaderLen ≤ bytes.length) (rest : Bytes) :
    decode (bytes ++ rest) = decode bytes := by
  have hlen' : ¬ (bytes ++ rest).length < bulkHeaderLen := by
    rw [List.length_append]
    omega
  have hget : ∀ i < bulkHeaderLen, (bytes ++ rest).getD i 0 = bytes.getD i 0 := by
    intro i hi
    rw [List.getD_eq_getElem?_getD, List.getD_eq_getElem?_getD, List.getElem?_append_left]
    omega
  have htake : ∀ i w, i + w ≤ bulkHeaderLen →
      ((bytes ++ rest).drop i).take w = (bytes.drop i).take w := by
    intro i w hi
    rw [List.drop_append_of_le_length (by omega), List.take_append_of_le_length]
    rw [List.length_drop]
    omega
  rw [decode, decode, if_neg hlen', if_neg (Nat.not_lt.mpr hlen), lengthOf, lengthOf, versionOf,
    versionOf, hget 0 (by decide), hget 1 (by decide), hget 2 (by decide), hget 3 (by decide),
    htake 4 4 (by decide), htake 8 8 (by decide), htake 16 8 (by decide)]

/-- The version stands in the encoded header. -/
theorem versionOf_encode_append (h : BulkHeader) (rest : Bytes) :
    versionOf (h.encode ++ rest) = h.version := by
  rw [versionOf, encode, List.append_assoc, List.append_assoc, List.append_assoc,
    BigEndian.take_drop_encode (by simp), BigEndian.decode_encode_of_lt h.version.toNat_lt,
    UInt32.ofNat_toNat]

/-- The length field is read back from an encoded header. -/
theorem lengthOf_encode (h : BulkHeader) : lengthOf h.encode = h.length := by
  rw [lengthOf, encode, List.append_assoc, BigEndian.take_drop_encode (by simp),
    BigEndian.decode_encode_of_lt h.length.toNat_lt, UInt64.ofNat_toNat]

/-- Decoding an encoded header gives it back, if its object is not too large. -/
theorem decode_encode {h : BulkHeader} (hlength : h.length.toNat ≤ maxBulkObject) :
    decode h.encode = .ok h := by
  have hversion := versionOf_encode_append h []
  rw [List.append_nil] at hversion
  have hcapture : (h.encode.drop 16).take 8 = BigEndian.encode 8 h.captureTimeUs.toNat := by
    have hsplit : h.encode = ([bulkFormat, h.kind.toU8, h.sourceId, h.encoding] ++
        BigEndian.encode 4 h.version.toNat ++ BigEndian.encode 8 h.length.toNat) ++
          (BigEndian.encode 8 h.captureTimeUs.toNat ++ []) := by
      rw [List.append_nil, encode]
    rw [hsplit, BigEndian.take_drop_encode (by simp)]
  rw [decode, if_neg (by rw [length_encode]; omega), if_neg (by simp [encode]),
    show h.encode.getD 1 0 = h.kind.toU8 by rfl, BulkKind.fromU8_toU8, lengthOf_encode, hversion,
    hcapture, BigEndian.decode_encode_of_lt h.captureTimeUs.toNat_lt, UInt64.ofNat_toNat]
  exact if_neg (Nat.not_lt.mpr hlength)

/-- An encoded header decodes, whatever follows it. -/
theorem decode_encode_append {h : BulkHeader} (hlength : h.length.toNat ≤ maxBulkObject)
    (rest : Bytes) : decode (h.encode ++ rest) = .ok h := by
  rw [decode_append (Nat.le_of_eq h.length_encode.symm), decode_encode hlength]

/-- A header that was encoded and is accepted is the one that was encoded. -/
theorem eq_of_decode_encode_append {h h' : BulkHeader} {rest : Bytes}
    (hdecode : decode (h.encode ++ rest) = .ok h') : h' = h := by
  have hlength : h.length.toNat ≤ maxBulkObject := by
    by_contra hlarge
    rw [decode_append (Nat.le_of_eq h.length_encode.symm), decode,
      if_neg (by rw [length_encode]; omega), if_neg (by simp [encode]),
      show h.encode.getD 1 0 = h.kind.toU8 by rfl, BulkKind.fromU8_toU8, lengthOf_encode] at hdecode
    simp only at hdecode
    rw [if_pos (Nat.lt_of_not_le hlarge)] at hdecode
    exact absurd hdecode (by simp)
  rw [decode_encode_append hlength] at hdecode
  exact (Except.ok.inj hdecode).symm

end BulkHeader

/-! ## The receiver -/

/-- A header and all the bytes it announces. -/
structure BulkObject where
  header : BulkHeader
  bytes : Bytes
deriving DecidableEq

/-- How many streams ended in each of the three ways. -/
structure BulkStats where
  completed : Nat
  superseded : Nat
  rejected : Nat
deriving DecidableEq

/-- What has come in of a stream, without its header once that is whole. -/
structure BulkReceiver.Partial where
  header : Option BulkHeader
  bytes : Bytes
deriving DecidableEq

/-- The streams that are being read, the newest version of each object, and the streams that were
given up. -/
structure BulkReceiver where
  streams : AList fun _ : Nat => BulkReceiver.Partial
  latest : AList fun _ : BulkKey => UInt32
  dropped : Finset Nat
  stats : BulkStats

namespace BulkReceiver

/-- Nothing has been received. -/
def new : BulkReceiver where
  streams := ∅
  latest := ∅
  dropped := ∅
  stats := { completed := 0, superseded := 0, rejected := 0 }

/-- Give a stream up, if it is being read. -/
def dropStream (r : BulkReceiver) (id : Nat) : BulkReceiver :=
  if id ∈ r.streams then
    { r with streams := r.streams.erase id, dropped := insert id r.dropped }
  else r

/-- An object was completed. -/
def countCompleted (r : BulkReceiver) : BulkReceiver :=
  { r with stats := { r.stats with completed := r.stats.completed + 1 } }

/-- An object was superseded. -/
def countSuperseded (r : BulkReceiver) : BulkReceiver :=
  { r with stats := { r.stats with superseded := r.stats.superseded + 1 } }

/-- A stream was rejected. -/
def countRejected (r : BulkReceiver) : BulkReceiver :=
  { r with stats := { r.stats with rejected := r.stats.rejected + 1 } }

/-- Give a stream up for a newer version. -/
def supersede (r : BulkReceiver) (id : Nat) : BulkReceiver := (r.dropStream id).countSuperseded

/-- Give a stream up for what is wrong with it. -/
def reject (r : BulkReceiver) (id : Nat) : BulkReceiver := (r.dropStream id).countRejected

/-- The latest version of a key once this header is seen. -/
def newest (r : BulkReceiver) (h : BulkHeader) : UInt32 :=
  max ((r.latest.lookup h.key).getD h.version) h.version

/-- The open streams of older versions. -/
def stale (r : BulkReceiver) (id : Nat) (h : BulkHeader) : List Nat :=
  r.streams.keys.filter fun k =>
    k ≠ id ∧ ∃ p ∈ r.streams.lookup k, ∃ o ∈ p.header, o.key = h.key ∧ o.version < h.version

/-- A header has come: older versions of its object are given up, or this one is. -/
def onHeader (r : BulkReceiver) (id : Nat) (h : BulkHeader) : BulkReceiver :=
  let newest := r.newest h
  let r' := { r with latest := r.latest.insert h.key newest }
  let r' := (r'.stale id h).foldl supersede r'
  if h.version < newest then r'.supersede id else r'

/-- A newer version of the same object was seen. -/
def IsOld (r : BulkReceiver) (h : BulkHeader) : Prop := ∃ v ∈ r.latest.lookup h.key, h.version < v

instance (r : BulkReceiver) (h : BulkHeader) : Decidable (r.IsOld h) :=
  inferInstanceAs (Decidable (∃ v ∈ r.latest.lookup h.key, h.version < v))

/-- The end of a stream. -/
def close (r : BulkReceiver) (id : Nat) (p : Partial) :
    BulkReceiver × Except BulkError (Option BulkObject) :=
  let r := { r with streams := r.streams.erase id }
  match p.header with
  | none => (r.countRejected, .error .shortHeader)
  | some h =>
      if p.bytes.length ≠ h.length.toNat then
        (r.countRejected, .error (.truncated p.bytes.length h.length.toNat))
      else if r.IsOld h then (r.countSuperseded, .ok none)
      else (r.countCompleted, .ok (some { header := h, bytes := p.bytes }))

/-- What follows once the bytes are stored and the header is read. -/
def settle (r : BulkReceiver) (id : Nat) (fin : Bool) :
    BulkReceiver × Except BulkError (Option BulkObject) :=
  match r.streams.lookup id with
  | none => (r, .ok none)
  | some p =>
      if ∃ h ∈ p.header, h.length.toNat < p.bytes.length then (r.reject id, .error .tooLong)
      else if fin then r.close id p
      else (r, .ok none)

/-- What is open under an id, nothing if it is new. -/
def entry (r : BulkReceiver) (id : Nat) : Partial :=
  (r.streams.lookup id).getD { header := none, bytes := [] }

/-- What has been read of a stream. -/
def put (r : BulkReceiver) (id : Nat) (p : Partial) : BulkReceiver :=
  { r with streams := r.streams.insert id p }

/-- Feed bytes of a stream, with the object that its end completes. -/
def onData (r : BulkReceiver) (id : Nat) (data : Bytes) (fin : Bool) :
    BulkReceiver × Except BulkError (Option BulkObject) :=
  if id ∈ r.dropped then
    ((if fin then { r with dropped := r.dropped.erase id } else r), .ok none)
  else
    let p := r.entry id
    let bytes := p.bytes ++ data
    let r := r.put id { p with bytes := bytes }
    if p.header = none ∧ bulkHeaderLen ≤ bytes.length then
      match BulkHeader.decode bytes with
      | .error e => (r.reject id, .error e)
      | .ok h =>
          let r := r.put id { header := some h, bytes := bytes.drop bulkHeaderLen }
          (r.onHeader id h).settle id fin
    else r.settle id fin

/-- The peer has reset a stream, which may have been given up already. -/
def onReset (r : BulkReceiver) (id : Nat) : BulkReceiver :=
  let r' := { r with dropped := r.dropped.erase id }
  if id ∈ r.streams then { r' with streams := r.streams.erase id }.countSuperseded else r'

end BulkReceiver

end RoboTele
