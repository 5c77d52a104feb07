import RoboTele.Bytes.BigEndian
import Mathlib.Data.List.Basic

/-!
# Datagram tags, stream writes and the E-Stop encoding

A datagram starts with one byte that says how to read the rest.  E-Stop
datagrams have a magic byte of their own and a fixed 10-byte layout: magic,
latch flag, 64-bit big-endian sequence number.  The same ten bytes travel on
the E-Stop stream.

A write to a stream may be taken in part, or not at all, or fail (`Answer`).
-/

namespace RoboTele

/-- Bytes, as they are sent and stored. -/
abbrev Bytes := List UInt8

/-! ## Tags -/

/-- The tag of a Channel B frame. -/
def datagramTagChannelB : UInt8 := 0x01

/-- The tag of a chunk of video. -/
def datagramTagChannelA : UInt8 := 0x02

/-- The tag of a heartbeat. -/
def datagramTagHeartbeat : UInt8 := 0x03

/-- The tag of a sensor's slice. -/
def datagramTagSensorSlice : UInt8 := 0x04

/-- The tag of a topic's sample. -/
def datagramTagTopic : UInt8 := 0x05

/-- The tag of a benchmark's datagram. -/
def datagramTagBenchRaw : UInt8 := 0x7F

/-- Prefix `payload` with its tag. -/
def tag (tagByte : UInt8) (payload : Bytes) : Bytes := tagByte :: payload

/-- Split a datagram into its tag and the rest. -/
def untag : Bytes → Option (UInt8 × Bytes)
  | [] => none
  | t :: rest => some (t, rest)

@[simp] theorem untag_tag (t : UInt8) (payload : Bytes) :
    untag (tag t payload) = some (t, payload) :=
  rfl

/-! ## Stream writes -/

/-- What the connection does with a write. -/
inductive Answer where
  | accepts (n : Nat)
  | blocked
  | fails
deriving DecidableEq

/-- The largest `usize`. -/
def usizeMax : Nat := 2 ^ 64 - 1

/-! ## E-Stop -/

/-- The stream of the E-Stops. -/
def estopStreamId : Nat := 5

/-- The first byte of an E-Stop. -/
def estopDatagramMagic : UInt8 := 0xE5

/-- Magic, latch and sequence number. -/
def estopDatagramLen : Nat := 10

/-- The state of the E-Stop latch that is asked for or reported, and its number. -/
structure EstopDatagram where
  latched : Bool
  seq : UInt64
deriving DecidableEq

namespace EstopDatagram

/-- `EstopDatagram::encode`: ten bytes. -/
def encode (d : EstopDatagram) : Bytes :=
  estopDatagramMagic :: (if d.latched then 1 else 0) :: BigEndian.encode 8 d.seq.toNat

/-- `EstopDatagram::decode`: what does not begin with the magic byte is no message. -/
def decode (bytes : Bytes) : Option EstopDatagram :=
  if bytes.length < estopDatagramLen ∨ bytes.head? ≠ some estopDatagramMagic then none
  else
    some
      { latched := decide (bytes.getD 1 0 ≠ 0)
        seq := UInt64.ofNat (BigEndian.decode ((bytes.drop 2).take 8)) }

@[simp] theorem encode_head? (d : EstopDatagram) : d.encode.head? = some estopDatagramMagic := rfl

@[simp] theorem length_encode (d : EstopDatagram) : d.encode.length = estopDatagramLen := by
  simp [encode, estopDatagramLen]

/-- Decoding an encoded message gives the message back. -/
@[simp] theorem decode_encode (d : EstopDatagram) : decode d.encode = some d := by
  have hseq : BigEndian.decode (((BigEndian.encode 8 d.seq.toNat)).take 8) = d.seq.toNat := by
    rw [List.take_of_length_le (by simp)]
    exact BigEndian.decode_encode_of_lt d.seq.toNat_lt
  have hlen : ¬ d.encode.length < estopDatagramLen := by simp
  obtain ⟨latched, seq⟩ := d
  cases latched <;> simp_all [decode, encode]

end EstopDatagram

end RoboTele
