import RoboTele.Bytes.BigEndian
import RoboTele.Core.Datagram
import Mathlib.Data.List.Basic

/-!
# NAL units and their chunks

A NAL unit carries its type in the low five bits of its first byte.  A decoder
cannot recover from losing an SPS, a PPS or an IDR, so these are critical.
Everything else is a delta, which may be dropped.

A NAL travels in chunks of at most `maxChunkPayload` bytes.  Each chunk starts
with the id of its NAL, its own index and whether it is the last one.
-/

namespace RoboTele

/-! ## NAL types -/

/-- A picture that needs no other. -/
def nalIdr : UInt8 := 5

/-- A sequence parameter set. -/
def nalSps : UInt8 := 7

/-- A picture parameter set. -/
def nalPps : UInt8 := 8

/-- Neither a parameter set nor an IDR. -/
def IsDelta (nalType : UInt8) : Prop := nalType ≠ nalIdr ∧ nalType ≠ nalSps ∧ nalType ≠ nalPps

instance (nalType : UInt8) : Decidable (IsDelta nalType) :=
  inferInstanceAs (Decidable (_ ∧ _ ∧ _))

/-- The type of a NAL without its start code, zero for an empty one. -/
def nalTypeOf (nal : Bytes) : UInt8 :=
  match nal with
  | [] => 0
  | b :: _ => b &&& 0x1F

/-- The decoder cannot recover from losing this NAL. -/
def nalIsCritical (nal : Bytes) : Bool :=
  match nal with
  | [] => false
  | b :: _ => decide (b &&& 0x1F = nalIdr ∨ b &&& 0x1F = nalSps ∨ b &&& 0x1F = nalPps)

theorem nalIsCritical_eq_false_iff (nal : Bytes) :
    nalIsCritical nal = false ↔ IsDelta (nalTypeOf nal) := by
  cases nal with
  | nil => exact iff_of_true rfl (by decide)
  | cons b rest => simp only [nalIsCritical, nalTypeOf, IsDelta, decide_eq_false_iff_not, not_or]

theorem nalIsCritical_iff (nal : Bytes) :
    nalIsCritical nal = true ↔ ¬ IsDelta (nalTypeOf nal) := by
  rw [← nalIsCritical_eq_false_iff, Bool.not_eq_false]

/-- A NAL without its start code, with its id. -/
structure Nal where
  nalId : UInt32
  nal : Bytes
deriving DecidableEq

/-- The type in the first byte of a NAL. -/
def Nal.nalType (n : Nal) : UInt8 := nalTypeOf n.nal

/-! ## Chunks -/

/-- The bytes of a NAL that one chunk carries at most. -/
def maxChunkPayload : Nat := 1100

/-- Which chunk of which NAL follows. -/
structure ChunkHeader where
  nalId : UInt32
  chunkIndex : UInt16
  isLast : Bool
deriving DecidableEq

/-- `ChunkHeader::encode`. -/
def ChunkHeader.encode (h : ChunkHeader) : Bytes :=
  BigEndian.encode 4 h.nalId.toNat ++ BigEndian.encode 2 h.chunkIndex.toNat ++
    [if h.isLast then 1 else 0]

/-- The NAL's id, the chunk's index, and whether it is the last one. -/
def chunkHeaderLen : Nat := 7

/-- A header and what follows it, if it is whole. -/
def ChunkHeader.decode (bytes : Bytes) : Option (ChunkHeader × Bytes) :=
  if bytes.length < chunkHeaderLen then none
  else
    some
      ({ nalId := UInt32.ofNat (BigEndian.decode (bytes.take 4))
         chunkIndex := UInt16.ofNat (BigEndian.decode ((bytes.drop 4).take 2))
         isLast := decide (bytes.getD 6 0 ≠ 0) },
        bytes.drop chunkHeaderLen)

@[simp] theorem ChunkHeader.length_encode (h : ChunkHeader) : h.encode.length = chunkHeaderLen := by
  simp [encode, chunkHeaderLen]

/-- Decoding a header before a payload gives both back. -/
theorem ChunkHeader.decode_encode (h : ChunkHeader) (payload : Bytes) :
    decode (h.encode ++ payload) = some (h, payload) := by
  have hlen : ¬ (h.encode ++ payload).length < chunkHeaderLen := by
    rw [List.length_append, length_encode]
    omega
  rw [decode, if_neg hlen, List.drop_left' h.length_encode]
  have hid : (h.encode ++ payload).take 4 = BigEndian.encode 4 h.nalId.toNat := by
    simp only [encode, List.append_assoc]
    exact List.take_left' (BigEndian.length_encode _ _)
  have hindex : ((h.encode ++ payload).drop 4).take 2 =
      BigEndian.encode 2 h.chunkIndex.toNat := by
    simp only [encode, List.append_assoc]
    rw [List.drop_left' (BigEndian.length_encode _ _)]
    exact List.take_left' (BigEndian.length_encode _ _)
  have hlast : (h.encode ++ payload).getD 6 0 = if h.isLast then 1 else 0 := by
    have hsplit : h.encode ++ payload =
        (BigEndian.encode 4 h.nalId.toNat ++ BigEndian.encode 2 h.chunkIndex.toNat) ++
          ((if h.isLast then 1 else 0) :: payload) := by
      simp only [encode, List.append_assoc, List.singleton_append]
    rw [hsplit, List.getD_eq_getElem?_getD, List.getElem?_append_right (by simp)]
    simp
  rw [hid, hindex, hlast, BigEndian.decode_encode_of_lt h.nalId.toNat_lt,
    BigEndian.decode_encode_of_lt h.chunkIndex.toNat_lt, UInt32.ofNat_toNat, UInt16.ofNat_toNat]
  obtain ⟨nalId, chunkIndex, isLast⟩ := h
  cases isLast <;> rfl

/-- How many chunks a NAL of this length takes. -/
def chunkCount (len : Nat) : Nat := (len + maxChunkPayload - 1) / maxChunkPayload

/-- The payload of the `i`-th chunk of a NAL. -/
def chunkPayload (nal : Bytes) (i : Nat) : Bytes :=
  (nal.drop (i * maxChunkPayload)).take maxChunkPayload

/-- The `i`-th chunk of a NAL. -/
def chunk (nalId : UInt32) (nal : Bytes) (i : Nat) : Bytes :=
  ChunkHeader.encode
    { nalId, chunkIndex := UInt16.ofNat i, isLast := decide (i + 1 = chunkCount nal.length) } ++
  (nal.drop (i * maxChunkPayload)).take maxChunkPayload

/-- A NAL in datagram-sized chunks, none for an empty one. -/
def chunkNal (nalId : UInt32) (nal : Bytes) : List Bytes :=
  (List.range (chunkCount nal.length)).map (chunk nalId nal)

theorem length_le_chunkCount_mul (len : Nat) : len ≤ chunkCount len * maxChunkPayload := by
  simp only [chunkCount, maxChunkPayload]
  omega

theorem chunkCount_le {len n : Nat} (h : len ≤ n * maxChunkPayload) : chunkCount len ≤ n := by
  simp only [chunkCount, maxChunkPayload] at h ⊢
  omega

theorem chunkCount_pos {nal : Bytes} (h : nal ≠ []) : 0 < chunkCount nal.length := by
  have hlen := List.length_pos_of_ne_nil h
  simp only [chunkCount, maxChunkPayload]
  omega

/-- The first chunks of a NAL carry its first bytes. -/
theorem flatten_take_chunkPayload (nal : Bytes) :
    ∀ k, ((List.range k).map (chunkPayload nal)).flatten = nal.take (k * maxChunkPayload)
  | 0 => by simp
  | k + 1 => by
      rw [List.range_succ, List.map_append, List.flatten_append, flatten_take_chunkPayload nal k,
        List.map_singleton, List.flatten_singleton, Nat.succ_mul, List.take_add, chunkPayload]

/-- The chunks of a NAL carry its bytes. -/
theorem flatten_chunkPayload (nal : Bytes) :
    ((List.range (chunkCount nal.length)).map (chunkPayload nal)).flatten = nal := by
  rw [flatten_take_chunkPayload, List.take_of_length_le (length_le_chunkCount_mul _)]

/-- The header and the payload of the `i`-th chunk. -/
def chunkParts (n : Nal) (i : Nat) : ChunkHeader × Bytes :=
  ({ nalId := n.nalId, chunkIndex := UInt16.ofNat i
     isLast := decide (i + 1 = chunkCount n.nal.length) }, chunkPayload n.nal i)

theorem decode_chunk (n : Nal) (i : Nat) :
    ChunkHeader.decode (chunk n.nalId n.nal i) = some (chunkParts n i) :=
  ChunkHeader.decode_encode _ _

end RoboTele
