import RoboTele.Core.Datagram
import Mathlib.Algebra.Order.Field.Rat

/-!
# Channel C messages

The reliable control messages: HELLO and its negotiation, one-shot action
triggers, camera controls, and the dedup that applies each trigger or control
at most once by its own sequence number.

`FlatBuffers` stands for the FlatBuffers library and the accessors it generates
from the schema.  `get_root` never fails, so reading a buffer is a total
function to the fields of a table.
-/

namespace RoboTele

/-! ## HELLO -/

/-- Two hosts talk to each other if their major versions are the same. -/
structure ProtocolVersion where
  major : UInt8
  minor : UInt8
deriving DecidableEq

/-- Major and minor version in one `u16`. -/
def ProtocolVersion.encode (v : ProtocolVersion) : UInt16 :=
  v.major.toUInt16 <<< 8 ||| v.minor.toUInt16

/-- Major and minor of a version on the wire. -/
def ProtocolVersion.decode (v : UInt16) : ProtocolVersion :=
  { major := (v >>> 8).toUInt8, minor := (v &&& 0xFF).toUInt8 }

/-- The capability bit of topic forwarding. -/
def topicForwarding : UInt64 := (1 : UInt64) <<< 4

/-- What a host says of itself in HELLO. -/
structure HelloCapabilities where
  protocolVersion : ProtocolVersion
  capabilityBitmask : UInt64
  supportedTaskClasses : UInt8
  supportedQuantizationTiers : UInt8
  maxControlRateHz : UInt16

/-- What both hosts can do. -/
structure NegotiatedSession where
  version : ProtocolVersion
  capabilityBitmask : UInt64
  taskClasses : UInt8
  quantizationTiers : UInt8
  maxControlRateHz : UInt16

/-- The two major versions, which differ. -/
structure IncompatibleVersion where
  localMajor : UInt8
  peerMajor : UInt8

/-- The common minor version under a shared major, and the intersection of
both sides' sets. -/
def negotiate (ours peer : HelloCapabilities) : Except IncompatibleVersion NegotiatedSession :=
  if ours.protocolVersion.major ≠ peer.protocolVersion.major then
    .error { localMajor := ours.protocolVersion.major, peerMajor := peer.protocolVersion.major }
  else
    .ok
      { version :=
          { major := ours.protocolVersion.major
            minor := min ours.protocolVersion.minor peer.protocolVersion.minor }
        capabilityBitmask := ours.capabilityBitmask &&& peer.capabilityBitmask
        taskClasses := ours.supportedTaskClasses &&& peer.supportedTaskClasses
        quantizationTiers := ours.supportedQuantizationTiers &&& peer.supportedQuantizationTiers
        maxControlRateHz := min ours.maxControlRateHz peer.maxControlRateHz }

/-! ## Triggers and camera controls -/

/-- The stream of the action triggers. -/
def actionTriggerStreamId : Nat := 4

/-- The stream of the camera controls. -/
def cameraControlStreamId : Nat := 8

/-- A preset action, numbered so that a repetition is not fired again. -/
structure ActionTrigger where
  actionId : UInt8
  triggerSeq : UInt64
deriving DecidableEq

/-- Settings of the camera, numbered so that older ones are dropped. -/
structure CameraControl where
  brightness : ℚ
  contrast : ℚ
  ev : ℚ
  shutterUs : UInt32
  controlSeq : UInt64

/-- The highest sequence number applied so far. -/
structure SeqDedup where
  lastApplied : Option UInt64
deriving DecidableEq

/-- Accepts a sequence number above every one applied before, and records it. -/
def SeqDedup.accept (d : SeqDedup) (seq : UInt64) : SeqDedup × Bool :=
  let isNew := match d.lastApplied with
    | some last => decide (last < seq)
    | none => true
  (if isNew then { lastApplied := some seq } else d, isNew)

theorem SeqDedup.accept_of_lt {d : SeqDedup} {last seq : UInt64} (h : d.lastApplied = some last)
    (hlt : last < seq) : d.accept seq = ({ lastApplied := some seq }, true) := by
  simp [SeqDedup.accept, h, hlt]

theorem SeqDedup.accept_of_le {d : SeqDedup} {last seq : UInt64} (h : d.lastApplied = some last)
    (hle : seq ≤ last) : d.accept seq = (d, false) := by
  simp [SeqDedup.accept, h, UInt64.not_lt.mpr hle]

/-- Action triggers that were seen. -/
abbrev TriggerDedup := SeqDedup

/-- Camera controls that were seen. -/
abbrev CameraControlDedup := SeqDedup

/-- A trigger fires if it is newer than the last one that fired. -/
def TriggerDedup.accept (d : TriggerDedup) (trigger : ActionTrigger) : TriggerDedup × Bool :=
  SeqDedup.accept d trigger.triggerSeq

/-- Settings count if they are newer than the last ones that did. -/
def CameraControlDedup.accept (d : CameraControlDedup) (control : CameraControl) :
    CameraControlDedup × Bool :=
  SeqDedup.accept d control.controlSeq

/-! ## FlatBuffers tables -/

/-- The fields of the HELLO table. -/
structure HelloTable where
  protocolVersion : UInt16
  capabilityBitmask : UInt64
  supportedTaskClasses : UInt8
  supportedQuantizationTiers : UInt8
  maxControlRateHz : UInt16

/-- The fields of the SESSION_ACCEPT table.  A vector that is not there is `none`. -/
structure SessionAcceptTable where
  profileHash : UInt64
  cached : Bool
  selectedRegions : Option Bytes
  selectedCameras : Option Bytes
  selectedSensors : Option Bytes

/-- The fields of a Channel B frame's table. -/
structure ChannelBTable where
  timestamp : UInt64
  seq : UInt64
  tickId : UInt32
  category : UInt8
  regionId : UInt8
  fields : Option Bytes

/-- What `get_root` and the generated accessors read off a buffer, and what the
builder writes. -/
structure FlatBuffers where
  helloRoot : Bytes → HelloTable
  sessionAcceptRoot : Bytes → SessionAcceptTable
  actionTriggerRoot : Bytes → ActionTrigger
  cameraControlRoot : Bytes → CameraControl
  channelBRoot : Bytes → ChannelBTable
  finishHello : HelloTable → Bytes
  finishChannelB : ChannelBTable → Bytes

/-! ## Decoding -/

/-- HELLO as its sender writes it. -/
def encodeHello (fb : FlatBuffers) (caps : HelloCapabilities) : Bytes :=
  fb.finishHello
    { protocolVersion := caps.protocolVersion.encode
      capabilityBitmask := caps.capabilityBitmask
      supportedTaskClasses := caps.supportedTaskClasses
      supportedQuantizationTiers := caps.supportedQuantizationTiers
      maxControlRateHz := caps.maxControlRateHz }

/-- HELLO as its receiver reads it. -/
def decodeHello (fb : FlatBuffers) (buf : Bytes) : HelloCapabilities :=
  let hello := fb.helloRoot buf
  { protocolVersion := .decode hello.protocolVersion
    capabilityBitmask := hello.capabilityBitmask
    supportedTaskClasses := hello.supportedTaskClasses
    supportedQuantizationTiers := hello.supportedQuantizationTiers
    maxControlRateHz := hello.maxControlRateHz }

/-- SESSION_ACCEPT as it is read.  A vector that is not there is empty. -/
structure SessionAcceptInfo where
  profileHash : UInt64
  cached : Bool
  selectedRegions : Bytes
  selectedCameras : Bytes
  selectedSensors : Bytes

/-- SESSION_ACCEPT as the robot reads it. -/
def decodeSessionAccept (fb : FlatBuffers) (buf : Bytes) : SessionAcceptInfo :=
  let accept := fb.sessionAcceptRoot buf
  { profileHash := accept.profileHash
    cached := accept.cached
    selectedRegions := accept.selectedRegions.getD []
    selectedCameras := accept.selectedCameras.getD []
    selectedSensors := accept.selectedSensors.getD [] }

/-- An action trigger as it is read. -/
def decodeActionTrigger (fb : FlatBuffers) (buf : Bytes) : ActionTrigger := fb.actionTriggerRoot buf

/-- A camera control as it is read. -/
def decodeCameraControl (fb : FlatBuffers) (buf : Bytes) : CameraControl := fb.cameraControlRoot buf

/-! ## A codec -/

namespace FlatBuffers

/-- The integer in the `w` bytes from `i` on. -/
def natAt (b : Bytes) (i w : Nat) : Nat := BigEndian.decode ((b.drop i).take w)

/-- Tables as fixed-width integers in field order, the fields vector last. -/
def fixedLayout : FlatBuffers where
  helloRoot b :=
    { protocolVersion := UInt16.ofNat (natAt b 0 2)
      capabilityBitmask := UInt64.ofNat (natAt b 2 8)
      supportedTaskClasses := UInt8.ofNat (natAt b 10 1)
      supportedQuantizationTiers := UInt8.ofNat (natAt b 11 1)
      maxControlRateHz := UInt16.ofNat (natAt b 12 2) }
  sessionAcceptRoot b :=
    { profileHash := UInt64.ofNat (natAt b 0 8)
      cached := natAt b 8 1 != 0
      selectedRegions := none
      selectedCameras := none
      selectedSensors := none }
  actionTriggerRoot b :=
    { actionId := UInt8.ofNat (natAt b 0 1), triggerSeq := UInt64.ofNat (natAt b 1 8) }
  cameraControlRoot b :=
    { brightness := 0, contrast := 0, ev := 0, shutterUs := 0
      controlSeq := UInt64.ofNat (natAt b 0 8) }
  channelBRoot b :=
    { timestamp := UInt64.ofNat (natAt b 0 8)
      seq := UInt64.ofNat (natAt b 8 8)
      tickId := UInt32.ofNat (natAt b 16 4)
      category := UInt8.ofNat (natAt b 20 1)
      regionId := UInt8.ofNat (natAt b 21 1)
      fields := if natAt b 22 1 = 0 then none else some (b.drop 23) }
  finishHello t :=
    BigEndian.encode 2 t.protocolVersion.toNat ++ BigEndian.encode 8 t.capabilityBitmask.toNat ++
      BigEndian.encode 1 t.supportedTaskClasses.toNat ++
      BigEndian.encode 1 t.supportedQuantizationTiers.toNat ++
      BigEndian.encode 2 t.maxControlRateHz.toNat
  finishChannelB t :=
    BigEndian.encode 8 t.timestamp.toNat ++ BigEndian.encode 8 t.seq.toNat ++
      BigEndian.encode 4 t.tickId.toNat ++ BigEndian.encode 1 t.category.toNat ++
      BigEndian.encode 1 t.regionId.toNat ++
      match t.fields with
      | none => BigEndian.encode 1 0
      | some v => BigEndian.encode 1 1 ++ v

/-- The first integer is read back. -/
theorem natAt_head (post : Bytes) {w n : Nat} (hn : n < 256 ^ w) :
    natAt (BigEndian.encode w n ++ post) 0 w = n := by
  rw [natAt, List.drop_zero, List.take_append_of_le_length (by simp),
    List.take_of_length_le (by simp), BigEndian.decode_encode_of_lt hn]

/-- Reading past the first integer. -/
theorem natAt_skip (post : Bytes) {w n i v : Nat} (h : w ≤ i) :
    natAt (BigEndian.encode w n ++ post) i v = natAt post (i - w) v := by
  rw [natAt, natAt, List.drop_append, List.drop_eq_nil_of_le (by simpa using h), List.nil_append,
    BigEndian.length_encode]

end FlatBuffers

end RoboTele
