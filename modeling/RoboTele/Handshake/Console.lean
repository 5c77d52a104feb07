import RoboTele.Core.Safety
import RoboTele.OperatorConsole.Client
import RoboTele.OperatorConsole.SessionHandler
import RoboTele.OperatorConsole.SessionCache

/-!
# The console's side of the handshake

A console writes its HELLO when it finds the connection established, reads the robot's HELLO on
stream 0 and SESSION_DESCRIBE on stream 1, and answers with SESSION_ACCEPT.  It keeps what it
reads of stream 1 until the robot's FIN, and takes it for a description then, if it has the
HELLO by then.

The rest of the console is a `Client`, whose phase the handshake moves.
-/

namespace RoboTele

/-- What the operator starts the console with. -/
structure ConsoleArgs where
  client : ClientArgs
  taskClass : TaskClass
  /-- Whether it has a forwarder. -/
  forwarding : Bool
  /-- The profile cache as the console finds it. -/
  profiles : List Char

/-- The console, as far as session setup goes. -/
structure Console where
  client : Client
  taskClass : TaskClass
  forwarding : Bool
  profiles : List Char
  topicsNegotiated : Bool
  /-- Stream 1 up to here. -/
  describeBuf : Bytes
  sessionInfo : Option SessionDescribeInfo
  /-- The sensors that it has receivers for. -/
  sensors : List SensorDescriptor

namespace Console

/-- A console that has heard nothing of a robot. -/
def new (args : ConsoleArgs) : Console :=
  { client := .new args.client
    taskClass := args.taskClass
    forwarding := args.forwarding
    profiles := args.profiles
    topicsNegotiated := false
    describeBuf := []
    sessionInfo := none
    sensors := [] }

/-- What the console says of itself. -/
def localHelloCapabilities (c : Console) : HelloCapabilities :=
  { protocolVersion := { major := 1, minor := 0 }
    capabilityBitmask := if c.forwarding then topicForwarding else 0
    supportedTaskClasses :=
      match c.taskClass with
      | .b => 1
      | .c => 2
      | .d => 4
      | .e => 8
    supportedQuantizationTiers := 2
    maxControlRateHz := 50 }

/-- One read of stream 0. -/
def onHello (fb : FlatBuffers) (c : Console) (data : Bytes) : Console :=
  if c.client.phase = .awaitingHello then
    match negotiate c.localHelloCapabilities (decodeHello fb data) with
    | .ok negotiated =>
        { c with
          client := c.client.step .helloNegotiated
          topicsNegotiated := negotiated.capabilityBitmask &&& topicForwarding != 0 }
    -- HELLO_INCOMPATIBLE closes the connection, which the loop sees later.
    | .error _ => c
  else c

/-- A whole description, and the SESSION_ACCEPT that answers it. -/
def onSessionDescribe (fb : SessionBuffers) (c : Console) (describe : Bytes)
    (disk : SessionCache.DiskOutcome) : Console × Option Bytes :=
  if c.client.phase = .awaitingSessionDescribe then
    match decodeSessionDescribe fb describe with
    | .ok info =>
        let (cached, profiles) :=
          SessionCache.checkAndRecordProfile c.profiles disk info.robotId info.profileHash
        ({ c with
            client := c.client.step .sessionDescribed
            profiles
            sessionInfo := some info
            sensors := info.sensors },
          some (encodeSessionAcceptFull fb info cached))
    | .error _ => (c, none)
  else (c, none)

/-- One read of stream 1. -/
def onDescribeBytes (fb : SessionBuffers) (c : Console) (data : Bytes) (fin : Bool)
    (disk : SessionCache.DiskOutcome) : Console × Option Bytes :=
  let buf := c.describeBuf ++ data
  if fin then { c with describeBuf := [] }.onSessionDescribe fb buf disk
  else ({ c with describeBuf := buf }, none)

/-! ## What one read does -/

theorem topicsNegotiated_eq {a b : Bool} :
    ((if a then topicForwarding else 0) &&& (if b then topicForwarding else 0) &&&
      topicForwarding != 0) = (a && b) := by
  cases a <;> cases b <;> decide

@[simp] theorem protocolVersion_localHelloCapabilities (c : Console) :
    c.localHelloCapabilities.protocolVersion = ⟨1, 0⟩ := rfl

@[simp] theorem capabilityBitmask_localHelloCapabilities (c : Console) :
    c.localHelloCapabilities.capabilityBitmask = if c.forwarding then topicForwarding else 0 := rfl

/-- A HELLO that is not awaited is ignored. -/
theorem onHello_of_ne (fb : FlatBuffers) {c : Console} (h : c.client.phase ≠ .awaitingHello)
    (data : Bytes) : c.onHello fb data = c :=
  if_neg h

/-- So is a SESSION_DESCRIBE. -/
theorem onSessionDescribe_of_ne (fb : SessionBuffers) {c : Console}
    (h : c.client.phase ≠ .awaitingSessionDescribe) (describe : Bytes)
    (disk : SessionCache.DiskOutcome) : c.onSessionDescribe fb describe disk = (c, none) :=
  if_neg h

end Console

/-- The version in a HELLO is read as it was written. -/
theorem ProtocolVersion.decode_encode (v : ProtocolVersion) : decode v.encode = v := by
  obtain ⟨major, minor⟩ := v
  rw [ProtocolVersion.encode, ProtocolVersion.decode, ProtocolVersion.mk.injEq]
  constructor
  · apply UInt8.toBitVec_inj.mp
    ext i hi
    have hlow : i < 16 := by omega
    have hhigh : 8 + i < 16 := by omega
    simp [hlow, hhigh, BitVec.getLsbD_eq_getElem hi]
  · have hones {i : Nat} (hi : i < 8) : (255#8)[i] = true := BitVec.getElem_allOnes i hi
    apply UInt8.toBitVec_inj.mp
    ext i hi
    simp [hones hi]

/-- `get_root` starts at the front of a buffer, whatever comes after the table. -/
def FlatBuffers.ReadsFront (fb : FlatBuffers) : Prop :=
  ∀ t rest, fb.helloRoot (fb.finishHello t ++ rest) = t

/-- The fixed layout reads a message at the front of a buffer. -/
theorem FlatBuffers.fixedLayout_readsFront : fixedLayout.ReadsFront := by
  intro t rest
  have hversion : t.protocolVersion.toNat < 256 ^ 2 := t.protocolVersion.toNat_lt
  have hcapabilities : t.capabilityBitmask.toNat < 256 ^ 8 := t.capabilityBitmask.toNat_lt
  have hclasses : t.supportedTaskClasses.toNat < 256 ^ 1 := t.supportedTaskClasses.toNat_lt
  have htiers : t.supportedQuantizationTiers.toNat < 256 ^ 1 :=
    t.supportedQuantizationTiers.toNat_lt
  have hrate : t.maxControlRateHz.toNat < 256 ^ 2 := t.maxControlRateHz.toNat_lt
  simp [fixedLayout, natAt_skip, natAt_head _ hversion, natAt_head _ hcapabilities,
    natAt_head _ hclasses, natAt_head _ htiers, natAt_head _ hrate]

/-- A HELLO is read back, whatever follows it. -/
theorem decodeHello_encodeHello {fb : FlatBuffers} (hfront : fb.ReadsFront)
    (caps : HelloCapabilities) (rest : Bytes) :
    decodeHello fb (encodeHello fb caps ++ rest) = caps := by
  rw [decodeHello, encodeHello, hfront]
  simp only [ProtocolVersion.decode_encode]

end RoboTele
