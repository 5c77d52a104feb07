import RoboTele.Zenoh.ForwardEnd

/-!
# Two hosts that forward topics to each other

Each host has a Zenoh domain with its nodes and a forwarder.  A forwarder's subscribers get what
the other sessions of its domain put, and not what it puts itself.  The two forwarders have a
session with datagrams, which may be lost and overtake each other, and a stream for each lane.

The domains may also be joined.  Then each forwarder also hears what the other one puts, and the
operator's forwarder pauses while it sees that.
-/

namespace RoboTele

open Queues Runs

/-- The two ends. -/
inductive Host where
  | robot
  | operator
deriving DecidableEq

/-- The peer. -/
def Host.other : Host → Host
  | robot => operator
  | operator => robot

/-- A call of a rule's subscriber that is due. -/
structure SubscriberCall where
  rule : ForwardRule
  kind : SampleKind
  sample : ZenohSample
deriving DecidableEq

/-- Two forwarders, what is on the way between them, and what each has heard. -/
structure ForwardPair where
  ends : Host → ForwardEnd ReliableLane
  /-- The calls come in any order. -/
  due : Host → List SubscriberCall
  /-- The datagrams from a host that have not arrived. -/
  datagrams : Host → List Bytes
  /-- How many bytes of a host's lane have arrived. -/
  arrived : Host → ReliableLane → Nat
  /-- The puts of other sessions on a host's domain. -/
  heard : Host → List ZenohSample

namespace ForwardPair

section

variable (zenoh : KeyExprs) (config : Host → ForwardConfig)

def new (forwarders : Host → Forwarder) : ForwardPair where
  ends host := .new (config host) (forwarders host)
  due _ := []
  datagrams _ := []
  arrived _ _ := 0
  heard _ := []

/-- Something happens at one end. -/
def act (p : ForwardPair) (host : Host) (event : ForwardEnd.Event ReliableLane) : ForwardPair :=
  { p with
    ends := Function.update p.ends host ((p.ends host).step zenoh (config host) event) }

/-- Another session of the host's domain puts or deletes a sample. -/
def hear (p : ForwardPair) (host : Host) (kind : SampleKind) (z : ZenohSample) : ForwardPair :=
  let rules := (config host).forward.filter fun rule => zenoh.intersects rule.keyExpr z.key
  { p with
    due := Function.update p.due host (p.due host ++ rules.map (⟨·, kind, z⟩))
    heard := Function.update p.heard host
      (if kind = .put then p.heard host ++ [z] else p.heard host) }

/-- `joined` says whether the domains are joined at that moment. -/
inductive Event where
  /-- A node of the host's domain puts or deletes a sample. -/
  | publish (host : Host) (joined : Bool) (kind : SampleKind) (z : ZenohSample)
  | subscriber (host : Host) (i : Nat)
  | onForward (host : Host)
  | popDatagram (host : Host) (maxLen : Nat)
  | consumeReliable (host : Host) (lane : ReliableLane) (n : Nat)
  | datagramLost (host : Host) (i : Nat)
  | datagramArrives (host : Host) (i : Nat)
  | bytesArrive (host : Host) (lane : ReliableLane) (n : Nat)
  | putNext (host : Host) (joined : Bool)
  | negotiated (host : Host) (topics : Bool)
  | operate (host : Host)
  /-- The operator's watcher looks for the robot. -/
  | watch (visible : Bool)
  | reconnect

/-- A node publishes, where both domains hear it if they are joined. -/
def publish (p : ForwardPair) (host : Host) (joined : Bool) (kind : SampleKind)
    (z : ZenohSample) : ForwardPair :=
  let p := p.hear zenoh config host kind z
  if joined then p.hear zenoh config host.other kind z else p

/-- A subscriber of a forwarder is called. -/
def subscriber (p : ForwardPair) (host : Host) (i : Nat) : ForwardPair :=
  match (p.due host)[i]? with
  | none => p
  | some call =>
      { p with due := Function.update p.due host ((p.due host).eraseIdx i) }.act zenoh config host
        (.sample call.rule call.kind call.sample)

/-- A host sends a datagram. -/
def popDatagram (p : ForwardPair) (host : Host) (maxLen : Nat) : ForwardPair :=
  let popped := ((p.ends host).topics.outbox.popDatagram maxLen).2
  { p with
    datagrams := Function.update p.datagrams host (p.datagrams host ++ popped.toList) }.act zenoh
    config host (.popDatagram maxLen)

/-- A datagram is lost on the way. -/
def datagramLost (p : ForwardPair) (host : Host) (i : Nat) : ForwardPair :=
  { p with datagrams := Function.update p.datagrams host ((p.datagrams host).eraseIdx i) }

/-- A datagram arrives, in any order. -/
def datagramArrives (p : ForwardPair) (host : Host) (i : Nat) : ForwardPair :=
  match (p.datagrams host)[i]? with
  | none => p
  | some data => (p.datagramLost host i).act zenoh config host.other (.datagram data)

/-- The next bytes of the host's lane that the transport took. -/
def nextBytes (p : ForwardPair) (host : Host) (lane : ReliableLane) (n : Nat) : Bytes :=
  (((p.ends host).topics.taken lane).drop (p.arrived host lane)).take n

/-- Bytes of a lane arrive, in their order. -/
def bytesArrive (p : ForwardPair) (host : Host) (lane : ReliableLane) (n : Nat) : ForwardPair :=
  let data := p.nextBytes host lane n
  { p with
    arrived := Function.update p.arrived host
      (Function.update (p.arrived host) lane (p.arrived host lane + data.length)) }.act zenoh
    config host.other (.streamData lane data false)

/-- A host's republishing task puts a sample. -/
def putNext (p : ForwardPair) (host : Host) (joined : Bool) : ForwardPair :=
  match (p.ends host).forwarder.putNext with
  | none => p
  | some (z, _) =>
      let p := p.act zenoh config host .putNext
      if joined then p.hear zenoh config host.other .put z else p

/-- A new connection.  What was on the way on the old one does not arrive. -/
def reconnect (p : ForwardPair) : ForwardPair :=
  { p with
    ends host := (p.ends host).reconnect (config host)
    datagrams _ := []
    arrived _ _ := 0 }

/-- What happens on the two hosts and between them. -/
def step (p : ForwardPair) : Event → ForwardPair
  | .publish host joined kind z => p.publish zenoh config host joined kind z
  | .subscriber host i => p.subscriber zenoh config host i
  | .onForward host => p.act zenoh config host .onForward
  | .popDatagram host maxLen => p.popDatagram zenoh config host maxLen
  | .consumeReliable host lane n => p.act zenoh config host (.consumeReliable lane n)
  | .datagramLost host i => p.datagramLost host i
  | .datagramArrives host i => p.datagramArrives zenoh config host i
  | .bytesArrive host lane n => p.bytesArrive zenoh config host lane n
  | .putNext host joined => p.putNext zenoh config host joined
  | .negotiated host topics => p.act zenoh config host (.negotiated topics)
  | .operate host => p.act zenoh config host .operate
  | .watch visible => p.act zenoh config .operator (.pause visible)
  | .reconnect => p.reconnect config

end

end ForwardPair

end RoboTele
