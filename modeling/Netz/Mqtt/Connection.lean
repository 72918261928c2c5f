/-
Outgoing packet identifiers of a network connection (`mqtt/runtime.zig`).

A connection numbers the QoS 1 and QoS 2 PUBLISH packets it writes itself and keeps their
identifiers in three bit sets until they are acknowledged; the bit sets are finite sets here.
What the transport does with a packet is an input.
-/
import Mathlib.Data.Finset.Basic
import Netz.Mqtt.Session

namespace Netz.Mqtt

structure Connection where
  nextPacketId : Nat := 1
  outgoingInflight : Nat := 0
  maxOutgoingInflight : Nat := 16
  peerMaximumQos : QoS := .exactlyOnce
  peerRetainAvailable : Bool := true
  outgoingQos1 : Finset Nat := ∅
  outgoingQos2 : Finset Nat := ∅
  outgoingQos2Pubrel : Finset Nat := ∅

/-- How the write of a packet ends. -/
inductive WriteOutcome where
  /-- The packet is not encoded: memory runs out before the write. -/
  | unencoded
  /-- The packet exceeds the peer's Maximum Packet Size. -/
  | tooLarge
  /-- The transport fails before the peer can have the packet. -/
  | failed
  /-- The packet is written, and memory runs out when its topic alias is remembered. -/
  | forgotten
  | sent

namespace Connection

/-- The identifier is in one of the three sets. -/
def uses (connection : Connection) (packetId : Nat) : Bool :=
  decide (packetId ∈ connection.outgoingQos1) || decide (packetId ∈ connection.outgoingQos2) ||
    decide (packetId ∈ connection.outgoingQos2Pubrel)

/-- An identifier is taken for a packet of this quality; QoS 0 is marked unreachable. -/
def take (connection : Connection) (qos : QoS) (packetId : Nat) : Connection :=
  match qos with
  | .atMostOnce => connection
  | .atLeastOnce =>
    { connection with
      outgoingQos1 := insert packetId connection.outgoingQos1
      outgoingInflight := connection.outgoingInflight + 1 }
  | .exactlyOnce =>
    { connection with
      outgoingQos2 := insert packetId connection.outgoingQos2
      outgoingInflight := connection.outgoingInflight + 1 }

/-- The loop of `reserveOutgoingPublish` with so many attempts left. -/
def reserveLoop (qos : QoS) : Nat → Connection → Except Error Nat × Connection
  | 0, connection => (.error .inflightFull, connection)
  | attempts + 1, connection =>
    let packetId := connection.nextPacketId
    let connection := { connection with nextPacketId := Session.followingPacketId packetId }
    if connection.uses packetId then reserveLoop qos attempts connection
    else (.ok packetId, connection.take qos packetId)

def reserveOutgoingPublish (connection : Connection) (qos : QoS) : Except Error Nat × Connection :=
  if connection.maxOutgoingInflight ≤ connection.outgoingInflight then
    (.error .inflightFull, connection)
  else reserveLoop qos maxU16 connection

def releaseOutgoingPublish (connection : Connection) (packetId : Nat) (qos : QoS) : Connection :=
  match qos with
  | .atMostOnce => connection
  | .atLeastOnce =>
    if packetId ∈ connection.outgoingQos1 then
      { connection with
        outgoingQos1 := connection.outgoingQos1.erase packetId
        outgoingInflight := connection.outgoingInflight - 1 }
    else connection
  | .exactlyOnce =>
    if packetId ∈ connection.outgoingQos2Pubrel then
      { connection with
        outgoingQos2Pubrel := connection.outgoingQos2Pubrel.erase packetId
        outgoingInflight := connection.outgoingInflight - 1 }
    else if packetId ∈ connection.outgoingQos2 then
      { connection with
        outgoingQos2 := connection.outgoingQos2.erase packetId
        outgoingInflight := connection.outgoingInflight - 1 }
    else connection

/-- The part of `writePublish` behind the reservation. -/
def writeReserved (connection : Connection) (packetId : Nat) (qos : QoS) (outcome : WriteOutcome) :
    Except Error (Option Nat) × Connection :=
  match outcome with
  | .sent => (.ok (some packetId), connection)
  | .unencoded | .forgotten => (.error .outOfMemory, connection.releaseOutgoingPublish packetId qos)
  | .tooLarge => (.error .outgoingPacketTooLarge, connection.releaseOutgoingPublish packetId qos)
  | .failed => (.error .transportFailed, connection.releaseOutgoingPublish packetId qos)

def writePublish (connection : Connection) (qos : QoS) (retain : Bool) (outcome : WriteOutcome) :
    Except Error (Option Nat) × Connection :=
  if connection.peerMaximumQos.level < qos.level then (.error .invalidQoS, connection)
  else if retain && !connection.peerRetainAvailable then (.error .invalidProperty, connection)
  else if qos = .atMostOnce then
    match outcome with
    | .sent => (.ok none, connection)
    | .unencoded | .forgotten => (.error .outOfMemory, connection)
    | .tooLarge => (.error .outgoingPacketTooLarge, connection)
    | .failed => (.error .transportFailed, connection)
  else
    match connection.reserveOutgoingPublish qos with
    | (.error e, connection) => (.error e, connection)
    | (.ok packetId, connection) => connection.writeReserved packetId qos outcome

/-! ### Acknowledgements -/

def applyPubAck (connection : Connection) (packetId reasonCode : Nat) :
    Except Error Unit × Connection :=
  if packetId ∉ connection.outgoingQos1 then (.error .unexpectedPacket, connection)
  else
    let released := connection.releaseOutgoingPublish packetId .atLeastOnce
    if 0x80 ≤ reasonCode then (.error .publishRefused, released) else (.ok (), released)

/-- `written` says whether the PUBREL reaches the transport. -/
def applyPubRec (connection : Connection) (packetId reasonCode : Nat) (written : Bool) :
    Except Error Unit × Connection :=
  if packetId ∉ connection.outgoingQos2 then (.error .unexpectedPacket, connection)
  else if 0x80 ≤ reasonCode then
    (.error .publishRefused, connection.releaseOutgoingPublish packetId .exactlyOnce)
  else if written = false then (.error .transportFailed, connection)
  else
    (.ok (),
      { connection with
        outgoingQos2 := connection.outgoingQos2.erase packetId
        outgoingQos2Pubrel := insert packetId connection.outgoingQos2Pubrel })

def applyPubComp (connection : Connection) (packetId reasonCode : Nat) :
    Except Error Unit × Connection :=
  if packetId ∉ connection.outgoingQos2Pubrel then (.error .unexpectedPacket, connection)
  else
    let released := connection.releaseOutgoingPublish packetId .exactlyOnce
    if 0x80 ≤ reasonCode then (.error .publishRefused, released) else (.ok (), released)

/-- The three of them, by packet type. -/
def applyAck (connection : Connection) (packetType : PacketType) (packetId reasonCode : Nat)
    (written : Bool) : Except Error Unit × Connection :=
  match packetType with
  | .puback => connection.applyPubAck packetId reasonCode
  | .pubrec => connection.applyPubRec packetId reasonCode written
  | .pubcomp => connection.applyPubComp packetId reasonCode
  | _ => (.error .unexpectedPacket, connection)

end Connection

end Netz.Mqtt
