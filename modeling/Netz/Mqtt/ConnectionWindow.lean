/-
The two PUBLISH windows of a network connection (`mqtt/runtime.zig`).

Beside the PUBLISH packets it has sent, a connection counts those it has received and not yet
answered, in two bit sets more.  A `WindowCall` is a call that may move one of the counters.
-/
import Netz.Mqtt.Connection

namespace Netz.Mqtt

/-- The receiving half of a connection. -/
structure IncomingWindow where
  incomingInflight : Nat := 0
  maxIncomingInflight : Nat := 16
  incomingQos1 : Finset Nat := ∅
  incomingQos2 : Finset Nat := ∅

/-- The refusals of `recordIncomingPublish`. -/
inductive IncomingError where
  | invalidPacketIdentifier
  | receiveMaximumExceeded

namespace IncomingWindow

/-- A retransmission is in its set already and does not count again. -/
def recordIncomingPublish (window : IncomingWindow) (qos : QoS) (packetId : Option Nat) :
    Except IncomingError Unit × IncomingWindow :=
  match packetId, qos with
  | none, _ | some _, .atMostOnce => (.ok (), window)
  | some packetId, .atLeastOnce =>
    if packetId ∈ window.incomingQos2 then (.error .invalidPacketIdentifier, window)
    else if packetId ∈ window.incomingQos1 then (.ok (), window)
    else if window.maxIncomingInflight ≤ window.incomingInflight then
      (.error .receiveMaximumExceeded, window)
    else
      (.ok (),
        { window with
          incomingQos1 := insert packetId window.incomingQos1
          incomingInflight := window.incomingInflight + 1 })
  | some packetId, .exactlyOnce =>
    if packetId ∈ window.incomingQos1 then (.error .invalidPacketIdentifier, window)
    else if packetId ∈ window.incomingQos2 then (.ok (), window)
    else if window.maxIncomingInflight ≤ window.incomingInflight then
      (.error .receiveMaximumExceeded, window)
    else
      (.ok (),
        { window with
          incomingQos2 := insert packetId window.incomingQos2
          incomingInflight := window.incomingInflight + 1 })

def completeIncomingPublish (window : IncomingWindow) (packetType : PacketType) (packetId : Nat) :
    IncomingWindow :=
  match packetType with
  | .puback =>
    if packetId ∈ window.incomingQos1 then
      { window with
        incomingQos1 := window.incomingQos1.erase packetId
        incomingInflight := window.incomingInflight - 1 }
    else window
  | .pubcomp =>
    if packetId ∈ window.incomingQos2 then
      { window with
        incomingQos2 := window.incomingQos2.erase packetId
        incomingInflight := window.incomingInflight - 1 }
    else window
  | _ => window

def completeIncomingPubRec (window : IncomingWindow) (packetId reasonCode : Nat) : IncomingWindow :=
  if 0x80 ≤ reasonCode then window.completeIncomingPublish .pubcomp packetId else window

end IncomingWindow

structure ConnectionWindows where
  outgoing : Connection := {}
  incoming : IncomingWindow := {}

inductive WindowCall where
  | reserve (qos : QoS)
  | release (packetId : Nat) (qos : QoS)
  | publish (qos : QoS) (retain : Bool) (outcome : WriteOutcome)
  | ack (packetType : PacketType) (packetId reasonCode : Nat) (written : Bool)
  | record (qos : QoS) (packetId : Option Nat)
  | complete (packetType : PacketType) (packetId : Nat)
  | completePubRec (packetId reasonCode : Nat)

namespace ConnectionWindows

/-- A new connection, with the maxima it has negotiated. -/
def start (maxOutgoing maxIncoming : UInt16) : ConnectionWindows where
  outgoing := { maxOutgoingInflight := maxOutgoing.toNat }
  incoming := { maxIncomingInflight := maxIncoming.toNat }

def step (windows : ConnectionWindows) : WindowCall → ConnectionWindows
  | .reserve qos => { windows with outgoing := (windows.outgoing.reserveOutgoingPublish qos).2 }
  | .release packetId qos =>
    { windows with outgoing := windows.outgoing.releaseOutgoingPublish packetId qos }
  | .publish qos retain outcome =>
    { windows with outgoing := (windows.outgoing.writePublish qos retain outcome).2 }
  | .ack packetType packetId reasonCode written =>
    { windows with
      outgoing := (windows.outgoing.applyAck packetType packetId reasonCode written).2 }
  | .record qos packetId =>
    { windows with incoming := (windows.incoming.recordIncomingPublish qos packetId).2 }
  | .complete packetType packetId =>
    { windows with incoming := windows.incoming.completeIncomingPublish packetType packetId }
  | .completePubRec packetId reasonCode =>
    { windows with incoming := windows.incoming.completeIncomingPubRec packetId reasonCode }

def run (windows : ConnectionWindows) (calls : List WindowCall) : ConnectionWindows :=
  calls.foldl step windows

end ConnectionWindows

end Netz.Mqtt
