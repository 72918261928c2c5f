/-
Session packets on the wire (`mqtt/session/mod.zig`, `mqtt/broker/session_route.zig`).

A broker with a Maximum QoS lowers the quality of a message when its packet is encoded; the
session has chosen what the message waits for before that.
-/
import Netz.Mqtt.ControlPacket
import Netz.Mqtt.Session

namespace Netz.Mqtt

namespace PublishTransmission

/-- The properties that `write` sends: the expiry interval is what is left of it. -/
def sentProperties (transmission : PublishTransmission) : List Property :=
  transmission.properties.filterMap fun property =>
    match property with
    | .fourByte .messageExpiryInterval _ =>
      transmission.messageExpiryInterval.map fun remaining =>
        .fourByte .messageExpiryInterval (UInt32.ofNat remaining)
    | property => some property

def packet (transmission : PublishTransmission) (protocol : ProtocolVersion) : Packet.Publish where
  dup := transmission.dup
  qos := transmission.qos
  retain := transmission.retain
  topic := transmission.topic
  packetId := some (UInt16.ofNat transmission.packetId)
  properties := match protocol with
    | .v5 => transmission.sentProperties
    | .v311 => []
  payload := transmission.payload

def write (transmission : PublishTransmission) (protocol : ProtocolVersion) : Except Error Bytes :=
  Packet.Publish.write protocol (transmission.packet protocol)

end PublishTransmission

/-- `PubRelTransmission.write`. -/
def writePubrel (packetId : Nat) (protocol : ProtocolVersion) : Except Error Bytes :=
  Packet.AckPacket.write protocol { packetType := .pubrel, packetId := UInt16.ofNat packetId }

/-- `encodeTransmission`. -/
def encodeTransmission (protocol : ProtocolVersion) (transmission : Transmission)
    (maximumQos : QoS) : Except Error Bytes :=
  match transmission with
  | .publish publish =>
    let capped := { publish with qos := publish.qos.min maximumQos }
    capped.write protocol
  | .pubrel packetId => writePubrel packetId protocol

end Netz.Mqtt
