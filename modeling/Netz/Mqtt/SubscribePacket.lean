/-
SUBSCRIBE, UNSUBSCRIBE and their acknowledgements, and all control packets together
(`mqtt/mod.zig`).
-/
import Netz.Mqtt.ControlPacket

namespace Netz.Mqtt.Packet

open Lib Cursor

/-! ### SUBSCRIBE -/

/-- The checks on an options byte; a wider value has the reserved bits set. -/
def validateSubscriptionOptions (protocol : ProtocolVersion) (options : Nat) :
    Except Error Unit := do
  failIf (options / 64 != 0) .invalidSubscription
  failIf (options % 4 == 3) .invalidQoS
  match protocol with
  | .v311 => failIf (options / 4 != 0) .invalidSubscription
  | .v5 => failIf (options / 16 % 4 == 3) .invalidSubscription

def validateSharedSubscriptionOptions (protocol : ProtocolVersion) (topicFilter : Bytes)
    (options : Nat) : Except Error Unit :=
  failIf (protocol == .v5 && options.testBit 2 && sharePrefix.isPrefixOf topicFilter)
    .invalidSubscription

def subscriptionOptions (subscription : Subscription) : Nat :=
  subscription.qos.level + Connect.bit subscription.noLocal 0x04
    + Connect.bit subscription.retainAsPublished 0x08 + subscription.retainHandling * 16

structure Subscribe where
  packetId : UInt16
  properties : List Property := []
  subscriptions : List Subscription

namespace Subscribe

def writeSubscription (protocol : ProtocolVersion) (subscription : Subscription) :
    Except Error Bytes := do
  validateTopicFilter subscription.topicFilter
  let topicFilter ← writeUtf8 subscription.topicFilter
  validateSubscriptionOptions protocol (subscriptionOptions subscription)
  validateSharedSubscriptionOptions protocol subscription.topicFilter
    (subscriptionOptions subscription)
  return topicFilter ++ [UInt8.ofNat (subscriptionOptions subscription)]

def contents (protocol : ProtocolVersion) (subscribe : Subscribe) : Except Error Bytes := do
  validatePacketId subscribe.packetId
  failIf (subscribe.subscriptions == []) .invalidSubscription
  let properties ← writeSection protocol .subscribe subscribe.properties
  let subscriptions ← writeAll (writeSubscription protocol) subscribe.subscriptions
  return bigEndian 2 subscribe.packetId.toNat ++ (properties ++ subscriptions)

def write (protocol : ProtocolVersion) (subscribe : Subscribe) : Except Error Bytes :=
  subscribe.contents protocol >>= framed .subscribe PacketType.subscribe.defaultFlags

def readSubscription (protocol : ProtocolVersion) : Cursor Subscription := do
  let topicFilter ← readUtf8
  check (validateTopicFilter topicFilter)
  let optionsByte ← readByte
  let options := optionsByte.toNat
  check (validateSubscriptionOptions protocol options)
  check (validateSharedSubscriptionOptions protocol topicFilter options)
  let qos ← check (qosOrFail (options % 4))
  return { topicFilter := topicFilter, qos := qos, noLocal := options.testBit 2,
           retainAsPublished := options.testBit 3, retainHandling := options / 16 % 4 }

def read (protocol : ProtocolVersion) : Cursor Subscribe := do
  let packetId ← readPacketId
  let properties ← readSection protocol .subscribe
  let subscriptions ← readAll (readSubscription protocol)
  check (failIf (subscriptions == []) .invalidSubscription)
  return { packetId := packetId, properties := properties, subscriptions := subscriptions }

def parse (protocol : ProtocolVersion) (packet : Bytes) : Except Error Subscribe := do
  let fixed ← opened packet (isControl .subscribe)
  (read protocol).parse (body packet fixed)

end Subscribe

/-! ### SUBACK -/

def validateSubAckReason (protocol : ProtocolVersion) (code : UInt8) : Except Error Unit :=
  let codes : List UInt8 := match protocol with
    | .v311 => [0x00, 0x01, 0x02, 0x80]
    | .v5 => [0x00, 0x01, 0x02, 0x80, 0x83, 0x87, 0x8f, 0x91, 0x97, 0x9e, 0xa1, 0xa2]
  failIf (!codes.contains code) .invalidReasonCode

/-- A check of every reason code. -/
def validateReasons (check : UInt8 → Except Error Unit) : Bytes → Except Error Unit
  | [] => .ok ()
  | code :: rest => do
    check code
    validateReasons check rest

structure SubAck where
  packetId : UInt16
  properties : List Property := []
  reasonCodes : Bytes

namespace SubAck

def contents (protocol : ProtocolVersion) (subAck : SubAck) : Except Error Bytes := do
  validatePacketId subAck.packetId
  failIf (subAck.reasonCodes == []) .invalidReasonCode
  let properties ← writeSection protocol .suback subAck.properties
  validateReasons (validateSubAckReason protocol) subAck.reasonCodes
  return bigEndian 2 subAck.packetId.toNat ++ (properties ++ subAck.reasonCodes)

def write (protocol : ProtocolVersion) (subAck : SubAck) : Except Error Bytes :=
  subAck.contents protocol >>= framed .suback 0

def read (protocol : ProtocolVersion) : Cursor SubAck := do
  let packetId ← readPacketId
  let properties ← readSection protocol .suback
  let reasonCodes ← Reader.takeRest
  check (validateReasons (validateSubAckReason protocol) reasonCodes)
  check (failIf (reasonCodes == []) .invalidReasonCode)
  return { packetId := packetId, properties := properties, reasonCodes := reasonCodes }

def parse (protocol : ProtocolVersion) (packet : Bytes) : Except Error SubAck := do
  let fixed ← opened packet (isControl .suback)
  (read protocol).parse (body packet fixed)

end SubAck

/-! ### UNSUBSCRIBE -/

structure Unsubscribe where
  packetId : UInt16
  properties : List Property := []
  topicFilters : List Bytes

namespace Unsubscribe

def writeFilter (filter : Bytes) : Except Error Bytes := do
  validateTopicFilter filter
  writeUtf8 filter

def contents (protocol : ProtocolVersion) (unsubscribe : Unsubscribe) : Except Error Bytes := do
  validatePacketId unsubscribe.packetId
  failIf (unsubscribe.topicFilters == []) .invalidSubscription
  let properties ← writeSection protocol .unsubscribe unsubscribe.properties
  let filters ← writeAll writeFilter unsubscribe.topicFilters
  return bigEndian 2 unsubscribe.packetId.toNat ++ (properties ++ filters)

def write (protocol : ProtocolVersion) (unsubscribe : Unsubscribe) : Except Error Bytes :=
  unsubscribe.contents protocol >>= framed .unsubscribe PacketType.unsubscribe.defaultFlags

def readFilter : Cursor Bytes := do
  let filter ← readUtf8
  check (validateTopicFilter filter)
  return filter

def read (protocol : ProtocolVersion) : Cursor Unsubscribe := do
  let packetId ← readPacketId
  let properties ← readSection protocol .unsubscribe
  let filters ← readAll readFilter
  check (failIf (filters == []) .invalidSubscription)
  return { packetId := packetId, properties := properties, topicFilters := filters }

def parse (protocol : ProtocolVersion) (packet : Bytes) : Except Error Unsubscribe := do
  let fixed ← opened packet (isControl .unsubscribe)
  (read protocol).parse (body packet fixed)

end Unsubscribe

/-! ### UNSUBACK -/

def validateUnsubAckReason (code : UInt8) : Except Error Unit :=
  let codes : List UInt8 := [0x00, 0x11, 0x80, 0x83, 0x87, 0x8f, 0x91]
  failIf (!codes.contains code) .invalidReasonCode

structure UnsubAck where
  packetId : UInt16
  properties : List Property := []
  reasonCodes : Bytes

namespace UnsubAck

/-- What is behind the packet identifier. -/
def content (protocol : ProtocolVersion) (unsubAck : UnsubAck) : Except Error Bytes :=
  match protocol with
  | .v5 => do
    failIf (unsubAck.reasonCodes == []) .invalidReasonCode
    let properties ← writeSection .v5 .ack unsubAck.properties
    validateReasons validateUnsubAckReason unsubAck.reasonCodes
    return properties ++ unsubAck.reasonCodes
  | .v311 => do
    failIf (unsubAck.properties != []) .invalidProperty
    failIf (decide (1 < unsubAck.reasonCodes.length)) .invalidReasonCode
    failIf (unsubAck.reasonCodes.head?.getD 0 != 0) .invalidReasonCode
    return []

def contents (protocol : ProtocolVersion) (unsubAck : UnsubAck) : Except Error Bytes := do
  validatePacketId unsubAck.packetId
  let encoded ← content protocol unsubAck
  return bigEndian 2 unsubAck.packetId.toNat ++ encoded

def write (protocol : ProtocolVersion) (unsubAck : UnsubAck) : Except Error Bytes :=
  unsubAck.contents protocol >>= framed .unsuback 0

def read (protocol : ProtocolVersion) : Cursor UnsubAck := do
  let packetId ← readPacketId
  match protocol with
  | .v311 => do
    finish
    return { packetId := packetId, reasonCodes := [0x00] }
  | .v5 => do
    let properties ← readSection .v5 .ack
    let reasonCodes ← Reader.takeRest
    check (validateReasons validateUnsubAckReason reasonCodes)
    check (failIf (reasonCodes == []) .invalidReasonCode)
    return { packetId := packetId, properties := properties, reasonCodes := reasonCodes }

def parse (protocol : ProtocolVersion) (packet : Bytes) : Except Error UnsubAck := do
  let fixed ← opened packet (isControl .unsuback)
  (read protocol).parse (body packet fixed)

end UnsubAck

/-! ### All packets -/

/-- A packet of any kind that has fields. -/
inductive ControlPacket
  | connect (fields : Connect)
  | connAck (fields : ConnAck)
  | publish (fields : Publish)
  | ack (fields : AckPacket)
  | subscribe (fields : Subscribe)
  | subAck (fields : SubAck)
  | unsubscribe (fields : Unsubscribe)
  | unsubAck (fields : UnsubAck)
  | disconnect (fields : Disconnect)
  | auth (fields : Auth)

namespace ControlPacket

/-- The writer of each kind; a CONNECT carries the version it is written in. -/
def write (protocol : ProtocolVersion) : ControlPacket → Except Error Bytes
  | .connect fields => Connect.write { fields with protocol := protocol }
  | .connAck fields => ConnAck.write protocol fields
  | .publish fields => Publish.write protocol fields
  | .ack fields => AckPacket.write protocol fields
  | .subscribe fields => Subscribe.write protocol fields
  | .subAck fields => SubAck.write protocol fields
  | .unsubscribe fields => Unsubscribe.write protocol fields
  | .unsubAck fields => UnsubAck.write protocol fields
  | .disconnect fields => Disconnect.write protocol fields
  | .auth fields => Auth.write protocol fields

/-- The parser of the same kind. -/
def parseLike (protocol : ProtocolVersion) (bytes : Bytes) :
    ControlPacket → Except Error ControlPacket
  | .connect _ => (Connect.parse bytes).map .connect
  | .connAck _ => (ConnAck.parse protocol bytes).map .connAck
  | .publish _ => (Publish.parse protocol bytes).map .publish
  | .ack _ => (AckPacket.parse protocol bytes).map .ack
  | .subscribe _ => (Subscribe.parse protocol bytes).map .subscribe
  | .subAck _ => (SubAck.parse protocol bytes).map .subAck
  | .unsubscribe _ => (Unsubscribe.parse protocol bytes).map .unsubscribe
  | .unsubAck _ => (UnsubAck.parse protocol bytes).map .unsubAck
  | .disconnect _ => (Disconnect.parse protocol bytes).map .disconnect
  | .auth _ => (Auth.parse protocol bytes).map .auth

end ControlPacket

end Netz.Mqtt.Packet
