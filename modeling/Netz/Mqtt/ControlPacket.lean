/-
The MQTT control packets (`mqtt/mod.zig`).

Every packet has a writer and a parser; both check the rules of the packet, each in its own
order.  A parser reads the fixed header, checks it, and runs over the bytes behind it.
-/
import Netz.Mqtt.Topic
import Netz.Mqtt.Wire

namespace Netz.Mqtt.Packet

open Lib Cursor

/-! ### Pieces that packets share -/

def ProtocolVersion.toByte : ProtocolVersion → UInt8
  | .v311 => 4
  | .v5 => 5

def ProtocolVersion.fromByte? (value : UInt8) : Option ProtocolVersion :=
  if value = 4 then some .v311 else if value = 5 then some .v5 else none

/-- `std.enums.fromInt(QoS, …)` of two bits. -/
def QoS.fromInt? : Nat → Option QoS
  | 0 => some .atMostOnce
  | 1 => some .atLeastOnce
  | 2 => some .exactlyOnce
  | _ => none

def qosOrFail (bits : Nat) : Except Error QoS :=
  match QoS.fromInt? bits with
  | none => .error .invalidQoS
  | some qos => .ok qos

/-- The property section of a packet that has one in MQTT 5 only. -/
def writeSection (protocol : ProtocolVersion) (context : PropertyContext)
    (properties : List Property) : Except Error Bytes :=
  match protocol with
  | .v5 => do
    validatePropertiesFor context properties
    writeProperties properties
  | .v311 => do
    failIf (properties != []) .invalidProperty
    return []

def readSection (protocol : ProtocolVersion) (context : PropertyContext) : Cursor (List Property) :=
  match protocol with
  | .v5 => do
    let properties ← parseProperties
    check (validatePropertiesFor context properties)
    return properties
  | .v311 => return []

def validatePacketId (packetId : UInt16) : Except Error Unit :=
  failIf (packetId == 0) .invalidPacketIdentifier

def readPacketId : Cursor UInt16 := do
  let value ← readInt 2
  check (validatePacketId (UInt16.ofNat value))
  return UInt16.ofNat value

/-- Nothing may be left. -/
def finish : Cursor Unit := do
  let atEnd ← eof
  check (failIf (!atEnd) .invalidPacketType)

/-- The start of every parser, for a packet whose type and flags have been checked. -/
def opened (packet : Bytes) (check : FixedHeader → Except Error Unit) :
    Except Error FixedHeader := do
  let fixed ← FixedHeader.parse packet
  check fixed
  validatePacketBounds packet fixed
  return fixed

/-- The check of a packet with fixed flags. -/
def isControl (packetType : PacketType) (fixed : FixedHeader) : Except Error Unit := do
  failIf (fixed.packetType != packetType) .invalidPacketType
  validateControlFlags fixed

/-- A loop that reads to the end of the packet; every turn takes a byte, so as many turns as
there are bytes are enough. -/
def untilEof {α : Type} (item : Cursor α) : Nat → Cursor (List α)
  | 0 => return []
  | turns + 1 => do
    if ← eof then return []
    let a ← item
    let later ← untilEof item turns
    return a :: later

def readAll {α : Type} (item : Cursor α) : Cursor (List α) := do
  let left ← Reader.remaining
  untilEof item left

/-- Items one after the other. -/
def writeAll {α : Type} (write : α → Except Error Bytes) : List α → Except Error Bytes
  | [] => .ok []
  | a :: rest => do
    let first ← write a
    let later ← writeAll write rest
    return first ++ later

/-! ### CONNECT -/

structure Connect where
  protocol : ProtocolVersion
  cleanStart : Bool
  keepAliveSeconds : UInt16
  clientId : Bytes
  properties : List Property := []
  will : Option LastWill := none
  username : Option Bytes := none
  password : Option Bytes := none

def validateConnectFlags (protocol : ProtocolVersion) (flags : Nat) : Except Error Unit := do
  failIf (flags.testBit 0) .invalidFlags
  failIf (!flags.testBit 2 && flags / 8 % 8 != 0) .invalidFlags
  failIf (flags / 8 % 4 == 3) .invalidQoS
  failIf (protocol == .v311 && flags.testBit 6 && !flags.testBit 7) .invalidFlags

def validateConnectClientId (clientId : Bytes) (cleanStart : Bool) : Except Error Unit :=
  failIf (clientId == [] && !cleanStart) .invalidClientId

namespace Connect

def bit (set : Bool) (value : Nat) : Nat := if set then value else 0

/-- `connectFlags`. -/
def flags (connect : Connect) : Nat :=
  bit connect.cleanStart 0x02
    + (match connect.will with
      | none => 0
      | some will => 0x04 + will.qos.level * 8 + bit will.retain 0x20)
    + bit connect.password.isSome 0x40 + bit connect.username.isSome 0x80

def writeWillProperties (protocol : ProtocolVersion) (will : LastWill) : Except Error Bytes :=
  match protocol with
  | .v5 => do
    validatePropertiesFor .will will.properties
    validatePayloadFormat will.properties will.payload
    writeProperties will.properties
  | .v311 => do
    failIf (will.properties != []) .invalidProperty
    return []

def writeWill (protocol : ProtocolVersion) (will : LastWill) : Except Error Bytes := do
  validateTopicName will.topic
  let properties ← writeWillProperties protocol will
  let topic ← writeUtf8 will.topic
  let payload ← writeBinary will.payload
  return properties ++ (topic ++ payload)

/-- A field that is there or not. -/
def writeOption {α : Type} (write : α → Except Error Bytes) : Option α → Except Error Bytes
  | none => .ok []
  | some a => write a

/-- `variable` of `writeConnectPacket`: what is behind the fixed header. -/
def contents (connect : Connect) : Except Error Bytes := do
  validateConnectClientId connect.clientId connect.cleanStart
  validateConnectFlags connect.protocol connect.flags
  let name ← writeUtf8 [0x4d, 0x51, 0x54, 0x54]
  let properties ← writeSection connect.protocol .connect connect.properties
  let clientId ← writeUtf8 connect.clientId
  let will ← writeOption (writeWill connect.protocol) connect.will
  let username ← writeOption writeUtf8 connect.username
  let password ← writeOption writeBinary connect.password
  return name ++ ([ProtocolVersion.toByte connect.protocol] ++ ([UInt8.ofNat connect.flags] ++
    (bigEndian 2 connect.keepAliveSeconds.toNat ++ (properties ++ (clientId ++
      (will ++ (username ++ password)))))))

def write (connect : Connect) : Except Error Bytes := connect.contents >>= framed .connect 0

def readWill (protocol : ProtocolVersion) (flags : Nat) : Cursor LastWill := do
  let properties ← readSection protocol .will
  let topic ← readUtf8
  check (validateTopicName topic)
  let payload ← readBinary
  check (validatePayloadFormat properties payload)
  let qos ← check (qosOrFail (flags / 8 % 4))
  return { topic := topic, payload := payload, qos := qos, retain := flags.testBit 5,
           properties := properties }

def readOption {α : Type} (there : Bool) (read : Cursor α) : Cursor (Option α) :=
  if there then do
    let a ← read
    return some a
  else return none

def levelOrFail (level : UInt8) : Except Error ProtocolVersion :=
  match ProtocolVersion.fromByte? level with
  | none => .error .invalidProtocolLevel
  | some protocol => .ok protocol

def read : Cursor Connect := do
  let name ← readUtf8
  check (failIf (name != [0x4d, 0x51, 0x54, 0x54]) .invalidProtocolName)
  let level ← readByte
  let protocol ← check (levelOrFail level)
  let connectFlags ← readByte
  let flags := connectFlags.toNat
  check (validateConnectFlags protocol flags)
  let keepAlive ← readInt 2
  let properties ← readSection protocol .connect
  let clientId ← readUtf8
  let will ← readOption (flags.testBit 2) (readWill protocol flags)
  let username ← readOption (flags.testBit 7) readUtf8
  let password ← readOption (flags.testBit 6) readBinary
  finish
  check (validateConnectClientId clientId (flags.testBit 1))
  return { protocol := protocol, cleanStart := flags.testBit 1,
           keepAliveSeconds := UInt16.ofNat keepAlive, clientId := clientId,
           properties := properties, will := will, username := username, password := password }

def parse (packet : Bytes) : Except Error Connect := do
  let fixed ← opened packet fun fixed =>
    failIf (fixed.packetType != .connect || fixed.flags != 0) .invalidFlags
  read.parse (body packet fixed)

end Connect

/-! ### CONNACK -/

def validateConnAckReason (protocol : ProtocolVersion) (code : UInt8) : Except Error Unit :=
  let codes : List UInt8 := match protocol with
    | .v311 => [0x00, 0x01, 0x02, 0x03, 0x04, 0x05]
    | .v5 => [0x00, 0x80, 0x81, 0x82, 0x83, 0x84, 0x85, 0x86, 0x87, 0x88, 0x89, 0x8a, 0x8c, 0x90,
      0x95, 0x97, 0x99, 0x9a, 0x9b, 0x9c, 0x9d, 0x9f]
  failIf (!codes.contains code) .invalidReasonCode

def validateConnAckSessionPresent (sessionPresent : Bool) (reasonCode : UInt8) :
    Except Error Unit :=
  failIf (sessionPresent && reasonCode != 0) .invalidFlags

structure ConnAck where
  sessionPresent : Bool
  reasonCode : UInt8
  properties : List Property := []

namespace ConnAck

def contents (protocol : ProtocolVersion) (connAck : ConnAck) : Except Error Bytes := do
  validateConnAckReason protocol connAck.reasonCode
  validateConnAckSessionPresent connAck.sessionPresent connAck.reasonCode
  let properties ← writeSection protocol .connack connAck.properties
  return [if connAck.sessionPresent then 0x01 else 0x00] ++ ([connAck.reasonCode] ++ properties)

def write (protocol : ProtocolVersion) (connAck : ConnAck) : Except Error Bytes :=
  connAck.contents protocol >>= framed .connack 0

def read (protocol : ProtocolVersion) : Cursor ConnAck := do
  let ackFlags ← readByte
  check (failIf (ackFlags.toNat / 2 != 0) .invalidFlags)
  let reasonCode ← readByte
  check (validateConnAckReason protocol reasonCode)
  check (validateConnAckSessionPresent (ackFlags.toNat.testBit 0) reasonCode)
  let properties ← readSection protocol .connack
  finish
  return { sessionPresent := ackFlags.toNat.testBit 0, reasonCode := reasonCode,
           properties := properties }

def parse (protocol : ProtocolVersion) (packet : Bytes) : Except Error ConnAck := do
  let fixed ← opened packet (isControl .connack)
  (read protocol).parse (body packet fixed)

end ConnAck

/-! ### PUBLISH -/

structure Publish where
  dup : Bool
  qos : QoS
  retain : Bool
  topic : Bytes
  packetId : Option UInt16
  properties : List Property := []
  payload : Bytes

/-- An empty topic needs a topic alias. -/
def validatePublishTopic (protocol : ProtocolVersion) (topic : Bytes)
    (properties : List Property) : Except Error Unit :=
  if topic = [] then
    failIf (protocol != .v5 || (topicAlias properties).isNone) .invalidTopic
  else validateTopicName topic

namespace Publish

def flags (publish : Publish) : Nat :=
  Connect.bit publish.dup 0x8 + publish.qos.level * 2 + Connect.bit publish.retain 0x1

/-- A packet identifier goes with QoS 1 and 2 and with no other. -/
def writePacketId (qos : QoS) (packetId : Option UInt16) : Except Error Bytes :=
  match qos, packetId with
  | .atMostOnce, none => .ok []
  | .atMostOnce, some _ => .error .invalidPacketIdentifier
  | _, none => .error .invalidPacketIdentifier
  | _, some value => do
    validatePacketId value
    return bigEndian 2 value.toNat

/-- What MQTT 5 asks of the payload, and MQTT 3.1.1 of the properties. -/
def validateContent (protocol : ProtocolVersion) (publish : Publish) : Except Error Unit :=
  match protocol with
  | .v5 => validatePayloadFormat publish.properties publish.payload
  | .v311 => failIf (publish.properties != []) .invalidProperty

/-- `variable` of `writePublish`. -/
def contents (protocol : ProtocolVersion) (publish : Publish) : Except Error Bytes := do
  validatePublishTopic protocol publish.topic publish.properties
  validateContent protocol publish
  let packetId ← writePacketId publish.qos publish.packetId
  let topic ← writeUtf8 publish.topic
  let properties ← writeSection protocol .publish publish.properties
  return topic ++ (packetId ++ (properties ++ publish.payload))

def write (protocol : ProtocolVersion) (publish : Publish) : Except Error Bytes :=
  publish.contents protocol >>= framed .publish publish.flags

def read (protocol : ProtocolVersion) (flags : Nat) : Cursor Publish := do
  let topic ← readUtf8
  let qos ← check (qosOrFail (flags / 2 % 4))
  let packetId ← Connect.readOption (qos != .atMostOnce) readPacketId
  let properties ← readSection protocol .publish
  check (validatePublishTopic protocol topic properties)
  let payload ← Reader.takeRest
  check (validatePayloadFormat properties payload)
  return { dup := flags.testBit 3, qos := qos, retain := flags.testBit 0, topic := topic,
           packetId := packetId, properties := properties, payload := payload }

def parse (protocol : ProtocolVersion) (packet : Bytes) : Except Error Publish := do
  let fixed ← opened packet fun fixed => failIf (fixed.packetType != .publish) .invalidPacketType
  (read protocol fixed.flags).parse (body packet fixed)

end Publish

/-! ### PUBACK, PUBREC, PUBREL and PUBCOMP -/

structure AckPacket where
  packetType : PacketType
  packetId : UInt16
  reasonCode : UInt8 := 0
  properties : List Property := []

def isAck : PacketType → Bool
  | .puback | .pubrec | .pubrel | .pubcomp => true
  | _ => false

def validateAckReasonCode (packetType : PacketType) (reasonCode : UInt8) : Except Error Unit :=
  match packetType with
  | .puback | .pubrec =>
    let codes : List UInt8 := [0x00, 0x10, 0x80, 0x83, 0x87, 0x90, 0x91, 0x97, 0x99]
    failIf (!codes.contains reasonCode) .invalidReasonCode
  | .pubrel | .pubcomp =>
    let codes : List UInt8 := [0x00, 0x92]
    failIf (!codes.contains reasonCode) .invalidReasonCode
  | _ => .error .invalidPacketType

def validateAckProperties (packetType : PacketType) (properties : List Property) :
    Except Error Unit := do
  failIf (!isAck packetType) .invalidPacketType
  validatePropertiesFor .ack properties

namespace AckPacket

/-- The reason code is left out when it says nothing, and the property section when it is
empty. -/
def writeReason (reasonCode : UInt8) (properties : List Property) : Except Error Bytes :=
  if properties ≠ [] then do
    let encoded ← writeProperties properties
    return reasonCode :: encoded
  else if reasonCode ≠ 0 then return [reasonCode]
  else return []

/-- What is behind the packet identifier. -/
def content (protocol : ProtocolVersion) (ack : AckPacket) : Except Error Bytes :=
  match protocol with
  | .v311 => do
    failIf (ack.reasonCode != 0) .invalidReasonCode
    failIf (ack.properties != []) .invalidProperty
    return []
  | .v5 => do
    validateAckReasonCode ack.packetType ack.reasonCode
    validateAckProperties ack.packetType ack.properties
    writeReason ack.reasonCode ack.properties

def contents (protocol : ProtocolVersion) (ack : AckPacket) : Except Error Bytes := do
  validatePacketId ack.packetId
  failIf (!isAck ack.packetType) .invalidPacketType
  let reason ← content protocol ack
  return bigEndian 2 ack.packetId.toNat ++ reason

def write (protocol : ProtocolVersion) (ack : AckPacket) : Except Error Bytes :=
  ack.contents protocol >>= framed ack.packetType ack.packetType.defaultFlags

def readReason : Cursor UInt8 := do
  if ← eof then return 0
  readByte

def readRest : Cursor (List Property) := do
  if ← eof then return []
  parseProperties

def read (protocol : ProtocolVersion) (packetType : PacketType) : Cursor AckPacket := do
  let packetId ← readPacketId
  match protocol with
  | .v311 => do
    finish
    return { packetType := packetType, packetId := packetId }
  | .v5 => do
    let reasonCode ← readReason
    check (validateAckReasonCode packetType reasonCode)
    let properties ← readRest
    check (validateAckProperties packetType properties)
    finish
    return { packetType := packetType, packetId := packetId, reasonCode := reasonCode,
             properties := properties }

def parse (protocol : ProtocolVersion) (packet : Bytes) : Except Error AckPacket := do
  let fixed ← opened packet fun fixed => do
    failIf (!isAck fixed.packetType) .invalidPacketType
    validateControlFlags fixed
  (read protocol fixed.packetType).parse (body packet fixed)

end AckPacket

/-! ### DISCONNECT -/

def validateDisconnectReason (code : UInt8) : Except Error Unit :=
  let codes : List UInt8 := [0x00, 0x04, 0x80, 0x81, 0x82, 0x83, 0x87, 0x89, 0x8b, 0x8d, 0x8e,
    0x8f, 0x90, 0x93, 0x94, 0x95, 0x96, 0x97, 0x98, 0x99, 0x9a, 0x9b, 0x9c, 0x9d, 0x9e, 0x9f,
    0xa0, 0xa1, 0xa2]
  failIf (!codes.contains code) .invalidReasonCode

structure Disconnect where
  reasonCode : UInt8 := 0
  properties : List Property := []

namespace Disconnect

def writeReason (disconnect : Disconnect) : Except Error Bytes :=
  if disconnect.reasonCode ≠ 0 ∧ disconnect.properties = [] then return [disconnect.reasonCode]
  else if disconnect.reasonCode ≠ 0 ∨ disconnect.properties ≠ [] then do
    validatePropertiesFor .disconnect disconnect.properties
    let encoded ← writeProperties disconnect.properties
    return disconnect.reasonCode :: encoded
  else return []

def content (protocol : ProtocolVersion) (disconnect : Disconnect) : Except Error Bytes :=
  match protocol with
  | .v311 => do
    failIf (disconnect.reasonCode != 0) .invalidReasonCode
    failIf (disconnect.properties != []) .invalidProperty
    return []
  | .v5 => do
    validateDisconnectReason disconnect.reasonCode
    writeReason disconnect

def write (protocol : ProtocolVersion) (disconnect : Disconnect) : Except Error Bytes :=
  disconnect.content protocol >>= framed .disconnect 0

def read (protocol : ProtocolVersion) : Cursor Disconnect := do
  let reasonCode ← AckPacket.readReason
  match protocol with
  | .v311 => do
    finish
    return { reasonCode := reasonCode }
  | .v5 => do
    check (validateDisconnectReason reasonCode)
    let properties ← AckPacket.readRest
    check (validatePropertiesFor .disconnect properties)
    finish
    return { reasonCode := reasonCode, properties := properties }

def parse (protocol : ProtocolVersion) (packet : Bytes) : Except Error Disconnect := do
  let fixed ← opened packet (isControl .disconnect)
  failIf (protocol == .v311 && fixed.remainingLen != 0) .invalidPacketType
  (read protocol).parse (body packet fixed)

end Disconnect

/-! ### AUTH -/

def validateAuthReason (code : UInt8) : Except Error Unit :=
  let codes : List UInt8 := [0x00, 0x18, 0x19]
  failIf (!codes.contains code) .invalidReasonCode

structure Auth where
  reasonCode : UInt8 := 0
  properties : List Property := []

namespace Auth

def content (auth : Auth) : Except Error Bytes :=
  if auth.reasonCode ≠ 0 ∨ auth.properties ≠ [] then do
    let encoded ← writeProperties auth.properties
    return auth.reasonCode :: encoded
  else return []

def contents (protocol : ProtocolVersion) (auth : Auth) : Except Error Bytes := do
  failIf (protocol != .v5) .invalidPacketType
  validateAuthReason auth.reasonCode
  validatePropertiesFor .auth auth.properties
  content auth

def write (protocol : ProtocolVersion) (auth : Auth) : Except Error Bytes :=
  auth.contents protocol >>= framed .auth 0

def read : Cursor Auth := do
  let reasonCode ← readByte
  check (validateAuthReason reasonCode)
  let properties ← parseProperties
  check (validatePropertiesFor .auth properties)
  finish
  return { reasonCode := reasonCode, properties := properties }

def parse (protocol : ProtocolVersion) (packet : Bytes) : Except Error Auth := do
  let fixed ← opened packet fun fixed => do
    isControl .auth fixed
    failIf (protocol != .v5) .invalidPacketType
  if fixed.remainingLen = 0 then return {}
  read.parse (body packet fixed)

end Auth

end Netz.Mqtt.Packet
