/-
The parts of MQTT packets on the wire (`mqtt/mod.zig`).

Remaining lengths, strings, binary data, the fixed header and property sections.  A writer
returns the bytes that it appends; a parser takes bytes off a cursor.  Allocation is taken to
succeed.
-/
import Netz.Lib.BigEndian
import Netz.Lib.Reader
import Netz.Mqtt.Packet

namespace Netz.Mqtt

open Lib

/-- `wire.Cursor`. -/
abbrev Cursor := Reader Error UInt8

namespace Cursor

def readByte : Cursor UInt8 := Reader.next .bufferTooShort

def readSlice (len : Nat) : Cursor Bytes := Reader.take .bufferTooShort len

/-- `readInt` of a type that is `size` bytes wide. -/
def readInt (size : Nat) : Cursor Nat := do
  let bytes ← readSlice size
  return ofBigEndian bytes

def eof : Cursor Bool := do
  let left ← Reader.remaining
  return left == 0

export Reader (check)

/-- A parser over all of its input. -/
def parse {α : Type} (reader : Cursor α) (bytes : Bytes) : Except Error α :=
  (reader bytes).map (·.1)

end Cursor

/-- `if (bad) return error.e`. -/
def failIf (bad : Bool) (e : Error) : Except Error Unit := if bad then .error e else .ok ()

/-! ### Remaining length -/

def maxRemainingLength : Nat := 268435455

/-- The loop of `encodeRemainingLength`, which four bytes end. -/
def encodeRemainingLoop : Nat → Nat → Bytes
  | 0, _ => []
  | bytes + 1, x =>
    if x / 128 = 0 then [UInt8.ofNat (x % 128)]
    else UInt8.ofNat (x % 128 + 128) :: encodeRemainingLoop bytes (x / 128)

def encodeRemainingLength (value : Nat) : Except Error Bytes :=
  if maxRemainingLength < value then .error .remainingLengthTooLarge
  else .ok (encodeRemainingLoop 4 value)

def remainingLengthEncodedLen (value : Nat) : Nat :=
  if value < 128 then 1
  else if value < 128 * 128 then 2
  else if value < 128 * 128 * 128 then 3
  else 4

/-- The loop of `decodeRemainingLength`, behind `i` bytes: the value and its length. -/
def decodeRemainingLoop (multiplier value i : Nat) : Bytes → Except Error (Nat × Nat)
  | [] => .error .bufferTooShort
  | byte :: rest =>
    let value := value + byte.toNat % 128 * multiplier
    if byte.toNat < 128 then
      if remainingLengthEncodedLen value ≠ i + 1 then .error .malformedRemainingLength
      else .ok (value, i + 1)
    else if 128 * 128 * 128 < multiplier * 128 then .error .malformedRemainingLength
    else decodeRemainingLoop (multiplier * 128) value (i + 1) rest

def decodeRemainingLength (bytes : Bytes) : Except Error (Nat × Nat) :=
  decodeRemainingLoop 1 0 0 bytes

/-- A remaining length decoded in place: the cursor moves behind it. -/
def readRemainingLength : Cursor Nat := fun input =>
  match decodeRemainingLength input with
  | .error e => .error e
  | .ok (value, len) => .ok (value, input.drop len)

/-! ### Strings and binary data -/

def validateMqttUtf8String (value : Bytes) : Except Error Unit :=
  if validMqttUtf8 value then .ok () else .error .invalidUtf8

def writeUtf8 (value : Bytes) : Except Error Bytes := do
  failIf (decide (maxU16 < value.length)) .invalidUtf8
  validateMqttUtf8String value
  return bigEndian 2 value.length ++ value

def readUtf8 : Cursor Bytes := do
  let len ← Cursor.readInt 2
  let value ← Cursor.readSlice len
  Cursor.check (validateMqttUtf8String value)
  return value

def writeBinary (value : Bytes) : Except Error Bytes := do
  failIf (decide (maxU16 < value.length)) .invalidProperty
  return bigEndian 2 value.length ++ value

def readBinary : Cursor Bytes := do
  let len ← Cursor.readInt 2
  Cursor.readSlice len

/-! ### The fixed header -/

def PacketType.toInt : PacketType → Nat
  | .connect => 1
  | .connack => 2
  | .publish => 3
  | .puback => 4
  | .pubrec => 5
  | .pubrel => 6
  | .pubcomp => 7
  | .subscribe => 8
  | .suback => 9
  | .unsubscribe => 10
  | .unsuback => 11
  | .pingreq => 12
  | .pingresp => 13
  | .disconnect => 14
  | .auth => 15

def PacketType.fromInt? : Nat → Option PacketType
  | 1 => some .connect
  | 2 => some .connack
  | 3 => some .publish
  | 4 => some .puback
  | 5 => some .pubrec
  | 6 => some .pubrel
  | 7 => some .pubcomp
  | 8 => some .subscribe
  | 9 => some .suback
  | 10 => some .unsubscribe
  | 11 => some .unsuback
  | 12 => some .pingreq
  | 13 => some .pingresp
  | 14 => some .disconnect
  | 15 => some .auth
  | _ => none

def PacketType.defaultFlags : PacketType → Nat
  | .pubrel | .subscribe | .unsubscribe => 0x2
  | _ => 0x0

structure FixedHeader where
  packetType : PacketType
  flags : Nat
  remainingLen : Nat
  headerLen : Nat := 0

namespace FixedHeader

def parse (bytes : Bytes) : Except Error FixedHeader :=
  match bytes with
  | first :: second :: rest =>
    match PacketType.fromInt? (first.toNat / 16) with
    | none => .error .invalidPacketType
    | some packetType =>
      match decodeRemainingLength (second :: rest) with
      | .error e => .error e
      | .ok (value, len) =>
        .ok { packetType := packetType, flags := first.toNat % 16, remainingLen := value,
              headerLen := 1 + len }
  | _ => .error .bufferTooShort

def write (header : FixedHeader) : Except Error Bytes := do
  let length ← encodeRemainingLength header.remainingLen
  return UInt8.ofNat (header.packetType.toInt * 16 + header.flags) :: length

end FixedHeader

def validateControlFlags (fixed : FixedHeader) : Except Error Unit :=
  failIf (fixed.packetType != .publish && fixed.flags != fixed.packetType.defaultFlags)
    .invalidFlags

def validatePacketBounds (packet : Bytes) (fixed : FixedHeader) : Except Error Unit :=
  match checkedAdd fixed.headerLen fixed.remainingLen with
  | none => .error .remainingLengthTooLarge
  | some total => do
    failIf (decide (packet.length < total)) .bufferTooShort
    failIf (decide (packet.length ≠ total)) .invalidPacketType

/-- The end of every writer: the fixed header of `content`, and `content`. -/
def framed (packetType : PacketType) (flags : Nat) (content : Bytes) : Except Error Bytes := do
  let header ← FixedHeader.write
    { packetType := packetType, flags := flags, remainingLen := content.length }
  return header ++ content

/-- What `wire.Cursor.init` gets in every parser. -/
def body (packet : Bytes) (fixed : FixedHeader) : Bytes :=
  (packet.drop fixed.headerLen).take fixed.remainingLen

/-! ### Properties -/

def PropertyId.toInt : PropertyId → UInt8
  | .payloadFormatIndicator => 0x01
  | .messageExpiryInterval => 0x02
  | .contentType => 0x03
  | .responseTopic => 0x08
  | .correlationData => 0x09
  | .subscriptionIdentifier => 0x0b
  | .sessionExpiryInterval => 0x11
  | .assignedClientIdentifier => 0x12
  | .serverKeepAlive => 0x13
  | .authenticationMethod => 0x15
  | .authenticationData => 0x16
  | .requestProblemInformation => 0x17
  | .willDelayInterval => 0x18
  | .requestResponseInformation => 0x19
  | .responseInformation => 0x1a
  | .serverReference => 0x1c
  | .reasonString => 0x1f
  | .receiveMaximum => 0x21
  | .topicAliasMaximum => 0x22
  | .topicAlias => 0x23
  | .maximumQos => 0x24
  | .retainAvailable => 0x25
  | .userProperty => 0x26
  | .maximumPacketSize => 0x27
  | .wildcardSubscriptionAvailable => 0x28
  | .subscriptionIdentifierAvailable => 0x29
  | .sharedSubscriptionAvailable => 0x2a

def PropertyId.all : List PropertyId :=
  [.payloadFormatIndicator, .messageExpiryInterval, .contentType, .responseTopic,
    .correlationData, .subscriptionIdentifier, .sessionExpiryInterval,
    .assignedClientIdentifier, .serverKeepAlive, .authenticationMethod, .authenticationData,
    .requestProblemInformation, .willDelayInterval, .requestResponseInformation,
    .responseInformation, .serverReference, .reasonString, .receiveMaximum,
    .topicAliasMaximum, .topicAlias, .maximumQos, .retainAvailable, .userProperty,
    .maximumPacketSize, .wildcardSubscriptionAvailable, .subscriptionIdentifierAvailable,
    .sharedSubscriptionAvailable]

/-- `std.enums.fromInt`. -/
def PropertyId.fromInt? (value : UInt8) : Option PropertyId :=
  PropertyId.all.find? fun id => id.toInt == value

def repeatableProperty : PropertyId → Bool
  | .userProperty | .subscriptionIdentifier => true
  | _ => false

def validatePropertyNotDuplicate (property : Property) (previous : List Property) :
    Except Error Unit :=
  failIf (!repeatableProperty (propertyId property) &&
    previous.any fun prior => propertyId prior == propertyId property) .invalidProperty

/-- The bytes behind the identifier. -/
def writePropertyValue : Property → Except Error Bytes
  | .byte _ value => .ok [value]
  | .twoByte _ value => .ok (bigEndian 2 value.toNat)
  | .fourByte _ value => .ok (bigEndian 4 value.toNat)
  | .varint _ value => encodeRemainingLength value
  | .binary _ value => writeBinary value
  | .utf8 _ value => writeUtf8 value
  | .utf8Pair _ key value => do
    let first ← writeUtf8 key
    let second ← writeUtf8 value
    return first ++ second

/-- The loop of `writeProperties`, behind the properties in `previous`. -/
def encodeProperties (previous : List Property) : List Property → Except Error Bytes
  | [] => .ok []
  | property :: rest => do
    validateProperty property
    validatePropertyNotDuplicate property previous
    let value ← writePropertyValue property
    let later ← encodeProperties (previous ++ [property]) rest
    return (propertyId property).toInt :: (value ++ later)

def writeProperties (properties : List Property) : Except Error Bytes := do
  let encoded ← encodeProperties [] properties
  let length ← encodeRemainingLength encoded.length
  return length ++ encoded

def parsePropertyValue (id : PropertyId) : Cursor Property :=
  match propertyWireType id with
  | .byte => do
    let value ← Cursor.readByte
    return .byte id value
  | .twoByte => do
    let value ← Cursor.readInt 2
    return .twoByte id (UInt16.ofNat value)
  | .fourByte => do
    let value ← Cursor.readInt 4
    return .fourByte id (UInt32.ofNat value)
  | .varint => do
    let value ← readRemainingLength
    return .varint id value
  | .binary => do
    let value ← readBinary
    return .binary id value
  | .utf8 => do
    let value ← readUtf8
    return .utf8 id value
  | .utf8Pair => do
    let key ← readUtf8
    let value ← readUtf8
    return .utf8Pair id key value

/-- The loop of `parseProperties`, behind the properties in `previous`; every turn takes a byte,
so as many turns as there are bytes are enough. -/
def parsePropertyLoop : Nat → List Property → Cursor (List Property)
  | 0, previous => pure previous
  | turns + 1, previous => do
    if ← Cursor.eof then return previous
    let idByte ← Cursor.readByte
    match PropertyId.fromInt? idByte with
    | none => throw .invalidProperty
    | some id =>
      let property ← parsePropertyValue id
      Cursor.check (validateProperty property)
      Cursor.check (validatePropertyNotDuplicate property previous)
      parsePropertyLoop turns (previous ++ [property])

def parseProperties : Cursor (List Property) := do
  let length ← readRemainingLength
  let bytes ← Cursor.readSlice length
  Cursor.check ((parsePropertyLoop bytes.length []).parse bytes)

/-! ### Properties in a packet -/

inductive PropertyContext where
  | connect
  | will
  | connack
  | publish
  | subscribe
  | unsubscribe
  | suback
  | ack
  | disconnect
  | auth
deriving DecidableEq

def propertyAllowedInContext : PropertyContext → PropertyId → Bool
  | .connect, id =>
    match id with
    | .sessionExpiryInterval | .receiveMaximum | .maximumPacketSize | .topicAliasMaximum
    | .requestResponseInformation | .requestProblemInformation | .userProperty
    | .authenticationMethod | .authenticationData => true
    | _ => false
  | .will, id => propertyAllowedInWill id
  | .connack, id =>
    match id with
    | .sessionExpiryInterval | .receiveMaximum | .maximumQos | .retainAvailable
    | .maximumPacketSize | .assignedClientIdentifier | .topicAliasMaximum | .reasonString
    | .userProperty | .wildcardSubscriptionAvailable | .subscriptionIdentifierAvailable
    | .sharedSubscriptionAvailable | .serverKeepAlive | .responseInformation | .serverReference
    | .authenticationMethod | .authenticationData => true
    | _ => false
  | .publish, id => propertyAllowedInPublish id
  | .subscribe, id =>
    match id with
    | .subscriptionIdentifier | .userProperty => true
    | _ => false
  | .unsubscribe, id => id == .userProperty
  | .suback, id | .ack, id =>
    match id with
    | .reasonString | .userProperty => true
    | _ => false
  | .disconnect, id =>
    match id with
    | .sessionExpiryInterval | .reasonString | .userProperty | .serverReference => true
    | _ => false
  | .auth, id =>
    match id with
    | .authenticationMethod | .authenticationData | .reasonString | .userProperty => true
    | _ => false

def repeatablePropertyInContext (context : PropertyContext) : PropertyId → Bool
  | .userProperty => true
  | .subscriptionIdentifier => context == .publish
  | _ => false

def validateAuthenticationPropertiesForContext (context : PropertyContext)
    (properties : List Property) : Except Error Unit :=
  match context with
  | .connect | .connack | .auth =>
    failIf (properties.any (fun p => propertyId p == .authenticationData) &&
      !properties.any (fun p => propertyId p == .authenticationMethod)) .invalidProperty
  | _ => .ok ()

def validatePropertiesFor (context : PropertyContext) (properties : List Property) :
    Except Error Unit := do
  validatePropertiesFrom (propertyAllowedInContext context) (repeatablePropertyInContext context)
    [] properties
  validateAuthenticationPropertiesForContext context properties

end Netz.Mqtt
