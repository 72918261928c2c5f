/-
MQTT packet vocabulary (`mqtt/mod.zig`).

The enumerations and properties that the broker's stores pass around, with the checks they
run before they store a publication.  Strings are byte lists, as the wire has them.
-/
import Mathlib.Algebra.Order.Ring.Int
import Mathlib.Data.List.Basic

namespace Netz.Mqtt

abbrev Bytes := List UInt8

/-- `std.math.maxInt(usize)`. -/
def maxUsize : Nat := 2 ^ 64 - 1

/-- `std.math.maxInt(u16)`. -/
def maxU16 : Nat := 2 ^ 16 - 1

/-- `std.math.maxInt(u32)`. -/
def maxU32 : Nat := 2 ^ 32 - 1

/-- `std.math.add` on `usize`. -/
def checkedAdd (a b : Nat) : Option Nat := if a + b ≤ maxUsize then some (a + b) else none

/-- The error names of the MQTT modules.  `panic` stands for a failed assertion, an
unwrapped null and a branch marked unreachable. -/
inductive Error where
  | outOfMemory
  | panic
  -- `mqtt.Error`
  | bufferTooShort
  | malformedRemainingLength
  | remainingLengthTooLarge
  | invalidPacketType
  | invalidFlags
  | invalidProtocolName
  | invalidProtocolLevel
  | invalidReasonCode
  | invalidUtf8
  | invalidQoS
  | invalidProperty
  | invalidTopic
  | invalidSubscription
  | invalidClientId
  | invalidPacketIdentifier
  -- `session.Error`
  | sessionNotFound
  | sessionLimitExceeded
  | sessionByteLimitExceeded
  | queueFull
  | inflightFull
  | invalidAcknowledgement
  | bufferTooSmall
  | subscriptionLimitExceeded
  | incomingQoS2Full
  | retainedLimitExceeded
  | matchBufferTooSmall
  -- `persistence.Error`
  | corruptSnapshot
  | snapshotLimitExceeded
  -- `broker.Error`
  | publicationLimitExceeded
  -- `will.Error`
  | willNotFound
  | willNotDue
  | willLimitExceeded
  | willByteLimitExceeded
  | dueBufferTooSmall
  -- `runtime.Error`
  | unexpectedPacket
  | publishRefused
  | outgoingPacketTooLarge
  | transportFailed
  | topicAliasInvalid
deriving DecidableEq

inductive QoS where
  | atMostOnce
  | atLeastOnce
  | exactlyOnce
deriving DecidableEq

namespace QoS

def level : QoS → Nat
  | .atMostOnce => 0
  | .atLeastOnce => 1
  | .exactlyOnce => 2

/-- `minQos`. -/
def min (a b : QoS) : QoS := if a.level < b.level then a else b

/-- `maxQos`. -/
def max (a b : QoS) : QoS := if b.level ≤ a.level then a else b

end QoS

inductive ProtocolVersion where
  | v311
  | v5
deriving DecidableEq

inductive PacketType where
  | connect
  | connack
  | publish
  | puback
  | pubrec
  | pubrel
  | pubcomp
  | subscribe
  | suback
  | unsubscribe
  | unsuback
  | pingreq
  | pingresp
  | disconnect
  | auth
deriving DecidableEq

/-! ### Strings -/

/-- `std.unicode.utf8ValidateSlice`, one byte at a time: `owed` continuation bytes are still
expected, and the next one lies between `low` and `high`. -/
def utf8Loop : Bytes → Nat → UInt8 → UInt8 → Bool
  | [], owed, _, _ => owed == 0
  | b :: rest, 0, _, _ =>
    if b < 0x80 then utf8Loop rest 0 0x80 0xbf
    else if b < 0xc2 then false
    else if b < 0xe0 then utf8Loop rest 1 0x80 0xbf
    else if b == 0xe0 then utf8Loop rest 2 0xa0 0xbf
    else if b == 0xed then utf8Loop rest 2 0x80 0x9f
    else if b < 0xf0 then utf8Loop rest 2 0x80 0xbf
    else if b == 0xf0 then utf8Loop rest 3 0x90 0xbf
    else if b < 0xf4 then utf8Loop rest 3 0x80 0xbf
    else if b == 0xf4 then utf8Loop rest 3 0x80 0x8f
    else false
  | b :: rest, owed + 1, low, high =>
    decide (low ≤ b) && decide (b ≤ high) && utf8Loop rest owed 0x80 0xbf

def utf8ValidateSlice (value : Bytes) : Bool := utf8Loop value 0 0x80 0xbf

/-- `validMqttUtf8`; in valid UTF-8 the code point zero is exactly the byte zero. -/
def validMqttUtf8 (value : Bytes) : Bool := utf8ValidateSlice value && !value.contains 0

def slash : UInt8 := 0x2f

def plus : UInt8 := 0x2b

def hash : UInt8 := 0x23

def dollar : UInt8 := 0x24

def hasWildcards (value : Bytes) : Bool := value.any (fun b => b == plus || b == hash)

def validTopicName (topic : Bytes) : Bool :=
  decide (0 < topic.length) && validMqttUtf8 topic && !hasWildcards topic

def validateTopicName (topic : Bytes) : Except Error Unit :=
  if validTopicName topic then .ok () else .error .invalidTopic

/-! ### Properties -/

inductive PropertyId where
  | payloadFormatIndicator
  | messageExpiryInterval
  | contentType
  | responseTopic
  | correlationData
  | subscriptionIdentifier
  | sessionExpiryInterval
  | assignedClientIdentifier
  | serverKeepAlive
  | authenticationMethod
  | authenticationData
  | requestProblemInformation
  | willDelayInterval
  | requestResponseInformation
  | responseInformation
  | serverReference
  | reasonString
  | receiveMaximum
  | topicAliasMaximum
  | topicAlias
  | maximumQos
  | retainAvailable
  | userProperty
  | maximumPacketSize
  | wildcardSubscriptionAvailable
  | subscriptionIdentifierAvailable
  | sharedSubscriptionAvailable
deriving DecidableEq

inductive PropertyWireType where
  | byte
  | twoByte
  | fourByte
  | varint
  | binary
  | utf8
  | utf8Pair
deriving DecidableEq

def propertyWireType : PropertyId → PropertyWireType
  | .payloadFormatIndicator | .requestProblemInformation | .requestResponseInformation
  | .maximumQos | .retainAvailable | .wildcardSubscriptionAvailable
  | .subscriptionIdentifierAvailable | .sharedSubscriptionAvailable => .byte
  | .serverKeepAlive | .receiveMaximum | .topicAliasMaximum | .topicAlias => .twoByte
  | .messageExpiryInterval | .sessionExpiryInterval | .willDelayInterval
  | .maximumPacketSize => .fourByte
  | .subscriptionIdentifier => .varint
  | .correlationData | .authenticationData => .binary
  | .contentType | .responseTopic | .assignedClientIdentifier | .authenticationMethod
  | .responseInformation | .serverReference | .reasonString => .utf8
  | .userProperty => .utf8Pair

inductive Property where
  | byte (id : PropertyId) (value : UInt8)
  | twoByte (id : PropertyId) (value : UInt16)
  | fourByte (id : PropertyId) (value : UInt32)
  | varint (id : PropertyId) (value : Nat)
  | binary (id : PropertyId) (value : Bytes)
  | utf8 (id : PropertyId) (value : Bytes)
  | utf8Pair (id : PropertyId) (key value : Bytes)
deriving DecidableEq

structure LastWill where
  topic : Bytes
  payload : Bytes
  qos : QoS := .atMostOnce
  retain : Bool := false
  properties : List Property := []

def propertyId : Property → PropertyId
  | .byte id _ | .twoByte id _ | .fourByte id _ | .varint id _ | .binary id _ | .utf8 id _
  | .utf8Pair id _ _ => id

def propertyHasExpectedWireType : Property → Bool
  | .byte id _ => propertyWireType id == .byte
  | .twoByte id _ => propertyWireType id == .twoByte
  | .fourByte id _ => propertyWireType id == .fourByte
  | .varint id _ => propertyWireType id == .varint
  | .binary id _ => propertyWireType id == .binary
  | .utf8 id _ => propertyWireType id == .utf8
  | .utf8Pair id _ _ => propertyWireType id == .utf8Pair

/-- The value check of `validateProperty`. -/
def propertyValueInRange : Property → Bool
  | .byte id value =>
    match id with
    | .payloadFormatIndicator | .requestProblemInformation | .requestResponseInformation
    | .retainAvailable | .wildcardSubscriptionAvailable | .subscriptionIdentifierAvailable
    | .sharedSubscriptionAvailable | .maximumQos => decide (value ≤ 1)
    | _ => true
  | .twoByte id value =>
    match id with
    | .receiveMaximum | .topicAlias => value != 0
    | _ => true
  | .fourByte id value =>
    match id with
    | .maximumPacketSize => value != 0
    | _ => true
  | .varint id value =>
    match id with
    | .subscriptionIdentifier => value != 0
    | _ => true
  | .utf8 id value =>
    match id with
    | .responseTopic => validTopicName value
    | _ => true
  | _ => true

def validateProperty (property : Property) : Except Error Unit :=
  if propertyHasExpectedWireType property && propertyValueInRange property then .ok ()
  else .error .invalidProperty

/-- `propertyAllowedInContext(.publish, …)`. -/
def propertyAllowedInPublish : PropertyId → Bool
  | .payloadFormatIndicator | .messageExpiryInterval | .topicAlias | .responseTopic
  | .correlationData | .userProperty | .subscriptionIdentifier | .contentType => true
  | _ => false

/-- `repeatablePropertyInContext(.publish, …)`. -/
def repeatablePropertyInPublish : PropertyId → Bool
  | .userProperty | .subscriptionIdentifier => true
  | _ => false

/-- The loop of `validatePropertiesFor(.publish, …)` behind the properties in `previous`. -/
def validatePublishPropertiesFrom (previous : List Property) : List Property → Except Error Unit
  | [] => .ok ()
  | property :: rest =>
    match validateProperty property with
    | .error e => .error e
    | .ok _ =>
      let id := propertyId property
      if !propertyAllowedInPublish id then .error .invalidProperty
      else if !repeatablePropertyInPublish id && previous.any (fun p => propertyId p == id) then
        .error .invalidProperty
      else validatePublishPropertiesFrom (previous ++ [property]) rest

def validatePublishProperties (properties : List Property) : Except Error Unit :=
  validatePublishPropertiesFrom [] properties

/-- `propertyAllowedInContext(.will, …)`. -/
def propertyAllowedInWill : PropertyId → Bool
  | .willDelayInterval | .payloadFormatIndicator | .messageExpiryInterval | .contentType
  | .responseTopic | .correlationData | .userProperty => true
  | _ => false

/-- `repeatablePropertyInContext(.will, …)`. -/
def repeatablePropertyInWill : PropertyId → Bool
  | .userProperty => true
  | _ => false

/-- The loop of `validatePropertiesFor` in a context that has no authentication properties,
behind the properties in `previous`. -/
def validatePropertiesFrom (allowed repeatable : PropertyId → Bool) (previous : List Property) :
    List Property → Except Error Unit
  | [] => .ok ()
  | property :: rest =>
    match validateProperty property with
    | .error e => .error e
    | .ok _ =>
      let id := propertyId property
      if !allowed id then .error .invalidProperty
      else if !repeatable id && previous.any (fun p => propertyId p == id) then
        .error .invalidProperty
      else validatePropertiesFrom allowed repeatable (previous ++ [property]) rest

def payloadFormatIsUtf8 (properties : List Property) : Bool :=
  (properties.findSome? fun
    | .byte .payloadFormatIndicator value => some (value == 1)
    | _ => none).getD false

def validatePayloadFormat (properties : List Property) (payload : Bytes) : Except Error Unit :=
  if payloadFormatIsUtf8 properties && !utf8ValidateSlice payload then .error .invalidUtf8
  else .ok ()

def validateWillProperties (properties : List Property) (payload : Bytes) : Except Error Unit :=
  match validatePropertiesFrom propertyAllowedInWill repeatablePropertyInWill [] properties with
  | .error e => .error e
  | .ok _ => validatePayloadFormat properties payload

def messageExpiryInterval (properties : List Property) : Option Nat :=
  properties.findSome? fun
    | .fourByte .messageExpiryInterval value => some value.toNat
    | _ => none

def sessionExpiryInterval (properties : List Property) : Option Nat :=
  properties.findSome? fun
    | .fourByte .sessionExpiryInterval value => some value.toNat
    | _ => none

def willDelayInterval (properties : List Property) : Option Nat :=
  properties.findSome? fun
    | .fourByte .willDelayInterval value => some value.toNat
    | _ => none

def topicAlias (properties : List Property) : Option Nat :=
  properties.findSome? fun
    | .twoByte .topicAlias value => some value.toNat
    | _ => none

def subscriptionIdentifier (properties : List Property) : Option Nat :=
  properties.findSome? fun
    | .varint .subscriptionIdentifier value => some value
    | _ => none

end Netz.Mqtt
