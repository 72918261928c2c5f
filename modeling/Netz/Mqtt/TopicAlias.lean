/-
Topic aliases on a network connection (`mqtt/runtime.zig`).

Both ends keep a table of sixteen topics.  The sender commits an alias when its PUBLISH has been
written, the receiver when the PUBLISH arrives.  What the authentication state and the transport
answer to a write is an input; memory is taken not to run out behind the write.
-/
import Netz.Mqtt.Connection
import Netz.Mqtt.ControlPacket

namespace Netz.Mqtt

def topicAliasSlots : Nat := 16

abbrev AliasTable := Vector (Option Bytes) topicAliasSlots

namespace AliasTable

def empty : AliasTable := Vector.replicate topicAliasSlots none

/-- The topic in slot `alias - 1`. -/
def lookup (table : AliasTable) (aliasId : Nat) : Option Bytes := table[aliasId - 1]?.join

def remember (table : AliasTable) (aliasId : Nat) (topic : Bytes) : AliasTable :=
  table.setIfInBounds (aliasId - 1) (some topic)

end AliasTable

/-- A connection with its topic aliases, in both directions. -/
structure AliasConnection where
  connection : Connection := {}
  protocol : ProtocolVersion := .v5
  peerMaxPacketSize : Nat := maxUsize
  peerTopicAliasMaximum : UInt16 := 0
  incomingTopicAliasMaximum : UInt16 := 16
  outgoingTopicAliases : AliasTable := .empty
  incomingTopicAliases : AliasTable := .empty

structure PublishOptions where
  qos : QoS := .atMostOnce
  retain : Bool := false
  dup : Bool := false
  properties : List Property := []

namespace AliasConnection

/-! ### Sending -/

def validateOutgoingTopicAlias (sender : AliasConnection) (topic : Bytes)
    (properties : List Property) : Except Error Unit :=
  match topicAlias properties with
  | none => .ok ()
  | some aliasId =>
    if aliasId = 0 ∨ sender.peerTopicAliasMaximum.toNat < aliasId ∨ topicAliasSlots < aliasId then
      .error .invalidProperty
    else if topic = [] ∧ sender.outgoingTopicAliases.lookup aliasId = none then
      .error .invalidTopic
    else .ok ()

def rememberOutgoingTopicAlias (sender : AliasConnection) (topic : Bytes)
    (properties : List Property) : AliasConnection :=
  match topicAlias properties with
  | none => sender
  | some aliasId =>
    if topic = [] then sender
    else
      { sender with
        outgoingTopicAliases := sender.outgoingTopicAliases.remember aliasId topic }

/-- The loop of `prepareAutomaticTopicAlias`: the slot of `topic`, and the first empty slot. -/
def findAlias (topic : Bytes) (index : Nat) (emptyIndex : Option Nat) :
    List (Option Bytes) → Option Nat × Option Nat
  | [] => (none, emptyIndex)
  | some stored :: rest =>
    if stored = topic then (some index, emptyIndex)
    else findAlias topic (index + 1) emptyIndex rest
  | none :: rest =>
    findAlias topic (index + 1) (if emptyIndex.isNone then some index else emptyIndex) rest

def aliasProperty (index : Nat) : Property := .twoByte .topicAlias (UInt16.ofNat (index + 1))

/-- The topic and the properties to write. -/
def prepareAutomaticTopicAlias (sender : AliasConnection) (topic : Bytes)
    (properties : List Property) : Bytes × List Property :=
  if sender.protocol ≠ .v5 ∨ topic = [] ∨ sender.peerTopicAliasMaximum = 0 ∨
      (topicAlias properties).isSome then
    (topic, properties)
  else
    match findAlias topic 0 none
        (sender.outgoingTopicAliases.toList.take sender.peerTopicAliasMaximum.toNat) with
    | (some index, _) => ([], properties ++ [aliasProperty index])
    | (none, some index) => (topic, properties ++ [aliasProperty index])
    | (none, none) => (topic, properties)

/-- The packet identifier of a PUBLISH, if it has one. -/
def reservePacketId (connection : Connection) (qos : QoS) :
    Except Error (Option UInt16) × Connection :=
  if qos = .atMostOnce then (.ok none, connection)
  else
    match connection.reserveOutgoingPublish qos with
    | (.error e, connection) => (.error e, connection)
    | (.ok packetId, connection) => (.ok (some (UInt16.ofNat packetId)), connection)

def releasePacketId (connection : Connection) (qos : QoS) : Option UInt16 → Connection
  | none => connection
  | some packetId => connection.releaseOutgoingPublish packetId.toNat qos

def publishPacket (topic payload : Bytes) (options : PublishOptions) (packetId : Option UInt16) :
    Packet.Publish where
  dup := options.dup
  qos := options.qos
  retain := options.retain
  topic := topic
  packetId := packetId
  properties := options.properties
  payload := payload

/-- `writePublish`, with the bytes that reach the peer; `refused` is the failure of the
authentication state or the transport, if there is one. -/
def writePublish (sender : AliasConnection) (topic payload : Bytes) (options : PublishOptions)
    (refused : Option Error) : Except Error Bytes × AliasConnection :=
  if sender.connection.peerMaximumQos.level < options.qos.level then (.error .invalidQoS, sender)
  else if options.retain && !sender.connection.peerRetainAvailable then
    (.error .invalidProperty, sender)
  else
    match sender.validateOutgoingTopicAlias topic options.properties with
    | .error e => (.error e, sender)
    | .ok _ =>
      match reservePacketId sender.connection options.qos with
      | (.error e, connection) => (.error e, { sender with connection := connection })
      | (.ok packetId, connection) =>
        let released :=
          { sender with connection := releasePacketId connection options.qos packetId }
        match (publishPacket topic payload options packetId).write sender.protocol with
        | .error e => (.error e, released)
        | .ok bytes =>
          if sender.peerMaxPacketSize < bytes.length then
            (.error .outgoingPacketTooLarge, released)
          else
            match refused with
            | some e => (.error e, released)
            | none =>
              (.ok bytes,
                { sender with connection := connection }.rememberOutgoingTopicAlias topic
                  options.properties)

/-! ### Receiving -/

def applyIncomingTopicAlias (receiver : AliasConnection) (publish : Packet.Publish) :
    Except Error Packet.Publish × AliasConnection :=
  match topicAlias publish.properties with
  | none =>
    match validateTopicName publish.topic with
    | .error e => (.error e, receiver)
    | .ok _ => (.ok publish, receiver)
  | some aliasId =>
    if aliasId = 0 ∨ receiver.incomingTopicAliasMaximum.toNat < aliasId ∨
        topicAliasSlots < aliasId then
      (.error .topicAliasInvalid, receiver)
    else if publish.topic ≠ [] then
      match validateTopicName publish.topic with
      | .error e => (.error e, receiver)
      | .ok _ =>
        (.ok publish,
          { receiver with
            incomingTopicAliases := receiver.incomingTopicAliases.remember aliasId publish.topic })
    else
      match receiver.incomingTopicAliases.lookup aliasId with
      | none => (.error .invalidTopic, receiver)
      | some stored => (.ok { publish with topic := stored }, receiver)

/-- What `readPublish` does to the topic. -/
def readPublish (receiver : AliasConnection) (bytes : Bytes) :
    Except Error Packet.Publish × AliasConnection :=
  match Packet.Publish.parse receiver.protocol bytes with
  | .error e => (.error e, receiver)
  | .ok publish => receiver.applyIncomingTopicAlias publish

end AliasConnection

/-! ### Both ends -/

/-- The topic a PUBLISH stands for at the sender: its own, or that of its alias. -/
def fullTopic (table : AliasTable) (topic : Bytes) (properties : List Property) : Bytes :=
  if topic ≠ [] then topic else ((topicAlias properties).bind table.lookup).getD []

/-- A PUBLISH in the channel, with what the sender was asked to send. -/
structure Flight where
  topic : Bytes
  payload : Bytes
  bytes : Bytes

/-- Two ends and an in-order channel; `delivered` is what became of the packets that arrived. -/
structure AliasLink where
  sender : AliasConnection
  receiver : AliasConnection
  channel : List Flight := []
  delivered : List (Flight × Except Error Packet.Publish) := []

namespace AliasLink

inductive Op
  /-- A topic is sent under an automatic alias; the write is `refused` or reaches the channel. -/
  | publish (topic payload : Bytes) (options : PublishOptions) (refused : Option Error)
  | acknowledge (packetType : PacketType) (packetId reasonCode : Nat) (written : Bool)
  | deliver

def publish (link : AliasLink) (topic payload : Bytes) (options : PublishOptions)
    (refused : Option Error) : AliasLink :=
  let (outgoing, properties) := link.sender.prepareAutomaticTopicAlias topic options.properties
  match link.sender.writePublish outgoing payload { options with properties := properties }
      refused with
  | (.error _, sender) => { link with sender := sender }
  | (.ok bytes, sender) =>
    { link with
      sender := sender
      channel := link.channel ++
        [{ topic := fullTopic link.sender.outgoingTopicAliases topic options.properties
           payload := payload
           bytes := bytes }] }

def deliver (link : AliasLink) : AliasLink :=
  match link.channel with
  | [] => link
  | flight :: rest =>
    let (result, receiver) := link.receiver.readPublish flight.bytes
    { link with
      receiver := receiver
      channel := rest
      delivered := link.delivered ++ [(flight, result)] }

def step (link : AliasLink) : Op → AliasLink
  | .publish topic payload options refused => link.publish topic payload options refused
  | .acknowledge packetType packetId reasonCode written =>
    { link with
      sender := { link.sender with
        connection := (link.sender.connection.applyAck packetType packetId reasonCode written).2 } }
  | .deliver => link.deliver

def run (link : AliasLink) (ops : List Op) : AliasLink := ops.foldl step link

end AliasLink

end Netz.Mqtt
