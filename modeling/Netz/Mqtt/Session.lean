/-
One session of the broker's session store (`mqtt/session/mod.zig`).

A session queues publications for its client, moves them into an inflight window as the
client's Receive Maximum allows, and keeps them there until they are acknowledged.  The
queue and the inflight table are arrays with vacant slots; the hash map from packet
identifiers to inflight slots is a table.

Nothing in the source names a message, so a publication carries the number of messages its
session accepted before it, and a session carries the history of its messages.  Both are
ghosts: no branch reads them.  What is claimed of the messages is claimed of the ledger of the
calls and their replies; the proofs show that the history is that ledger.
-/
import Netz.Lib.Slots
import Netz.Mqtt.Packet

namespace Netz.Mqtt

open Lib

structure OwnedPublish where
  /-- Ghost: the messages the session accepted before this one. -/
  serial : Nat
  topic : Bytes
  payload : Bytes
  qos : QoS
  retain : Bool
  properties : List Property
  storedAtNs : Int
  expiryInterval : Option Nat
  allocationBytes : Nat

inductive InflightState where
  | awaitPuback
  | awaitPubrec
  | awaitPubcomp
deriving DecidableEq

structure Inflight where
  publish : OwnedPublish
  packetId : Nat
  state : InflightState
  needsSend : Bool
  retransmission : Bool

structure OwnedSubscription where
  topicFilter : Bytes
  qos : QoS
  noLocal : Bool
  retainAsPublished : Bool
  retainHandling : Nat
  subscriptionIdentifier : Option Nat

/-- Why a message is finished. -/
inductive Fate where
  | acknowledged
  | refused
  | expired
  | oversized
deriving DecidableEq

/-- What happened to the messages of a session, oldest first. -/
structure History where
  accepted : List OwnedPublish := []
  /-- Those that left the queue for their first transmission. -/
  departed : List OwnedPublish := []
  finished : List (OwnedPublish × Fate) := []
  /-- The serials of the PUBLISH packets sent again since the session was last connected or
  disconnected. -/
  resent : List Nat := []

structure Session where
  generation : Nat
  routeId : Nat
  clientId : Bytes
  connected : Bool
  expiryInterval : Nat
  expiresAtNs : Option Int
  subscriptions : List (Option OwnedSubscription) := []
  subscriptionCount : Nat := 0
  queued : List (Option OwnedPublish) := []
  queuedHead : Nat := 0
  queuedCount : Nat := 0
  inflight : List (Option Inflight) := []
  inflightCount : Nat := 0
  packetIndex : Table Nat Nat := []
  /-- The keys of the hash map `incoming_qos2`. -/
  incomingQos2 : List Nat := []
  nextPacketId : Nat := 1
  allocationBytes : Nat
  history : History := {}

structure PublishTransmission where
  /-- Ghost: the serial of the message sent. -/
  serial : Nat
  topic : Bytes
  payload : Bytes
  qos : QoS
  retain : Bool
  dup : Bool
  packetId : Nat
  properties : List Property
  messageExpiryInterval : Option Nat
deriving DecidableEq

inductive Transmission where
  | publish (packet : PublishTransmission)
  | pubrel (packetId : Nat)
deriving DecidableEq

namespace Transmission

def isPublish : Transmission → Bool
  | .publish _ => true
  | .pubrel _ => false

def serial? : Transmission → Option Nat
  | .publish packet => some packet.serial
  | .pubrel _ => none

end Transmission

/-- `std.time.ns_per_s`. -/
def nsPerS : Int := 1000000000

def remainingExpiry (publish : OwnedPublish) (nowNs : Int) : Option Nat :=
  match publish.expiryInterval with
  | none => none
  | some interval =>
    if interval = 0 then some 0
    else
      let elapsed := max (nowNs - publish.storedAtNs) 0
      if (interval : Int) * nsPerS ≤ elapsed then some 0
      else some (interval - (elapsed / nsPerS).toNat)

def publishTransmission (inflight : Inflight) (nowNs : Int) : PublishTransmission where
  serial := inflight.publish.serial
  topic := inflight.publish.topic
  payload := inflight.publish.payload
  qos := inflight.publish.qos
  retain := inflight.publish.retain
  dup := inflight.retransmission
  packetId := inflight.packetId
  properties := inflight.publish.properties
  messageExpiryInterval := remainingExpiry inflight.publish nowNs

def transmissionForInflight (inflight : Inflight) (nowNs : Int) : Transmission :=
  match inflight.state with
  | .awaitPuback | .awaitPubrec => .publish (publishTransmission inflight nowNs)
  | .awaitPubcomp => .pubrel inflight.packetId

def appendOrReuseAssumeCapacity {α : Type} (list : List (Option α)) (value : α) :
    List (Option α) × Nat :=
  (insertSlot value list, vacantSlot list)

/-- The loop that `open` and `disconnect` run over the inflight table. -/
def markForRetransmission (inflight : Inflight) : Inflight :=
  { inflight with needsSend := true, retransmission := true }

/-- A session with the store's byte counter, which changes with the session's own. -/
structure Held where
  session : Session
  totalBytes : Nat

namespace Session

/-! ### The queue -/

def compactQueue (session : Session) : Session :=
  { session with
    queued := ((session.queued.drop session.queuedHead).reduceOption).map some
    queuedHead := 0 }

def advanceQueueHead (session : Session) : Session :=
  if session.queuedCount = 0 then { session with queued := [], queuedHead := 0 }
  else
    let vacant := (session.queued.drop session.queuedHead).takeWhile Option.isNone
    { session with queuedHead := session.queuedHead + vacant.length }

/-- The queue as `enqueuePublish` leaves it for the append. -/
def makeQueueRoom (session : Session) (maxQueued : Nat) : Session :=
  if session.queuedCount = 0 then { session with queued := [], queuedHead := 0 }
  else if maxQueued ≤ session.queued.length then session.compactQueue
  else session

/-- The append of `enqueuePublish`. -/
def appendQueued (session : Session) (publish : OwnedPublish) : Session :=
  { session with
    queued := session.queued ++ [some publish]
    queuedCount := session.queuedCount + 1
    allocationBytes := session.allocationBytes + publish.allocationBytes
    history := { session.history with accepted := session.history.accepted ++ [publish] } }

/-! ### Packet identifiers -/

def followingPacketId (packetId : Nat) : Nat :=
  if (packetId + 1) % 2 ^ 16 = 0 then 1 else (packetId + 1) % 2 ^ 16

/-- The loop of `reservePacketId` with so many attempts left. -/
def reservePacketIdLoop : Nat → Session → Option Nat × Session
  | 0, session => (none, session)
  | attempts + 1, session =>
    let packetId := session.nextPacketId
    let session := { session with nextPacketId := followingPacketId packetId }
    if (session.packetIndex.get packetId).isSome then reservePacketIdLoop attempts session
    else (some packetId, session)

def reservePacketId (session : Session) : Option Nat × Session :=
  reservePacketIdLoop maxU16 session

/-! ### From the queue into the window -/

/-- The state a message of this quality waits in; QoS 0 is marked unreachable. -/
def initialState : QoS → Option InflightState
  | .atLeastOnce => some .awaitPuback
  | .exactlyOnce => some .awaitPubrec
  | .atMostOnce => none

/-- A message enters the inflight table under a packet identifier. -/
def addInflight (session : Session) (inflight : Inflight) : Session :=
  let placed := appendOrReuseAssumeCapacity session.inflight inflight
  { session with
    inflight := placed.1
    packetIndex := session.packetIndex.put inflight.packetId placed.2
    inflightCount := session.inflightCount + 1
    history := { session.history with departed := session.history.departed ++ [inflight.publish] } }

/-- One message that the loop of `drainInto` finds at `index` of the queue. -/
def moveQueued (session : Session) (nowNs : Int) (index : Nat) (publish : OwnedPublish) :
    Except Error Transmission × Session :=
  let taken :=
    { session with
      queued := session.queued.set index none
      queuedCount := session.queuedCount - 1 }
  match taken.reservePacketId with
  | (none, session) => (.error .inflightFull, session)
  | (some packetId, session) =>
    match initialState publish.qos with
    | none => (.error .panic, session)
    | some state =>
      let inflight : Inflight :=
        { publish := publish, packetId := packetId, state := state, needsSend := false,
          retransmission := false }
      (.ok (.publish (publishTransmission inflight nowNs)), session.addInflight inflight)

/-- The variables of the loop of `drainInto` over the queue. -/
structure DrainLoop where
  session : Session
  out : List Transmission
  available : Nat
  queueIndex : Nat

/-- The loop itself, with at most so many slots left to look at. -/
def drainLoop (nowNs : Int) : Nat → DrainLoop → Option Error × DrainLoop
  | 0, loop => (none, loop)
  | slots + 1, loop =>
    if loop.available = 0 then (none, loop)
    else
      match loop.session.queued[loop.queueIndex]? with
      | none => (none, loop)
      | some none => drainLoop nowNs slots { loop with queueIndex := loop.queueIndex + 1 }
      | some (some publish) =>
        match loop.session.moveQueued nowNs loop.queueIndex publish with
        | (.error e, session) => (some e, { loop with session := session })
        | (.ok transmission, session) =>
          drainLoop nowNs slots
            { session := session
              out := loop.out ++ [transmission]
              available := loop.available - 1
              queueIndex := loop.queueIndex + 1 }

/-- The loop from the head of the queue on, and the head behind it. -/
def drainQueue (session : Session) (nowNs : Int) (out : List Transmission) (available : Nat) :
    Except Error (List Transmission) × Session :=
  match drainLoop nowNs session.queued.length
      { session := session, out := out, available := available,
        queueIndex := session.queuedHead } with
  | (some e, loop) => (.error e, loop.session)
  | (none, loop) =>
    (.ok loop.out, advanceQueueHead { loop.session with queuedHead := loop.queueIndex })

/-! ### Sending again -/

def countSentPublishInflight (session : Session) : Nat :=
  session.inflight.reduceOption.countP fun inflight =>
    inflight.state != .awaitPubcomp && !inflight.needsSend

/-- The variables of the first loop of `drainInto`. -/
structure ResendPass where
  slots : List (Option Inflight)
  out : List Transmission
  publishWindowUsed : Nat

/-- The loop over the inflight slots; the slots it has gone through are those of the
result in front of the ones it is given. -/
def resendLoop (nowNs : Int) (receiveMaximum capacity : Nat) :
    List (Option Inflight) → List Transmission → Nat → ResendPass
  | [], out, used => ⟨[], out, used⟩
  | none :: rest, out, used =>
    if out.length = capacity then ⟨none :: rest, out, used⟩
    else
      let pass := resendLoop nowNs receiveMaximum capacity rest out used
      { pass with slots := none :: pass.slots }
  | some inflight :: rest, out, used =>
    let transmission := transmissionForInflight inflight nowNs
    if out.length = capacity then ⟨some inflight :: rest, out, used⟩
    else if !inflight.needsSend || (transmission.isPublish && decide (receiveMaximum ≤ used)) then
      let pass := resendLoop nowNs receiveMaximum capacity rest out used
      { pass with slots := some inflight :: pass.slots }
    else
      let pass := resendLoop nowNs receiveMaximum capacity rest (out ++ [transmission])
        (if transmission.isPublish then used + 1 else used)
      { pass with slots := some { inflight with needsSend := false } :: pass.slots }

def afterResend (session : Session) (pass : ResendPass) : Session :=
  { session with inflight := pass.slots }

/-- The packets sent again reach the caller. -/
def noteResent (session : Session) (out : List Transmission) : Session :=
  { session with
    history :=
      { session.history with
        resent := session.history.resent ++ out.filterMap Transmission.serial? } }

def resend (session : Session) (nowNs : Int) (receiveMaximum capacity : Nat) : ResendPass :=
  resendLoop nowNs receiveMaximum capacity session.inflight [] session.countSentPublishInflight

/-! ### Marks -/

def markInflight (session : Session) : Session :=
  { session with
    inflight := session.inflight.map (Option.map markForRetransmission)
    history := { session.history with resent := [] } }

/-- An inflight message rewritten in its slot. -/
def setInflight (session : Session) (index : Nat) (inflight : Inflight) : Session :=
  { session with inflight := session.inflight.set index (some inflight) }

end Session

namespace Held

def removeInflight (held : Held) (index : Nat) (inflight : Inflight) (fate : Fate) : Held where
  session :=
    { held.session with
      inflight := held.session.inflight.set index none
      packetIndex := held.session.packetIndex.remove inflight.packetId
      inflightCount := held.session.inflightCount - 1
      allocationBytes := held.session.allocationBytes - inflight.publish.allocationBytes
      history :=
        { held.session.history with
          finished := held.session.history.finished ++ [(inflight.publish, fate)] } }
  totalBytes := held.totalBytes - inflight.publish.allocationBytes

/-! ### Expiry -/

def hasExpired (nowNs : Int) (publish : OwnedPublish) : Bool :=
  remainingExpiry publish nowNs == some 0

/-- The loop of `pruneExpiredPublishes` over the queue. -/
def pruneQueued (held : Held) (nowNs : Int) : Held :=
  let session := held.session
  let slots := session.queued.drop session.queuedHead
  let removed := slots.reduceOption.filter (hasExpired nowNs)
  let bytes := (removed.map (·.allocationBytes)).sum
  { session :=
      { session with
        queued :=
          session.queued.take session.queuedHead
            ++ slots.map (Option.filter fun publish => !hasExpired nowNs publish)
        queuedCount := session.queuedCount - removed.length
        allocationBytes := session.allocationBytes - bytes
        history :=
          { session.history with
            finished := session.history.finished ++ removed.map (·, .expired) } }
    totalBytes := held.totalBytes - bytes }

/-- One slot of the loop of `pruneExpiredPublishes` over the inflight table. -/
def pruneSlot (nowNs : Int) (held : Held) (index : Nat) : Held :=
  match held.session.inflight[index]? with
  | some (some inflight) =>
    if inflight.state = .awaitPubcomp ∨ hasExpired nowNs inflight.publish = false then held
    else held.removeInflight index inflight .expired
  | _ => held

def pruneInflight (held : Held) (nowNs : Int) : Held :=
  (List.range held.session.inflight.length).foldl (pruneSlot nowNs) held

def pruneExpiredPublishes (held : Held) (nowNs : Int) : Held :=
  let pruned := held.pruneQueued nowNs
  pruneInflight { pruned with session := pruned.session.advanceQueueHead } nowNs

/-! ### The calls -/

/-- The part of `drainInto` behind the lookup of the session.  `memory` says whether the
tables can grow for the messages to come. -/
def drainInto (held : Held) (maxInflightPerSession : Nat) (nowNs : Int)
    (receiveMaximum capacity : Nat) (memory : Bool) : Except Error (List Transmission) × Held :=
  let pruned := held.pruneExpiredPublishes nowNs
  let pass := pruned.session.resend nowNs receiveMaximum capacity
  let session := pruned.session.afterResend pass
  let kept := { pruned with session := session }
  let resent := { pruned with session := session.noteResent pass.out }
  if pass.out.length = capacity then (.ok pass.out, resent)
  else
    let available :=
      min (min (receiveMaximum - min receiveMaximum pass.publishWindowUsed)
        (capacity - pass.out.length)) session.queuedCount
    if available = 0 then (.ok pass.out, resent)
    else if min maxInflightPerSession maxU16 < session.inflightCount + available then
      (.error .inflightFull, kept)
    else if memory = false then (.error .outOfMemory, kept)
    else
      let drained := resent.session.drainQueue nowNs pass.out available
      (drained.1, { resent with session := drained.2 })

def retryUnsentPublish (held : Held) (packetId : Nat) : Except Error Unit × Held :=
  let session := held.session
  match session.packetIndex.get packetId with
  | none => (.error .invalidAcknowledgement, held)
  | some index =>
    match session.inflight[index]? with
    | some (some inflight) =>
      if inflight.state = .awaitPubcomp then (.error .invalidAcknowledgement, held)
      else
        let retried := { inflight with needsSend := true, retransmission := false }
        (.ok (), { held with session := session.setInflight index retried })
    | _ => (.error .panic, held)

inductive AckAction where
  | completed
  | sendPubrel

/-- The switch of `handleAck` on the packet type, for the message in slot `index`. -/
def acknowledge (held : Held) (packetType : PacketType) (reasonCode index : Nat)
    (inflight : Inflight) : Except Error AckAction × Held :=
  match packetType with
  | .puback =>
    if inflight.state = .awaitPuback then
      (.ok .completed, held.removeInflight index inflight .acknowledged)
    else (.error .invalidAcknowledgement, held)
  | .pubrec =>
    if inflight.state = .awaitPubrec then
      if 0x80 ≤ reasonCode then (.ok .completed, held.removeInflight index inflight .refused)
      else
        let released :=
          { inflight with state := .awaitPubcomp, needsSend := true, retransmission := false }
        (.ok .sendPubrel, { held with session := held.session.setInflight index released })
    else (.error .invalidAcknowledgement, held)
  | .pubcomp =>
    if inflight.state = .awaitPubcomp then
      (.ok .completed, held.removeInflight index inflight .acknowledged)
    else (.error .invalidAcknowledgement, held)
  | _ => (.error .invalidAcknowledgement, held)

def handleAck (held : Held) (packetType : PacketType) (packetId reasonCode : Nat) :
    Except Error AckAction × Held :=
  match held.session.packetIndex.get packetId with
  | none => (.error .invalidAcknowledgement, held)
  | some index =>
    match held.session.inflight[index]? with
    | some (some inflight) => held.acknowledge packetType reasonCode index inflight
    | _ => (.error .panic, held)

inductive DropAction where
  | dropped
  | ignored

def dropOversizedPublish (held : Held) (packetId : Nat) : Except Error DropAction × Held :=
  match held.session.packetIndex.get packetId with
  | none => (.ok .ignored, held)
  | some index =>
    match held.session.inflight[index]? with
    | some (some inflight) =>
      if inflight.state = .awaitPubcomp then (.ok .ignored, held)
      else (.ok .dropped, held.removeInflight index inflight .oversized)
    | _ => (.error .panic, held)

end Held

end Netz.Mqtt

/-! ### Application messages on their way through the broker (`mqtt/broker.zig`,
`mqtt/broker/publication.zig`).

A PUBLISH is routed with its properties; what the queues and the sessions keep of them differs. -/

namespace Netz.Mqtt

/-- `mqtt.Publish`, as far as it is routed. -/
structure Publish where
  topic : Bytes
  payload : Bytes
  qos : QoS
  retain : Bool
  properties : List Property

/-! ### Properties -/

def isTopicAlias : Property → Bool
  | .twoByte .topicAlias _ => true
  | _ => false

def isSubscriptionIdentifier : Property → Bool
  | .varint .subscriptionIdentifier _ => true
  | _ => false

/-- The properties `enqueueSessionDeliveryManyLocked` stores. -/
def sessionProperties (properties : List Property) (identifiers : List Nat) : List Property :=
  properties.filter (fun p => !(isTopicAlias p || isSubscriptionIdentifier p))
    ++ identifiers.map (Property.varint .subscriptionIdentifier)

/-- The properties `Publication.create` keeps. -/
def forwardProperties (properties : List Property) : List Property :=
  properties.filter (fun p => !(isTopicAlias p || isSubscriptionIdentifier p))

end Netz.Mqtt
