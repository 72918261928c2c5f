/-
The session store (`mqtt/session/mod.zig`).

The store owns the sessions of all clients, in slots that handles name by index and
generation, and bounds the bytes they hold.  A call that finds its handle stale changes
nothing.  Allocation failures are inputs of the calls that allocate.
-/
import Netz.Lib.Machine
import Netz.Mqtt.Session

namespace Netz.Mqtt

open Lib

structure Options where
  maxSessions : Nat := 16384
  maxSubscriptionsPerSession : Nat := 1024
  maxQueuedPerSession : Nat := 16384
  maxInflightPerSession : Nat := maxU16
  maxIncomingQos2PerSession : Nat := 16384
  maxSessionBytes : Nat := 64 * 1024 * 1024
  maxTotalBytes : Nat := 1024 * 1024 * 1024

structure Handle where
  index : Nat
  generation : Nat
deriving DecidableEq

structure OpenResult where
  handle : Handle
  routeId : Nat
  sessionPresent : Bool
  replacedConnection : Bool

inductive EnqueueResult where
  | queued
  | expired

/-- Whether the allocations of a call succeed: the copies of its arguments, and the growth
of the tables. -/
structure Memory where
  copies : Bool := true
  tables : Bool := true

structure Store where
  options : Options
  sessions : List (Option Session) := []
  clientIndex : Table Bytes Nat := []
  routeIndex : Table Nat Nat := []
  sessionCount : Nat := 0
  totalBytes : Nat := 0
  nextGeneration : Nat := 1
  nextRouteId : Nat := 1
  nextExpiryNs : Option Int := none

/-! ### Publications -/

/-- `@sizeOf(mqtt.Property)`. -/
def propertySize : Nat := 48

/-- The bytes `owned_properties.clone` copies for one property. -/
def propertyBytes : Property → Nat
  | .binary _ value | .utf8 _ value => value.length
  | .utf8Pair _ key value => key.length + value.length
  | _ => 0

def keepQueuedProperty : Property → Bool
  | .twoByte .topicAlias _ => false
  | _ => true

/-- `owned_properties.clone`: the properties kept, and the bytes they take. -/
def cloneProperties (properties : List Property) : Option (List Property × Nat) :=
  let kept := properties.filter keepQueuedProperty
  let bytes := kept.length * propertySize + (kept.map propertyBytes).sum
  if bytes ≤ maxUsize then some (kept, bytes) else none

/-- `owned_properties.clone` with `keepAll`. -/
def cloneAllProperties (properties : List Property) : Option (List Property × Nat) :=
  let bytes := properties.length * propertySize + (properties.map propertyBytes).sum
  if bytes ≤ maxUsize then some (properties, bytes) else none

/-- `clonePublish`; the serial is the session's to give. -/
def clonePublish (serial : Nat) (topic payload : Bytes) (qos : QoS) (retain : Bool)
    (properties : List Property) (nowNs : Int) : Except Error OwnedPublish :=
  match checkedAdd topic.length payload.length with
  | none => .error .sessionByteLimitExceeded
  | some wire =>
    match cloneProperties properties with
    | none => .error .sessionByteLimitExceeded
    | some (kept, propertyBytes) =>
      match checkedAdd wire propertyBytes with
      | none => .error .sessionByteLimitExceeded
      | some bytes =>
        .ok
          { serial := serial, topic := topic, payload := payload, qos := qos, retain := retain,
            properties := kept, storedAtNs := nowNs,
            expiryInterval := messageExpiryInterval properties, allocationBytes := bytes }

def validateQueuedPayload (properties : List Property) (payload : Bytes) : Except Error Unit :=
  if properties.any (fun p => p == .byte .payloadFormatIndicator 1) && !utf8ValidateSlice payload
  then .error .invalidUtf8
  else .ok ()

/-- The checks of `enqueuePublish` that do not look at the session. -/
def validateQueuedPublish (topic payload : Bytes) (qos : QoS) (properties : List Property) :
    Except Error Unit :=
  if qos = .atMostOnce then .error .invalidQoS
  else
    match validateTopicName topic with
    | .error e => .error e
    | .ok _ =>
      match validatePublishProperties properties with
      | .error e => .error e
      | .ok _ =>
        match validateQueuedPayload properties payload with
        | .error e => .error e
        | .ok _ => if (topicAlias properties).isSome then .error .invalidProperty else .ok ()

namespace Store

/-! ### Slots and handles -/

def sessionAt (store : Store) (index : Nat) : Option Session := (store.sessions[index]?).join

def getSession (store : Store) (handle : Handle) : Option Session :=
  (store.sessionAt handle.index).filter fun session => session.generation == handle.generation

def routeId (store : Store) (handle : Handle) : Option Nat :=
  (store.getSession handle).map (·.routeId)

def handleForRouteId (store : Store) (routeId : Nat) : Option Handle :=
  match store.routeIndex.get routeId with
  | none => none
  | some index => (store.sessionAt index).map fun session => ⟨index, session.generation⟩

/-- A session written back to its slot, with the byte counter it was changed under. -/
def putBack (store : Store) (index : Nat) (held : Held) : Store :=
  { store with
    sessions := store.sessions.set index (some held.session)
    totalBytes := held.totalBytes }

/-- A call on the session a handle names. -/
def onSession {α : Type} (store : Store) (handle : Handle)
    (call : Held → Except Error α × Held) : Except Error α × Store :=
  match store.getSession handle with
  | none => (.error .sessionNotFound, store)
  | some session =>
    let result := call ⟨session, store.totalBytes⟩
    (result.1, store.putBack handle.index result.2)

/-- `ensureBytes`. -/
def bytesFit (store : Store) (session : Session) (additional : Nat) : Bool :=
  decide (additional ≤ store.options.maxSessionBytes - session.allocationBytes) &&
    decide (additional ≤ store.options.maxTotalBytes - store.totalBytes)

def removeAt (store : Store) (index : Nat) (session : Session) : Store :=
  { store with
    clientIndex := store.clientIndex.remove session.clientId
    routeIndex := store.routeIndex.remove session.routeId
    sessions := store.sessions.set index none
    sessionCount := store.sessionCount - 1
    totalBytes := store.totalBytes - session.allocationBytes }

def isExpired (session : Session) (nowNs : Int) : Bool :=
  !session.connected &&
    match session.expiresAtNs with
    | none => false
    | some deadline => decide (deadline ≤ nowNs)

/-- `std.math.maxInt(i96)`. -/
def maxI96 : Int := 2 ^ 95 - 1

def expiryDeadline (nowNs : Int) (interval : Nat) : Option Int :=
  if interval = maxU32 then none else some (min (nowNs + interval * nsPerS) maxI96)

def followingGeneration (generation : Nat) : Nat :=
  if (generation + 1) % 2 ^ 64 = 0 then 1 else (generation + 1) % 2 ^ 64

def followingRouteId (routeId : Nat) : Nat :=
  if (routeId + 1) % 2 ^ 64 = 0 ∨ 2 ^ 63 ≤ (routeId + 1) % 2 ^ 64 then 1
  else (routeId + 1) % 2 ^ 64

/-- The loop of `nextRouteId`: the identifier found and the one to start from next. -/
def nextRouteIdLoop (live : Table Nat Nat) : Nat → Nat → Option (Nat × Nat)
  | 0, _ => none
  | attempts + 1, routeId =>
    if (live.get routeId).isSome then nextRouteIdLoop live attempts (followingRouteId routeId)
    else some (routeId, followingRouteId routeId)

/-- One attempt more than there are live identifiers; the source loops until its assertion
fails. -/
def allocateRouteId (store : Store) : Option (Nat × Nat) :=
  nextRouteIdLoop store.routeIndex (store.routeIndex.length + 1) store.nextRouteId

/-! ### Opening and closing -/

/-- A session of the client that is found expired is removed first. -/
def dropExpired (store : Store) (clientId : Bytes) (nowNs : Int) : Option Store :=
  match store.clientIndex.get clientId with
  | none => some store
  | some index =>
    match store.sessionAt index with
    | none => none
    | some session => some (if isExpired session nowNs then store.removeAt index session else store)

/-- A client resumes the session in slot `index`. -/
def resume (store : Store) (index : Nat) (session : Session) (expiryInterval : Nat) :
    OpenResult × Store :=
  let resumed :=
    { session.markInflight with
      generation := store.nextGeneration
      connected := true
      expiryInterval := expiryInterval
      expiresAtNs := none }
  ({ handle := ⟨index, store.nextGeneration⟩, routeId := session.routeId, sessionPresent := true,
     replacedConnection := session.connected },
   { store with
     nextGeneration := followingGeneration store.nextGeneration
     sessions := store.sessions.set index (some resumed) })

/-- A client starts a session of its own. -/
def create (store : Store) (clientId : Bytes) (expiryInterval : Nat) (replaced : Bool)
    (memory : Memory) : Except Error OpenResult × Store :=
  if store.options.maxSessions ≤ store.sessionCount then (.error .sessionLimitExceeded, store)
  else if memory.copies = false then (.error .outOfMemory, store)
  else if store.options.maxSessionBytes < clientId.length ∨
      store.options.maxTotalBytes - store.totalBytes < clientId.length then
    (.error .sessionByteLimitExceeded, store)
  else if memory.tables = false then (.error .outOfMemory, store)
  else
    match store.allocateRouteId with
    | none => (.error .panic, store)
    | some (routeId, nextRouteId) =>
      let session : Session :=
        { generation := store.nextGeneration, routeId := routeId, clientId := clientId,
          connected := true, expiryInterval := expiryInterval, expiresAtNs := none,
          allocationBytes := clientId.length }
      let index := vacantSlot store.sessions
      (.ok { handle := ⟨index, store.nextGeneration⟩, routeId := routeId, sessionPresent := false,
             replacedConnection := replaced },
       { store with
         sessions := insertSlot session store.sessions
         clientIndex := store.clientIndex.put clientId index
         routeIndex := store.routeIndex.put routeId index
         sessionCount := store.sessionCount + 1
         totalBytes := store.totalBytes + clientId.length
         nextGeneration := followingGeneration store.nextGeneration
         nextRouteId := nextRouteId })

/-- The part of `open` behind the removal of an expired session. -/
def openLive (store : Store) (clientId : Bytes) (cleanStart : Bool) (expiryInterval : Nat)
    (memory : Memory) : Except Error OpenResult × Store :=
  match store.clientIndex.get clientId with
  | none => store.create clientId expiryInterval false memory
  | some index =>
    match store.sessionAt index with
    | none => (.error .panic, store)
    | some session =>
      if cleanStart then
        (store.removeAt index session).create clientId expiryInterval session.connected memory
      else
        let resumed := store.resume index session expiryInterval
        (.ok resumed.1, resumed.2)

def openSession (store : Store) (clientId : Bytes) (cleanStart : Bool) (expiryInterval : Nat)
    (nowNs : Int) (memory : Memory) : Except Error OpenResult × Store :=
  if clientId.length = 0 ∧ cleanStart = false then (.error .invalidClientId, store)
  else
    match store.dropExpired clientId nowNs with
    | none => (.error .panic, store)
    | some store => store.openLive clientId cleanStart expiryInterval memory

/-- The session stays behind its client, until its deadline. -/
def goOffline (store : Store) (index : Nat) (session : Session) (nowNs : Int) : Store :=
  let deadline := expiryDeadline nowNs session.expiryInterval
  let offline := { session.markInflight with connected := false, expiresAtNs := deadline }
  { store with
    sessions := store.sessions.set index (some offline)
    nextExpiryNs :=
      match deadline, store.nextExpiryNs with
      | none, next => next
      | some deadline, none => some deadline
      | some deadline, some next => some (if deadline < next then deadline else next) }

def disconnect (store : Store) (handle : Handle) (expiryOverride : Option Nat) (nowNs : Int) :
    Except Error Unit × Store :=
  match store.getSession handle with
  | none => (.error .sessionNotFound, store)
  | some session =>
    let expiryInterval := expiryOverride.getD session.expiryInterval
    if session.expiryInterval = 0 ∧ expiryInterval ≠ 0 then (.error .invalidProperty, store)
    else if expiryInterval = 0 then (.ok (), store.removeAt handle.index session)
    else (.ok (), store.goOffline handle.index { session with expiryInterval := expiryInterval } nowNs)

/-! ### Messages -/

/-- The part of `enqueuePublish` behind the copy of the message. -/
def enqueueOwned (store : Store) (index : Nat) (session : Session) (publish : OwnedPublish)
    (memory : Memory) : Except Error EnqueueResult × Store :=
  if store.bytesFit session publish.allocationBytes = false then
    (.error .sessionByteLimitExceeded, store)
  else
    let roomy := session.makeQueueRoom store.options.maxQueuedPerSession
    if memory.tables = false then
      (.error .outOfMemory, store.putBack index ⟨roomy, store.totalBytes⟩)
    else
      (.ok .queued,
        store.putBack index
          ⟨roomy.appendQueued publish, store.totalBytes + publish.allocationBytes⟩)

def enqueuePublish (store : Store) (handle : Handle) (topic payload : Bytes) (qos : QoS)
    (retain : Bool) (properties : List Property) (nowNs : Int) (memory : Memory) :
    Except Error EnqueueResult × Store :=
  match validateQueuedPublish topic payload qos properties with
  | .error e => (.error e, store)
  | .ok _ =>
    match store.getSession handle with
    | none => (.error .sessionNotFound, store)
    | some session =>
      if store.options.maxQueuedPerSession ≤ session.queuedCount then (.error .queueFull, store)
      else if messageExpiryInterval properties = some 0 then (.ok .expired, store)
      else if memory.copies = false then (.error .outOfMemory, store)
      else
        match clonePublish session.history.accepted.length topic payload qos retain properties
            nowNs with
        | .error e => (.error e, store)
        | .ok publish => store.enqueueOwned handle.index session publish memory

def drainInto (store : Store) (handle : Handle) (nowNs : Int) (receiveMaximum capacity : Nat)
    (memory : Memory) : Except Error (List Transmission) × Store :=
  if receiveMaximum = 0 then (.error .invalidProperty, store)
  else
    store.onSession handle fun held =>
      held.drainInto store.options.maxInflightPerSession nowNs receiveMaximum capacity
        memory.tables

def retryUnsentPublish (store : Store) (handle : Handle) (packetId : Nat) :
    Except Error Unit × Store :=
  store.onSession handle fun held => held.retryUnsentPublish packetId

def handleAck (store : Store) (handle : Handle) (packetType : PacketType)
    (packetId reasonCode : Nat) : Except Error Held.AckAction × Store :=
  store.onSession handle fun held => held.handleAck packetType packetId reasonCode

def dropOversizedPublish (store : Store) (handle : Handle) (packetId : Nat) :
    Except Error Held.DropAction × Store :=
  store.onSession handle fun held => held.dropOversizedPublish packetId

/-! ### Runs -/

/-- A call of the store's message interface. -/
inductive Op where
  | openSession (clientId : Bytes) (cleanStart : Bool) (expiryInterval : Nat) (nowNs : Int)
      (memory : Memory)
  | disconnect (handle : Handle) (expiryOverride : Option Nat) (nowNs : Int)
  | enqueuePublish (handle : Handle) (topic payload : Bytes) (qos : QoS) (retain : Bool)
      (properties : List Property) (nowNs : Int) (memory : Memory)
  | drainInto (handle : Handle) (nowNs : Int) (receiveMaximum capacity : Nat) (memory : Memory)
  | retryUnsentPublish (handle : Handle) (packetId : Nat)
  | handleAck (handle : Handle) (packetType : PacketType) (packetId reasonCode : Nat)
  | dropOversizedPublish (handle : Handle) (packetId : Nat)

inductive Reply where
  | opened (result : Except Error OpenResult)
  | disconnected (result : Except Error Unit)
  | enqueued (result : Except Error EnqueueResult)
  | drained (result : Except Error (List Transmission))
  | retried (result : Except Error Unit)
  | acknowledged (result : Except Error Held.AckAction)
  | dropped (result : Except Error Held.DropAction)

def step (store : Store) : Op → Reply × Store
  | .openSession clientId cleanStart expiryInterval nowNs memory =>
    let r := store.openSession clientId cleanStart expiryInterval nowNs memory
    (.opened r.1, r.2)
  | .disconnect handle expiryOverride nowNs =>
    let r := store.disconnect handle expiryOverride nowNs
    (.disconnected r.1, r.2)
  | .enqueuePublish handle topic payload qos retain properties nowNs memory =>
    let r := store.enqueuePublish handle topic payload qos retain properties nowNs memory
    (.enqueued r.1, r.2)
  | .drainInto handle nowNs receiveMaximum capacity memory =>
    let r := store.drainInto handle nowNs receiveMaximum capacity memory
    (.drained r.1, r.2)
  | .retryUnsentPublish handle packetId =>
    let r := store.retryUnsentPublish handle packetId
    (.retried r.1, r.2)
  | .handleAck handle packetType packetId reasonCode =>
    let r := store.handleAck handle packetType packetId reasonCode
    (.acknowledged r.1, r.2)
  | .dropOversizedPublish handle packetId =>
    let r := store.dropOversizedPublish handle packetId
    (.dropped r.1, r.2)

end Store

end Netz.Mqtt
