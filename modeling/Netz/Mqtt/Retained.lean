/-
The retained-message store (`mqtt/retained/mod.zig`).

The store owns one message for each topic, in slots that an index over the topics names.
Time is a parameter of every call, and nothing is removed by time alone: a message that has
expired is passed over by the queries, and removed by `pruneExpired`.
-/
import Netz.Mqtt.SessionStore
import Netz.Mqtt.Topic

namespace Netz.Mqtt.Retained

open Lib

structure Options where
  maxMessages : Nat := 65536
  maxMessageBytes : Nat := 16 * 1024 * 1024
  maxTotalBytes : Nat := 256 * 1024 * 1024

inductive StoreResult where
  | ignored
  | inserted
  | replaced
  | removed

structure Entry where
  topic : Bytes
  payload : Bytes
  qos : QoS
  properties : List Property
  publisherId : Option Nat
  storedAtNs : Int
  expiryInterval : Option Nat
  allocationBytes : Nat

structure Store where
  options : Options
  entries : List (Option Entry) := []
  index : Table Bytes Nat := []
  messageCount : Nat := 0
  totalBytes : Nat := 0

/-- The arguments of `applyPublish`. -/
structure Request where
  topic : Bytes
  payload : Bytes
  retain : Bool
  qos : QoS := .atMostOnce
  properties : List Property := []
  publisherId : Option Nat := none
  nowNs : Int

/-! ### Entries -/

/-- A topic alias belongs to one connection. -/
def keepRetainedProperty : Property → Bool
  | .twoByte .topicAlias _ => false
  | _ => true

/-- The bytes of `owned_properties.clone`. -/
def clonedPropertyBytes (properties : List Property) : Nat :=
  properties.length * propertySize + (properties.map propertyBytes).sum

def cloneEntry (request : Request) : Except Error Entry :=
  let kept := request.properties.filter keepRetainedProperty
  if maxUsize < clonedPropertyBytes kept then .error .retainedLimitExceeded
  else
    match checkedAdd (request.topic.length + request.payload.length) (clonedPropertyBytes kept) with
    | none => .error .retainedLimitExceeded
    | some bytes =>
      .ok
        { topic := request.topic, payload := request.payload, qos := request.qos,
          properties := kept, publisherId := request.publisherId,
          storedAtNs := request.nowNs,
          expiryInterval := messageExpiryInterval request.properties,
          allocationBytes := bytes }

/-- The seconds that are left of a message's lifetime. -/
def remainingExpiry (entry : Entry) (nowNs : Int) : Option Nat :=
  entry.expiryInterval.map fun interval =>
    if interval = 0 then 0
    else
      let elapsedNs := (max (nowNs - entry.storedAtNs) 0).toNat
      if interval * nsPerS.toNat ≤ elapsedNs then 0 else interval - elapsedNs / nsPerS.toNat

namespace Store

def entryAt (store : Store) (index : Nat) : Option Entry := (store.entries[index]?).join

/-! ### Changes -/

def removeAt (store : Store) (index : Nat) (entry : Entry) : Store :=
  { store with
    index := store.index.remove entry.topic
    entries := store.entries.set index none
    messageCount := store.messageCount - 1
    totalBytes := store.totalBytes - entry.allocationBytes }

/-- `none` where the source would unwrap an empty slot. -/
def remove (store : Store) (topic : Bytes) : Option (Bool × Store) :=
  match store.index.get topic with
  | none => some (false, store)
  | some index =>
    match store.entryAt index with
    | none => none
    | some entry => some (true, store.removeAt index entry)

/-- The entry takes the slot of the one it replaces. -/
def replaceAt (store : Store) (index : Nat) (old new : Entry) : Store :=
  { store with
    entries := store.entries.set index (some new)
    totalBytes := store.totalBytes - old.allocationBytes + new.allocationBytes }

def insertEntry (store : Store) (entry : Entry) : Store :=
  { store with
    entries := insertSlot entry store.entries
    index := store.index.put entry.topic (vacantSlot store.entries)
    messageCount := store.messageCount + 1
    totalBytes := store.totalBytes + entry.allocationBytes }

/-- The part of `applyPublish` behind the clone of the message. -/
def placeEntry (store : Store) (entry : Entry) (memory : Memory) :
    Except Error StoreResult × Store :=
  if store.options.maxMessageBytes < entry.allocationBytes ∨
      store.options.maxTotalBytes < entry.allocationBytes then
    (.error .retainedLimitExceeded, store)
  else
    match store.index.get entry.topic with
    | some index =>
      match store.entryAt index with
      | none => (.error .panic, store)
      | some old =>
        if store.options.maxTotalBytes <
            store.totalBytes - old.allocationBytes + entry.allocationBytes then
          (.error .retainedLimitExceeded, store)
        else (.ok .replaced, store.replaceAt index old entry)
    | none =>
      if store.options.maxMessages ≤ store.messageCount ∨
          store.options.maxTotalBytes - store.totalBytes < entry.allocationBytes then
        (.error .retainedLimitExceeded, store)
      else if memory.tables = false then (.error .outOfMemory, store)
      else (.ok .inserted, store.insertEntry entry)

def applyPublish (store : Store) (request : Request) (memory : Memory) :
    Except Error StoreResult × Store :=
  match validateTopicName request.topic with
  | .error e => (.error e, store)
  | .ok _ =>
    if request.retain = false then (.ok .ignored, store)
    else
      match validatePublishProperties request.properties with
      | .error e => (.error e, store)
      | .ok _ =>
        if (subscriptionIdentifier request.properties).isSome then
          (.error .invalidProperty, store)
        else if request.payload.length = 0 ∨
            messageExpiryInterval request.properties = some 0 then
          match store.remove request.topic with
          | none => (.error .panic, store)
          | some (removed, store) => (.ok (if removed then .removed else .ignored), store)
        else if memory.copies = false then (.error .outOfMemory, store)
        else
          match cloneEntry request with
          | .error e => (.error e, store)
          | .ok entry => store.placeEntry entry memory

/-- The loop of `pruneExpired`, over these slots; `none` where its assertion fails. -/
def pruneLoop (nowNs : Int) (store : Store) : List Nat → Option (Nat × Store)
  | [] => some (0, store)
  | index :: rest =>
    match store.entryAt index with
    | none => pruneLoop nowNs store rest
    | some entry =>
      if remainingExpiry entry nowNs = some 0 then
        match store.remove entry.topic with
        | some (true, store) => (pruneLoop nowNs store rest).map fun later => (later.1 + 1, later.2)
        | _ => none
      else pruneLoop nowNs store rest

def pruneExpired (store : Store) (nowNs : Int) : Option (Nat × Store) :=
  pruneLoop nowNs store (List.range store.entries.length)

end Store

/-! ### Queries -/

/-- What stands behind the share name. -/
def effectiveFilter (filter : Bytes) : Bytes :=
  if sharePrefix.isPrefixOf filter = false then filter
  else
    match splitShare (filter.drop sharePrefix.length) with
    | none => filter
    | some (_, inner) => inner

/-- The loop that writes the wanted entries into a buffer of length `room`. -/
def emitLoop {α : Type} (room : Nat) (wanted : Entry → Bool) (emit : Entry → α) :
    List (Option Entry) → List α → Except Error (List α)
  | [], written => .ok written
  | none :: rest, written => emitLoop room wanted emit rest written
  | some entry :: rest, written =>
    if wanted entry then
      if written.length < room then emitLoop room wanted emit rest (written ++ [emit entry])
      else .error .panic
    else emitLoop room wanted emit rest written

/-- The loop that counts them. -/
def countLoop (wanted : Entry → Bool) : List (Option Entry) → Nat → Nat
  | [], required => required
  | none :: rest, required => countLoop wanted rest required
  | some entry :: rest, required =>
    countLoop wanted rest (if wanted entry then required + 1 else required)

namespace Store

/-- The branch of a query for a filter without wildcards. -/
def exactInto {α : Type} (store : Store) (topic : Bytes) (room : Nat) (wanted : Entry → Bool)
    (emit : Entry → α) : Except Error (List α) :=
  match store.index.get topic with
  | none => .ok []
  | some index =>
    match store.entryAt index with
    | none => .error .panic
    | some entry =>
      if wanted entry = false then .ok []
      else if room = 0 then .error .matchBufferTooSmall
      else .ok [emit entry]

/-- The branches that look at all entries: with room for the whole store they are not counted
first. -/
def scanInto {α : Type} (store : Store) (room : Nat) (wanted : Entry → Bool)
    (emit : Entry → α) : Except Error (List α) :=
  if store.messageCount ≤ room then emitLoop room wanted emit store.entries []
  else if room < countLoop wanted store.entries 0 then .error .matchBufferTooSmall
  else emitLoop room wanted emit store.entries []

/-- The common part of `matchInto` and `deliveriesInto`. -/
def selectInto {α : Type} (store : Store) (filter : Bytes) (room : Nat) (wanted : Entry → Bool)
    (emit : Entry → α) : Except Error (List α) :=
  if hasWildcards filter = false then store.exactInto filter room wanted emit
  else
    store.scanInto room (fun entry => wanted entry && topicMatchesFilter entry.topic filter) emit

end Store

structure DeliveryContext where
  subscriptionExisted : Bool := false
  subscriberId : Option Nat := none
  subscriptionIdentifier : Option Nat := none

structure Delivery where
  topic : Bytes
  payload : Bytes
  qos : QoS
  retain : Bool
  properties : List Property
  subscriptionIdentifier : Option Nat
  messageExpiryInterval : Option Nat

def deliveryForEntry (subscriptionQos : QoS) (identifier : Option Nat) (nowNs : Int)
    (entry : Entry) : Delivery where
  topic := entry.topic
  payload := entry.payload
  qos := entry.qos.min subscriptionQos
  retain := true
  properties := entry.properties
  subscriptionIdentifier := identifier
  messageExpiryInterval := remainingExpiry entry nowNs

def skipNoLocal (subscription : Subscription) (context : DeliveryContext) (entry : Entry) : Bool :=
  if subscription.noLocal = false then false
  else
    match context.subscriberId, entry.publisherId with
    | some subscriberId, some publisherId => subscriberId == publisherId
    | _, _ => false

/-- Shared subscriptions, and what Retain Handling asks for. -/
def deliversNothing (subscription : Subscription) (context : DeliveryContext) : Bool :=
  sharePrefix.isPrefixOf subscription.topicFilter || subscription.retainHandling == 2 ||
    (subscription.retainHandling == 1 && context.subscriptionExisted)

namespace Store

def deliveriesInto (store : Store) (subscription : Subscription) (context : DeliveryContext)
    (nowNs : Int) (room : Nat) : Except Error (List Delivery) :=
  match validateTopicFilter subscription.topicFilter with
  | .error e => .error e
  | .ok _ =>
    if 2 < subscription.retainHandling then .error .invalidSubscription
    else if validSubscriptionIdentifier context.subscriptionIdentifier = false then
      .error .invalidProperty
    else if deliversNothing subscription context then .ok []
    else
      store.selectInto (effectiveFilter subscription.topicFilter) room
        (fun entry =>
          remainingExpiry entry nowNs != some 0 && !skipNoLocal subscription context entry)
        (deliveryForEntry subscription.qos context.subscriptionIdentifier nowNs)

/-! ### Runs -/

inductive Call where
  | applyPublish (request : Request) (memory : Memory)
  | remove (topic : Bytes)
  | pruneExpired (nowNs : Int)

inductive Reply where
  | applied (result : Except Error StoreResult)
  | removed (result : Option Bool)
  | pruned (result : Option Nat)

def call (store : Store) : Call → Reply × Store
  | .applyPublish request memory =>
    let r := store.applyPublish request memory
    (.applied r.1, r.2)
  | .remove topic =>
    match store.remove topic with
    | none => (.removed none, store)
    | some (removed, store) => (.removed (some removed), store)
  | .pruneExpired nowNs =>
    match store.pruneExpired nowNs with
    | none => (.pruned none, store)
    | some (removed, store) => (.pruned (some removed), store)

end Store

end Netz.Mqtt.Retained
