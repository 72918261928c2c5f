/-
Subscriptions, incoming QoS 2 identifiers and expiry sweeps of the session store
(`mqtt/session/mod.zig`).
-/
import Netz.Mqtt.SessionStore
import Netz.Mqtt.Topic

namespace Netz.Mqtt

open Lib

/-! ### Subscriptions -/

/-- The checks of `setSubscription` that do not look at the session. -/
def validateOwnedSubscription (subscription : Subscription) (identifier : Option Nat) :
    Except Error Unit :=
  match validateTopicFilter subscription.topicFilter with
  | .error e => .error e
  | .ok _ =>
    if 2 < subscription.retainHandling ∨
        (subscription.noLocal && sharePrefix.isPrefixOf subscription.topicFilter) = true then
      .error .invalidSubscription
    else if validSubscriptionIdentifier identifier = false then .error .invalidProperty
    else .ok ()

def ownedSubscription (subscription : Subscription) (identifier : Option Nat) :
    OwnedSubscription where
  topicFilter := subscription.topicFilter
  qos := subscription.qos
  noLocal := subscription.noLocal
  retainAsPublished := subscription.retainAsPublished
  retainHandling := subscription.retainHandling
  subscriptionIdentifier := identifier

namespace Held

/-- The slot of the first subscription to `topicFilter`. -/
def subscriptionSlot (held : Held) (topicFilter : Bytes) : Option Nat :=
  held.session.subscriptions.findIdx? fun slot =>
    slot.any fun subscription => subscription.topicFilter == topicFilter

/-- `ensureBytes`. -/
def bytesFit (held : Held) (options : Options) (additional : Nat) : Bool :=
  decide (additional ≤ options.maxSessionBytes - held.session.allocationBytes) &&
    decide (additional ≤ options.maxTotalBytes - held.totalBytes)

/-- The part of `setSubscription` behind the lookup of the session. -/
def setSubscription (held : Held) (options : Options) (owned : OwnedSubscription)
    (memory : Memory) : Except Error Bool × Held :=
  match held.subscriptionSlot owned.topicFilter with
  | some index =>
    (.ok true,
      { held with
        session := { held.session with
          subscriptions := held.session.subscriptions.set index (some owned) } })
  | none =>
    if options.maxSubscriptionsPerSession ≤ held.session.subscriptionCount then
      (.error .subscriptionLimitExceeded, held)
    else if memory.copies = false then (.error .outOfMemory, held)
    else if held.bytesFit options owned.topicFilter.length = false then
      (.error .sessionByteLimitExceeded, held)
    else if memory.tables = false ∧
        vacantSlot held.session.subscriptions = held.session.subscriptions.length then
      (.error .outOfMemory, held)
    else
      (.ok false,
        { session :=
            { held.session with
              subscriptions := insertSlot owned held.session.subscriptions
              subscriptionCount := held.session.subscriptionCount + 1
              allocationBytes := held.session.allocationBytes + owned.topicFilter.length }
          totalBytes := held.totalBytes + owned.topicFilter.length })

def removeSubscription (held : Held) (topicFilter : Bytes) : Except Error Bool × Held :=
  match held.subscriptionSlot topicFilter with
  | none => (.ok false, held)
  | some index =>
    (.ok true,
      { session :=
          { held.session with
            subscriptions := held.session.subscriptions.set index none
            subscriptionCount := held.session.subscriptionCount - 1
            allocationBytes := held.session.allocationBytes - topicFilter.length }
        totalBytes := held.totalBytes - topicFilter.length })

/-! ### Incoming QoS 2 -/

def recordIncomingQos2 (held : Held) (options : Options) (packetId : Nat) (memory : Memory) :
    Except Error Bool × Held :=
  if packetId ∈ held.session.incomingQos2 then (.ok true, held)
  else if options.maxIncomingQos2PerSession ≤ held.session.incomingQos2.length then
    (.error .incomingQoS2Full, held)
  else if memory.tables = false then (.error .outOfMemory, held)
  else
    (.ok false,
      { held with
        session := { held.session with
          incomingQos2 := held.session.incomingQos2 ++ [packetId] } })

def completeIncomingQos2 (held : Held) (packetId : Nat) : Except Error Unit × Held :=
  if packetId ∈ held.session.incomingQos2 then
    (.ok (),
      { held with
        session := { held.session with
          incomingQos2 := held.session.incomingQos2.erase packetId } })
  else (.error .invalidPacketIdentifier, held)

end Held

namespace Store

def setSubscription (store : Store) (handle : Handle) (subscription : Subscription)
    (identifier : Option Nat) (memory : Memory) : Except Error Bool × Store :=
  match validateOwnedSubscription subscription identifier with
  | .error e => (.error e, store)
  | .ok _ =>
    store.onSession handle fun held =>
      held.setSubscription store.options (ownedSubscription subscription identifier) memory

def removeSubscription (store : Store) (handle : Handle) (topicFilter : Bytes) :
    Except Error Bool × Store :=
  store.onSession handle fun held => held.removeSubscription topicFilter

def recordIncomingQos2 (store : Store) (handle : Handle) (packetId : Nat) (memory : Memory) :
    Except Error Bool × Store :=
  if packetId = 0 then (.error .invalidPacketIdentifier, store)
  else store.onSession handle fun held => held.recordIncomingQos2 store.options packetId memory

def completeIncomingQos2 (store : Store) (handle : Handle) (packetId : Nat) :
    Except Error Unit × Store :=
  store.onSession handle fun held => held.completeIncomingQos2 packetId

/-! ### Removing sessions -/

def discard (store : Store) (clientId : Bytes) : Except Error Bool × Store :=
  match store.clientIndex.get clientId with
  | none => (.ok false, store)
  | some index =>
    match store.sessionAt index with
    | none => (.error .panic, store)
    | some session => (.ok true, store.removeAt index session)

def discardHandle (store : Store) (handle : Handle) : Except Error Unit × Store :=
  match store.getSession handle with
  | none => (.error .sessionNotFound, store)
  | some session => (.ok (), store.removeAt handle.index session)

def find (store : Store) (clientId : Bytes) (nowNs : Int) : Except Error (Option Handle) × Store :=
  match store.clientIndex.get clientId with
  | none => (.ok none, store)
  | some index =>
    match store.sessionAt index with
    | none => (.error .panic, store)
    | some session =>
      if isExpired session nowNs then (.ok none, store.removeAt index session)
      else (.ok (some ⟨index, session.generation⟩), store)

/-! ### Expiry -/

/-- The earlier of a deadline and the earliest one so far. -/
def earlier (next : Option Int) (deadline : Int) : Option Int :=
  match next with
  | none => some deadline
  | some found => some (if deadline < found then deadline else found)

/-- The loop of `pruneExpired`, over these slots: the route identifiers of what it removes. -/
def pruneLoop (nowNs : Int) (store : Store) : List Nat → List Nat × Store
  | [] => ([], store)
  | index :: rest =>
    match store.sessionAt index with
    | none => pruneLoop nowNs store rest
    | some session =>
      if isExpired session nowNs then
        let later := pruneLoop nowNs (store.removeAt index session) rest
        (session.routeId :: later.1, later.2)
      else pruneLoop nowNs store rest

def pruneExpired (store : Store) (nowNs : Int) : Nat × Store :=
  let pruned := pruneLoop nowNs store (List.range store.sessions.length)
  (pruned.1.length, pruned.2)

def expiredSessions (store : Store) (nowNs : Int) : List Session :=
  store.sessions.reduceOption.filter fun session => isExpired session nowNs

/-- The second loop of `pruneExpiredInto`: it also finds the earliest deadline that stays. -/
def pruneIntoLoop (nowNs : Int) (store : Store) (next : Option Int) :
    List Nat → List Nat × Option Int × Store
  | [] => ([], next, store)
  | index :: rest =>
    match store.sessionAt index with
    | none => pruneIntoLoop nowNs store next rest
    | some session =>
      if isExpired session nowNs then
        let later := pruneIntoLoop nowNs (store.removeAt index session) next rest
        (session.routeId :: later.1, later.2)
      else
        match session.connected, session.expiresAtNs with
        | false, some deadline => pruneIntoLoop nowNs store (earlier next deadline) rest
        | _, _ => pruneIntoLoop nowNs store next rest

/-- `room` is the length of the caller's buffer. -/
def pruneExpiredInto (store : Store) (nowNs : Int) (room : Nat) : Except Error (List Nat) × Store :=
  match store.nextExpiryNs with
  | none => (.ok [], store)
  | some due =>
    if nowNs < due then (.ok [], store)
    else if room < (store.expiredSessions nowNs).length then (.error .bufferTooSmall, store)
    else
      let (routeIds, next, pruned) :=
        pruneIntoLoop nowNs store none (List.range store.sessions.length)
      (.ok routeIds, { pruned with nextExpiryNs := next })

/-- One session of the loop of `dueExpiryCount`. -/
def dueLoop (nowNs : Int) (next : Option Int) (session : Session) : Option Int :=
  match session.connected, session.expiresAtNs with
  | false, some deadline => if nowNs < deadline then earlier next deadline else next
  | _, _ => next

def dueExpiryCount (store : Store) (nowNs : Int) : Nat × Store :=
  match store.nextExpiryNs with
  | none => (0, store)
  | some due =>
    if nowNs < due then (0, store)
    else
      let dueCount := (store.expiredSessions nowNs).length
      if dueCount = 0 then
        (0, { store with
          nextExpiryNs := store.sessions.reduceOption.foldl (dueLoop nowNs) none })
      else (dueCount, store)

end Store

end Netz.Mqtt
