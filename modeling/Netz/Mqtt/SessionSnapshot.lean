/-
Binary records of MQTT snapshots (`mqtt/persistence/codec.zig`).

Integers are big-endian; booleans and options are marked by a byte; a blob carries its length.
-/
import Netz.Mqtt.ControlPacket
import Netz.Mqtt.SessionCalls

namespace Netz.Mqtt.Persistence

open Lib

def maxBlobBytes : Nat := 64 * 1024 * 1024

/-! ### Reading -/

def readInt (size : Nat) : Cursor Nat := do
  let bytes ← Reader.take .corruptSnapshot size
  return ofBigEndian bytes

def readBool : Cursor Bool := do
  let value ← readInt 1
  if value = 0 then return false
  else if value = 1 then return true
  else throw .corruptSnapshot

def readOptionalInt (size : Nat) : Cursor (Option Nat) := do
  let there ← readBool
  Packet.Connect.readOption there (readInt size)

def readBlob : Cursor Bytes := do
  let len ← readInt 4
  Cursor.check (failIf (decide (maxBlobBytes < len)) .snapshotLimitExceeded)
  Reader.take .corruptSnapshot len

def readProperties : Cursor (List Property) := do
  let encoded ← readBlob
  match parseProperties encoded with
  | .error e => throw e
  | .ok (properties, rest) =>
    Cursor.check (failIf (rest != []) .corruptSnapshot)
    return properties

def qosFromByte (value : Nat) : Except Error QoS :=
  match Packet.QoS.fromInt? value with
  | none => .error .corruptSnapshot
  | some qos => .ok qos

end Netz.Mqtt.Persistence

/-! ### Snapshots of the session store (`mqtt/session/mod.zig`)

A snapshot holds the sessions that outlive their connection, with what is left of their timers.
A session is restored record by record into a slot of its own; when a record fails, the slot is
given back, and only the generation and route counters keep what they handed out. -/

namespace Netz.Mqtt

open Lib Persistence

/-! ### Timers -/

def maxU64 : Nat := 2 ^ 64 - 1

def remainingAfterDowntimeNs (remaining : Option Nat) (downtimeNs : Int) : Option Nat :=
  remaining.map fun value => value - min (max downtimeNs 0).toNat maxU64

/-! ### Reading records -/

def InflightState.fromInt? : Nat → Option InflightState
  | 0 => some .awaitPuback
  | 1 => some .awaitPubrec
  | 2 => some .awaitPubcomp
  | _ => none

/-- `count` records, each of which changes `state`. -/
def readRecords {σ : Type} (record : σ → Cursor σ) : Nat → σ → Cursor σ
  | 0, state => return state
  | count + 1, state => do
    let next ← record state
    readRecords record count next

structure RestoredSubscription where
  subscription : Subscription
  identifier : Option Nat

def readSubscription : Cursor RestoredSubscription := do
  let topicFilter ← readBlob
  let qosByte ← readInt 1
  let qos ← Cursor.check (qosFromByte qosByte)
  let noLocal ← readBool
  let retainAsPublished ← readBool
  let retainHandling ← readInt 1
  Cursor.check (failIf (decide (2 < retainHandling)) .corruptSnapshot)
  let identifier ← readOptionalInt 4
  return { subscription :=
             { topicFilter := topicFilter, qos := qos, noLocal := noLocal,
               retainAsPublished := retainAsPublished, retainHandling := retainHandling }
           identifier := identifier }

/-- When a restored message was stored, as its remaining lifetime has it. -/
def restoreStoredAt (publish : OwnedPublish) (remainingNs : Option Nat) (nowNs : Int) :
    Except Error OwnedPublish :=
  match remainingNs with
  | none => .ok publish
  | some remaining =>
    match publish.expiryInterval with
    | none => .error .corruptSnapshot
    | some interval =>
      let lifetime := interval * nsPerS.toNat
      if lifetime < remaining then .error .corruptSnapshot
      else .ok { publish with storedAtNs := nowNs - ((lifetime - remaining : Nat) : Int) }

/-- `none` when the message has expired meanwhile. -/
def readPublishSnapshot (serial : Nat) (nowNs downtimeNs : Int) (ignoreExpiry : Bool) :
    Cursor (Option OwnedPublish) := do
  let topic ← readBlob
  let payload ← readBlob
  let qosByte ← readInt 1
  let qos ← Cursor.check (qosFromByte qosByte)
  let retain ← readBool
  let saved ← readOptionalInt 8
  let remaining := remainingAfterDowntimeNs saved downtimeNs
  let properties ← readProperties
  Cursor.check (failIf
    (!ignoreExpiry && (messageExpiryInterval properties).isNone != saved.isNone) .corruptSnapshot)
  if ignoreExpiry = false ∧ remaining = some 0 then return none
  let publish ← Cursor.check (clonePublish serial topic payload qos retain properties nowNs)
  let restored ← Cursor.check
    (restoreStoredAt publish (if ignoreExpiry then none else remaining) nowNs)
  return some restored

def skipPublishSnapshot : Cursor Unit := do
  let _ ← readBlob
  let _ ← readBlob
  let _ ← readInt 1
  let _ ← readBool
  let _ ← readOptionalInt 8
  let _ ← readBlob

def skipSubscription : Cursor Unit := do
  let _ ← readBlob
  let _ ← readInt 1
  let _ ← readBool
  let _ ← readBool
  let _ ← readInt 1
  let _ ← readOptionalInt 4

def skipInflight : Cursor Unit := do
  let _ ← readInt 2
  let _ ← readInt 1
  skipPublishSnapshot

def skipExpiredSession : Cursor Unit := do
  let _ ← readInt 2
  let subscriptionCount ← readInt 4
  readRecords (fun _ => skipSubscription) subscriptionCount ()
  let queuedCount ← readInt 4
  readRecords (fun _ => skipPublishSnapshot) queuedCount ()
  let inflightCount ← readInt 4
  readRecords (fun _ => skipInflight) inflightCount ()

/-! ### Restoring a session -/

namespace Held

/-- The bytes of a restored message, behind `ensureBytes`. -/
def charge (held : Held) (options : Options) (publish : OwnedPublish) : Except Error Unit :=
  if held.bytesFit options publish.allocationBytes then .ok ()
  else .error .sessionByteLimitExceeded

def restoreSubscription (options : Options) (held : Held) : Cursor Held := do
  let restored ← readSubscription
  Cursor.check (validateOwnedSubscription restored.subscription restored.identifier)
  let (result, next) := held.setSubscription options
    (ownedSubscription restored.subscription restored.identifier) {}
  let _ ← Cursor.check result
  return next

def restoreQueued (options : Options) (nowNs downtimeNs : Int) (held : Held) : Cursor Held := do
  let restored ← readPublishSnapshot held.session.history.accepted.length nowNs downtimeNs false
  match restored with
  | none => return held
  | some publish => do
    Cursor.check (held.charge options publish)
    return { session := held.session.appendQueued publish
             totalBytes := held.totalBytes + publish.allocationBytes }

/-- A message under the identifier it was sent under. -/
def addRestored (held : Held) (publish : OwnedPublish) (packetId : Nat) (state : InflightState) :
    Held where
  session :=
    let added := held.session.addInflight
      { publish := publish, packetId := packetId, state := state, needsSend := true,
        retransmission := state != .awaitPubcomp }
    { added with
      allocationBytes := added.allocationBytes + publish.allocationBytes
      history := { added.history with accepted := added.history.accepted ++ [publish] } }
  totalBytes := held.totalBytes + publish.allocationBytes

def restoreInflight (options : Options) (nowNs downtimeNs : Int) (held : Held) : Cursor Held := do
  let packetId ← readInt 2
  let stateByte ← readInt 1
  match InflightState.fromInt? stateByte with
  | none => throw .corruptSnapshot
  | some state => do
    let restored ← readPublishSnapshot held.session.history.accepted.length nowNs downtimeNs
      (state == .awaitPubcomp)
    match restored with
    | none => return held
    | some publish => do
      Cursor.check (failIf
        (packetId == 0 || (held.session.packetIndex.get packetId).isSome) .corruptSnapshot)
      Cursor.check (held.charge options publish)
      return held.addRestored publish packetId state

/-- The records of a session behind its header. -/
def restoreRecords (options : Options) (nowNs downtimeNs : Int) (held : Held) : Cursor Held := do
  let subscriptionCount ← readInt 4
  Cursor.check (failIf (decide (options.maxSubscriptionsPerSession < subscriptionCount))
    .subscriptionLimitExceeded)
  let subscribed ← readRecords (restoreSubscription options) subscriptionCount held
  let queuedCount ← readInt 4
  Cursor.check (failIf (decide (options.maxQueuedPerSession < queuedCount)) .queueFull)
  let queued ← readRecords (restoreQueued options nowNs downtimeNs) queuedCount subscribed
  let inflightCount ← readInt 4
  Cursor.check (failIf
    (decide (options.maxInflightPerSession < inflightCount) || decide (maxU16 < inflightCount))
    .inflightFull)
  readRecords (restoreInflight options nowNs downtimeNs) inflightCount queued

end Held

/-- The header of a session in a snapshot. -/
structure RestoredHeader where
  clientId : Bytes
  routeId : Nat
  expiryInterval : Nat
  remainingExpiryNs : Option Nat

/-- Whether the allocations for a restored session succeed: those of its slot, and those of its
records. -/
structure RestoreMemory where
  slot : Memory := {}
  records : Bool := true

namespace Store

def readHeader (store : Store) (downtimeNs : Int) : Cursor RestoredHeader := do
  let clientId ← readBlob
  Cursor.check (failIf (store.clientIndex.get clientId).isSome .corruptSnapshot)
  let routeId ← readInt 8
  Cursor.check (failIf
    (routeId == 0 || decide (2 ^ 63 ≤ routeId) || (store.routeIndex.get routeId).isSome)
    .corruptSnapshot)
  let expiryInterval ← readInt 4
  Cursor.check (failIf (expiryInterval == 0) .corruptSnapshot)
  let wasConnected ← readBool
  let saved ← readOptionalInt 8
  Cursor.check (failIf
    ((wasConnected && saved.isSome) ||
      (!wasConnected && ((expiryInterval == maxU32) != saved.isNone))) .corruptSnapshot)
  let remaining :=
    if wasConnected then
      if expiryInterval = maxU32 then none
      else remainingAfterDowntimeNs (some (expiryInterval * nsPerS.toNat)) downtimeNs
    else remainingAfterDowntimeNs saved downtimeNs
  return { clientId := clientId, routeId := routeId, expiryInterval := expiryInterval,
           remainingExpiryNs := remaining }

/-- `next_route_id` behind a restored identifier. -/
def routeIdBehind (next routeId : Nat) : Nat :=
  let behind := max next (min (routeId + 1) maxU64)
  if behind = 0 ∨ 2 ^ 63 ≤ behind then 1 else behind

/-- The restored session before its records are read. -/
def restoredSession (store : Store) (header : RestoredHeader) (nextPacketId : Nat)
    (nowNs : Int) : Session where
  generation := store.nextGeneration
  routeId := header.routeId
  clientId := header.clientId
  connected := false
  expiryInterval := header.expiryInterval
  expiresAtNs := header.remainingExpiryNs.map fun remaining => nowNs + (remaining : Int)
  nextPacketId := nextPacketId
  allocationBytes := header.clientId.length

/-- The counters a session leaves behind even when its records fail. -/
def countersBehind (store : Store) (header : RestoredHeader) : Store :=
  { store with
    nextGeneration := followingGeneration store.nextGeneration
    nextRouteId := routeIdBehind store.nextRouteId header.routeId }

/-- A session moves into a slot; an offline session may be the next to expire. -/
def placeRestored (store : Store) (header : RestoredHeader) (held : Held) : Store :=
  let index := vacantSlot store.sessions
  let counted := store.countersBehind header
  { counted with
    sessions := insertSlot held.session store.sessions
    clientIndex := store.clientIndex.put header.clientId index
    routeIndex := store.routeIndex.put header.routeId index
    sessionCount := store.sessionCount + 1
    totalBytes := held.totalBytes
    nextExpiryNs :=
      match held.session.expiresAtNs with
      | none => store.nextExpiryNs
      | some deadline => earlier store.nextExpiryNs deadline }

/-- The part of `restoreSession` behind the header of a session that has not expired. -/
def restoreLive (store : Store) (header : RestoredHeader) (input : Bytes)
    (nowNs downtimeNs : Int) (memory : RestoreMemory) : Except Error Bytes × Store :=
  match readInt 2 input with
  | .error e => (.error e, store)
  | .ok (nextPacketId, rest) =>
    if nextPacketId = 0 then (.error .corruptSnapshot, store)
    else if store.options.maxSessions ≤ store.sessionCount then
      (.error .sessionLimitExceeded, store)
    else if memory.slot.copies = false then (.error .outOfMemory, store)
    else if store.options.maxSessionBytes < header.clientId.length ∨
        store.options.maxTotalBytes - store.totalBytes < header.clientId.length then
      (.error .sessionByteLimitExceeded, store)
    else if memory.slot.tables = false then (.error .outOfMemory, store)
    else
      let session := store.restoredSession header nextPacketId nowNs
      let held : Held := ⟨session, store.totalBytes + header.clientId.length⟩
      match held.restoreRecords store.options nowNs downtimeNs rest with
      | .error e => (.error e, store.countersBehind header)
      | .ok (restored, rest) =>
        if memory.records = false then (.error .outOfMemory, store.countersBehind header)
        else (.ok rest, store.placeRestored header restored)

def restoreSession (store : Store) (input : Bytes) (nowNs downtimeNs : Int)
    (memory : RestoreMemory) : Except Error Bytes × Store :=
  match store.readHeader downtimeNs input with
  | .error e => (.error e, store)
  | .ok (header, rest) =>
    if header.remainingExpiryNs = some 0 then
      match skipExpiredSession rest with
      | .error e => (.error e, store)
      | .ok (_, rest) => (.ok rest, store)
    else store.restoreLive header rest nowNs downtimeNs memory

/-- The loop of `restoreSnapshot`; `memory` is by the number of sessions still to come. -/
def restoreSessions (store : Store) (nowNs downtimeNs : Int) (memory : Nat → RestoreMemory) :
    Nat → Bytes → Except Error Bytes × Store
  | 0, input => (.ok input, store)
  | count + 1, input =>
    match store.restoreSession input nowNs downtimeNs (memory count) with
    | (.error e, store) => (.error e, store)
    | (.ok rest, store) => restoreSessions store nowNs downtimeNs memory count rest

/-- What is left of the input, and the store with the sessions that were read. -/
def restoreSnapshot (store : Store) (input : Bytes) (nowNs downtimeNs : Int)
    (memory : Nat → RestoreMemory) : Except Error Bytes × Store :=
  match readInt 4 input with
  | .error e => (.error e, store)
  | .ok (count, rest) =>
    if store.options.maxSessions < count then (.error .sessionLimitExceeded, store)
    else store.restoreSessions nowNs downtimeNs memory count rest

/-! ### Runs of all calls -/

/-- Every call that changes the store. -/
inductive Call
  | message (op : Op)
  | setSubscription (handle : Handle) (subscription : Subscription) (identifier : Option Nat)
      (memory : Memory)
  | removeSubscription (handle : Handle) (topicFilter : Bytes)
  | recordIncomingQos2 (handle : Handle) (packetId : Nat) (memory : Memory)
  | completeIncomingQos2 (handle : Handle) (packetId : Nat)
  | discard (clientId : Bytes)
  | discardHandle (handle : Handle)
  | find (clientId : Bytes) (nowNs : Int)
  | pruneExpired (nowNs : Int)
  | pruneExpiredInto (nowNs : Int) (room : Nat)
  | dueExpiryCount (nowNs : Int)
  | restoreSnapshot (input : Bytes) (nowNs downtimeNs : Int) (memory : Nat → RestoreMemory)

inductive Answer where
  | message (reply : Reply)
  | subscribed (result : Except Error Bool)
  | recorded (result : Except Error Bool)
  | completed (result : Except Error Unit)
  | discarded (result : Except Error Bool)
  | closed (result : Except Error Unit)
  | found (result : Except Error (Option Handle))
  | pruned (count : Nat)
  | prunedInto (result : Except Error (List Nat))
  | due (count : Nat)
  | restored (result : Except Error Bytes)

def call (store : Store) : Call → Answer × Store
  | .message op =>
    let r := store.step op
    (.message r.1, r.2)
  | .setSubscription handle subscription identifier memory =>
    let r := store.setSubscription handle subscription identifier memory
    (.subscribed r.1, r.2)
  | .removeSubscription handle topicFilter =>
    let r := store.removeSubscription handle topicFilter
    (.subscribed r.1, r.2)
  | .recordIncomingQos2 handle packetId memory =>
    let r := store.recordIncomingQos2 handle packetId memory
    (.recorded r.1, r.2)
  | .completeIncomingQos2 handle packetId =>
    let r := store.completeIncomingQos2 handle packetId
    (.completed r.1, r.2)
  | .discard clientId =>
    let r := store.discard clientId
    (.discarded r.1, r.2)
  | .discardHandle handle =>
    let r := store.discardHandle handle
    (.closed r.1, r.2)
  | .find clientId nowNs =>
    let r := store.find clientId nowNs
    (.found r.1, r.2)
  | .pruneExpired nowNs =>
    let r := store.pruneExpired nowNs
    (.pruned r.1, r.2)
  | .pruneExpiredInto nowNs room =>
    let r := store.pruneExpiredInto nowNs room
    (.prunedInto r.1, r.2)
  | .dueExpiryCount nowNs =>
    let r := store.dueExpiryCount nowNs
    (.due r.1, r.2)
  | .restoreSnapshot input nowNs downtimeNs memory =>
    let r := store.restoreSnapshot input nowNs downtimeNs memory
    (.restored r.1, r.2)

end Store

end Netz.Mqtt
