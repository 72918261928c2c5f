/-
The Will scheduler (`mqtt/will/mod.zig`).

Entries live in slots that a client index, a free list and a deadline heap refer to.  A call
that fails leaves the scheduler as it was; allocation failures are inputs of the calls that
allocate.  Capacities are lower bounds, the largest ones that were asked for.

Nothing in the source names a Will, so an entry carries the number of Wills that were accepted
before it.  No branch reads it.
-/
import Netz.Mqtt.IndexedHeap
import Netz.Mqtt.SessionStore

namespace Netz.Mqtt.Will

open Lib

structure Options where
  maxWills : Nat := 65536
  maxWillBytes : Nat := 16 * 1024 * 1024
  maxTotalBytes : Nat := 256 * 1024 * 1024

structure Handle where
  index : Nat
  generation : Nat

inductive CloseReason where
  | normalDisconnect
  | ungraceful
  | disconnectWithWill
  | sessionEnded
deriving DecidableEq

inductive CloseResult where
  | noWill
  | canceled
  | scheduled
  | dueNow
deriving DecidableEq

/-- The fields of a CONNECT that the scheduler reads. -/
structure Connect where
  protocol : ProtocolVersion
  cleanStart : Bool
  clientId : Bytes
  properties : List Property := []
  will : Option LastWill := none

structure Disconnect where
  reasonCode : Nat := 0
  properties : List Property := []

inductive State where
  | connected
  | scheduled
  | due
deriving DecidableEq

structure Entry where
  /-- Ghost: the Wills accepted before this one. -/
  serial : Nat
  generation : Nat
  clientId : Bytes
  topic : Bytes
  payload : Bytes
  qos : QoS
  retain : Bool
  properties : List Property
  willDelayInterval : Nat
  messageExpiryInterval : Option Nat
  sessionExpiryInterval : Nat
  state : State := .connected
  deadlineNs : Int := 0
  heapIndex : Option Nat := none
  allocationBytes : Nat
deriving DecidableEq

abbrev Entries := List (Option Entry)

def entryAt (entries : Entries) (index : Nat) : Option Entry := (entries[index]?).join

def Entry.earlier (a b : Entry) : Bool :=
  if a.deadlineNs ≠ b.deadlineNs then decide (a.deadlineNs < b.deadlineNs)
  else decide (a.generation < b.generation)

/-- The heap holds indexes of entries only, which the source unwraps. -/
def lessEntry (entries : Entries) (a b : Nat) : Bool :=
  match entryAt entries a, entryAt entries b with
  | some a, some b => a.earlier b
  | _, _ => false

def setHeapPosition (entries : Entries) (index : Nat) (position : Option Nat) : Entries :=
  match entryAt entries index with
  | some entry => entries.set index (some { entry with heapIndex := position })
  | none => entries

structure Scheduler where
  options : Options := {}
  entries : Entries := []
  /-- The last one is the next to be used. -/
  freeIndices : List Nat := []
  clientIndex : Table Bytes Nat := []
  heap : List Nat := []
  countValue : Nat := 0
  totalBytes : Nat := 0
  nextGeneration : Nat := 1
  entriesCapacity : Nat := 0
  freeCapacity : Nat := 0
  heapCapacity : Nat := 0
  /-- The insertions the client index has room for. -/
  clientIndexRoom : Nat := 0
  /-- Ghost: the Wills accepted so far. -/
  accepted : Nat := 0

structure AcceptResult where
  previous : CloseResult
  previousDue : Option Handle
  current : Option Handle

def connectSessionExpiry (connect : Connect) : Nat :=
  match connect.protocol with
  | .v5 => (sessionExpiryInterval connect.properties).getD 0
  | .v311 => if connect.cleanStart then 0 else maxU32

def effectiveDelay (willDelay sessionExpiry : Nat) : Nat := min willDelay sessionExpiry

def addSeconds (nowNs : Int) (seconds : Nat) : Int := min (nowNs + seconds * nsPerS) Store.maxI96

namespace Scheduler

def deadlineHeap (s : Scheduler) : IndexedMinHeap Entries := ⟨s.entries, s.heap⟩

/-- The scheduler behind a call on its heap. -/
def withHeap (s : Scheduler) (heap : IndexedMinHeap Entries) : Scheduler :=
  { s with entries := heap.context, heap := heap.items }

def putEntry (s : Scheduler) (index : Nat) (entry : Entry) : Scheduler :=
  { s with entries := s.entries.set index (some entry) }

/-- `self.entries.items[index].?`. -/
def unwrapEntry (s : Scheduler) (index : Nat) : Except Error Entry :=
  match entryAt s.entries index with
  | some entry => .ok entry
  | none => .error .panic

def getEntry (s : Scheduler) (handle : Handle) : Except Error Entry :=
  match entryAt s.entries handle.index with
  | none => .error .willNotFound
  | some entry => if entry.generation ≠ handle.generation then .error .willNotFound else .ok entry

/-! ### The heap -/

/-- The entry leaves the heap if it is there. -/
def leaveHeap (s : Scheduler) (entry : Entry) : Scheduler :=
  match entry.heapIndex with
  | some heapIndex => s.withHeap (s.deadlineHeap.remove lessEntry setHeapPosition heapIndex).2
  | none => s

/-- The assertion on the heap's capacity, and `appendAssumeCapacity`. -/
def enterHeap (s : Scheduler) (index : Nat) : Except Error Scheduler :=
  if s.heap.length < s.heapCapacity then
    .ok (s.withHeap (s.deadlineHeap.append lessEntry setHeapPosition index))
  else .error .panic

def makeDueNow (s : Scheduler) (index : Nat) (nowNs : Int) : Except Error Scheduler := do
  let entry ← s.unwrapEntry index
  let s := s.leaveHeap entry
  let entry ← s.unwrapEntry index
  (s.putEntry index { entry with state := .scheduled, deadlineNs := nowNs }).enterHeap index

/-! ### Slots -/

/-- The client index forgets a client whose entry this is. -/
def unindex (s : Scheduler) (index : Nat) (clientId : Bytes) : Scheduler :=
  if s.clientIndex.get clientId = some index then
    { s with
      clientIndex := s.clientIndex.remove clientId
      clientIndexRoom := s.clientIndexRoom + 1 }
  else s

/-- The slot is cleared and returned. -/
def freeSlot (s : Scheduler) (index allocationBytes : Nat) : Except Error Scheduler :=
  if s.countValue = 0 ∨ s.totalBytes < allocationBytes ∨ s.freeCapacity ≤ s.freeIndices.length then
    .error .panic
  else
    .ok
      { s with
        entries := s.entries.set index none
        countValue := s.countValue - 1
        totalBytes := s.totalBytes - allocationBytes
        freeIndices := s.freeIndices ++ [index] }

def removeAt (s : Scheduler) (index : Nat) : Except Error Scheduler := do
  let entry ← s.unwrapEntry index
  ((s.leaveHeap entry).unindex index entry.clientId).freeSlot index entry.allocationBytes

/-- The slot for a new entry: the last free one, or one behind the others. -/
def takeSlot (s : Scheduler) : Except Error (Nat × Scheduler) :=
  match s.freeIndices.getLast? with
  | some index => .ok (index, { s with freeIndices := s.freeIndices.dropLast })
  | none =>
    if s.entriesCapacity ≤ s.entries.length then .error .panic
    else .ok (s.entries.length, { s with entries := s.entries ++ [none] })

/-- The slot is vacant, and the client index has room for a client that it does not have. -/
def fillSlot (s : Scheduler) (index : Nat) (entry : Entry) : Except Error Scheduler :=
  if s.entries[index]? ≠ some none ∨ s.clientIndexRoom = 0 ∨
      s.clientIndex.get entry.clientId ≠ none then .error .panic
  else
    .ok
      { s with
        entries := s.entries.set index (some entry)
        clientIndex := s.clientIndex.put entry.clientId index
        clientIndexRoom := s.clientIndexRoom - 1
        countValue := s.countValue + 1
        totalBytes := s.totalBytes + entry.allocationBytes
        nextGeneration := Store.followingGeneration s.nextGeneration
        accepted := s.accepted + 1 }

def installPrepared (s : Scheduler) (prepared : Entry) : Except Error (Handle × Scheduler) := do
  let entry := { prepared with serial := s.accepted, generation := s.nextGeneration }
  let (index, s) ← s.takeSlot
  let s ← s.fillSlot index entry
  .ok (⟨index, entry.generation⟩, s)

/-! ### Accepting a Will -/

/-- `prepare`; serial and generation are given at the installation. -/
def prepare (s : Scheduler) (clientId : Bytes) (will : LastWill) (sessionExpiryInterval finalCount
    finalBaseBytes : Nat) (memory : Memory) : Except Error Entry := do
  validateTopicName will.topic
  validateWillProperties will.properties will.payload
  if s.options.maxWills < finalCount then .error .willLimitExceeded
  else if memory.copies = false then .error .outOfMemory
  else
    match cloneAllProperties will.properties with
    | none => .error .willByteLimitExceeded
    | some (properties, propertyBytes) =>
      match checkedAdd (clientId.length + will.topic.length + will.payload.length)
          propertyBytes with
      | none => .error .willByteLimitExceeded
      | some bytes =>
        if s.options.maxWillBytes < bytes ∨ s.options.maxTotalBytes - finalBaseBytes < bytes then
          .error .willByteLimitExceeded
        else
          .ok
            { serial := 0, generation := 0, clientId := clientId, topic := will.topic,
              payload := will.payload, qos := will.qos, retain := will.retain,
              properties := properties,
              willDelayInterval := (willDelayInterval will.properties).getD 0,
              messageExpiryInterval := messageExpiryInterval will.properties,
              sessionExpiryInterval := sessionExpiryInterval, allocationBytes := bytes }

def reserveInstall (s : Scheduler) (finalCount : Nat) (reusesSlot : Bool) (memory : Memory) :
    Except Error Scheduler :=
  if s.options.maxWills < finalCount then .error .willLimitExceeded
  else if memory.tables = false then .error .outOfMemory
  else
    .ok
      { s with
        clientIndexRoom := max s.clientIndexRoom 1
        heapCapacity := max s.heapCapacity finalCount
        entriesCapacity :=
          if reusesSlot then s.entriesCapacity else max s.entriesCapacity (s.entries.length + 1)
        freeCapacity := max s.freeCapacity (s.entries.length + if reusesSlot then 0 else 1) }

def set (s : Scheduler) (clientId : Bytes) (will : LastWill) (sessionExpiryInterval : Nat)
    (memory : Memory) : Except Error (Handle × Scheduler) :=
  if (s.clientIndex.get clientId).isSome then .error .invalidClientId
  else do
    let entry ← s.prepare clientId will sessionExpiryInterval (s.countValue + 1) s.totalBytes memory
    let s ← s.reserveInstall (s.countValue + 1) (!s.freeIndices.isEmpty) memory
    s.installPrepared entry

def reconnectResult (s : Scheduler) (index : Nat) (cleanStart : Bool) (nowNs : Int) :
    Except Error CloseResult :=
  if cleanStart then .ok .dueNow
  else do
    let entry ← s.unwrapEntry index
    let reconnectsBeforeWill :=
      match entry.state with
      | .connected => effectiveDelay entry.willDelayInterval entry.sessionExpiryInterval != 0
      | .scheduled => decide (nowNs < entry.deadlineNs)
      | .due => false
    .ok (if reconnectsBeforeWill then .canceled else .dueNow)

def onReconnect (s : Scheduler) (clientId : Bytes) (cleanStart : Bool) (nowNs : Int) :
    Except Error (CloseResult × Scheduler) :=
  match s.clientIndex.get clientId with
  | none => .ok (.noWill, s)
  | some index => do
    let result ← s.reconnectResult index cleanStart nowNs
    if result = .canceled then do
      let s ← s.removeAt index
      .ok (result, s)
    else do
      let entry ← s.unwrapEntry index
      if entry.state = .due then .ok (result, s)
      else do
        let s ← s.makeDueNow index nowNs
        .ok (result, s)

/-- What a CONNECT would do to the Will of the connection it takes over. -/
def previewReconnect (s : Scheduler) (connect : Connect) (nowNs : Int) : Except Error CloseResult :=
  match s.clientIndex.get connect.clientId with
  | none => .ok .noWill
  | some index => do
    let _ ← s.unwrapEntry index
    s.reconnectResult index connect.cleanStart nowNs

/-- The bytes that stay when the previous Will of the client is as `preview` says. -/
def finalBaseBytes (s : Scheduler) (connect : Connect) (preview : CloseResult) : Except Error Nat :=
  if preview = .canceled then
    match s.clientIndex.get connect.clientId with
    | none => .error .panic
    | some index => do
      let entry ← s.unwrapEntry index
      if s.totalBytes < entry.allocationBytes then .error .panic
      else .ok (s.totalBytes - entry.allocationBytes)
  else .ok s.totalBytes

/-- The new Will is copied, and everything its installation needs is reserved. -/
def prepareConnect (s : Scheduler) (connect : Connect) (preview : CloseResult) (memory : Memory) :
    Except Error (Option Entry × Scheduler) :=
  match connect.will with
  | none => .ok (none, s)
  | some message => do
    let finalCount := s.countValue + if preview = .canceled then 0 else 1
    let baseBytes ← s.finalBaseBytes connect preview
    let entry ← s.prepare connect.clientId message (connectSessionExpiry connect) finalCount
      baseBytes memory
    let s ← s.reserveInstall finalCount
      (!s.freeIndices.isEmpty || decide (preview = .canceled)) memory
    .ok (some entry, s)

/-- A due Will no longer answers to its client; its handle stays. -/
def detach (s : Scheduler) (previousHandle : Option Handle) : Except Error Scheduler :=
  match previousHandle with
  | none => .error .panic
  | some handle => do
    let entry ← s.getEntry handle
    if (s.clientIndex.get entry.clientId).isNone then .error .panic
    else
      .ok
        { s with
          clientIndex := s.clientIndex.remove entry.clientId
          clientIndexRoom := s.clientIndexRoom + 1 }

def installConnect (s : Scheduler) (prepared : Option Entry) :
    Except Error (Option Handle × Scheduler) :=
  match prepared with
  | none => .ok (none, s)
  | some entry => do
    let (handle, s) ← s.installPrepared entry
    .ok (some handle, s)

def handleForClient (s : Scheduler) (clientId : Bytes) : Option Handle :=
  match s.clientIndex.get clientId with
  | none => none
  | some index => (entryAt s.entries index).map fun entry => ⟨index, entry.generation⟩

/-- The client's Will has been handed out by a poll. -/
def claimedForClient (s : Scheduler) (clientId : Bytes) : Bool :=
  match s.clientIndex.get clientId with
  | none => false
  | some index => (entryAt s.entries index).any fun entry => entry.state == .due

/-- The part of `acceptConnect` behind the reservations. -/
def takeOver (s : Scheduler) (connect : Connect) (nowNs : Int) (preview : CloseResult)
    (previousHandle : Option Handle) (previousWasClaimed : Bool) (prepared : Option Entry) :
    Except Error (AcceptResult × Scheduler) := do
  let (previous, s) ← s.onReconnect connect.clientId connect.cleanStart nowNs
  let s ← (if previous ≠ preview then .error .panic
    else if previous = .dueNow then s.detach previousHandle else .ok s)
  let (current, s) ← s.installConnect prepared
  let previousDue := if previous = .dueNow ∧ previousWasClaimed = false then previousHandle else none
  .ok (⟨previous, previousDue, current⟩, s)

def acceptConnect (s : Scheduler) (connect : Connect) (nowNs : Int) (memory : Memory) :
    Except Error (AcceptResult × Scheduler) := do
  let preview ← s.previewReconnect connect nowNs
  let (prepared, reserved) ← s.prepareConnect connect preview memory
  reserved.takeOver connect nowNs preview (s.handleForClient connect.clientId)
    (s.claimedForClient connect.clientId) prepared

/-! ### Closing -/

/-- A connected Will is given its deadline. -/
def schedule (s : Scheduler) (index : Nat) (entry : Entry) (deadlineNs : Int) :
    Except Error Scheduler :=
  let s := s.putEntry index { entry with state := .scheduled, deadlineNs := deadlineNs }
  match entry.heapIndex with
  | none => s.enterHeap index
  | some heapIndex => .ok (s.withHeap (s.deadlineHeap.fix lessEntry setHeapPosition heapIndex))

def close (s : Scheduler) (handle : Handle) (reason : CloseReason) (nowNs : Int) :
    Except Error (CloseResult × Scheduler) := do
  let entry ← s.getEntry handle
  if entry.state = .due then .ok (.dueNow, s)
  else if entry.state = .scheduled ∧ reason ≠ .sessionEnded then .ok (.scheduled, s)
  else
    match reason with
    | .normalDisconnect => do
      let s ← s.removeAt handle.index
      .ok (.canceled, s)
    | .sessionEnded => do
      let s ← s.makeDueNow handle.index nowNs
      .ok (.dueNow, s)
    | .disconnectWithWill | .ungraceful =>
      let delay := effectiveDelay entry.willDelayInterval entry.sessionExpiryInterval
      if delay = 0 then do
        let s ← s.makeDueNow handle.index nowNs
        .ok (.dueNow, s)
      else do
        let s ← s.schedule handle.index entry (addSeconds nowNs delay)
        .ok (.scheduled, s)

/-- The Session Expiry Interval of a DISCONNECT replaces that of a connected Will. -/
def overrideExpiry (s : Scheduler) (index : Nat) (entry : Entry) (packet : Disconnect) :
    Except Error Scheduler :=
  if entry.state = .connected then
    match sessionExpiryInterval packet.properties with
    | none => .ok s
    | some newExpiry =>
      if entry.sessionExpiryInterval = 0 ∧ newExpiry ≠ 0 then .error .invalidProperty
      else .ok (s.putEntry index { entry with sessionExpiryInterval := newExpiry })
  else .ok s

def closeDisconnect (s : Scheduler) (handle : Handle) (packet : Disconnect) (nowNs : Int) :
    Except Error (CloseResult × Scheduler) := do
  let entry ← s.getEntry handle
  let s ← s.overrideExpiry handle.index entry packet
  s.close handle (if packet.reasonCode = 0x04 then .disconnectWithWill else .normalDisconnect) nowNs

/-! ### Polling -/

/-- The walk of the heap, with fuel for its depth. -/
def countDueFrom (s : Scheduler) (nowNs : Int) : Nat → Nat → Nat
  | 0, _ => 0
  | fuel + 1, heapIndex =>
    match s.heap[heapIndex]? with
    | none => 0
    | some entryIndex =>
      if (entryAt s.entries entryIndex).all (fun entry => decide (nowNs < entry.deadlineNs)) then 0
      else
        1 + s.countDueFrom nowNs fuel (heapIndex * 2 + 1) +
          s.countDueFrom nowNs fuel (heapIndex * 2 + 2)

/-- The root is popped and marked due. -/
def claimRoot (s : Scheduler) (entryIndex : Nat) : Except Error Scheduler := do
  let popped := s.deadlineHeap.remove lessEntry setHeapPosition 0
  let s := s.withHeap popped.2
  let entry ← s.unwrapEntry entryIndex
  .ok (s.putEntry entryIndex { entry with state := .due })

/-- The loop of `pollDue`, which pops one entry at each turn; a write behind the caller's buffer
is out of bounds. -/
def pollLoop (nowNs : Int) (outLen : Nat) :
    Nat → Scheduler → List Handle → Except Error (List Handle × Scheduler)
  | 0, s, written => .ok (written, s)
  | fuel + 1, s, written =>
    match s.heap.head? with
    | none => .ok (written, s)
    | some entryIndex => do
      let entry ← s.unwrapEntry entryIndex
      if nowNs < entry.deadlineNs then .ok (written, s)
      else do
        let s ← s.claimRoot entryIndex
        if outLen ≤ written.length then .error .panic
        else pollLoop nowNs outLen fuel s (written ++ [⟨entryIndex, entry.generation⟩])

def pollDue (s : Scheduler) (nowNs : Int) (outLen : Nat) : Except Error (List Handle × Scheduler) :=
  if outLen < s.countDueFrom nowNs s.heap.length 0 then .error .dueBufferTooSmall
  else pollLoop nowNs outLen s.heap.length s []

def pollOneDue (s : Scheduler) (nowNs : Int) : Except Error (Option Handle × Scheduler) :=
  match s.heap.head? with
  | none => .ok (none, s)
  | some entryIndex => do
    let entry ← s.unwrapEntry entryIndex
    if nowNs < entry.deadlineNs then .ok (none, s)
    else do
      let s ← s.claimRoot entryIndex
      .ok (some ⟨entryIndex, entry.generation⟩, s)

def releaseDue (s : Scheduler) (handle : Handle) : Except Error (Unit × Scheduler) := do
  let entry ← s.getEntry handle
  if entry.state ≠ .due ∨ entry.heapIndex ≠ none then .error .willNotDue
  else do
    let s ← s.removeAt handle.index
    .ok ((), s)

/-! ### Runs -/

inductive Op where
  | set (clientId : Bytes) (will : LastWill) (sessionExpiryInterval : Nat) (memory : Memory)
  | acceptConnect (connect : Connect) (nowNs : Int) (memory : Memory)
  | onReconnect (clientId : Bytes) (cleanStart : Bool) (nowNs : Int)
  | close (handle : Handle) (reason : CloseReason) (nowNs : Int)
  | closeDisconnect (handle : Handle) (packet : Disconnect) (nowNs : Int)
  | pollDue (nowNs : Int) (outLen : Nat)
  | pollOneDue (nowNs : Int)
  | releaseDue (handle : Handle)

/-- What a call returns when it succeeds. -/
inductive Reply where
  | installed (handle : Handle)
  | accepted (result : AcceptResult)
  | reconnected (result : CloseResult)
  | closed (result : CloseResult)
  | polled (handles : List Handle)
  | polledOne (handle : Option Handle)
  | released

def call (s : Scheduler) : Op → Except Error (Reply × Scheduler)
  | .set clientId will sessionExpiryInterval memory =>
    (s.set clientId will sessionExpiryInterval memory).map fun r => (.installed r.1, r.2)
  | .acceptConnect connect nowNs memory =>
    (s.acceptConnect connect nowNs memory).map fun r => (.accepted r.1, r.2)
  | .onReconnect clientId cleanStart nowNs =>
    (s.onReconnect clientId cleanStart nowNs).map fun r => (.reconnected r.1, r.2)
  | .close handle reason nowNs => (s.close handle reason nowNs).map fun r => (.closed r.1, r.2)
  | .closeDisconnect handle packet nowNs =>
    (s.closeDisconnect handle packet nowNs).map fun r => (.closed r.1, r.2)
  | .pollDue nowNs outLen => (s.pollDue nowNs outLen).map fun r => (.polled r.1, r.2)
  | .pollOneDue nowNs => (s.pollOneDue nowNs).map fun r => (.polledOne r.1, r.2)
  | .releaseDue handle => (s.releaseDue handle).map fun r => (.released, r.2)

def step (s : Scheduler) (op : Op) : Except Error Reply × Scheduler :=
  match s.call op with
  | .error e => (.error e, s)
  | .ok (reply, s') => (.ok reply, s')

end Scheduler

end Netz.Mqtt.Will
