/-
Connection id pools (`quic/connection_id.zig`).

Both pools are arrays of eight slots, and the retire queue of the peer's pool is a ring
buffer.  A failed call may already have changed the pool, so every outcome comes with the
pool it leaves.
-/
import Netz.Lib.Ring
import Netz.Quic.Frame

namespace Netz.Quic

def maxPoolSize : Nat := 8

def maxConnectionIdLen : Nat := 20

def maxRetireQueueLen : Nat := maxPoolSize * 4

lemma maxRetireQueueLen_pos : 0 < maxRetireQueueLen := by decide

/-- `stateless_reset.token_len`. -/
def tokenLen : Nat := 16

/-- `stateless_reset.min_datagram_len`. -/
def minDatagramLen : Nat := tokenLen + 5

abbrev ResetToken := Vector UInt8 16

/-- The pending retirements: `retire_queue`, `retire_queue_head` and `retire_queue_len`. -/
abbrev RetireQueue := Lib.Ring Nat maxRetireQueueLen

/-- `connection_id.Entry`. -/
structure CidEntry where
  sequenceNumber : Nat := 0
  connectionId : Bytes := []
  statelessResetToken : ResetToken := Vector.replicate 16 0
  inUse : Bool := false
  occupied : Bool := false
deriving DecidableEq

structure PeerPool where
  entries : List CidEntry := List.replicate maxPoolSize {}
  retireQueue : RetireQueue := .empty 0 maxRetireQueueLen_pos
  largestRetirePriorTo : Nat := 0
  inUseCount : Nat := 0
deriving DecidableEq

namespace PeerPool

/-- The peer's first connection id may be empty. -/
def addInitial (pool : PeerPool) (connectionId : Bytes) : Except Error PeerPool :=
  if maxConnectionIdLen < connectionId.length then .error .invalidConnectionId
  else
    .ok
      { pool with
        entries := pool.entries.set 0 { connectionId := connectionId, occupied := true, inUse := true }
        inUseCount := 1 }

def queueRetire (pool : PeerPool) (sequenceNumber : Nat) : Except Error Unit × PeerPool :=
  if pool.retireQueue.contains sequenceNumber then (.ok (), pool)
  else
    match pool.retireQueue.push sequenceNumber with
    | none => (.error .retireQueueFull, pool)
    | some queue => (.ok (), { pool with retireQueue := queue })

/-- The loop of `retirePriorTo` over `remaining` slots from `index` on. -/
def retireEntries (pool : PeerPool) (bound : Nat) : Nat → Nat → Except Error Unit × PeerPool
  | 0, _ => (.ok (), pool)
  | remaining + 1, index =>
    match pool.entries[index]? with
    | none => (.ok (), pool)
    | some entry =>
      if entry.occupied = true ∧ entry.sequenceNumber < bound then
        match pool.queueRetire entry.sequenceNumber with
        | (.error e, pool) => (.error e, pool)
        | (.ok _, pool) =>
          { pool with
            inUseCount := if entry.inUse then pool.inUseCount - 1 else pool.inUseCount
            entries := pool.entries.set index {} }.retireEntries bound remaining (index + 1)
      else pool.retireEntries bound remaining (index + 1)

def retirePriorTo (pool : PeerPool) (sequenceNumber : Nat) : Except Error Unit × PeerPool :=
  if sequenceNumber ≤ pool.largestRetirePriorTo then (.ok (), pool)
  else
    match pool.retireEntries sequenceNumber maxPoolSize 0 with
    | (.error e, pool) => (.error e, pool)
    | (.ok _, pool) => (.ok (), { pool with largestRetirePriorTo := sequenceNumber })

/-- The first empty slot, once no occupied one clashes and the limit leaves room. -/
def availableAddSlot (pool : PeerPool) (connectionId : Bytes) (token : ResetToken)
    (activeLimit : Nat) : Except Error (Option Nat) :=
  let occupied := pool.entries.filter (·.occupied)
  if occupied.any (fun e => e.connectionId == connectionId) then .error .duplicateConnectionId
  else if occupied.any (fun e => e.statelessResetToken == token) then .error .duplicateResetToken
  else if activeLimit ≤ occupied.length then .error .activeConnectionIdLimit
  else .ok (pool.entries.findIdx? (fun e => !e.occupied))

/-- A repeated sequence number must repeat its connection id and token, and changes nothing. -/
def addWithLimit (pool : PeerPool) (sequenceNumber : Nat) (connectionId : Bytes)
    (token : ResetToken) (activeLimit : Nat) : Except Error Unit × PeerPool :=
  if connectionId.length = 0 ∨ maxConnectionIdLen < connectionId.length then
    (.error .invalidConnectionId, pool)
  else
    match pool.entries.find? (fun e => e.occupied && e.sequenceNumber == sequenceNumber) with
    | some entry =>
      if entry.connectionId ≠ connectionId then (.error .duplicateConnectionId, pool)
      else if entry.statelessResetToken ≠ token then (.error .duplicateResetToken, pool)
      else (.ok (), pool)
    | none =>
      match pool.availableAddSlot connectionId token activeLimit with
      | .error e => (.error e, pool)
      | .ok none => (.error .poolFull, pool)
      | .ok (some index) =>
        (.ok (), { pool with
          entries := pool.entries.set index
            { sequenceNumber := sequenceNumber
              connectionId := connectionId
              statelessResetToken := token
              occupied := true } })

/-- An id below an announced Retire Prior To is retired at once. -/
def addWithRetirePriorTo (pool : PeerPool) (frame : NewConnectionIdFrame) (activeLimit : Nat) :
    Except Error Unit × PeerPool :=
  if frame.sequenceNumber < frame.retirePriorTo then (.error .retirePriorToTooLarge, pool)
  else
    match pool.retirePriorTo frame.retirePriorTo with
    | (.error e, pool) => (.error e, pool)
    | (.ok _, pool) =>
      if frame.sequenceNumber < pool.largestRetirePriorTo then
        pool.queueRetire frame.sequenceNumber
      else
        pool.addWithLimit frame.sequenceNumber frame.connectionId frame.statelessResetToken
          activeLimit

def discardRetireFrame (pool : PeerPool) : PeerPool :=
  { pool with retireQueue := pool.retireQueue.pop 0 }

def consumeUnused (pool : PeerPool) : Option CidEntry × PeerPool :=
  match pool.entries.findIdx? (fun e => e.occupied && !e.inUse) with
  | none => (none, pool)
  | some index =>
    let entry := { pool.entries.getD index {} with inUse := true }
    (some entry, { pool with
      entries := pool.entries.set index entry
      inUseCount := pool.inUseCount + 1 })

def markInUse (pool : PeerPool) (sequenceNumber : Nat) : Except Error Unit × PeerPool :=
  match pool.entries.findIdx? (fun e => e.occupied && e.sequenceNumber == sequenceNumber) with
  | none => (.error .unknownConnectionId, pool)
  | some index =>
    let entry := pool.entries.getD index {}
    (.ok (), { pool with
      entries := pool.entries.set index { entry with inUse := true }
      inUseCount := if !entry.inUse then pool.inUseCount + 1 else pool.inUseCount })

/-- `stateless_reset.matchesTokenSlice`; the comparison itself is the crypto package's
`verifyTruncated`. -/
def matchesTokenSlice (verifyTruncated : ResetToken → ResetToken → Bool) (candidate : Bytes)
    (expectedToken : ResetToken) : Bool :=
  if h : candidate.length = tokenLen then verifyTruncated ⟨candidate.toArray, h⟩ expectedToken
  else false

/-- The first id in use whose token ends the datagram. -/
def statelessResetEntry (verifyTruncated : ResetToken → ResetToken → Bool) (pool : PeerPool)
    (datagram : Bytes) : Option CidEntry :=
  if pool.inUseCount = 0 then none
  else if datagram.length < minDatagramLen then none
  else
    let candidate := datagram.drop (datagram.length - tokenLen)
    pool.entries.find? fun entry =>
      entry.occupied && entry.inUse &&
        matchesTokenSlice verifyTruncated candidate entry.statelessResetToken

def detectStatelessReset (verifyTruncated : ResetToken → ResetToken → Bool) (pool : PeerPool)
    (datagram : Bytes) : Option Nat :=
  (pool.statelessResetEntry verifyTruncated datagram).map (·.sequenceNumber)

/-! ### Runs -/

/-- The calls that change a pool. -/
inductive Op where
  | addInitial (connectionId : Bytes)
  | addWithLimit (sequenceNumber : Nat) (connectionId : Bytes) (token : ResetToken)
      (activeLimit : Nat)
  | addWithRetirePriorTo (frame : NewConnectionIdFrame) (activeLimit : Nat)
  | retirePriorTo (sequenceNumber : Nat)
  | consumeUnused
  | markInUse (sequenceNumber : Nat)
  | discardRetireFrame

def step (pool : PeerPool) : Op → Except Error Unit × PeerPool
  | .addInitial connectionId =>
    match pool.addInitial connectionId with
    | .error e => (.error e, pool)
    | .ok pool => (.ok (), pool)
  | .addWithLimit sequenceNumber connectionId token activeLimit =>
    pool.addWithLimit sequenceNumber connectionId token activeLimit
  | .addWithRetirePriorTo frame activeLimit => pool.addWithRetirePriorTo frame activeLimit
  | .retirePriorTo sequenceNumber => pool.retirePriorTo sequenceNumber
  | .consumeUnused => (.ok (), pool.consumeUnused.2)
  | .markInUse sequenceNumber => pool.markInUse sequenceNumber
  | .discardRetireFrame => (.ok (), pool.discardRetireFrame)

end PeerPool

structure LocalPool where
  entries : List CidEntry := List.replicate maxPoolSize {}
  nextSequenceNumber : Nat := 0
  retirePriorTo : Nat := 0

namespace LocalPool

def registerInitial (pool : LocalPool) (connectionId : Bytes) (token : ResetToken) :
    Except Error LocalPool :=
  if connectionId.length = 0 ∨ maxConnectionIdLen < connectionId.length then
    .error .invalidConnectionId
  else
    .ok
      { pool with
        entries := pool.entries.set 0
          { connectionId := connectionId, statelessResetToken := token, occupied := true }
        nextSequenceNumber := 1 }

/-- A packet may not retire the connection id it was addressed to. -/
def retireExceptPacketDestination (pool : LocalPool) (sequenceNumber : Nat)
    (packetDestinationConnectionId : Option Bytes) : Except Error Unit × LocalPool :=
  match pool.entries.findIdx? (fun e => e.occupied && e.sequenceNumber == sequenceNumber) with
  | none => (.error .unknownConnectionId, pool)
  | some index =>
    if (pool.entries[index]?).map (·.connectionId) = packetDestinationConnectionId then
      (.error .invalidConnectionId, pool)
    else (.ok (), { pool with entries := pool.entries.set index {} })

end LocalPool

end Netz.Quic
