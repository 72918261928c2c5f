/-
The retransmission queue with its indexes and counters (`quic/recovery.zig`).

`RecoveryQueue` keeps what the connection needs of the queue, the groups and the packet
numbers of each; this module has the queue as the source keeps it.  Payload storage is the
payload itself, and its cache is left out.
-/
import Netz.Lib.Positions
import Netz.Quic.SentPackets

namespace Netz.Quic.Recovery

open Lib

/-- The original packet number is kept inline, and the copies sent later in a list. -/
structure PendingDatagram where
  groupId : Nat
  originalPacketNumber : Option Nat
  retransmissionPacketNumbers : List Nat := []
  newestPacketNumber : Nat
  payload : Bytes

namespace PendingDatagram

/-- The packet numbers in the order of `packetNumberAt`. -/
def packetNumbers (entry : PendingDatagram) : List Nat :=
  entry.originalPacketNumber.toList ++ entry.retransmissionPacketNumbers

def packetCount (entry : PendingDatagram) : Nat :=
  (if entry.originalPacketNumber.isSome then 1 else 0) + entry.retransmissionPacketNumbers.length

def refreshNewestPacketNumber (entry : PendingDatagram) : PendingDatagram :=
  match entry.retransmissionPacketNumbers.getLast? with
  | some packetNumber => { entry with newestPacketNumber := packetNumber }
  | none =>
    match entry.originalPacketNumber with
    | some packetNumber => { entry with newestPacketNumber := packetNumber }
    | none => entry

def containsRange (entry : PendingDatagram) (start stop : Nat) : Bool :=
  entry.packetNumbers.any fun packetNumber =>
    decide (start ≤ packetNumber) && decide (packetNumber ≤ stop)

/-- The last copy takes the place of a forgotten one, and only popping the last one itself
refreshes the newest packet number. -/
def forgetRetransmission (entry : PendingDatagram) (index : Nat) : PendingDatagram :=
  let copies := entry.retransmissionPacketNumbers
  if index = copies.length - 1 then
    { entry with retransmissionPacketNumbers := copies.dropLast }.refreshNewestPacketNumber
  else
    match copies.getLast? with
    | none => entry
    | some last => { entry with retransmissionPacketNumbers := copies.dropLast.set index last }

end PendingDatagram

structure Queue where
  pending : List PendingDatagram := []
  groupIndex : Table Nat Nat := []
  packetIndex : Table Nat Nat := []
  packetNumberCopies : Nat := 0
  retransmissionCopies : Nat := 0
  payloadBytes : Nat := 0
  nextGroupId : Nat := 0

namespace Queue

/-! ### Indexes and counters -/

def addEntryStats (q : Queue) (entry : PendingDatagram) : Queue :=
  { q with
    packetNumberCopies := q.packetNumberCopies + entry.packetCount
    retransmissionCopies := q.retransmissionCopies + entry.retransmissionPacketNumbers.length
    payloadBytes := q.payloadBytes + entry.payload.length }

def removeEntryStats (q : Queue) (entry : PendingDatagram) : Queue :=
  { q with
    packetNumberCopies := q.packetNumberCopies - entry.packetCount
    retransmissionCopies := q.retransmissionCopies - entry.retransmissionPacketNumbers.length
    payloadBytes := q.payloadBytes - entry.payload.length }

def removeEntryIndexes (q : Queue) (entry : PendingDatagram) : Queue :=
  { q with
    groupIndex := q.groupIndex.removeKeys [entry.groupId]
    packetIndex := q.packetIndex.removeKeys entry.packetNumbers }

def refreshIndexesFrom (q : Queue) (start : Nat) : Queue :=
  { q with
    groupIndex := refreshFrom (fun entry => [entry.groupId]) q.pending q.groupIndex start
    packetIndex := refreshFrom PendingDatagram.packetNumbers q.pending q.packetIndex start }

def rebuildIndexesAssumeCapacity (q : Queue) : Queue :=
  { q with
    groupIndex := rebuild (fun entry => [entry.groupId]) q.pending
    packetIndex := rebuild PendingDatagram.packetNumbers q.pending }

/-- Drop the group at `index`, whose entry is `removed`. -/
def removeGroupOrdered (q : Queue) (index : Nat) (removed : PendingDatagram) : Queue :=
  let q := { q with pending := q.pending.eraseIdx index }
  let q := (q.removeEntryIndexes removed).removeEntryStats removed
  if index < q.pending.length then q.refreshIndexesFrom index else q

/-! ### Calls -/

def trackSent (q : Queue) (packetNumber : Nat) (payload : Bytes) : Except Error Nat × Queue :=
  if payload.length = 0 then (.error .emptyPayload, q)
  else if (q.packetIndex.get packetNumber).isSome then (.error .invalidRetransmission, q)
  else
    match checkedAdd q.nextGroupId 1 with
    | none => (.error .invalidRetransmission, q)
    | some next =>
      let entry : PendingDatagram :=
        { groupId := q.nextGroupId
          originalPacketNumber := some packetNumber
          newestPacketNumber := packetNumber
          payload := payload }
      let index := q.pending.length
      (.ok q.nextGroupId, ({ q with
        pending := q.pending ++ [entry]
        groupIndex := q.groupIndex.put q.nextGroupId index
        packetIndex := q.packetIndex.put packetNumber index
        nextGroupId := next }).addEntryStats entry)

def containsGroupId (q : Queue) (groupId : Nat) : Bool := (q.groupIndex.get groupId).isSome

def recordRetransmission (q : Queue) (groupIndex packetNumber : Nat) : Except Error Unit × Queue :=
  match q.pending[groupIndex]? with
  | none => (.error .invalidRetransmission, q)
  | some entry =>
    if (q.packetIndex.get packetNumber).isSome then (.error .invalidRetransmission, q)
    else
      (.ok (), { q with
        pending := q.pending.set groupIndex
          { entry with
            retransmissionPacketNumbers := entry.retransmissionPacketNumbers ++ [packetNumber]
            newestPacketNumber := packetNumber }
        packetIndex := q.packetIndex.put packetNumber groupIndex
        packetNumberCopies := q.packetNumberCopies + 1
        retransmissionCopies := q.retransmissionCopies + 1 })

def acknowledgePacketNumber (q : Queue) (packetNumber : Nat) : Bool × Queue :=
  match q.packetIndex.get packetNumber with
  | none => (false, q)
  | some index =>
    match q.pending[index]? with
    | none => (false, q)
    | some removed => (true, q.removeGroupOrdered index removed)

/-- A number in the index that its entry does not carry is the branch marked unreachable;
it answers false here. -/
def forgetPacketNumber (q : Queue) (packetNumber : Nat) : Bool × Queue :=
  match q.packetIndex.get packetNumber with
  | none => (false, q)
  | some index =>
    match q.pending[index]? with
    | none => (false, q)
    | some entry =>
      if entry.packetCount = 1 then (true, q.removeGroupOrdered index entry)
      else if entry.originalPacketNumber = some packetNumber then
        (true, { q with
          pending := q.pending.set index { entry with originalPacketNumber := none }
          packetIndex := q.packetIndex.remove packetNumber
          packetNumberCopies := q.packetNumberCopies - 1 })
      else
        match entry.retransmissionPacketNumbers.findIdx? (· == packetNumber) with
        | none => (false, q)
        | some copy =>
          (true, { q with
            pending := q.pending.set index (entry.forgetRetransmission copy)
            packetIndex := q.packetIndex.remove packetNumber
            packetNumberCopies := q.packetNumberCopies - 1
            retransmissionCopies := q.retransmissionCopies - 1 })

/-- The ranges below the first, checked before anything changes. -/
def rangeChainValid : Nat → List AckRange → Bool
  | _, [] => true
  | smallest, range :: rest =>
    match checkedAdd range.gap 2 with
    | none => false
    | some skipped =>
      if smallest < skipped then false
      else if smallest - skipped < range.ackRangeLength then false
      else rangeChainValid (smallest - skipped - range.ackRangeLength) rest

/-- The loop of `entryAcked` over the ranges below `start`. -/
def entryAckedBelow (entry : PendingDatagram) : Nat → List AckRange → Bool
  | _, [] => false
  | start, range :: rest =>
    let stop := start - (range.gap + 2)
    let start := stop - range.ackRangeLength
    if entry.containsRange start stop then true else entryAckedBelow entry start rest

def entryAcked (entry : PendingDatagram) (ack : AckFrame) : Bool :=
  let start := ack.largestAcknowledged - ack.firstAckRange
  if entry.containsRange start ack.largestAcknowledged then true
  else entryAckedBelow entry start ack.ranges

/-- The survivors keep their order; the indexes are rebuilt when anything was removed. -/
def retainUnacknowledgedAck (q : Queue) (ack : AckFrame) : Nat × Queue :=
  let acked := q.pending.filter (fun entry => entryAcked entry ack)
  if acked.length = 0 then (0, q)
  else
    let q := acked.foldl removeEntryStats q
    (acked.length, { q with
      pending := q.pending.filter (fun entry => !entryAcked entry ack) }.rebuildIndexesAssumeCapacity)

def applyAck (q : Queue) (ack : AckFrame) : Except Error Nat × Queue :=
  if ack.largestAcknowledged < ack.firstAckRange then (.error .invalidAckFrame, q)
  else if rangeChainValid (ack.largestAcknowledged - ack.firstAckRange) ack.ranges = false then
    (.error .invalidAckFrame, q)
  else
    match q.retainUnacknowledgedAck ack with
    | (removed, q) => (.ok removed, q)

/-! ### Runs -/

inductive Op where
  | trackSent (packetNumber : Nat) (payload : Bytes)
  | recordRetransmission (groupIndex packetNumber : Nat)
  | forgetPacketNumber (packetNumber : Nat)
  | acknowledgePacketNumber (packetNumber : Nat)
  | applyAck (ack : AckFrame)

inductive Result where
  | tracked (result : Except Error Nat)
  | recorded (result : Except Error Unit)
  | answered (found : Bool)
  | acked (result : Except Error Nat)

def step (q : Queue) : Op → Result × Queue
  | .trackSent packetNumber payload =>
    match q.trackSent packetNumber payload with
    | (result, q) => (.tracked result, q)
  | .recordRetransmission groupIndex packetNumber =>
    match q.recordRetransmission groupIndex packetNumber with
    | (result, q) => (.recorded result, q)
  | .forgetPacketNumber packetNumber =>
    match q.forgetPacketNumber packetNumber with
    | (found, q) => (.answered found, q)
  | .acknowledgePacketNumber packetNumber =>
    match q.acknowledgePacketNumber packetNumber with
    | (found, q) => (.answered found, q)
  | .applyAck ack =>
    match q.applyAck ack with
    | (result, q) => (.acked result, q)

end Queue

end Netz.Quic.Recovery
