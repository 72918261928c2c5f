/-
The received half of a QUIC packet number space (`quic/packet_space.zig`).

`ReceivedPacketTracker` remembers which packet numbers have arrived as a bounded
list of ranges, newest first, together with one number below which everything is
treated as already seen.  Packet numbers are `u64` in the source; every stored one
has passed the varint check, so `Nat` loses nothing, and the saturating
subtractions of the source are subtractions of `Nat`.

Every operation that can fail returns its outcome beside the state it leaves
behind, because an error does not undo what was done before it.  A call that
needs a fresh list slot takes the allocator's answer as `oom`.
-/
import Netz.Lib.Ranges
import Netz.Quic.Frame

namespace Netz.Quic

/-- `EcnCodepoint`. -/
inductive EcnCodepoint where
  | notEct
  | ect0
  | ect1
  | ce
deriving DecidableEq

/-- `PacketRange`; its `end` is `stop` here. -/
abbrev PacketRange := Lib.Range

/-- Whether `next` follows `previous` with nothing between them. -/
def isImmediatelyBefore (previous next : Nat) : Bool :=
  if previous = maxU64 then false else decide (previous + 1 = next)

def rangesOverlapOrAdjacent (lower higher : PacketRange) : Bool :=
  decide (higher.start ≤ lower.stop) || isImmediatelyBefore lower.stop higher.start

structure ReceivedPacketTracker where
  ranges : List PacketRange := []
  maxRanges : Nat := 64
  forgottenThrough : Option Nat := none
  retainedPacketCount : Nat := 0
  ecnCounts : EcnCounts := {}
  sawEcn : Bool := false

namespace ReceivedPacketTracker

/-- A tracker that has seen nothing. -/
def init (maxRanges : Nat) : ReceivedPacketTracker := { maxRanges := maxRanges }

def forgetThrough (t : ReceivedPacketTracker) (packetNumber : Nat) : ReceivedPacketTracker :=
  { t with forgottenThrough := some <|
      match t.forgottenThrough with
      | some previous => max previous packetNumber
      | none => packetNumber }

/-- `pn` is at or below what has been forgotten. -/
def forgotten (t : ReceivedPacketTracker) (packetNumber : Nat) : Bool :=
  match t.forgottenThrough with
  | some through => decide (packetNumber ≤ through)
  | none => false

/-- Drop the oldest range, remembering only where it ended. -/
def evictOldest (t : ReceivedPacketTracker) (oldest : PacketRange) : ReceivedPacketTracker :=
  let t := t.forgetThrough oldest.stop
  { t with
    retainedPacketCount := t.retainedPacketCount - oldest.len
    ranges := t.ranges.dropLast }

/-- The append or insert at the end of `insertRange`. -/
def placeRange (t : ReceivedPacketTracker) (index : Nat) (range : PacketRange) :
    ReceivedPacketTracker :=
  { t with
    ranges := t.ranges.insertIdx index range
    retainedPacketCount := t.retainedPacketCount + range.len }

def insertRange (t : ReceivedPacketTracker) (oom : Bool) (index : Nat) (range : PacketRange) :
    Except Error Bool × ReceivedPacketTracker :=
  if t.maxRanges = 0 then (.ok false, t)
  else if t.maxRanges ≤ t.ranges.length then
    if index = t.ranges.length then (.ok false, t.forgetThrough range.stop)
    else
      match t.ranges.getLast? with
      | none => (.ok false, t)
      | some oldest =>
        -- The slot the eviction freed is reused, so the allocator is not asked.
        (.ok true, (t.evictOldest oldest).placeRange index range)
  else if oom then (.error .outOfMemory, t)
  else (.ok true, t.placeRange index range)

/-- Write one range and count the packet number it gained. -/
def extendRange (t : ReceivedPacketTracker) (index : Nat) (range : PacketRange) :
    ReceivedPacketTracker :=
  { t with
    ranges := t.ranges.set index range
    retainedPacketCount := t.retainedPacketCount + 1 }

/-- Merge the range at `index` into the newer one before it, if they touch. -/
def mergeForward (t : ReceivedPacketTracker) (index : Nat) : ReceivedPacketTracker :=
  if index = 0 then t
  else
    match t.ranges[index]?, t.ranges[index - 1]? with
    | some current, some previous =>
      if rangesOverlapOrAdjacent current previous then
        let merged : PacketRange :=
          { start := min previous.start current.start, stop := max previous.stop current.stop }
        { t with ranges := (t.ranges.set (index - 1) merged).eraseIdx index }
      else t
    | _, _ => t

/-- Merge the older range after `index` into the one at `index`, if they touch. -/
def mergeBackward (t : ReceivedPacketTracker) (index : Nat) : ReceivedPacketTracker :=
  if t.ranges.length ≤ index + 1 then t
  else
    match t.ranges[index]?, t.ranges[index + 1]? with
    | some current, some next =>
      if rangesOverlapOrAdjacent next current then
        let merged : PacketRange :=
          { start := min current.start next.start, stop := max current.stop next.stop }
        { t with ranges := (t.ranges.set index merged).eraseIdx (index + 1) }
      else t
    | _, _ => t

/-- The scan of `recordFresh` over the ranges that are left, `i` being the index of the first. -/
def scanRanges (t : ReceivedPacketTracker) (oom : Bool) (packetNumber : Nat) :
    List PacketRange → Nat → Except Error Bool × ReceivedPacketTracker
  | [], _ => t.insertRange oom t.ranges.length ⟨packetNumber, packetNumber⟩
  | range :: rest, i =>
    if range.start ≤ packetNumber ∧ packetNumber ≤ range.stop then (.ok false, t)
    else if isImmediatelyBefore range.stop packetNumber then
      (.ok true, (t.extendRange i { range with stop := packetNumber }).mergeForward i)
    else if isImmediatelyBefore packetNumber range.start then
      (.ok true, (t.extendRange i { range with start := packetNumber }).mergeBackward i)
    else if range.stop < packetNumber then
      t.insertRange oom i ⟨packetNumber, packetNumber⟩
    else scanRanges t oom packetNumber rest (i + 1)

/-- The oldest fast path of `recordFresh`, and the scan behind it. -/
def recordBelowNewest (t : ReceivedPacketTracker) (oom : Bool) (packetNumber : Nat)
    (oldest : PacketRange) : Except Error Bool × ReceivedPacketTracker :=
  if packetNumber < oldest.start then
    if isImmediatelyBefore packetNumber oldest.start then
      (.ok true, t.extendRange (t.ranges.length - 1) { oldest with start := packetNumber })
    else t.insertRange oom t.ranges.length ⟨packetNumber, packetNumber⟩
  else if packetNumber ≤ oldest.stop then (.ok false, t)
  else t.scanRanges oom packetNumber t.ranges 0

/-- Record a packet number, and say whether it is new enough to process. -/
def recordFresh (t : ReceivedPacketTracker) (oom : Bool) (packetNumber : Nat) :
    Except Error Bool × ReceivedPacketTracker :=
  if varintMax < packetNumber then (.error .invalidPacketNumber, t)
  else if t.forgotten packetNumber then (.ok false, t)
  else
    match t.ranges with
    | [] => t.insertRange oom 0 ⟨packetNumber, packetNumber⟩
    | newest :: older =>
      if newest.stop < packetNumber then
        if isImmediatelyBefore newest.stop packetNumber then
          (.ok true, t.extendRange 0 { newest with stop := packetNumber })
        else t.insertRange oom 0 ⟨packetNumber, packetNumber⟩
      else if newest.start ≤ packetNumber then (.ok false, t)
      else t.recordBelowNewest oom packetNumber ((newest :: older).getLast (by simp))

def recordEcn (t : ReceivedPacketTracker) : EcnCodepoint → ReceivedPacketTracker
  | .notEct => t
  | .ect0 =>
    { t with ecnCounts := { t.ecnCounts with ect0Count := t.ecnCounts.ect0Count + 1 }, sawEcn := true }
  | .ect1 =>
    { t with ecnCounts := { t.ecnCounts with ect1Count := t.ecnCounts.ect1Count + 1 }, sawEcn := true }
  | .ce =>
    { t with ecnCounts := { t.ecnCounts with ecnCeCount := t.ecnCounts.ecnCeCount + 1 }, sawEcn := true }

def recordWithEcn (t : ReceivedPacketTracker) (oom : Bool) (packetNumber : Nat)
    (ecn : EcnCodepoint) : Except Error Bool × ReceivedPacketTracker :=
  match t.recordFresh oom packetNumber with
  | (.ok fresh, t') => (.ok fresh, if fresh && ecn != .notEct then t'.recordEcn ecn else t')
  | (.error e, t') => (.error e, t')

/-- `wouldRecordFresh`'s scan, which answers without recording. -/
def wouldScanRanges (t : ReceivedPacketTracker) (packetNumber : Nat) : List PacketRange → Bool
  | [] => decide (t.ranges.length < t.maxRanges)
  | range :: rest =>
    if range.start ≤ packetNumber ∧ packetNumber ≤ range.stop then false
    else if isImmediatelyBefore range.stop packetNumber then true
    else if isImmediatelyBefore packetNumber range.start then true
    else if range.stop < packetNumber then true
    else wouldScanRanges t packetNumber rest

def wouldRecordFresh (t : ReceivedPacketTracker) (packetNumber : Nat) : Except Error Bool :=
  if varintMax < packetNumber then .error .invalidPacketNumber
  else if t.maxRanges = 0 then .ok false
  else if t.forgotten packetNumber then .ok false
  else
    match t.ranges with
    | [] => .ok true
    | newest :: older =>
      if newest.stop < packetNumber then .ok true
      else if newest.start ≤ packetNumber then .ok false
      else
        let oldest := (newest :: older).getLast (by simp)
        if packetNumber < oldest.start then
          if isImmediatelyBefore packetNumber oldest.start then .ok true
          else .ok (decide (t.ranges.length < t.maxRanges))
        else if packetNumber ≤ oldest.stop then .ok false
        else .ok (t.wouldScanRanges packetNumber t.ranges)

/-- The loop of `pruneAckedRanges`, over the ranges oldest first. -/
def pruneOldest (largestAcknowledged : Nat) : List PacketRange → Nat → List PacketRange × Nat
  | [], count => ([], count)
  | oldest :: newer, count =>
    if oldest.stop ≤ largestAcknowledged then
      pruneOldest largestAcknowledged newer (count - oldest.len)
    else if oldest.start ≤ largestAcknowledged then
      ({ oldest with start := largestAcknowledged + 1 } :: newer,
        count - (largestAcknowledged - oldest.start + 1))
    else (oldest :: newer, count)

def pruneAckedRanges (t : ReceivedPacketTracker) (largestAcknowledged : Nat) :
    ReceivedPacketTracker :=
  let t := t.forgetThrough largestAcknowledged
  match t.ranges.getLast? with
  | none => t
  | some oldest =>
    if largestAcknowledged < oldest.start then t
    else
      let (kept, count) := pruneOldest largestAcknowledged t.ranges.reverse t.retainedPacketCount
      { t with ranges := kept.reverse, retainedPacketCount := count }

/-! ### Acknowledging -/

def latestEcnCounts (t : ReceivedPacketTracker) : Option EcnCounts :=
  if t.sawEcn then some t.ecnCounts else none

/-- The loop of `ackFrameInto`: each older range as the gap below the one before it. -/
def encodeAckRanges : PacketRange → List PacketRange → Except Error (List AckRange)
  | _, [] => .ok []
  | previous, range :: older =>
    match checkedAdd range.stop 2 with
    | none => .error .invalidAckFrame
    | some nextLargestAfterGap =>
      if previous.start < nextLargestAfterGap then .error .invalidAckFrame
      else
        match encodeAckRanges range older with
        | .error e => .error e
        | .ok ackRanges =>
          .ok ({ gap := previous.start - range.stop - 2, ackRangeLength := range.len - 1 } ::
            ackRanges)

/-- `ackFrameInto`, with `capacity` slots for the ranges below the largest one. -/
def ackFrameInto (t : ReceivedPacketTracker) (capacity ackDelay : Nat) : Except Error AckFrame :=
  match t.ranges with
  | [] => .error .invalidAckFrame
  | largest :: older =>
    if capacity < older.length then .error .tooManyAckRanges
    else
      match encodeAckRanges largest older with
      | .error e => .error e
      | .ok ackRanges =>
        .ok
          { largestAcknowledged := largest.stop
            ackDelay := ackDelay
            firstAckRange := largest.len - 1
            ranges := ackRanges
            ecnCounts := t.latestEcnCounts }

/-! ### The tracker as a machine -/

/-- A call on the tracker, with the allocator's answer where one is asked for. -/
inductive Op where
  | recordFresh (oom : Bool) (packetNumber : Nat)
  | recordWithEcn (oom : Bool) (packetNumber : Nat) (ecn : EcnCodepoint)
  | pruneAckedRanges (largestAcknowledged : Nat)

/-- The packet number a call asks about, if it asks about one. -/
def Op.packetNumber? : Op → Option Nat
  | .recordFresh _ packetNumber => some packetNumber
  | .recordWithEcn _ packetNumber _ => some packetNumber
  | .pruneAckedRanges _ => none

/-- One call; pruning answers nothing, which is `false` here. -/
def step (t : ReceivedPacketTracker) : Op → Except Error Bool × ReceivedPacketTracker
  | .recordFresh oom packetNumber => t.recordFresh oom packetNumber
  | .recordWithEcn oom packetNumber ecn => t.recordWithEcn oom packetNumber ecn
  | .pruneAckedRanges largest => (.ok false, t.pruneAckedRanges largest)

end ReceivedPacketTracker

end Netz.Quic
