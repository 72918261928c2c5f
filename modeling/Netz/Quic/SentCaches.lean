/-
The sent tracker with its caches (`quic/packet_space.zig`).

`SentPacketTracker` of the module before keeps what the tracker knows.  The source keeps two
things beside it to answer fast: a hash map from packet numbers to record indices, and the
index of the newest ack-eliciting packet in flight, which the probe timeout is computed from.
Every operation that moves or closes a record has to repair them.

Whether the hash map has room for a new packet depends on its allocation history; a send
carries that as an input.
-/
import Netz.Quic.SentPackets

namespace Netz.Quic

open Lib SentPacketTracker Function

/-- The send time of a packet that the probe timeout counts from. -/
def SentPacket.ackElicitingInFlightSentTime (p : SentPacket) : Option Nat :=
  if !p.ackEliciting || !p.inFlight || p.acknowledged || p.lost then none else p.sentTimeNs

/-- The arguments of `sentInFlightAtWithMetadata`, to which every `sent*` call comes down. -/
structure Sending where
  packetNumber : Nat
  ackEliciting : Bool := true
  inFlight : Bool := true
  bytes : Nat := 0
  ecn : EcnCodepoint := .notEct
  sentTimeNs : Option Nat := none
  pmtuProbeSize : Option Nat := none
  largestAcknowledgedSent : Option Nat := none

/-- The record of a packet just sent. -/
def Sending.packet (s : Sending) : SentPacket where
  packetNumber := s.packetNumber
  ackEliciting := s.ackEliciting
  inFlight := s.inFlight
  bytes := if s.inFlight then s.bytes else 0
  ecn := s.ecn
  sentTimeNs := s.sentTimeNs
  pmtuProbeSize := s.pmtuProbeSize
  largestAcknowledgedSent := s.largestAcknowledgedSent

/-- `SentPacketStats`. -/
structure SentPacketStats where
  trackedPackets : Nat
  ackElicitingPackets : Nat
  inFlightPackets : Nat
  ackElicitingInFlightPackets : Nat
  latestAckElicitingInFlightSentTimeNs : Option Nat
  acknowledgedPackets : Nat
  lostPackets : Nat
  bytesInFlight : Nat
  sentEct0Count : Nat
  sentEct1Count : Nat
  ecnValidationFailed : Bool

structure IndexedTracker extends SentPacketTracker where
  packetIndex : Nat → Option Nat := fun _ => none
  latestAckElicitingInFlightIndex : Option Nat := none

/-- A record that is still in flight. -/
def SentPacket.outstanding (p : SentPacket) : Bool := p.inFlight && !p.acknowledged && !p.lost

namespace IndexedTracker

/-! ### Lookups -/

/-- `findSortedPacketIndex`: unlike a lower bound it stops at a hit. -/
def findSortedLoop (packetNumber : Nat) (l : List SentPacket) : Nat → Nat → Nat → Option Nat
  | 0, _, _ => none
  | fuel + 1, low, high =>
    if low < high then
      let mid := low + (high - low) / 2
      match l[mid]? with
      | none => none
      | some p =>
        if p.packetNumber = packetNumber then some mid
        else if p.packetNumber < packetNumber then findSortedLoop packetNumber l fuel (mid + 1) high
        else findSortedLoop packetNumber l fuel low mid
    else none

def findSortedPacketIndex (t : IndexedTracker) (packetNumber : Nat) : Option Nat :=
  findSortedLoop packetNumber t.packets t.packets.length 0 t.packets.length

/-- The newest record is tried first, then the hash map, then a search. -/
def findPacketIndex (t : IndexedTracker) (packetNumber : Nat) : Option Nat :=
  match t.packets.getLast? with
  | none => none
  | some tail =>
    if tail.packetNumber = packetNumber then some (t.packets.length - 1)
    else
      match t.packetIndex packetNumber with
      | some index => some index
      | none =>
        if t.packetsSortedAscending then t.findSortedPacketIndex packetNumber
        else t.packets.findIdx? (fun p => p.packetNumber == packetNumber)

def findSentPacket (t : IndexedTracker) (packetNumber : Nat) : Option SentPacket :=
  match t.findPacketIndex packetNumber with
  | none => none
  | some index => t.packets[index]?

/-- `refreshPacketIndexFrom`: numbers the map holds get their present place. -/
def refreshPacketIndexFrom (t : IndexedTracker) (start : Nat) : IndexedTracker :=
  { t with
    packetIndex := (List.range' start (t.packets.length - start)).foldl
      (fun index i =>
        match t.packets[i]? with
        | none => index
        | some p =>
          if (index p.packetNumber).isSome then update index p.packetNumber (some i)
          else index)
      t.packetIndex }

/-! ### The newest ack-eliciting packet in flight -/

/-- The send time of the record at `index`, when the probe timeout counts from it. -/
def timeAt (packets : List SentPacket) (index : Nat) : Option Nat :=
  packets[index]?.bind SentPacket.ackElicitingInFlightSentTime

/-- `considerLatestAckElicitingInFlight`. -/
def consider (packets : List SentPacket) (latest : Option Nat) (index : Nat) : Option Nat :=
  match timeAt packets index with
  | none => latest
  | some sentTime =>
    match latest with
    | none => some index
    | some current =>
      match timeAt packets current with
      | none => some index
      | some currentTime => if currentTime < sentTime then some index else latest

/-- `recomputeLatestAckElicitingInFlight`. -/
def recomputeLatest (t : IndexedTracker) : IndexedTracker :=
  { t with
    latestAckElicitingInFlightIndex :=
      (List.range' t.scanStart (t.packets.length - t.scanStart)).foldl (consider t.packets) none }

def scanLatestAckElicitingInFlightSentTime (t : IndexedTracker) : Option Nat :=
  (t.packets.drop t.scanStart).foldl
    (fun latest p =>
      match p.ackElicitingInFlightSentTime with
      | none => latest
      | some sentTime =>
        if latest.all (fun time => decide (time < sentTime)) then some sentTime else latest)
    none

/-- A cached index that no longer points at such a packet falls back to the scan. -/
def latestAckElicitingInFlightSentTime (t : IndexedTracker) : Option Nat :=
  match t.latestAckElicitingInFlightIndex with
  | none => none
  | some index =>
    match timeAt t.packets index with
    | some sentTime => some sentTime
    | none => t.scanLatestAckElicitingInFlightSentTime

def stats (t : IndexedTracker) : SentPacketStats where
  trackedPackets := t.packets.length
  ackElicitingPackets := t.packets.countP (·.ackEliciting)
  inFlightPackets := t.packets.countP (·.outstanding)
  ackElicitingInFlightPackets := t.packets.countP (fun p => p.outstanding && p.ackEliciting)
  latestAckElicitingInFlightSentTimeNs := t.latestAckElicitingInFlightSentTime
  acknowledgedPackets := t.packets.countP (·.acknowledged)
  lostPackets := t.packets.countP (·.lost)
  bytesInFlight := ((t.packets.filter (·.outstanding)).map (·.bytes)).sum
  sentEct0Count := t.sentEct0Count
  sentEct1Count := t.sentEct1Count
  ecnValidationFailed := t.ecnValidationFailed

/-! ### Sending and forgetting -/

/-- `indexed`: the hash map has room for the packet. -/
def sent (t : IndexedTracker) (sending : Sending) (indexed : Bool) :
    Except Error Unit × IndexedTracker :=
  let monotonicAppend :=
    t.packets.getLast?.all (fun p => decide (p.packetNumber < sending.packetNumber))
  if monotonicAppend = false ∧ (t.findPacketIndex sending.packetNumber).isSome = true then
    (.error .duplicatePacket, t)
  else
    let index := t.packets.length
    let packets := t.packets ++ [sending.packet]
    (.ok (),
      { t with
        packets := packets
        packetsSortedAscending := t.packetsSortedAscending && monotonicAppend
        packetIndex :=
          if indexed then update t.packetIndex sending.packetNumber (some index)
          else t.packetIndex
        latestAckElicitingInFlightIndex :=
          consider packets t.latestAckElicitingInFlightIndex index
        sentEct0Count := if sending.ecn = .ect0 then t.sentEct0Count + 1 else t.sentEct0Count
        sentEct1Count := if sending.ecn = .ect1 then t.sentEct1Count + 1 else t.sentEct1Count })

def advanceFirst (t : IndexedTracker) : IndexedTracker :=
  { t with
    firstUnacknowledgedIndex :=
      t.toSentPacketTracker.advanceFirstUnacknowledged.firstUnacknowledgedIndex }

/-- The newest record is popped; any other is taken out of the middle. -/
def forget (t : IndexedTracker) (packetNumber : Nat) : Bool × IndexedTracker :=
  match t.packets.getLast? with
  | none => (false, t)
  | some tail =>
    let latest := t.latestAckElicitingInFlightIndex
    if tail.packetNumber = packetNumber then
      let popped : IndexedTracker :=
        { t with
          packets := t.packets.dropLast
          packetIndex := update t.packetIndex packetNumber none
          firstUnacknowledgedIndex := min t.firstUnacknowledgedIndex (t.packets.length - 1) }
      (true, if latest = some (t.packets.length - 1) then popped.recomputeLatest else popped)
    else
      match t.findPacketIndex packetNumber with
      | none => (false, t)
      | some index =>
        let removed : IndexedTracker :=
          { t with
            packets := t.packets.eraseIdx index
            packetIndex := update t.packetIndex packetNumber none
            firstUnacknowledgedIndex :=
              if index < t.firstUnacknowledgedIndex then t.firstUnacknowledgedIndex - 1
              else t.firstUnacknowledgedIndex }
        let refreshed :=
          if index < removed.packets.length then removed.refreshPacketIndexFrom index else removed
        let repaired :=
          if latest = some index then refreshed.recomputeLatest
          else if latest.any (fun i => decide (index < i)) then
            { refreshed with latestAckElicitingInFlightIndex := latest.map (· - 1) }
          else refreshed
        (true, repaired.advanceFirst)

/-! ### Acknowledgements -/

def markAcknowledged (t : IndexedTracker) (packetNumber : Nat) : Bool × IndexedTracker :=
  match t.findPacketIndex packetNumber with
  | none => (false, t)
  | some index =>
    match t.packets[index]? with
    | none => (false, t)
    | some packet =>
      let marked : IndexedTracker :=
        if packet.acknowledged then t
        else
          let closed :=
            { t with packets := t.packets.set index { packet with acknowledged := true } }
          if t.latestAckElicitingInFlightIndex = some index then closed.recomputeLatest else closed
      (true,
        { marked with
          toSentPacketTracker :=
            (marked.toSentPacketTracker.observeAcknowledged packetNumber).advanceFirstUnacknowledged })

/-- The tracker while an ACK is applied, with the flag that the cached packet was in it. -/
structure Marking where
  tracker : SentPacketTracker
  result : AckResult := {}
  cachedLatestAcked : Bool := false

/-- The record at `index` is newly acknowledged and is the cached one. -/
def isCachedLatest (packets : List SentPacket) (latest : Option Nat) (index : Nat) : Bool :=
  match packets[index]?, latest.bind (packets[·]?) with
  | some packet, some cached => !packet.acknowledged && cached.packetNumber == packet.packetNumber
  | _, _ => false

def Marking.mark (latest : Option Nat) (m : Marking) (index : Nat) : Marking :=
  let r := m.tracker.markPacketAcknowledged m.result index
  { tracker := r.1
    result := r.2
    cachedLatestAcked := m.cachedLatestAcked || isCachedLatest m.tracker.packets latest index }

def Marking.markIndices (latest : Option Nat) (m : Marking) : Nat → Nat → Marking
  | 0, _ => m
  | remaining + 1, index => (m.mark latest index).markIndices latest remaining (index + 1)

def Marking.markSortedRanges (latest : Option Nat) (m : Marking) : List PacketRange → Marking
  | [] => m
  | range :: rest =>
    let rangeStart :=
      max (m.tracker.lowerBoundPacketIndex range.start) m.tracker.firstUnacknowledgedIndex
    let rangeEnd := m.tracker.upperBoundPacketIndex range.stop
    (m.markIndices latest (rangeEnd - rangeStart) rangeStart).markSortedRanges latest rest

def Marking.markNamed (latest : Option Nat) (ranges : List PacketRange) (m : Marking) :
    Nat → Nat → Marking
  | 0, _ => m
  | remaining + 1, index =>
    let marked :=
      match m.tracker.packets[index]? with
      | none => m
      | some packet =>
        if ackRangesContain ranges packet.packetNumber then m.mark latest index
        else m
    marked.markNamed latest ranges remaining (index + 1)

/-- The caches and the cursor after the records have been marked. -/
def finishMarking (t : IndexedTracker) (m : Marking) : AckResult × IndexedTracker :=
  let marked := { t with toSentPacketTracker := m.tracker }
  let repaired := if m.cachedLatestAcked then marked.recomputeLatest else marked
  (m.result, repaired.advanceFirst)

def markRanges (t : IndexedTracker) (ranges : List PacketRange) : AckResult × IndexedTracker :=
  let latest := t.latestAckElicitingInFlightIndex
  let start : Marking := { tracker := t.toSentPacketTracker }
  let spans := fun (_ : Unit) =>
    t.finishMarking
      (if t.packetsSortedAscending then start.markSortedRanges latest ranges
      else start.markNamed latest ranges t.packets.length 0)
  match ranges with
  | [⟨first, last⟩] =>
    if first = last then
      match t.findPacketIndex first with
      | none => ({}, t)
      | some index => t.finishMarking (start.mark latest index)
    else spans ()
  | _ => spans ()

/-- `precheckAckRanges`, whose case of one number is a lookup. -/
def precheckAckRanges (t : IndexedTracker) (ranges : List PacketRange) :
    Except Error SentPacketTracker.AckPrecheck :=
  match ranges with
  | [⟨first, last⟩] =>
    if first = last then
      match t.findSentPacket first with
      | some packet =>
        .ok (SentPacketTracker.AckPrecheck.observeSentPacket { totalSpan := 1 } packet)
      | none =>
        if t.retiredContains first then .ok { totalSpan := 1, sentPackets := 1 }
        else .error .invalidAckFrame
    else precheckAckRanges.precheckSpans t.toSentPacketTracker ranges
  | _ => precheckAckRanges.precheckSpans t.toSentPacketTracker ranges

def compactAcknowledgedPrefix (t : IndexedTracker) : IndexedTracker :=
  if t.packetsSortedAscending = false ∨
      t.firstUnacknowledgedIndex < compactAcknowledgedThreshold then t
  else
    match t.packets with
    | [] => t
    | first :: _ =>
      let count := compactCount t.firstUnacknowledgedIndex
        (t.expectedStart first) t.packets
      if count < compactAcknowledgedThreshold then t
      else
        { t with
          toSentPacketTracker := t.toSentPacketTracker.compactAcknowledgedPrefix
          packetIndex := (t.packets.take count).foldl
            (fun index (p : SentPacket) => update index p.packetNumber none) t.packetIndex
          latestAckElicitingInFlightIndex :=
            t.latestAckElicitingInFlightIndex.bind
              (fun i => if i < count then none else some (i - count)) }.refreshPacketIndexFrom 0

/-- What an accepted ACK says about congestion marks. -/
def noteEcn (t : IndexedTracker) (ack : AckFrame) (ecn : SentPacketTracker.EcnAckValidation)
    (acked : AckResult) : AckResult × IndexedTracker :=
  match ack.ecnCounts with
  | some counts =>
    if ecn.updateCounts then
      ({ acked with ecnCeDelta := ecn.ceDelta },
        { t with
          latestEcnCounts := counts
          ecnLargestAcknowledged := some ack.largestAcknowledged })
    else (acked, t)
  | none =>
    if (acked.ect0Packets ≠ 0 ∨ acked.ect1Packets ≠ 0) ∧
        t.ackDoesNotAdvanceEcnLargest ack.largestAcknowledged = false then
      (acked, { t with ecnValidationFailed := true })
    else (acked, t)

def applyAckDetailed (t : IndexedTracker) (ack : AckFrame) :
    Except Error AckResult × IndexedTracker :=
  if t.packets = [] ∧ t.retiredAcknowledgedThrough = none then (.error .invalidAckFrame, t)
  else
    match decodeAckRanges ack with
    | .error e => (.error e, t)
    | .ok ranges =>
      match t.precheckAckRanges ranges with
      | .error e => (.error e, t)
      | .ok precheck =>
        match t.validateAckEcnFrameDetailedForPrecheck ack precheck with
        | .error e => (.error e, t)
        | .ok ecn =>
          let marked := if precheck.newlyAckedPackets ≠ 0 then t.markRanges ranges else ({}, t)
          let noted := marked.2.noteEcn ack ecn marked.1
          (.ok noted.1, noted.2.compactAcknowledgedPrefix)

/-- `validateAckCoversSentPackets`, through the same lookups. -/
def validateAckCoversSentPackets (t : IndexedTracker) (ack : AckFrame) : Except Error Unit :=
  if t.packets = [] then .error .invalidAckFrame
  else
    match decodeAckRanges ack with
    | .error e => .error e
    | .ok ranges =>
      match t.precheckAckRanges ranges with
      | .error e => .error e
      | .ok _ => .ok ()

/-! ### Losses -/

structure Losses where
  packets : List SentPacket := []
  result : AckResult := {}
  cachedLatestLost : Bool := false

/-- What giving up one packet adds to the result. -/
def lose (r : AckResult) (packet : SentPacket) : AckResult :=
  let r := { r with packets := r.packets + 1 }.observe packet
  { r with
    bytes := r.bytes + packet.bytes
    ackElicitingPackets :=
      if packet.ackEliciting then r.ackElicitingPackets + 1 else r.ackElicitingPackets }

/-- The scan from `index` on.  Ascending records end it at the first one beyond reach. -/
def lossScan (sorted : Bool) (latest : Option Nat) (beyond due : SentPacket → Bool) :
    Nat → List SentPacket → AckResult → Bool → Losses
  | _, [], r, cached => ⟨[], r, cached⟩
  | index, packet :: rest, r, cached =>
    if beyond packet then
      if sorted then ⟨packet :: rest, r, cached⟩
      else
        let l := lossScan sorted latest beyond due (index + 1) rest r cached
        { l with packets := packet :: l.packets }
    else if packet.outstanding && due packet then
      let l := lossScan sorted latest beyond due (index + 1) rest (lose r packet)
        (cached || latest == some index)
      { l with packets := { packet with lost := true } :: l.packets }
    else
      let l := lossScan sorted latest beyond due (index + 1) rest r cached
      { l with packets := packet :: l.packets }

/-- The shared body of the two detections. -/
def detectLoss (t : IndexedTracker) (beyond due : SentPacket → Bool) : AckResult × IndexedTracker :=
  if t.packetsSortedAscending && t.packets.head?.any beyond then ({}, t)
  else
    let l := lossScan t.packetsSortedAscending t.latestAckElicitingInFlightIndex beyond due
      t.scanStart (t.packets.drop t.scanStart) {} false
    let scanned : IndexedTracker :=
      { t with packets := t.packets.take t.scanStart ++ l.packets }
    (l.result, if l.cachedLatestLost then scanned.recomputeLatest else scanned)

def detectPacketThresholdLoss (t : IndexedTracker) (largestAcknowledged packetThreshold : Nat) :
    AckResult × IndexedTracker :=
  if packetThreshold = 0 ∨ largestAcknowledged < packetThreshold then ({}, t)
  else
    t.detectLoss (fun p => decide (largestAcknowledged - packetThreshold < p.packetNumber))
      (fun _ => true)

def detectTimeThresholdLoss (t : IndexedTracker) (nowNs lossDelayNs : Nat)
    (largestAcknowledged : Option Nat) : AckResult × IndexedTracker :=
  t.detectLoss (fun p => largestAcknowledged.any (fun largest => decide (largest < p.packetNumber)))
    (fun p => p.sentTimeNs.any (fun time => decide (saturatingAdd time lossDelayNs ≤ nowNs)))

/-! ### Runs -/

inductive Op where
  | sent (sending : Sending) (indexed : Bool)
  | forget (packetNumber : Nat)
  | markAcknowledged (packetNumber : Nat)
  | ack (frame : AckFrame)
  | packetThresholdLoss (largestAcknowledged packetThreshold : Nat)
  | timeThresholdLoss (nowNs lossDelayNs : Nat) (largestAcknowledged : Option Nat)

inductive Reply where
  | sent (result : Except Error Unit)
  | found (known : Bool)
  | acked (result : Except Error AckResult)
  | lost (result : AckResult)

def step (t : IndexedTracker) : Op → Reply × IndexedTracker
  | .sent sending indexed => let r := t.sent sending indexed; (.sent r.1, r.2)
  | .forget packetNumber => let r := t.forget packetNumber; (.found r.1, r.2)
  | .markAcknowledged packetNumber => let r := t.markAcknowledged packetNumber; (.found r.1, r.2)
  | .ack frame => let r := t.applyAckDetailed frame; (.acked r.1, r.2)
  | .packetThresholdLoss largest threshold =>
    let r := t.detectPacketThresholdLoss largest threshold; (.lost r.1, r.2)
  | .timeThresholdLoss nowNs lossDelayNs largest =>
    let r := t.detectTimeThresholdLoss nowNs lossDelayNs largest; (.lost r.1, r.2)

/-- The packet number an operation sends. -/
def Op.sends : Op → Option Nat
  | .sent sending _ => some sending.packetNumber
  | _ => none

end IndexedTracker

end Netz.Quic
