/-
The sent half of a QUIC packet number space (`quic/packet_space.zig`).

`SentPacketTracker` keeps one record for each packet sent, oldest first.  A prefix of
consecutive acknowledged packets may be retired: its records are dropped and only its
bounds are kept, so that an ACK that names it again is still recognised.

Two caches of the source are not modelled: the hash map from packet numbers to record
indices, whose lookups are searches by packet number here, and the index of the newest
ack-eliciting packet, which only timers read.
-/
import Netz.Lib.Buffer
import Netz.Lib.Search
import Netz.Quic.PacketSpace

namespace Netz.Quic

open Lib

structure SentPacket where
  packetNumber : Nat
  ackEliciting : Bool := true
  inFlight : Bool := true
  acknowledged : Bool := false
  lost : Bool := false
  bytes : Nat := 0
  ecn : EcnCodepoint := .notEct
  sentTimeNs : Option Nat := none
  pmtuProbeSize : Option Nat := none
  largestAcknowledgedSent : Option Nat := none

structure SentPacketTracker where
  packets : List SentPacket := []
  packetsSortedAscending : Bool := true
  firstUnacknowledgedIndex : Nat := 0
  retiredAcknowledgedStart : Option Nat := none
  retiredAcknowledgedThrough : Option Nat := none
  largestAcknowledged : Option Nat := none
  latestEcnCounts : EcnCounts := {}
  ecnValidationFailed : Bool := false
  ecnLargestAcknowledged : Option Nat := none
  sentEct0Count : Nat := 0
  sentEct1Count : Nat := 0

/-- `AckResult`: what an ACK acknowledged, or a loss detection gave up on. -/
structure AckResult where
  packets : Nat := 0
  ackElicitingPackets : Nat := 0
  bytes : Nat := 0
  ect0Packets : Nat := 0
  ect1Packets : Nat := 0
  largestPacketNumber : Option Nat := none
  largestSentTimeNs : Option Nat := none
  ecnCeDelta : Nat := 0
  largestPmtuProbeSize : Option Nat := none
  largestAcknowledgedSent : Option Nat := none
deriving DecidableEq

/-- `observe`: remember the packet when it is the largest so far. -/
def AckResult.observe (r : AckResult) (packet : SentPacket) : AckResult :=
  if r.largestPacketNumber.all (fun n => decide (n < packet.packetNumber)) then
    { r with
      largestPacketNumber := some packet.packetNumber
      largestSentTimeNs := packet.sentTimeNs
      largestPmtuProbeSize := packet.pmtuProbeSize }
  else r

/-- What one newly acknowledged packet adds to the result. -/
def AckResult.acked (r : AckResult) (packet : SentPacket) : AckResult :=
  let r := { r with packets := r.packets + 1 }.observe packet
  { r with
    bytes := if packet.inFlight && !packet.lost then r.bytes + packet.bytes else r.bytes
    ackElicitingPackets :=
      if packet.ackEliciting then r.ackElicitingPackets + 1 else r.ackElicitingPackets
    largestAcknowledgedSent :=
      match packet.largestAcknowledgedSent with
      | none => r.largestAcknowledgedSent
      | some n =>
        if r.largestAcknowledgedSent.all (fun m => decide (m < n)) then some n
        else r.largestAcknowledgedSent
    ect0Packets := if packet.ecn = .ect0 then r.ect0Packets + 1 else r.ect0Packets
    ect1Packets := if packet.ecn = .ect1 then r.ect1Packets + 1 else r.ect1Packets }

structure RttSample where
  latestRttNs : Nat
  ackDelayNs : Nat
  largestAcknowledged : Nat
  sentTimeNs : Nat

/-- `rtt.max_ack_delay_exponent`. -/
def maxAckDelayExponent : Nat := 20

def decodeAckDelayMicros (encodedAckDelay ackDelayExponent : Nat) : Option Nat :=
  if maxAckDelayExponent < ackDelayExponent then none
  else if ackDelayExponent = 0 then some encodedAckDelay
  else if encodedAckDelay * 2 ^ ackDelayExponent ≤ maxU64 then
    some (encodedAckDelay * 2 ^ ackDelayExponent)
  else none

/-- `none` is one of the errors of the decoder, which its caller does not tell apart. -/
def decodeAckDelayNanos (encodedAckDelay ackDelayExponent : Nat) : Option Nat :=
  match decodeAckDelayMicros encodedAckDelay ackDelayExponent with
  | none => none
  | some micros => if micros * 1000 ≤ maxU64 then some (micros * 1000) else none

namespace SentPacketTracker

/-! ### Sending -/

def findPacketIndex (t : SentPacketTracker) (packetNumber : Nat) : Option Nat :=
  t.packets.findIdx? (fun p => p.packetNumber == packetNumber)

def findSentPacket (t : SentPacketTracker) (packetNumber : Nat) : Option SentPacket :=
  t.packets.find? (fun p => p.packetNumber == packetNumber)

/-- `sentInFlightAtWithMetadata`: a packet that is not in flight counts no bytes. -/
def sentInFlightAtWithMetadata (t : SentPacketTracker) (packet : SentPacket) :
    Except Error SentPacketTracker :=
  let monotonicAppend := t.packets.getLast?.all (fun p => decide (p.packetNumber < packet.packetNumber))
  if monotonicAppend = false ∧ (t.findPacketIndex packet.packetNumber).isSome = true then
    .error .duplicatePacket
  else
    .ok
      { t with
        packets := t.packets ++ [{ packet with bytes := if packet.inFlight then packet.bytes else 0 }]
        packetsSortedAscending := t.packetsSortedAscending && monotonicAppend
        sentEct0Count := if packet.ecn = .ect0 then t.sentEct0Count + 1 else t.sentEct0Count
        sentEct1Count := if packet.ecn = .ect1 then t.sentEct1Count + 1 else t.sentEct1Count }

/-! ### Reading an ACK -/

/-- The ranges after the first one; `start` is where the range before ended below. -/
def decodeMoreRanges : Nat → List AckRange → Except Error (List PacketRange)
  | _, [] => .ok []
  | start, range :: rest =>
    match checkedAdd range.gap 2 with
    | none => .error .invalidAckFrame
    | some skipped =>
      if start < skipped then .error .invalidAckFrame
      else if start - skipped < range.ackRangeLength then .error .invalidAckFrame
      else
        match decodeMoreRanges (start - skipped - range.ackRangeLength) rest with
        | .error e => .error e
        | .ok ranges => .ok (⟨start - skipped - range.ackRangeLength, start - skipped⟩ :: ranges)

def decodeAckRanges (ack : AckFrame) : Except Error (List PacketRange) :=
  if ack.largestAcknowledged < ack.firstAckRange then .error .invalidAckFrame
  else
    match decodeMoreRanges (ack.largestAcknowledged - ack.firstAckRange) ack.ranges with
    | .error e => .error e
    | .ok ranges =>
      .ok (⟨ack.largestAcknowledged - ack.firstAckRange, ack.largestAcknowledged⟩ :: ranges)

def ackRangesContain (ranges : List PacketRange) (packetNumber : Nat) : Bool :=
  ranges.any (fun r => decide (r.start ≤ packetNumber) && decide (packetNumber ≤ r.stop))

def lowerBoundPacketIndex (t : SentPacketTracker) (packetNumber : Nat) : Nat :=
  bisect (fun p => decide (p.packetNumber < packetNumber)) t.packets

def upperBoundPacketIndex (t : SentPacketTracker) (packetNumber : Nat) : Nat :=
  bisect (fun p => decide (p.packetNumber ≤ packetNumber)) t.packets

def retiredContains (t : SentPacketTracker) (packetNumber : Nat) : Bool :=
  match t.retiredAcknowledgedStart, t.retiredAcknowledgedThrough with
  | some start, some stop => decide (start ≤ packetNumber) && decide (packetNumber ≤ stop)
  | _, _ => false

def retiredAcknowledgedCount (t : SentPacketTracker) : Nat :=
  match t.retiredAcknowledgedStart, t.retiredAcknowledgedThrough with
  | some start, some stop => stop - start + 1
  | _, _ => 0

def retiredIntersectionLen (t : SentPacketTracker) (range : PacketRange) : Nat :=
  match t.retiredAcknowledgedStart, t.retiredAcknowledgedThrough with
  | some start, some stop =>
    if min stop range.stop < max start range.start then 0
    else min stop range.stop - max start range.start + 1
  | _, _ => 0

structure AckPrecheck where
  totalSpan : Nat := 0
  sentPackets : Nat := 0
  newlyAckedPackets : Nat := 0
  newlyAckedEct0 : Nat := 0
  newlyAckedEct1 : Nat := 0

def AckPrecheck.observeNewlyAckedPacket (c : AckPrecheck) (packet : SentPacket) : AckPrecheck :=
  if packet.acknowledged then c
  else
    { c with
      newlyAckedPackets := c.newlyAckedPackets + 1
      newlyAckedEct0 := if packet.ecn = .ect0 then c.newlyAckedEct0 + 1 else c.newlyAckedEct0
      newlyAckedEct1 := if packet.ecn = .ect1 then c.newlyAckedEct1 + 1 else c.newlyAckedEct1 }

def AckPrecheck.observeSentPacket (c : AckPrecheck) (packet : SentPacket) : AckPrecheck :=
  { c with sentPackets := c.sentPackets + 1 }.observeNewlyAckedPacket packet

/-- The sum of the spans, with the overflow check of the source. -/
def totalSpan : Nat → List PacketRange → Option Nat
  | total, [] => some total
  | total, range :: rest =>
    match checkedAdd total (range.stop - range.start + 1) with
    | none => none
    | some next => totalSpan next rest

/-- One range of the sorted walk. -/
def precheckRange (t : SentPacketTracker) (c : AckPrecheck) (range : PacketRange) : AckPrecheck :=
  let rangeStart := t.lowerBoundPacketIndex range.start
  let rangeEnd := t.upperBoundPacketIndex range.stop
  let c := { c with
    sentPackets := c.sentPackets + t.retiredIntersectionLen range + (rangeEnd - rangeStart) }
  (slice t.packets (max rangeStart t.firstUnacknowledgedIndex) rangeEnd).foldl
    AckPrecheck.observeNewlyAckedPacket c

/-- Every packet number the ranges name must have been sent. -/
def precheckAckRanges (t : SentPacketTracker) (ranges : List PacketRange) :
    Except Error AckPrecheck :=
  match ranges with
  | [⟨start, stop⟩] =>
    if start = stop then
      match t.findSentPacket start with
      | some packet => .ok (AckPrecheck.observeSentPacket { totalSpan := 1 } packet)
      | none =>
        if t.retiredContains start then .ok { totalSpan := 1, sentPackets := 1 }
        else .error .invalidAckFrame
    else precheckSpans t ranges
  | _ => precheckSpans t ranges
where
  precheckSpans (t : SentPacketTracker) (ranges : List PacketRange) : Except Error AckPrecheck :=
    match totalSpan 0 ranges with
    | none => .error .invalidAckFrame
    | some span =>
      if saturatingAdd t.packets.length t.retiredAcknowledgedCount < span then
        .error .invalidAckFrame
      else
        let c : AckPrecheck :=
          if t.packetsSortedAscending then ranges.foldl t.precheckRange { totalSpan := span }
          else
            (t.packets.filter (fun p => ackRangesContain ranges p.packetNumber)).foldl
              AckPrecheck.observeSentPacket { totalSpan := span }
        if c.sentPackets ≠ span then .error .invalidAckFrame else .ok c

def validateAckCoversSentPackets (t : SentPacketTracker) (ack : AckFrame) : Except Error Unit :=
  if t.packets = [] then .error .invalidAckFrame
  else
    match decodeAckRanges ack with
    | .error e => .error e
    | .ok ranges =>
      match t.precheckAckRanges ranges with
      | .error e => .error e
      | .ok _ => .ok ()

/-! ### ECN validation -/

def validateAckEcnCounters (t : SentPacketTracker) (counts : EcnCounts) : Except Error Unit :=
  if t.ecnValidationFailed then .error .invalidAckFrame
  else if counts.ect0Count < t.latestEcnCounts.ect0Count ∨
      counts.ect1Count < t.latestEcnCounts.ect1Count ∨
      counts.ecnCeCount < t.latestEcnCounts.ecnCeCount then .error .invalidAckFrame
  else
    match checkedAdd t.sentEct0Count t.sentEct1Count with
    | none => .error .invalidAckFrame
    | some totalEct =>
      if t.sentEct0Count < counts.ect0Count then .error .invalidAckFrame
      else if t.sentEct1Count < counts.ect1Count then .error .invalidAckFrame
      else if totalEct < counts.ecnCeCount then .error .invalidAckFrame
      else .ok ()

structure EcnAckValidation where
  updateCounts : Bool := false
  ceDelta : Nat := 0

/-- A reordered ACK_ECN below the largest validated one is history and checks nothing. -/
def validateAckEcnFrameDetailedForPrecheck (t : SentPacketTracker) (ack : AckFrame)
    (precheck : AckPrecheck) : Except Error EcnAckValidation :=
  match ack.ecnCounts with
  | none => .ok {}
  | some counts =>
    if t.ecnValidationFailed then .error .invalidAckFrame
    else if t.ecnLargestAcknowledged.any (fun n => decide (ack.largestAcknowledged ≤ n)) then .ok {}
    else
      match t.validateAckEcnCounters counts with
      | .error e => .error e
      | .ok _ =>
        let ceDelta := counts.ecnCeCount - t.latestEcnCounts.ecnCeCount
        match checkedAdd (counts.ect0Count - t.latestEcnCounts.ect0Count) ceDelta,
            checkedAdd (counts.ect1Count - t.latestEcnCounts.ect1Count) ceDelta with
        | some coveredEct0, some coveredEct1 =>
          if coveredEct0 < precheck.newlyAckedEct0 ∨ coveredEct1 < precheck.newlyAckedEct1 then
            .error .invalidAckFrame
          else .ok { updateCounts := true, ceDelta := ceDelta }
        | _, _ => .error .invalidAckFrame

def validateAckEcnFrameWouldFail (t : SentPacketTracker) (ack : AckFrame) : Bool :=
  match decodeAckRanges ack with
  | .error _ => true
  | .ok ranges =>
    match t.precheckAckRanges ranges with
    | .error _ => true
    | .ok precheck =>
      match t.validateAckEcnFrameDetailedForPrecheck ack precheck with
      | .error _ => true
      | .ok _ => false

/-! ### Applying an ACK -/

def observeAcknowledged (t : SentPacketTracker) (packetNumber : Nat) : SentPacketTracker :=
  if t.largestAcknowledged.all (fun n => decide (n < packetNumber)) then
    { t with largestAcknowledged := some packetNumber }
  else t

def markPacketAcknowledged (t : SentPacketTracker) (r : AckResult) (index : Nat) :
    SentPacketTracker × AckResult :=
  match t.packets[index]? with
  | none => (t, r)
  | some packet =>
    let t := t.observeAcknowledged packet.packetNumber
    if packet.acknowledged then (t, r)
    else
      ({ t with packets := t.packets.set index { packet with acknowledged := true } }, r.acked packet)

/-- Mark `remaining` records from `index` on. -/
def markIndices (t : SentPacketTracker) (r : AckResult) : Nat → Nat → SentPacketTracker × AckResult
  | 0, _ => (t, r)
  | remaining + 1, index =>
    let (t, r) := t.markPacketAcknowledged r index
    t.markIndices r remaining (index + 1)

/-- The records of the unsorted walk that the ranges name. -/
def markNamed (ranges : List PacketRange) (t : SentPacketTracker) (r : AckResult) :
    Nat → Nat → SentPacketTracker × AckResult
  | 0, _ => (t, r)
  | remaining + 1, index =>
    let (t, r) :=
      match t.packets[index]? with
      | none => (t, r)
      | some packet =>
        if ackRangesContain ranges packet.packetNumber then t.markPacketAcknowledged r index
        else (t, r)
    markNamed ranges t r remaining (index + 1)

def advanceFirstUnacknowledged (t : SentPacketTracker) : SentPacketTracker :=
  if t.packetsSortedAscending = false then { t with firstUnacknowledgedIndex := 0 }
  else
    { t with
      firstUnacknowledgedIndex := t.firstUnacknowledgedIndex +
        leadingTrue ((t.packets.drop t.firstUnacknowledgedIndex).map (·.acknowledged)) }

/-- `markAcknowledged`: the caller knows by other means that the packet arrived. -/
def markAcknowledged (t : SentPacketTracker) (packetNumber : Nat) : SentPacketTracker :=
  match t.findPacketIndex packetNumber with
  | none => t
  | some index => (t.markPacketAcknowledged {} index).1.advanceFirstUnacknowledged

/-- The sorted walk: for each range, its records that are not in the acknowledged prefix. -/
def markSortedRanges (t : SentPacketTracker) (r : AckResult) :
    List PacketRange → SentPacketTracker × AckResult
  | [] => (t, r)
  | range :: rest =>
    let rangeStart := max (t.lowerBoundPacketIndex range.start) t.firstUnacknowledgedIndex
    let rangeEnd := t.upperBoundPacketIndex range.stop
    let (t, r) := t.markIndices r (rangeEnd - rangeStart) rangeStart
    t.markSortedRanges r rest

def markRanges (t : SentPacketTracker) (ranges : List PacketRange) : SentPacketTracker × AckResult :=
  match ranges with
  | [⟨start, stop⟩] =>
    if start = stop then
      match t.findPacketIndex start with
      | none => (t, {})
      | some index =>
        let (t, r) := t.markPacketAcknowledged {} index
        (t.advanceFirstUnacknowledged, r)
    else markSpans t ranges
  | _ => markSpans t ranges
where
  markSpans (t : SentPacketTracker) (ranges : List PacketRange) : SentPacketTracker × AckResult :=
    let (t, r) :=
      if t.packetsSortedAscending then t.markSortedRanges {} ranges
      else markNamed ranges t {} t.packets.length 0
    (t.advanceFirstUnacknowledged, r)

/-- `compact_acknowledged_threshold`. -/
def compactAcknowledgedThreshold : Nat := 256

/-- How many of the first records are acknowledged and carry consecutive numbers. -/
def compactCount : Nat → Nat → List SentPacket → Nat
  | 0, _, _ => 0
  | _ + 1, _, [] => 0
  | remaining + 1, expected, packet :: rest =>
    if packet.acknowledged = false ∨ packet.packetNumber ≠ expected then 0
    else compactCount remaining (saturatingAdd expected 1) rest + 1

/-- The number with which the retired prefix would go on. -/
def expectedStart (t : SentPacketTracker) (first : SentPacket) : Nat :=
  match t.retiredAcknowledgedThrough with
  | some stop => saturatingAdd stop 1
  | none => first.packetNumber

def compactAcknowledgedPrefix (t : SentPacketTracker) : SentPacketTracker :=
  if t.packetsSortedAscending = false ∨
      t.firstUnacknowledgedIndex < compactAcknowledgedThreshold then t
  else
    match t.packets with
    | [] => t
    | first :: _ =>
      let count := compactCount t.firstUnacknowledgedIndex (t.expectedStart first) t.packets
      if count < compactAcknowledgedThreshold then t
      else
        { t with
          retiredAcknowledgedStart := some (t.retiredAcknowledgedStart.getD first.packetNumber)
          retiredAcknowledgedThrough := (t.packets[count - 1]?).map (·.packetNumber)
          packets := t.packets.drop count
          firstUnacknowledgedIndex := t.firstUnacknowledgedIndex - count }

def ackDoesNotAdvanceLargest (t : SentPacketTracker) (largestAcknowledged : Nat) : Bool :=
  t.largestAcknowledged.any (fun previous => decide (largestAcknowledged ≤ previous))

def ackDoesNotAdvanceEcnLargest (t : SentPacketTracker) (largestAcknowledged : Nat) : Bool :=
  t.ecnLargestAcknowledged.any (fun previous => decide (largestAcknowledged ≤ previous))

def applyAckDetailed (t : SentPacketTracker) (ack : AckFrame) :
    Except Error (AckResult × SentPacketTracker) :=
  if t.packets = [] ∧ t.retiredAcknowledgedThrough = none then .error .invalidAckFrame
  else
    match decodeAckRanges ack with
    | .error e => .error e
    | .ok ranges =>
      match t.precheckAckRanges ranges with
      | .error e => .error e
      | .ok precheck =>
        match t.validateAckEcnFrameDetailedForPrecheck ack precheck with
        | .error e => .error e
        | .ok ecn =>
          let (t, acked) := if precheck.newlyAckedPackets ≠ 0 then t.markRanges ranges else (t, {})
          match ack.ecnCounts with
          | some counts =>
            if ecn.updateCounts then
              .ok ({ acked with ecnCeDelta := ecn.ceDelta },
                { t with
                  latestEcnCounts := counts
                  ecnLargestAcknowledged := some ack.largestAcknowledged }.compactAcknowledgedPrefix)
            else .ok (acked, t.compactAcknowledgedPrefix)
          | none =>
            -- A plain ACK of ECT-marked packets ends ECN, unless it is a reordered one.
            if (acked.ect0Packets ≠ 0 ∨ acked.ect1Packets ≠ 0) ∧
                t.ackDoesNotAdvanceEcnLargest ack.largestAcknowledged = false then
              .ok (acked, { t with ecnValidationFailed := true }.compactAcknowledgedPrefix)
            else .ok (acked, t.compactAcknowledgedPrefix)

/-! ### RTT samples and losses -/

def rangeContainsNewAckEliciting (t : SentPacketTracker) (range : PacketRange) : Bool :=
  t.packets.any (fun p => decide (range.start ≤ p.packetNumber) &&
    decide (p.packetNumber ≤ range.stop) && !p.acknowledged && p.ackEliciting)

/-- A range chain that does not decode contains nothing beyond the break. -/
def moreRangesContainNewAckEliciting (t : SentPacketTracker) : Nat → List AckRange → Bool
  | _, [] => false
  | start, range :: rest =>
    match checkedAdd range.gap 2 with
    | none => false
    | some skipped =>
      if start < skipped then false
      else if start - skipped < range.ackRangeLength then false
      else
        t.rangeContainsNewAckEliciting ⟨start - skipped - range.ackRangeLength, start - skipped⟩ ||
          t.moreRangesContainNewAckEliciting (start - skipped - range.ackRangeLength) rest

def ackContainsNewAckEliciting (t : SentPacketTracker) (ack : AckFrame) : Bool :=
  if ack.largestAcknowledged < ack.firstAckRange then false
  else
    let start := ack.largestAcknowledged - ack.firstAckRange
    t.rangeContainsNewAckEliciting ⟨start, ack.largestAcknowledged⟩ ||
      t.moreRangesContainNewAckEliciting start ack.ranges

/-- The packet an ACK takes its RTT sample from, when it takes one. -/
def sampledSentTime (t : SentPacketTracker) (ack : AckFrame) : Option Nat :=
  if t.ackDoesNotAdvanceLargest ack.largestAcknowledged then none
  else
    match t.findSentPacket ack.largestAcknowledged with
    | none => none
    | some packet =>
      if packet.acknowledged then none
      else if t.ackContainsNewAckEliciting ack = false then none
      else packet.sentTimeNs

def ackRttSample (t : SentPacketTracker) (ack : AckFrame) (nowNs ackDelayExponent : Nat) :
    Except Error (Option RttSample) :=
  match t.sampledSentTime ack with
  | none => .ok none
  | some sentTime =>
    match decodeAckDelayNanos ack.ackDelay ackDelayExponent with
    | none => .error .invalidAckFrame
    | some ackDelayNs => .ok (some ⟨nowNs - sentTime, ackDelayNs, ack.largestAcknowledged, sentTime⟩)

/--
Give up the records from `start` on that `gone` picks among those in flight.  The early
exit of the source on an ascending list skips only packets above the largest acknowledged.
-/
def markLost (gone : SentPacket → Bool) : Nat → List SentPacket → AckResult →
    List SentPacket × AckResult
  | _, [], r => ([], r)
  | start + 1, packet :: rest, r =>
    let (rest, r) := markLost gone start rest r
    (packet :: rest, r)
  | 0, packet :: rest, r =>
    if gone packet && !packet.acknowledged && !packet.lost && packet.inFlight then
      let r := { r with packets := r.packets + 1 }.observe packet
      let r := { r with
        bytes := r.bytes + packet.bytes
        ackElicitingPackets :=
          if packet.ackEliciting then r.ackElicitingPackets + 1 else r.ackElicitingPackets }
      let (rest, r) := markLost gone 0 rest r
      ({ packet with lost := true } :: rest, r)
    else
      let (rest, r) := markLost gone 0 rest r
      (packet :: rest, r)

def scanStart (t : SentPacketTracker) : Nat :=
  if t.packetsSortedAscending then t.firstUnacknowledgedIndex else 0

/-- `packet_space.default_packet_threshold`. -/
def defaultPacketThreshold : Nat := 3

def detectPacketThresholdLoss (t : SentPacketTracker) (largestAcknowledged packetThreshold : Nat) :
    AckResult × SentPacketTracker :=
  if packetThreshold = 0 ∨ largestAcknowledged < packetThreshold then ({}, t)
  else
    let (packets, lost) := markLost
      (fun p => decide (p.packetNumber ≤ largestAcknowledged - packetThreshold)) t.scanStart
      t.packets {}
    (lost, { t with packets := packets })

def detectTimeThresholdLoss (t : SentPacketTracker) (nowNs lossDelayNs largestAcknowledged : Nat) :
    AckResult × SentPacketTracker :=
  let (packets, lost) := markLost
    (fun p => decide (p.packetNumber ≤ largestAcknowledged) &&
      p.sentTimeNs.any (fun time => decide (saturatingAdd time lossDelayNs ≤ nowNs)))
    t.scanStart t.packets {}
  (lost, { t with packets := packets })

/-! ### Persistent congestion -/

structure PersistentCongestionPeriod where
  startPacketNumber : Nat
  endPacketNumber : Nat
  startTimeNs : Nat
  endTimeNs : Nat
deriving DecidableEq

def PersistentCongestionPeriod.durationNs (p : PersistentCongestionPeriod) : Nat :=
  p.endTimeNs - p.startTimeNs

structure PersistentCongestionBuilder where
  period : PersistentCongestionPeriod
  previousPacketNumber : Nat

def considerPersistentCongestionPeriod (best : Option PersistentCongestionPeriod)
    (period : PersistentCongestionPeriod) (afterPacketNumber : Option Nat) :
    Option PersistentCongestionPeriod :=
  if period.startPacketNumber = period.endPacketNumber then best
  else if afterPacketNumber.any (period.endPacketNumber ≤ ·) then best
  else
    match best with
    | none => some period
    | some current =>
      if current.durationNs < period.durationNs ∨ (period.durationNs = current.durationNs ∧
          current.endPacketNumber < period.endPacketNumber) then some period
      else best

/-- The run so far, if the packet number continues it. -/
def continuedRun (current : Option PersistentCongestionBuilder) (packetNumber : Nat) :
    Option PersistentCongestionBuilder :=
  current.filter fun builder => isImmediatelyBefore builder.previousPacketNumber packetNumber

def persistentCongestionScan (firstSampleTime : Nat) (largestAcknowledged after : Option Nat) :
    List SentPacket → Option PersistentCongestionPeriod → Option PersistentCongestionBuilder →
      Option PersistentCongestionPeriod
  | [], best, _ => best
  | packet :: rest, best, current =>
    let next := persistentCongestionScan firstSampleTime largestAcknowledged after rest
    if largestAcknowledged.any (· < packet.packetNumber) then best
    else if packet.acknowledged = true ∨ packet.lost = false then next best none
    else
      match packet.sentTimeNs with
      | none => next best none
      | some sentTime =>
        if sentTime < firstSampleTime then next best none
        else
          match continuedRun current packet.packetNumber with
          | some builder =>
            if packet.ackEliciting then
              let period := { builder.period with
                endPacketNumber := packet.packetNumber, endTimeNs := sentTime }
              next (considerPersistentCongestionPeriod best period after)
                (some ⟨period, packet.packetNumber⟩)
            else next best (some { builder with previousPacketNumber := packet.packetNumber })
          | none =>
            if packet.ackEliciting then
              next best (some ⟨⟨packet.packetNumber, packet.packetNumber, sentTime, sentTime⟩,
                packet.packetNumber⟩)
            else next best none

def persistentCongestionPeriod (t : SentPacketTracker) (firstRttSampleSentTimeNs : Option Nat)
    (largestAcknowledged afterPacketNumber : Option Nat) : Option PersistentCongestionPeriod :=
  match firstRttSampleSentTimeNs with
  | none => none
  | some firstSampleTime =>
    if afterPacketNumber.any (fun after => largestAcknowledged.any (· ≤ after)) then none
    else persistentCongestionScan firstSampleTime largestAcknowledged afterPacketNumber t.packets
      none none

end SentPacketTracker

end Netz.Quic

/-! ### The retransmission queue of a packet number space (`quic/recovery.zig`)

Each group is one encoded payload with every packet number it was sent under.  The
payload bytes and their cache play no part here. -/

namespace Netz.Quic

structure PendingDatagram where
  groupId : Nat
  packetNumbers : List Nat

/-- `recovery.Queue`. -/
structure RecoveryQueue where
  pending : List PendingDatagram := []
  nextGroupId : Nat := 0

namespace RecoveryQueue

/-- Start a group for a payload that was sent for the first time. -/
def trackSent (q : RecoveryQueue) (packetNumber : Nat) : Except Error (Nat × RecoveryQueue) :=
  if q.pending.any (fun g => packetNumber ∈ g.packetNumbers) then .error .invalidRetransmission
  else
    match checkedAdd q.nextGroupId 1 with
    | none => .error .invalidRetransmission
    | some next =>
      .ok (q.nextGroupId,
        { pending := q.pending ++ [⟨q.nextGroupId, [packetNumber]⟩], nextGroupId := next })

/-- `forgetPacketNumber` for the group `trackSent` has just appended. -/
def forgetNewest (q : RecoveryQueue) : RecoveryQueue := { q with pending := q.pending.dropLast }

def containsGroupId (q : RecoveryQueue) (groupId : Nat) : Bool :=
  q.pending.any (fun g => g.groupId == groupId)

/--
Drop the groups an ACK names.  The range chain is validated by the same checks, in the
same order, as `SentPacketTracker.decodeAckRanges` makes.
-/
def applyAck (q : RecoveryQueue) (ack : AckFrame) : Except Error RecoveryQueue :=
  match SentPacketTracker.decodeAckRanges ack with
  | .error e => .error e
  | .ok ranges =>
    .ok { q with
      pending := q.pending.filter (fun g =>
        !g.packetNumbers.any (SentPacketTracker.ackRangesContain ranges)) }

end RecoveryQueue

end Netz.Quic
