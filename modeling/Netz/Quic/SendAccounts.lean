/-
What the send paths of a 1-RTT connection keep books in (`quic/one_rtt.zig`,
`quic/congestion.zig`).

`Books` leaves the components behind the send paths open.  Here they are the connection's
own: its send flow and streams, the bytes in flight, the tracker of sent packets and the
retransmission queue.  The pacer with the RTT it goes by, and the path MTU search, are still
components of any type (`Pacing`).
-/
import Netz.Quic.FrameCodec
import Netz.Quic.RecoveryQueue
import Netz.Quic.SendBatch
import Netz.Quic.SentCaches

namespace Netz.Quic

open Lib

/-- The pacer with the RTT it goes by, and the path MTU search. -/
structure Pacing (P M : Type) where
  /-- Now, the length of the packet and the congestion window. -/
  deadlineAt : P → Nat → Nat → Nat → Option Nat
  onPacketSentAt : P → Nat → Nat → Nat → P
  currentSize : M → Option Nat
  probeSize : M → Nat → Option Nat
  onProbeSent : M → Nat → M

/-! ### Credit of a packet, by stream -/

structure ReservedStreamCredit where
  streamId : Nat
  bytes : Nat

def addReservedStreamCredit (streamId bytes : Nat) :
    List ReservedStreamCredit → Except Error (List ReservedStreamCredit)
  | [] => .ok [⟨streamId, bytes⟩]
  | credit :: rest =>
    if credit.streamId = streamId then
      match checkedAdd credit.bytes bytes with
      | none => .error .invalidFrameLength
      | some total => .ok (⟨streamId, total⟩ :: rest)
    else
      match addReservedStreamCredit streamId bytes rest with
      | .error e => .error e
      | .ok credits => .ok (credit :: credits)

def reservedStreamBytes (credits : List ReservedStreamCredit) (streamId : Nat) : Nat :=
  match credits.find? (fun c => c.streamId == streamId) with
  | some credit => credit.bytes
  | none => 0

def countStreamBytes : List Frame → Nat
  | [] => 0
  | .stream frame :: rest => frame.data.length + countStreamBytes rest
  | _ :: rest => countStreamBytes rest

/-- The bytes of all STREAM frames, and those of each stream. -/
def collectStreamCredits : List Frame → Nat → List ReservedStreamCredit →
    Except Error (Nat × List ReservedStreamCredit)
  | [], total, credits => .ok (total, credits)
  | .stream frame :: rest, total, credits =>
    match checkedAdd total frame.data.length with
    | none => .error .invalidFrameLength
    | some total =>
      match addReservedStreamCredit frame.streamId frame.data.length credits with
      | .error e => .error e
      | .ok credits => collectStreamCredits rest total credits
  | _ :: rest, total, credits => collectStreamCredits rest total credits

def addReservedStreamCredits (planned : List ReservedStreamCredit) :
    List ReservedStreamCredit → Except Error (List ReservedStreamCredit)
  | [] => .ok planned
  | credit :: rest =>
    match addReservedStreamCredit credit.streamId credit.bytes planned with
    | .error e => .error e
    | .ok planned => addReservedStreamCredits planned rest

/-- The stream bytes of the packets planned so far (`total_stream_bytes`, `planned_streams`). -/
def plannedStreamCredits : List PreparedPacket → Nat → List ReservedStreamCredit →
    Except Error (Nat × List ReservedStreamCredit)
  | [], total, planned => .ok (total, planned)
  | packet :: rest, total, planned =>
    match collectStreamCredits packet.frames 0 [] with
    | .error e => .error e
    | .ok (bytes, credits) =>
      match addReservedStreamCredits planned credits with
      | .error e => .error e
      | .ok planned => plannedStreamCredits rest (total + bytes) planned

/-- What the packets in flight come to (`total_in_flight`). -/
def inFlightBytes (packets : List PreparedPacket) : Nat :=
  ((packets.filter (fun p => packetInFlight p.frames)).map (fun p => p.payload.length)).sum

/-! ### Streams -/

namespace StreamTable

/-- The answer of `validateStreamFrameForSend` for a stream that has an entry. -/
def checkSendEntry (entry : StreamFlowEntry) (stream : StreamFrame) : Verdict :=
  if entry.stopped.isSome || entry.resetSent.isSome then .refused .streamStopped
  else
    match checkedAdd stream.offset stream.data.length with
    | none => .refused .invalidFrameLength
    | some stop =>
      match entry.finalSize with
      | none => .granted
      | some finalSize =>
        if finalSize < stop ∨ (stream.fin = true ∧ stop ≠ finalSize) then .refused .finalSizeMismatch
        else if stream.data.length ≠ 0 ∧ entry.highestSentEnd < stop then
          .refused .finalSizeMismatch
        else .granted

/-- `sendStreamEntry` for every stream of the packets. -/
def openSendStreams (t : StreamTable) : List ReservedStreamCredit → Except Error Unit × StreamTable
  | [] => (.ok (), t)
  | credit :: rest =>
    match t.sendStreamEntry credit.streamId with
    | (.error e, t) => (.error e, t)
    | (.ok _, t) => t.openSendStreams rest

/-- What a stream may still send; a stream without an entry has its initial limit. -/
def sendAvailable (t : StreamTable) (streamId : Nat) : Nat :=
  match t.findSendStreamEntry streamId with
  | some entry => entry.flow.available
  | none => t.initialSendStreamDataLimit streamId

def reserveStreams (t : StreamTable) : List ReservedStreamCredit → Except Error StreamTable
  | [] => .ok t
  | credit :: rest =>
    match t.findSendStreamEntry credit.streamId with
    | none => t.reserveStreams rest
    | some entry =>
      match entry.flow.reserve credit.bytes with
      | .error e => .error e
      | .ok flow => (t.putSendStreamEntry { entry with flow := flow }).reserveStreams rest

/-- Every STREAM frame gives its bytes back. -/
def releaseStreams (t : StreamTable) : List Frame → StreamTable
  | [] => t
  | .stream frame :: rest =>
    match t.findSendStreamEntry frame.streamId with
    | none => t.releaseStreams rest
    | some entry =>
      (t.putSendStreamEntry
        { entry with flow := entry.flow.giveBack frame.data.length }).releaseStreams rest
  | _ :: rest => t.releaseStreams rest

/-- Where the stream ends as far as this frame goes; a FIN makes that its final size. -/
def noteSentEntry (entry : StreamFlowEntry) (stream : StreamFrame) : StreamFlowEntry :=
  match checkedAdd stream.offset stream.data.length with
  | none => entry
  | some stop =>
    { entry with
      highestSentEnd := max entry.highestSentEnd stop
      finalSize := if stream.fin then some stop else entry.finalSize }

def noteSentStreams (t : StreamTable) : List Frame → StreamTable
  | [] => t
  | .stream frame :: rest =>
    match t.findSendStreamEntry frame.streamId with
    | none => t.noteSentStreams rest
    | some entry => (t.putSendStreamEntry (noteSentEntry entry frame)).noteSentStreams rest
  | _ :: rest => t.noteSentStreams rest

end StreamTable

/-! ### The accounts -/

structure SendAccounts (P M : Type) where
  streams : StreamTable
  streamsBlockedBidiAt : Option Nat := none
  streamsBlockedUniAt : Option Nat := none
  sendFlow : SendFlow
  congestionWindow : Nat
  bytesInFlight : Nat := 0
  sent : IndexedTracker := {}
  recovery : Recovery.Queue := {}
  /-- Whether the hash map of `sent` has room for a packet, by its number. -/
  indexRoom : Nat → Bool := fun _ => true
  pacer : P
  pmtud : M

/-- The arguments a packet is recorded with. -/
def SentPacket.sending (record : SentPacket) : Sending where
  packetNumber := record.packetNumber
  ackEliciting := record.ackEliciting
  inFlight := record.inFlight
  bytes := record.bytes
  ecn := record.ecn
  sentTimeNs := record.sentTimeNs
  pmtuProbeSize := record.pmtuProbeSize
  largestAcknowledgedSent := record.largestAcknowledgedSent

namespace SendAccounts

variable {P M : Type}

/-! ### Checks -/

def streamsBlockedAt (b : SendAccounts P M) : StreamDirection → Option Nat
  | .bidirectional => b.streamsBlockedBidiAt
  | .unidirectional => b.streamsBlockedUniAt

def streamsBlockedFrame (limit : Nat) : StreamDirection → Frame
  | .bidirectional => .streamsBlockedBidi limit
  | .unidirectional => .streamsBlockedUni limit

def validateStreamFrameForSend (b : SendAccounts P M) (stream : StreamFrame) : Verdict :=
  match b.streams.findSendStreamEntry stream.streamId with
  | some entry => StreamTable.checkSendEntry entry stream
  | none =>
    let localEndpoint := b.streams.config.localEndpoint
    if streamHasSendSide localEndpoint stream.streamId = false then .refused .streamStateError
    else if streamInitiatedByLocal localEndpoint stream.streamId = false then .granted
    else
      let direction := streamDirection stream.streamId
      let limit := b.streams.peerMaxStreams direction
      if streamCountForId stream.streamId ≤ limit then .granted
      else if b.streamsBlockedAt direction = some limit then .refused .streamLimitExceeded
      else .blocked (streamsBlockedFrame limit direction) .streamLimitExceeded

def checkStream (b : SendAccounts P M) : Frame → Verdict
  | .stream frame => b.validateStreamFrameForSend frame
  | _ => .granted

/-- The DATA_BLOCKED frame that is due. -/
def dataBlockedFrame (b : SendAccounts P M) : Option Frame :=
  if b.sendFlow.shouldSendBlocked then some (.dataBlocked b.sendFlow.limit) else none

/-- The flow of a stream, which is made where there is none. -/
def sendStreamFlow (b : SendAccounts P M) (streamId : Nat) : SendFlow :=
  match b.streams.findSendStreamEntry streamId with
  | some entry => entry.flow
  | none => SendFlow.init (b.streams.initialSendStreamDataLimit streamId)

def streamDataBlockedFrame (b : SendAccounts P M) (streamId : Nat) : Option Frame :=
  let flow := b.sendStreamFlow streamId
  if flow.shouldSendBlocked then some (.streamDataBlocked streamId flow.limit) else none

/-- What is blocked says so to the peer at most once for each limit. -/
def blockedVerdict : Option Frame → Verdict
  | some control => .blocked control .flowControlBlocked
  | none => .refused .flowControlBlocked

def blockedAdmission : Option Frame → Admission
  | some control => .blocked control .flowControlBlocked
  | none => .limited .flowControlBlocked

/-! ### One packet -/

/-- Make the entries of all streams first, then look at the credit, then take it. -/
def reserveFlow (b : SendAccounts P M) (frames : List Frame) : Verdict × SendAccounts P M :=
  match collectStreamCredits frames 0 [] with
  | .error e => (.refused e, b)
  | .ok (total, credits) =>
    match b.streams.openSendStreams credits with
    | (.error e, streams) => (.refused e, { b with streams := streams })
    | (.ok _, streams) =>
      let b := { b with streams := streams }
      if b.sendFlow.available < total then (blockedVerdict b.dataBlockedFrame, b)
      else
        match credits.find? (fun c => decide (b.streams.sendAvailable c.streamId < c.bytes)) with
        | some credit => (blockedVerdict (b.streamDataBlockedFrame credit.streamId), b)
        | none =>
          match b.sendFlow.reserve total, b.streams.reserveStreams credits with
          | .ok sendFlow, .ok streams => (.granted, { b with sendFlow := sendFlow, streams := streams })
          | .error e, _ => (.refused e, b)
          | _, .error e => (.refused e, b)

def releaseFlow (b : SendAccounts P M) (frames : List Frame) : SendAccounts P M :=
  { b with
    sendFlow := b.sendFlow.giveBack (countStreamBytes frames)
    streams := b.streams.releaseStreams frames }

def noteBlockedSent (b : SendAccounts P M) : Frame → SendAccounts P M
  | .dataBlocked _ => { b with sendFlow := b.sendFlow.markBlockedSent }
  | .streamDataBlocked streamId _ =>
    match b.streams.sendStreamEntry streamId with
    | (.error _, streams) => { b with streams := streams }
    | (.ok entry, streams) =>
      { b with
        streams := streams.putSendStreamEntry { entry with flow := entry.flow.markBlockedSent } }
  | .streamsBlockedBidi _ => { b with streamsBlockedBidiAt := some b.streams.peerMaxStreamsBidi }
  | .streamsBlockedUni _ => { b with streamsBlockedUniAt := some b.streams.peerMaxStreamsUni }
  | _ => b

def noteSentStreams (b : SendAccounts P M) (frames : List Frame) : SendAccounts P M :=
  { b with streams := b.streams.noteSentStreams frames }

/-- `congestion.reserve` -/
def reserveCongestion (b : SendAccounts P M) (bytes : Nat) : Except Error (SendAccounts P M) :=
  if bytes = 0 then .ok b
  else if b.congestionWindow - b.bytesInFlight < bytes then .error .congestionLimited
  else .ok { b with bytesInFlight := b.bytesInFlight + bytes }

/-- `congestion.discard` -/
def discardCongestion (b : SendAccounts P M) (bytes : Nat) : SendAccounts P M :=
  { b with bytesInFlight := b.bytesInFlight - bytes }

/-- The record alone. -/
def recordSent (b : SendAccounts P M) (record : SentPacket) : Except Error Unit × SendAccounts P M :=
  match b.sent.sent record.sending (b.indexRoom record.packetNumber) with
  | (result, sent) => (result, { b with sent := sent })

/-- A recovery group when the packet is ack-eliciting, and the record. -/
def trackPacket (b : SendAccounts P M) (record : SentPacket) (payload : Bytes) :
    Except Error (Option Nat) × SendAccounts P M :=
  if record.ackEliciting then
    match b.recovery.trackSent record.packetNumber payload with
    | (.error e, recovery) => (.error e, { b with recovery := recovery })
    | (.ok groupId, recovery) =>
      match { b with recovery := recovery }.recordSent record with
      | (.error e, b) =>
        (.error e, { b with recovery := (b.recovery.forgetPacketNumber record.packetNumber).2 })
      | (.ok _, b) => (.ok (some groupId), b)
  else
    match b.recordSent record with
    | (.error e, b) => (.error e, b)
    | (.ok _, b) => (.ok none, b)

def track (b : SendAccounts P M) (record : SentPacket) (payload : Bytes) :
    Except Error (Option Nat) × SendAccounts P M :=
  let charged := if record.inFlight then payload.length else 0
  match b.reserveCongestion charged with
  | .error e => (.error e, b)
  | .ok b =>
    match b.trackPacket record payload with
    | (.error e, b) => (.error e, b.discardCongestion charged)
    | (.ok group, b) => (.ok group, b)

/-- Forget the record, the recovery group and the congestion credit of a packet. -/
def untrack (b : SendAccounts P M) (record : SentPacket) : SendAccounts P M :=
  let b := { b with sent := (b.sent.forget record.packetNumber).2 }
  let b :=
    if record.ackEliciting then
      { b with recovery := (b.recovery.forgetPacketNumber record.packetNumber).2 }
    else b
  b.discardCongestion (if record.inFlight then record.bytes else 0)

/-- A probe is charged without asking the window. -/
def chargeRetransmission (b : SendAccounts P M) (mode : RetransmitMode) (bytes : Nat) :
    Except Error (SendAccounts P M) :=
  match mode with
  | .congestionControlled => b.reserveCongestion bytes
  | .ptoProbe => .ok { b with bytesInFlight := b.bytesInFlight + bytes }

def trackRetransmission (b : SendAccounts P M) (mode : RetransmitMode) (candidate : Candidate)
    (record : SentPacket) : Except Error Unit × SendAccounts P M :=
  match b.chargeRetransmission mode candidate.payload.length with
  | .error e => (.error e, b)
  | .ok b =>
    match b.recovery.recordRetransmission candidate.groupIndex record.packetNumber with
    | (.error e, recovery) =>
      (.error e, { b with recovery := recovery }.discardCongestion candidate.payload.length)
    | (.ok _, recovery) =>
      match { b with recovery := recovery }.recordSent record with
      | (.error e, b) =>
        (.error e,
          { b with recovery := (b.recovery.forgetPacketNumber record.packetNumber).2
            }.discardCongestion candidate.payload.length)
      | (.ok _, b) => (.ok (), b)

section

variable (pace : Pacing P M)

def notePacketSent (b : SendAccounts P M) (packet : ShortPacket) (nowNs : Nat) (pacePacket : Bool) :
    SendAccounts P M :=
  if pacePacket then
    { b with pacer := pace.onPacketSentAt b.pacer nowNs packet.length b.congestionWindow }
  else b

def ptoCandidateAt (b : SendAccounts P M) (index : Nat) : Option Candidate :=
  (b.recovery.pending[index]?).map (fun entry => ⟨index, entry.payload⟩)

/-! ### Batches -/

/-- The pacer after packets of these lengths (`simulated_pacer`). -/
def simulatedPacer (b : SendAccounts P M) (nowNs : Nat) (lengths : List Nat) : P :=
  lengths.foldl (fun p len => pace.onPacketSentAt p nowNs len b.congestionWindow) b.pacer

def probeDeadlineAt (b : SendAccounts P M) (nowNs : Nat) (probes : List PreparedProbe)
    (packetLen : Nat) : Option Nat :=
  pace.deadlineAt (b.simulatedPacer pace nowNs (probes.map PreparedProbe.packetLen)) nowNs packetLen
    b.congestionWindow

/-- The lengths of the packets that are paced. -/
def pacedLengths (packets : List PreparedPacket) : List Nat :=
  (packets.filter (fun p => packetInFlight p.frames)).map PreparedPacket.packetLen

def admitPacket (b : SendAccounts P M) (nowNs : Nat) (planned : List PreparedPacket)
    (packet : PreparedPacket) : Admission :=
  let pacer := b.simulatedPacer pace nowNs (pacedLengths planned)
  if packetInFlight packet.frames ∧
      (pace.deadlineAt pacer nowNs packet.packetLen b.congestionWindow).isSome = true then
    .limited .pacingLimited
  else if packetInFlight packet.frames ∧
      b.congestionWindow - b.bytesInFlight - inFlightBytes planned < packet.payload.length then
    .limited .congestionLimited
  else
    match plannedStreamCredits planned 0 [], collectStreamCredits packet.frames 0 [] with
    | .error e, _ => .failed e
    | _, .error e => .failed e
    | .ok (total, streams), .ok (bytes, credits) =>
      if b.sendFlow.available - total < bytes then blockedAdmission b.dataBlockedFrame
      else
        match credits.find? (fun c => decide (b.streams.sendAvailable c.streamId -
            reservedStreamBytes streams c.streamId < c.bytes)) with
        | some credit => blockedAdmission (b.streamDataBlockedFrame credit.streamId)
        | none =>
          match addReservedStreamCredits streams credits with
          | .error e => .failed e
          | .ok _ => .admitted

/-- Entries for all streams of the batch, then credit for all of it or none. -/
def reserveBatch (b : SendAccounts P M) (packets : List PreparedPacket) :
    Except Error Unit × SendAccounts P M :=
  match plannedStreamCredits packets 0 [] with
  | .error e => (.error e, b)
  | .ok (total, credits) =>
    match b.streams.openSendStreams credits with
    | (.error e, streams) => (.error e, { b with streams := streams })
    | (.ok _, streams) =>
      let b := { b with streams := streams }
      match b.sendFlow.reserve total, b.streams.reserveStreams credits,
          b.reserveCongestion (inFlightBytes packets) with
      | .ok sendFlow, .ok streams, .ok b => (.ok (), { b with sendFlow := sendFlow, streams := streams })
      | .error e, _, _ => (.error e, b)
      | _, .error e, _ => (.error e, b)
      | _, _, .error e => (.error e, b)

def releaseBatch (b : SendAccounts P M) (packets : List PreparedPacket) : SendAccounts P M :=
  let frames := packets.flatMap PreparedPacket.frames
  { b with
    sendFlow := b.sendFlow.giveBack (countStreamBytes frames)
    streams := b.streams.releaseStreams frames
    bytesInFlight := b.bytesInFlight - inFlightBytes packets }

def trackBatched (b : SendAccounts P M) (record : SentPacket) (payload : Bytes) :
    Except Error Unit × SendAccounts P M :=
  match b.trackPacket record payload with
  | (.error e, b) => (.error e, b)
  | (.ok _, b) => (.ok (), b)

def untrackBatched (b : SendAccounts P M) (record : SentPacket) : SendAccounts P M :=
  { b with
    recovery := (b.recovery.forgetPacketNumber record.packetNumber).2
    sent := (b.sent.forget record.packetNumber).2 }

/-- **The accounts as the books of the send paths.** -/
def books : Books (SendAccounts P M) where
  frameBytes frame := frame.write []
  largestAcknowledged b := b.sent.largestAcknowledged
  ecnDisabled b := b.sent.ecnValidationFailed
  pmtudCurrentSize b := pace.currentSize b.pmtud
  pacingDeadlineAt b nowNs packetLen := pace.deadlineAt b.pacer nowNs packetLen b.congestionWindow
  checkStream := checkStream
  reserveFlow := reserveFlow
  releaseFlow := releaseFlow
  noteBlockedSent := noteBlockedSent
  noteSentStreams := noteSentStreams
  track := track
  trackRetransmission := trackRetransmission
  untrack := untrack
  notePacketSent := notePacketSent pace
  probeSize b := pace.probeSize b.pmtud
  onProbeSent b size := { b with pmtud := pace.onProbeSent b.pmtud size }
  ptoCandidateAt := ptoCandidateAt
  probeDeadlineAt := probeDeadlineAt pace
  admitPacket := admitPacket pace
  reserveBatch := reserveBatch
  releaseBatch := releaseBatch
  trackBatched := trackBatched
  untrackBatched := untrackBatched

end

end SendAccounts

end Netz.Quic
