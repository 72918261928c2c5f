/-
The receive path of a 1-RTT connection (`quic/one_rtt.zig`).

`applyReceivedFramesForDestination` takes the frames of one authenticated packet.  It
asks whether the packet number is fresh, validates every frame against shadows of the
state, records the packet number, and then applies the frames one by one.

Congestion control, pacing, RTT estimation and path MTU discovery only ever compute new
values: no check of the receive path reads them and none of their updates can fail.  They
are one component `metrics`, of any type, with any functions in the places where the
source updates it (`Estimators`).

Two frames make the endpoint send a packet while it is receiving one.  What becomes of
that packet is an input, `SendOutcome`.
-/
import Netz.Quic.ConnectionId
import Netz.Quic.PathValidation
import Netz.Quic.Protection
import Netz.Quic.SentPackets
import Netz.Quic.Streams

namespace Netz.Quic

/-- Why a packet that this endpoint wanted to send did not go out. -/
inductive SendError where
  | outOfMemory
  | congestionLimited
  | pacingLimited
  | antiAmplificationLimited
  | aeadLimitReached
  | datagramTooLarge
  | invalidPayloadLength
  | keyUpdateError
  | sendFailed

def SendError.toError : SendError → Error
  | .outOfMemory => .outOfMemory
  | .congestionLimited => .congestionLimited
  | .pacingLimited => .pacingLimited
  | .antiAmplificationLimited => .antiAmplificationLimited
  | .aeadLimitReached => .aeadLimitReached
  | .datagramTooLarge => .datagramTooLarge
  | .invalidPayloadLength => .invalidPayloadLength
  | .keyUpdateError => .keyUpdateError
  | .sendFailed => .sendFailed

/-- The fate of one packet, which carries `bytes` of payload at `sentTimeNs`. -/
inductive SendOutcome where
  | sent (bytes : Nat) (sentTimeNs : Option Nat)
  /-- It failed before anything was tracked, or was tracked and rolled back. -/
  | failed (error : SendError) (tracked : Bool)

/--
The errors that are about this endpoint's own resources: memory, its packet numbers, its
configuration, or a packet it could not send.  Everything else a received packet can fail
with is the peer's doing.
-/
def Error.isLocal : Error → Bool
  | .outOfMemory | .congestionLimited | .pacingLimited | .antiAmplificationLimited
  | .aeadLimitReached | .datagramTooLarge | .invalidPayloadLength | .keyUpdateError | .sendFailed
  | .invalidPacketNumber | .invalidRetransmission | .duplicatePacket | .invalidWindow => true
  | _ => false

/-- `handshake_status.Status`. -/
inductive HandshakeStatus where
  | inProgress
  | clientComplete
  | serverPending (groupId : Option Nat)
  | confirmed
deriving DecidableEq

namespace HandshakeStatus

def needsHandshakeDone : HandshakeStatus → Bool
  | .serverPending groupId => groupId.isNone
  | _ => false

def isConfirmed : HandshakeStatus → Bool
  | .serverPending _ => true
  | .confirmed => true
  | _ => false

def recoveryGroupId : HandshakeStatus → Option Nat
  | .serverPending groupId => groupId
  | _ => none

def onHandshakeDoneTracked : HandshakeStatus → Nat → HandshakeStatus
  | .serverPending _, groupId => .serverPending (some groupId)
  | status, _ => status

def onRecoveryUpdated : HandshakeStatus → Bool → HandshakeStatus
  | .serverPending (some groupId), stillPending =>
    if stillPending then .serverPending (some groupId) else .confirmed
  | status, _ => status

/-- A server refuses the frame; on a client every other status ends up confirmed. -/
def onHandshakeDoneReceived (status : HandshakeStatus) :
    EndpointRole → Except Error HandshakeStatus
  | .server => .error .invalidFrame
  | .client =>
    match status with
    | .serverPending groupId => .ok (.serverPending groupId)
    | _ => .ok .confirmed

def onOneRttAcknowledged (status : HandshakeStatus) (role : EndpointRole)
    (lowestOneRttPacketNumber : Option Nat) (largestAcknowledged : Nat) : HandshakeStatus :=
  if role = .client ∧ status = .clientComplete ∧
      lowestOneRttPacketNumber.any (fun n => decide (n ≤ largestAcknowledged)) = true then .confirmed
  else status

end HandshakeStatus

inductive CloseState where
  | closing
  | draining
  | closed
deriving DecidableEq

structure CloseInfo where
  application : Bool := false
  errorCode : Nat
  frameType : Nat := 0
  reasonPhrase : Bytes
  state : CloseState := .closing

/-- What the estimators make of samples, acknowledgements and losses. -/
structure Estimators (M : Type) where
  onRttSample : M → RttSample → Bool → M
  onAcked : M → AckResult → Option Nat → M
  onLost : M → SentPacketTracker → AckResult → Option Nat → M
  lossDelay : M → Nat

/-- The settings that only the other frames read. -/
structure FrameConfig where
  activeConnectionIdLimit : Nat := 2
  peerAckDelayExponent : Nat := 3
  localMaxDatagramFrameSize : Option Nat := none
  maxDatagramQueueItems : Nat := 16
  enableAckFrequency : Bool := false
  maxStoredNewTokens : Nat := 4

structure Connection (M : Type) where
  frameConfig : FrameConfig := {}
  nextPacketNumber : Nat := 0
  expectedPacketNumber : Nat := 0
  received : ReceivedPacketTracker
  sent : SentPacketTracker := {}
  recovery : RecoveryQueue := {}
  metrics : M
  pathValidation : PathState := {}
  peerConnectionIds : PeerPool := {}
  localConnectionIds : LocalPool := {}
  sendFlow : SendFlow
  streams : StreamTable
  closeInfo : Option CloseInfo := none
  pendingKeyUpdateAckThreshold : Option Nat := none
  storedNewTokens : List Bytes := []
  handshakeStatus : HandshakeStatus := .inProgress
  lowestOneRttPacketNumber : Option Nat := none
  ptoCount : Nat := 0
  peerAddressValidated : Bool := true
  peerAddressBytesReceived : Nat := 0
  peerAddressBytesSent : Nat := 0
  datagramRecvQueue : List Bytes := []
  ackFrequencyRecvNextSequence : Nat := 0
  ackElicitingThreshold : Nat := 1
  requestedMaxAckDelay : Nat := 0
  ackReorderingThreshold : Nat := 3
  immediateAckRequested : Bool := false

namespace Connection

variable {M : Type}

def init (config : ConnectionConfig) (frameConfig : FrameConfig) (metrics : M)
    (localConnectionId peerConnectionId : Bytes) (token : ResetToken) :
    Except Error (Connection M) := do
  let streams ← StreamTable.init config
  let localConnectionIds ← LocalPool.registerInitial {} localConnectionId token
  let peerConnectionIds ← PeerPool.addInitial {} peerConnectionId
  .ok
    { frameConfig := frameConfig
      received := ReceivedPacketTracker.init config.maxAckRanges
      metrics := metrics
      localConnectionIds := localConnectionIds
      peerConnectionIds := peerConnectionIds
      sendFlow := SendFlow.init config.initialSendMaxData
      streams := streams }

def localEndpoint (c : Connection M) : EndpointRole := c.streams.config.localEndpoint

/-! ### Sending from the receive path -/

/-- Track the next packet in the retransmission queue and in the packet number space. -/
def trackNext (c : Connection M) (bytes : Nat) (sentTimeNs : Option Nat) :
    Except Error (Nat × Connection M) :=
  match c.recovery.trackSent c.nextPacketNumber with
  | .error e => .error e
  | .ok (groupId, recovery) =>
    match c.sent.sentInFlightAtWithMetadata
        { packetNumber := c.nextPacketNumber, bytes := bytes, sentTimeNs := sentTimeNs } with
    | .error e => .error e
    | .ok sent => .ok (groupId, { c with recovery := recovery, sent := sent })

/--
`sendTrackedFrames`.  A packet that fails after it was tracked is forgotten again; its group
id stays used.
-/
def sendTrackedFrames (c : Connection M) (outcome : SendOutcome) :
    Except Error Unit × Connection M :=
  if maxPacketNumber < c.nextPacketNumber then (.error .invalidPacketNumber, c)
  else
    match outcome with
    | .failed e false => (.error e.toError, c)
    | .failed e true =>
      match c.recovery.trackSent c.nextPacketNumber with
      | .error e => (.error e, c)
      | .ok (_, recovery) => (.error e.toError, { c with recovery := recovery.forgetNewest })
    | .sent bytes sentTimeNs =>
      match c.trackNext bytes sentTimeNs with
      | .error e => (.error e, c)
      | .ok (groupId, c) =>
        (.ok (),
          { c with
            nextPacketNumber := c.nextPacketNumber + 1
            lowestOneRttPacketNumber :=
              some (match c.lowestOneRttPacketNumber with
                | none => c.nextPacketNumber
                | some lowest => min lowest c.nextPacketNumber)
            handshakeStatus :=
              if c.handshakeStatus.needsHandshakeDone then
                c.handshakeStatus.onHandshakeDoneTracked groupId
              else c.handshakeStatus })

/-! ### ACK frames -/

section Ack

variable (est : Estimators M)

def updateRttFromAck (c : Connection M) (ack : AckFrame) (nowNs : Nat) :
    Except Error (Connection M) :=
  match c.sent.ackRttSample ack nowNs c.frameConfig.peerAckDelayExponent with
  | .error e => .error e
  | .ok none => .ok c
  | .ok (some sample) =>
    .ok { c with metrics := est.onRttSample c.metrics sample c.handshakeStatus.isConfirmed }

/-- Without a clock there is nothing to sample. -/
def updateRttFromAckAt (c : Connection M) (ack : AckFrame) :
    Option Nat → Except Error (Connection M)
  | none => .ok c
  | some now => c.updateRttFromAck est ack now

/-- ECN counters that do not add up turn ECN off; the ACK itself still counts. -/
def applyAckWithEcnFailure (sent : SentPacketTracker) (ack : AckFrame) :
    Except Error (AckResult × SentPacketTracker) :=
  if ack.ecnCounts = none ∨ sent.validateAckEcnFrameWouldFail ack = false then
    .error .invalidAckFrame
  else
    match sent.applyAckDetailed { ack with ecnCounts := none } with
    | .error e => .error e
    | .ok (acked, sent) => .ok (acked, { sent with ecnValidationFailed := true })

def applyAck (sent : SentPacketTracker) (ack : AckFrame) :
    Except Error (AckResult × SentPacketTracker) :=
  match sent.applyAckDetailed ack with
  | .error .invalidAckFrame => applyAckWithEcnFailure sent ack
  | result => result

/-- What follows from the acknowledged packets, up to the retransmission queue. -/
def settleAck (c : Connection M) (ack : AckFrame) (nowNs : Option Nat) (acked : AckResult)
    (sent : SentPacketTracker) : Connection M :=
  let c := { c with
    sent := sent
    handshakeStatus := c.handshakeStatus.onOneRttAcknowledged c.localEndpoint
      c.lowestOneRttPacketNumber ack.largestAcknowledged
    ptoCount := if 0 < acked.ackElicitingPackets then 0 else c.ptoCount
    metrics := est.onAcked c.metrics acked nowNs
    received :=
      match acked.largestAcknowledgedSent with
      | some acknowledged => c.received.pruneAckedRanges acknowledged
      | none => c.received }
  let (lost, sent) := c.sent.detectPacketThresholdLoss ack.largestAcknowledged
    SentPacketTracker.defaultPacketThreshold
  let c := { c with
    sent := sent
    metrics := if 0 < lost.bytes then est.onLost c.metrics sent lost nowNs else c.metrics }
  match nowNs with
  | none => c
  | some now =>
    let (lost, sent) := c.sent.detectTimeThresholdLoss now (est.lossDelay c.metrics)
      ack.largestAcknowledged
    { c with
      sent := sent
      metrics := if 0 < lost.bytes then est.onLost c.metrics sent lost nowNs else c.metrics }

/-- The `.ack` case of `applyReceivedFramesForDestination`. -/
def receiveAck (c : Connection M) (ack : AckFrame) (nowNs : Option Nat) :
    Except Error Unit × Connection M :=
  let handshakeDoneGroup := c.handshakeStatus.recoveryGroupId
  match c.updateRttFromAckAt est ack nowNs with
  | .error e => (.error e, c)
  | .ok c =>
    match applyAck c.sent ack with
    | .error e => (.error e, c)
    | .ok (acked, sent) =>
      let c := c.settleAck est ack nowNs acked sent
      match c.recovery.applyAck ack with
      | .error e => (.error e, c)
      | .ok recovery =>
        (.ok (),
          { c with
            recovery := recovery
            handshakeStatus :=
              match handshakeDoneGroup with
              | some groupId => c.handshakeStatus.onRecoveryUpdated (recovery.containsGroupId groupId)
              | none => c.handshakeStatus
            pendingKeyUpdateAckThreshold :=
              match c.pendingKeyUpdateAckThreshold with
              | some threshold =>
                if c.sent.largestAcknowledged.any (fun n => decide (threshold ≤ n)) then none
                else some threshold
              | none => none })

end Ack

/-! ### The other frames -/

def varintLength (value : Nat) : Option Nat :=
  if value ≤ 63 then some 1
  else if value ≤ 16383 then some 2
  else if value ≤ 1073741823 then some 4
  else if value ≤ varintMax then some 8
  else none

/-- Both DATAGRAM types fit in one byte. -/
def datagramFrameWireSize (data : Bytes) (lengthPresent : Bool) : Option Nat :=
  match checkedAdd 1 data.length with
  | none => none
  | some total =>
    if lengthPresent then
      match varintLength data.length with
      | none => none
      | some lengthLen => checkedAdd total lengthLen
    else some total

def validateDatagramFrame (c : Connection M) (data : Bytes) (lengthPresent : Bool) :
    Except Error Unit :=
  match c.frameConfig.localMaxDatagramFrameSize with
  | none => .error .invalidFrame
  | some frameLimit =>
    match datagramFrameWireSize data lengthPresent with
    | none => .error .invalidFrameLength
    | some frameSize => if frameLimit < frameSize then .error .invalidFrame else .ok ()

/-- The newest payload displaces the oldest one of a full queue. -/
def receiveDatagramFrame (c : Connection M) (data : Bytes) (lengthPresent : Bool) :
    Except Error Unit × Connection M :=
  match c.validateDatagramFrame data lengthPresent with
  | .error e => (.error e, c)
  | .ok _ =>
    if c.frameConfig.maxDatagramQueueItems = 0 then (.ok (), c)
    else if c.datagramRecvQueue.length < c.frameConfig.maxDatagramQueueItems then
      (.ok (), { c with datagramRecvQueue := c.datagramRecvQueue ++ [data] })
    else (.ok (), { c with datagramRecvQueue := c.datagramRecvQueue.drop 1 ++ [data] })

def validateNewToken (c : Connection M) (token : Bytes) : Except Error Unit :=
  if c.localEndpoint = .server then .error .invalidFrame
  else if token.length = 0 then .error .invalidFrame
  else .ok ()

def receiveNewToken (c : Connection M) (token : Bytes) : Except Error Unit × Connection M :=
  match c.validateNewToken token with
  | .error e => (.error e, c)
  | .ok _ =>
    if c.frameConfig.maxStoredNewTokens ≤ c.storedNewTokens.length then (.ok (), c)
    else (.ok (), { c with storedNewTokens := c.storedNewTokens ++ [token] })

def receiveAckFrequency (c : Connection M) (frame : AckFrequencyFrame) :
    Except Error Unit × Connection M :=
  if c.frameConfig.enableAckFrequency = false then (.error .ackFrequencyDisabled, c)
  else if frame.sequenceNumber < c.ackFrequencyRecvNextSequence then (.ok (), c)
  else
    (.ok (),
      { c with
        ackFrequencyRecvNextSequence := saturatingAdd frame.sequenceNumber 1
        ackElicitingThreshold := max 1 frame.ackElicitingThreshold
        requestedMaxAckDelay := frame.requestMaxAckDelay
        ackReorderingThreshold := max 1 frame.reorderingThreshold })

def receiveMaxStreams (c : Connection M) (maximumStreams : Nat) (direction : StreamDirection) :
    Except Error Unit × Connection M :=
  if maxStreamCount < maximumStreams then (.error .invalidFrame, c)
  else
    match direction with
    | .bidirectional =>
      (.ok (), { c with streams := { c.streams with
        peerMaxStreamsBidi := max c.streams.peerMaxStreamsBidi maximumStreams } })
    | .unidirectional =>
      (.ok (), { c with streams := { c.streams with
        peerMaxStreamsUni := max c.streams.peerMaxStreamsUni maximumStreams } })

/-- A peer that is blocked below the current limit is told the limit again. -/
def receiveStreamsBlocked (c : Connection M) (maximumStreams : Nat) (direction : StreamDirection)
    (outcome : SendOutcome) : Except Error Unit × Connection M :=
  if maxStreamCount < maximumStreams then (.error .invalidFrame, c)
  else if maximumStreams < c.streams.recvMaxStreams direction then c.sendTrackedFrames outcome
  else (.ok (), c)

def sendResetStream (c : Connection M) (streamId applicationErrorCode finalSize : Nat)
    (outcome : SendOutcome) : Except Error Unit × Connection M :=
  match c.streams.sendStreamEntry streamId with
  | (.error e, streams) => (.error e, { c with streams := streams })
  | (.ok entry, streams) =>
    let c := { c with streams := streams }
    match entry.resetSent with
    | some existing =>
      if existing = ⟨applicationErrorCode, finalSize⟩ then (.ok (), c)
      else (.error .finalSizeMismatch, c)
    | none =>
      match c.sendTrackedFrames outcome with
      | (.error e, c) => (.error e, c)
      | (.ok _, c) =>
        let entry := { entry with resetSent := some ⟨applicationErrorCode, finalSize⟩ }
        (.ok (), { c with streams := c.streams.putSendStreamEntry entry })

/-- STOP_SENDING is answered with RESET_STREAM unless one has gone out. -/
def receiveStopSending (c : Connection M) (stop : StopSendingFrame) (outcome : SendOutcome) :
    Except Error Unit × Connection M :=
  if maxPacketNumber < c.nextPacketNumber then (.error .invalidPacketNumber, c)
  else
    match c.streams.sendStreamEntry stop.streamId with
    | (.error e, streams) => (.error e, { c with streams := streams })
    | (.ok entry, streams) =>
      let stopped := { entry with stopped := some stop.applicationErrorCode }
      let c := { c with streams := streams.putSendStreamEntry stopped }
      if entry.resetSent = none then
        c.sendResetStream stop.streamId stop.applicationErrorCode entry.highestSentEnd outcome
      else (.ok (), c)

def receiveMaxStreamData (c : Connection M) (streamId maximumStreamData : Nat) :
    Except Error Unit × Connection M :=
  match c.streams.sendStreamEntry streamId with
  | (.error e, streams) => (.error e, { c with streams := streams })
  | (.ok entry, streams) =>
    let entry := { entry with flow := entry.flow.updateLimit maximumStreamData }
    (.ok (), { c with streams := streams.putSendStreamEntry entry })

def setPeerAddressValidated (c : Connection M) (validated : Bool) : Connection M :=
  if validated then
    { c with
      peerAddressValidated := true
      peerAddressBytesReceived := 0
      peerAddressBytesSent := 0 }
  else { c with peerAddressValidated := false }

/-- A close that arrives while this endpoint is closing only moves it to draining. -/
def setCloseInfo (c : Connection M) (close : CloseInfo) : Connection M :=
  match c.closeInfo with
  | some existing =>
    if close.state = .draining ∧ existing.state = .closing then
      { c with closeInfo := some { existing with state := .draining } }
    else c
  | none => { c with closeInfo := some close }

/-! ### One packet -/

/-- The parsed frames of one authenticated packet, each with the fate of the packet it may trigger. -/
structure Packet where
  packetNumber : Nat
  frames : List (Frame × SendOutcome)
  wellFormed : ∀ f ∈ frames, f.1.wellFormed = true
  nowNs : Option Nat := none
  ecn : EcnCodepoint := .notEct
  destinationConnectionId : Option Bytes := none
  /-- Whether the allocator refuses a new range. -/
  oom : Bool := false

/-- Apply one frame of a packet received at `nowNs` and addressed to `destination`. -/
def applyFrame (est : Estimators M) (nowNs : Option Nat) (destination : Option Bytes)
    (c : Connection M) (outcome : SendOutcome) : Frame → Except Error Unit × Connection M
  | .ack ack => c.receiveAck est ack nowNs
  | .maxData maximumData => (.ok (), { c with sendFlow := c.sendFlow.updateLimit maximumData })
  | .maxStreamData streamId maximum => c.receiveMaxStreamData streamId maximum
  | .maxStreamsBidi maximum => c.receiveMaxStreams maximum .bidirectional
  | .maxStreamsUni maximum => c.receiveMaxStreams maximum .unidirectional
  | .streamsBlockedBidi maximum => c.receiveStreamsBlocked maximum .bidirectional outcome
  | .streamsBlockedUni maximum => c.receiveStreamsBlocked maximum .unidirectional outcome
  | .newConnectionId frame =>
    match c.peerConnectionIds.addWithRetirePriorTo frame c.frameConfig.activeConnectionIdLimit with
    | (result, pool) => (result, { c with peerConnectionIds := pool })
  | .retireConnectionId sequenceNumber =>
    match c.localConnectionIds.retireExceptPacketDestination sequenceNumber destination with
    | (result, pool) => (result, { c with localConnectionIds := pool })
  | .pathChallenge data =>
    (.ok (), { c with pathValidation := (c.pathValidation.receiveChallenge data).2 })
  | .pathResponse data =>
    match c.pathValidation.receiveResponseValidated data with
    | (false, _) => (.error .unknownPathResponse, c)
    | (true, path) => (.ok (), { c with pathValidation := path }.setPeerAddressValidated true)
  | .resetStream reset =>
    match c.streams.receiveResetStream reset with
    | (result, streams) => (result, { c with streams := streams })
  | .stopSending stop => c.receiveStopSending stop outcome
  | .newToken token => c.receiveNewToken token
  | .handshakeDone =>
    match c.handshakeStatus.onHandshakeDoneReceived c.localEndpoint with
    | .error e => (.error e, c)
    | .ok status => (.ok (), { c with handshakeStatus := status })
  | .datagram data lengthPresent => c.receiveDatagramFrame data lengthPresent
  | .ackFrequency frame => c.receiveAckFrequency frame
  | .immediateAck => (.ok (), { c with immediateAckRequested := true })
  | .connectionClose errorCode frameType reasonPhrase =>
    (.ok (), c.setCloseInfo
      { errorCode := errorCode, frameType := frameType, reasonPhrase := reasonPhrase,
        state := .draining })
  | .applicationClose errorCode reasonPhrase =>
    (.ok (), c.setCloseInfo
      { application := true, errorCode := errorCode, reasonPhrase := reasonPhrase,
        state := .draining })
  | .stream frame =>
    match c.streams.receiveStream frame with
    | (result, streams) => (result, { c with streams := streams })
  | _ => (.ok (), c)

/-- Apply the frames in order, up to the first one that fails. -/
def applyFrames (est : Estimators M) (nowNs : Option Nat) (destination : Option Bytes)
    (c : Connection M) : List (Frame × SendOutcome) → Except Error Unit × Connection M
  | [] => (.ok (), c)
  | (frame, outcome) :: rest =>
    match applyFrame est nowNs destination c outcome frame with
    | (.error e, c) => (.error e, c)
    | (.ok _, c) => applyFrames est nowNs destination c rest

/-- The shadows that the frames of one packet are validated against. -/
structure Preflight where
  streams : StreamTable.StreamPreflight
  peerConnectionIds : PeerPool
  localConnectionIds : LocalPool
  path : PathState.ReceivePreflight := {}

def preflightFrame (c : Connection M) (destination : Option Bytes) (p : Preflight) :
    Frame → Except Error Preflight
  | .ack ack => do
    c.sent.validateAckCoversSentPackets ack
    .ok p
  | .stream frame => do
    let streams ← c.streams.validateStreamFramePrecondition p.streams frame
    .ok { p with streams := streams }
  | .resetStream reset => do
    let streams ← c.streams.validateResetStreamPrecondition p.streams reset
    .ok { p with streams := streams }
  | .streamDataBlocked streamId _ => do
    c.streams.validateStreamReceiveFrameId streamId
    .ok p
  | .maxStreamData streamId _ => do
    c.streams.validateStreamSendControlId streamId
    .ok p
  | .stopSending stop => do
    c.streams.validateStreamSendControlId stop.streamId
    .ok p
  | .newConnectionId frame =>
    match p.peerConnectionIds.addWithRetirePriorTo frame c.frameConfig.activeConnectionIdLimit with
    | (.error e, _) => .error e
    | (.ok _, pool) => .ok { p with peerConnectionIds := pool }
  | .retireConnectionId sequenceNumber =>
    match p.localConnectionIds.retireExceptPacketDestination sequenceNumber destination with
    | (.error e, _) => .error e
    | (.ok _, pool) => .ok { p with localConnectionIds := pool }
  | .pathChallenge data =>
    .ok { p with path := PathState.ReceivePreflight.receiveChallenge c.pathValidation p.path data }
  | .pathResponse data => do
    let path ← PathState.ReceivePreflight.recordResponse c.pathValidation p.path data
    .ok { p with path := path }
  | .newToken token => do
    c.validateNewToken token
    .ok p
  | .handshakeDone => if c.localEndpoint = .server then .error .invalidFrame else .ok p
  | .datagram data lengthPresent => do
    c.validateDatagramFrame data lengthPresent
    .ok p
  | .ackFrequency _ =>
    if c.frameConfig.enableAckFrequency then .ok p else .error .ackFrequencyDisabled
  | .immediateAck =>
    if c.frameConfig.enableAckFrequency then .ok p else .error .ackFrequencyDisabled
  | _ => .ok p

def preflightFrames (c : Connection M) (destination : Option Bytes) :
    Preflight → List Frame → Except Error Preflight
  | p, [] => .ok p
  | p, frame :: rest =>
    match c.preflightFrame destination p frame with
    | .error e => .error e
    | .ok p => preflightFrames c destination p rest

/-- The shadows before the first frame. -/
def preflightStart (c : Connection M) : Preflight where
  streams := { recvDataTotal := c.streams.recvDataTotal }
  peerConnectionIds := c.peerConnectionIds
  localConnectionIds := c.localConnectionIds

def validateReceivedFramePreconditions (c : Connection M) (frames : List Frame)
    (destination : Option Bytes) : Except Error Unit :=
  match c.preflightFrames destination c.preflightStart frames with
  | .error e => .error e
  | .ok _ => .ok ()

def applyReceivedFramesForDestination (est : Estimators M) (c : Connection M) (packet : Packet) :
    Except Error Unit × Connection M :=
  match c.received.wouldRecordFresh packet.packetNumber with
  | .error e => (.error e, c)
  | .ok false => (.error .duplicatePacket, c)
  | .ok true =>
    match c.validateReceivedFramePreconditions (packet.frames.map (·.1))
        packet.destinationConnectionId with
    | .error e => (.error e, c)
    | .ok _ =>
      match c.received.recordWithEcn packet.oom packet.packetNumber packet.ecn with
      | (.error e, received) => (.error e, { c with received := received })
      | (.ok false, received) => (.error .duplicatePacket, { c with received := received })
      | (.ok true, received) =>
        applyFrames est packet.nowNs packet.destinationConnectionId
          { c with
            received := received
            expectedPacketNumber :=
              if c.expectedPacketNumber ≤ packet.packetNumber then packet.packetNumber + 1
              else c.expectedPacketNumber }
          packet.frames

/-! ### The connection as a machine -/

inductive Op (M : Type) where
  | packet (packet : Packet)
  /-- Any API call that sends one packet and records it; `record` is what it notes about it. -/
  | send (record : SentPacket)
  /-- A batch uses up the number of a packet it protected and could not send. -/
  | skipPacketNumber
  | markPacketAcknowledged (packetNumber : Nat)
  /-- A timer gives up the packets sent long enough ago. -/
  | lossTimer (nowNs largestAcknowledged : Nat)
  | releaseReceivedCapacity (streamId amount : Nat) (sent : Bool)
  | consumeReceived (amount : Nat)
  | consumeStreamReceived (streamId amount : Nat)
  | releaseCompletedPeerStream (streamId : Nat) (sent : Bool)
  /-- Any other API call: it leaves the received streams and the packets sent alone, and may
  change everything else to what it is in `other`. -/
  | other (other : Connection M)

/-- What `Op.other` may change. -/
def replaceOthers (c other : Connection M) : Connection M :=
  { other with
    sent := c.sent
    nextPacketNumber := c.nextPacketNumber
    streams := { other.streams with
      config := c.streams.config
      recvFlow := c.streams.recvFlow
      recvDataTotal := c.streams.recvDataTotal
      recvStreams := c.streams.recvStreams } }

def step (est : Estimators M) (c : Connection M) : Op M → Except Error Unit × Connection M
  | .packet packet => c.applyReceivedFramesForDestination est packet
  | .send record =>
    if maxPacketNumber < c.nextPacketNumber then (.error .invalidPacketNumber, c)
    else
      match c.sent.sentInFlightAtWithMetadata
          { record with packetNumber := c.nextPacketNumber, acknowledged := false, lost := false } with
      | .error e => (.error e, c)
      | .ok sent => (.ok (), { c with sent := sent, nextPacketNumber := c.nextPacketNumber + 1 })
  | .skipPacketNumber =>
    if maxPacketNumber < c.nextPacketNumber then (.error .invalidPacketNumber, c)
    else (.ok (), { c with nextPacketNumber := c.nextPacketNumber + 1 })
  | .markPacketAcknowledged packetNumber =>
    (.ok (), { c with sent := c.sent.markAcknowledged packetNumber })
  | .lossTimer nowNs largest =>
    (.ok (), { c with
      sent := (c.sent.detectTimeThresholdLoss nowNs (est.lossDelay c.metrics) largest).2 })
  | .releaseReceivedCapacity streamId amount sent =>
    match c.streams.releaseReceivedCapacity streamId amount sent with
    | (result, streams) => (result, { c with streams := streams })
  | .consumeReceived amount => (.ok (), { c with streams := c.streams.consumeReceived amount })
  | .consumeStreamReceived streamId amount =>
    match c.streams.consumeStreamReceived streamId amount with
    | (result, streams) => (result, { c with streams := streams })
  | .releaseCompletedPeerStream streamId sent =>
    match c.streams.releaseCompletedPeerStream streamId sent with
    | (.error e, streams) => (.error e, { c with streams := streams })
    | (.ok _, streams) => (.ok (), { c with streams := streams })
  | .other other => (.ok (), c.replaceOthers other)

end Connection

end Netz.Quic
