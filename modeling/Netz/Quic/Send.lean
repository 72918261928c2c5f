/-
The send paths of a 1-RTT connection (`quic/one_rtt.zig`).

A packet leaves through one of four paths: a list of frames on its own (`sendWithEcnAt` and
`sendTrackedFrames`), an already encoded payload (`retransmitCandidateAt`,
`sendPmtuProbeAt`), a batch of PTO probes, and a batch of application packets
(`sendManyProgressAt`).  Each numbers its packets, reserves anti-amplification credit,
protects the packets and gives them to the socket, and each commits or rolls back on its own.

Congestion control, pacing, flow control, the retransmission queue and the tracker of sent
packets decide whether a packet may go and keep records of it.  They are `Books`, a
component of any type with any functions in the places where the source calls it.  What the
allocator and the socket do with a packet is an input (`Delivery`).

`Sender.wire` is what the outside has seen: every call of the AEAD, every datagram the
socket took, every datagram that came in, and the points at which the peer's address became
one that is not validated.
-/
import Netz.Quic.Connection

namespace Netz.Quic

def maxBatchPackets : Nat := 64

/-- `anti_amplification_multiplier`. -/
def antiAmplificationMultiplier : Nat := 3

/-! ### Frames -/

/-- ACK, PADDING and both CONNECTION_CLOSE frames do not ask for an acknowledgement. -/
def Frame.isAckEliciting : Frame → Bool
  | .ack _ | .padding _ | .connectionClose _ _ _ | .applicationClose _ _ => false
  | _ => true

/-- PADDING counts as in flight although it is not ack-eliciting. -/
def Frame.isInFlight : Frame → Bool
  | .ack _ | .connectionClose _ _ _ | .applicationClose _ _ => false
  | _ => true

def ackEliciting (frames : List Frame) : Bool := frames.any Frame.isAckEliciting

def packetInFlight (frames : List Frame) : Bool := frames.any Frame.isInFlight

def containsHandshakeDone (frames : List Frame) : Bool := frames.any (· == .handshakeDone)

def largestAckFrameSent : List Frame → Option Nat
  | [] => none
  | .ack ack :: rest =>
    match largestAckFrameSent rest with
    | none => some ack.largestAcknowledged
    | some largest => some (max ack.largestAcknowledged largest)
  | _ :: rest => largestAckFrameSent rest

/-! ### What the send paths rely on -/

/-- A payload that the retransmission queue wants to go out again. -/
structure Candidate where
  groupIndex : Nat
  payload : Bytes

inductive RetransmitMode where
  | congestionControlled
  | ptoProbe

/-- A packet that is numbered, encoded and ready to be protected. -/
structure PreparedPacket where
  frames : List Frame
  packetNumber : Nat
  packetNumberLen : Nat
  payload : Bytes
  packetLen : Nat

structure PreparedProbe where
  candidate : Candidate
  packetNumber : Nat
  packetNumberLen : Nat
  packetLen : Nat

/-- What flow control says.  A write that is blocked may first have to say so to the peer. -/
inductive Verdict where
  | granted
  | refused (error : Error)
  | blocked (control : Frame) (error : Error)

/-- What pacing, congestion and flow control say to one more packet of a batch. -/
inductive Admission where
  | admitted
  | failed (error : Error)
  | limited (error : Error)
  | blocked (control : Frame) (error : Error)

/-- The components behind the send paths, and the frame encoder. -/
structure Books (B : Type) where
  frameBytes : Frame → Except Error Bytes
  largestAcknowledged : B → Option Nat
  ecnDisabled : B → Bool
  /-- The path MTU found so far, when it is searched for. -/
  pmtudCurrentSize : B → Option Nat
  /-- The time before which a packet of that length must not leave. -/
  pacingDeadlineAt : B → Nat → Nat → Option Nat
  /-- `validateStreamFrameForSend`; every other frame is granted. -/
  checkStream : B → Frame → Verdict
  reserveFlow : B → List Frame → Verdict × B
  releaseFlow : B → List Frame → B
  noteBlockedSent : B → Frame → B
  noteSentStreams : B → List Frame → B
  /-- Congestion credit, a recovery group and a record of the packet, or none of these. -/
  track : B → SentPacket → Bytes → Except Error (Option Nat) × B
  trackRetransmission : B → RetransmitMode → Candidate → SentPacket → Except Error Unit × B
  untrack : B → SentPacket → B
  notePacketSent : B → ShortPacket → Nat → Bool → B
  probeSize : B → Nat → Option Nat
  onProbeSent : B → Nat → B
  ptoCandidateAt : B → Nat → Option Candidate
  /-- The pacer asked about one more probe after those already planned. -/
  probeDeadlineAt : B → Nat → List PreparedProbe → Nat → Option Nat
  admitPacket : B → Nat → List PreparedPacket → PreparedPacket → Admission
  /-- Flow and congestion credit for a whole batch, or none. -/
  reserveBatch : B → List PreparedPacket → Except Error Unit × B
  releaseBatch : B → List PreparedPacket → B
  /-- A recovery group and a record, or none of these; a batch has its congestion credit. -/
  trackBatched : B → SentPacket → Bytes → Except Error Unit × B
  untrackBatched : B → SentPacket → B

/-- What becomes of one packet once every check has passed. -/
inductive Delivery where
  /-- The packet buffer cannot grow: the packet is not protected. -/
  | outOfMemory
  /-- The packet is protected, and the endpoint or its socket reports an error. -/
  | refused
  | accepted

structure Attempt where
  sentTimeNs : Option Nat := none
  clockNs : Nat := 0
  ecn : EcnCodepoint := .notEct
  delivery : Delivery := .accepted

def Attempt.nowNs (a : Attempt) : Nat := a.sentTimeNs.getD a.clockNs

/-- What `sendManyBytesProgress` does with a batch. -/
inductive BatchDelivery where
  | outOfMemory
  /-- An error before the first datagram leaves. -/
  | refused
  /-- The first `sentCount` datagrams leave. -/
  | progress (sentCount : Nat) (sendError : Bool)
deriving DecidableEq

structure BatchSendResult where
  sentCount : Nat
  protectedCount : Nat
  sendError : Bool := false

inductive WireEvent where
  | sealed (packet : ShortPacket)
  | sent (packet : ShortPacket)
  | received (bytes : Nat)
  /-- The peer's address is from here on one that is not validated. -/
  | unvalidated

structure SendConfig where
  localEndpoint : EndpointRole
  maxDatagramSize : Nat := 1200
  endpointMaxDatagramSize : Nat := 1200
  aeadConfidentialityLimit : Nat := maxU64
  peerMaxDatagramFrameSize : Option Nat := none
  enableAckFrequency : Bool := false
  peerDisableActiveMigration : Bool := false

/-- The part of `Connection` that the send paths read and write. -/
structure Sender (B : Type) where
  config : SendConfig
  nextPacketNumber : Nat := 0
  sendKeyPhase : KeyPhaseState := {}
  pendingKeyUpdateAckThreshold : Option Nat := none
  sendKeyGenerationEncryptedPackets : Nat := 0
  peerAddressValidated : Bool := true
  peerAddressBytesReceived : Nat := 0
  peerAddressBytesSent : Nat := 0
  closeInfo : Bool := false
  idleTimedOut : Bool := false
  handshakeStatus : HandshakeStatus := .inProgress
  peerConnectionId : Bytes := []
  spinBit : Bool := false
  /-- `fixed_bit.Generator`: the bits it will answer, and how many it has answered. -/
  fixedBits : Nat → Bool := fun _ => true
  fixedBitIndex : Nat := 0
  books : B
  wire : List WireEvent := []

namespace Sender

variable {B : Type}

def init (config : SendConfig) (peerConnectionId : Bytes) (fixedBits : Nat → Bool) (books : B) :
    Sender B where
  config := config
  peerConnectionId := peerConnectionId
  fixedBits := fixedBits
  books := books

/-! ### Anti-amplification credit -/

def antiAmplificationLimit (s : Sender B) : Nat :=
  min (s.peerAddressBytesReceived * antiAmplificationMultiplier) maxU64

def antiAmplificationLimitRemaining (s : Sender B) : Option Nat :=
  if s.peerAddressValidated then none
  else some (s.antiAmplificationLimit - s.peerAddressBytesSent)

def reserveAntiAmplification (s : Sender B) (bytes : Nat) : Except Error (Sender B) :=
  match s.antiAmplificationLimitRemaining with
  | none => .ok s
  | some remaining =>
    if remaining < bytes then .error .antiAmplificationLimited
    else .ok { s with peerAddressBytesSent := saturatingAdd s.peerAddressBytesSent bytes }

def releaseAntiAmplification (s : Sender B) (bytes : Nat) : Sender B :=
  if s.peerAddressValidated then s
  else { s with peerAddressBytesSent := s.peerAddressBytesSent - bytes }

def recordPeerAddressBytesReceived (s : Sender B) (bytes : Nat) : Sender B :=
  if s.peerAddressValidated then s
  else { s with peerAddressBytesReceived := saturatingAdd s.peerAddressBytesReceived bytes }

def setPeerAddressValidated (s : Sender B) (validated : Bool) : Sender B :=
  if validated then
    { s with peerAddressValidated := true, peerAddressBytesReceived := 0, peerAddressBytesSent := 0 }
  else if s.peerAddressValidated then
    { s with peerAddressValidated := false, wire := s.wire ++ [.unvalidated] }
  else s

/-- The peer is at a new address, about which nothing is known yet. -/
def startUnvalidatedPath (s : Sender B) : Sender B :=
  { s with
    peerAddressValidated := false
    peerAddressBytesReceived := 0
    peerAddressBytesSent := 0
    wire := s.wire ++ [.unvalidated] }

/-! ### Keys -/

def advanceSendKeyPhase (s : Sender B) (firstPacketNumber : Nat) : Sender B :=
  { s with
    sendKeyPhase := s.sendKeyPhase.initiateKeyUpdate
    pendingKeyUpdateAckThreshold := some firstPacketNumber
    sendKeyGenerationEncryptedPackets := 0 }

/-- Without keys to send it with, not even a close packet goes out. -/
def enterAeadLimitReached (s : Sender B) : Sender B := { s with closeInfo := true }

def prepareAeadForEncryption (s : Sender B) (packetNumber : Nat) : Except Error Unit × Sender B :=
  if s.sendKeyGenerationEncryptedPackets < s.config.aeadConfidentialityLimit then (.ok (), s)
  else if s.config.aeadConfidentialityLimit = 0 ∨ s.pendingKeyUpdateAckThreshold ≠ none then
    (.error .aeadLimitReached, s.enterAeadLimitReached)
  else (.ok (), s.advanceSendKeyPhase packetNumber)

/-- The packet that `sealShortPacket` gives to the AEAD. -/
def shortPacket (s : Sender B) (packetNumber packetNumberLen : Nat) (payload : Bytes) :
    ShortPacket where
  keyGeneration := s.sendKeyPhase.keyUpdateCount
  destinationConnectionId := s.peerConnectionId
  packetNumber := packetNumber
  packetNumberLen := packetNumberLen
  fixedBit := s.fixedBits s.fixedBitIndex
  spinBit := s.spinBit
  keyPhase := s.sendKeyPhase.currentKeyPhase
  payload := payload

/-- `nextFixedBit`, `sealShortPacketInto` and `recordPacketEncrypted`. -/
def sealShortPacket (s : Sender B) (packetNumber packetNumberLen : Nat) (payload : Bytes) : Sender B :=
  { s with
    fixedBitIndex := s.fixedBitIndex + 1
    sendKeyGenerationEncryptedPackets := saturatingAdd s.sendKeyGenerationEncryptedPackets 1
    wire := s.wire ++ [.sealed (s.shortPacket packetNumber packetNumberLen payload)] }

/-- The socket takes the datagrams. -/
def handOver (s : Sender B) (packets : List ShortPacket) : Sender B :=
  { s with wire := s.wire ++ packets.map .sent }

/-! ### One packet -/

section Single

variable (k : Books B)

/-- Protect a packet for which credit is reserved and give it to the socket. -/
def protectAndSend (s : Sender B) (packetNumber : Nat) (payload : Bytes) (packetNumberLen : Nat)
    (a : Attempt) (pacePacket : Bool) : Except Error Unit × Sender B :=
  match a.delivery with
  | .outOfMemory =>
    (.error .outOfMemory,
      { s with fixedBitIndex := s.fixedBitIndex + 1 }.releaseAntiAmplification payload.length)
  | .refused =>
    (.error .sendFailed,
      (s.sealShortPacket packetNumber packetNumberLen payload).releaseAntiAmplification
        payload.length)
  | .accepted =>
    let packet := s.shortPacket packetNumber packetNumberLen payload
    let s := (s.sealShortPacket packetNumber packetNumberLen payload).handOver [packet]
    (.ok (), { s with books := k.notePacketSent s.books packet a.nowNs pacePacket })

/-- Everything after the packet was tracked. -/
def sendPayloadPacketWithPacketNumberLenAt (s : Sender B) (packetNumber : Nat) (payload : Bytes)
    (packetNumberLen : Nat) (a : Attempt) (pacePacket : Bool) : Except Error Unit × Sender B :=
  match shortPacketLen s.peerConnectionId packetNumber packetNumberLen payload with
  | .error e => (.error e, s)
  | .ok packetLen =>
    if pacePacket ∧ k.pacingDeadlineAt s.books a.nowNs packetLen ≠ none then
      (.error .pacingLimited, s)
    else
      match s.prepareAeadForEncryption packetNumber with
      | (.error e, s) => (.error e, s)
      | (.ok _, s) =>
        match s.reserveAntiAmplification payload.length with
        | .error e => (.error e, s)
        | .ok s => s.protectAndSend k packetNumber payload packetNumberLen a pacePacket

/--
Track the next packet and send it; forget it again when it could not be sent.  The packet
number is used up only by a packet that the socket took.
-/
def trackAndSend (s : Sender B) (track : B → Except Error (Option Nat) × B) (record : SentPacket)
    (payload : Bytes) (packetNumberLen : Nat) (a : Attempt) (pacePacket : Bool) :
    Except Error (Option Nat) × Sender B :=
  match track s.books with
  | (.error e, books) => (.error e, { s with books := books })
  | (.ok groupId, books) =>
    match { s with books := books }.sendPayloadPacketWithPacketNumberLenAt k s.nextPacketNumber
        payload packetNumberLen a pacePacket with
    | (.error e, s) => (.error e, { s with books := k.untrack s.books record })
    | (.ok _, s) => (.ok groupId, { s with nextPacketNumber := s.nextPacketNumber + 1 })

def validateNextPacketNumber (s : Sender B) : Except Error Unit :=
  if maxPacketNumber < s.nextPacketNumber then .error .invalidPacketNumber else .ok ()

/-- Every frame type is allowed in a 1-RTT packet; some only from a server, or when negotiated. -/
def validateOutboundFrame (s : Sender B) : Frame → Except Error Unit
  | .newToken token =>
    if s.config.localEndpoint ≠ .server ∨ token.length = 0 then .error .invalidFrame else .ok ()
  | .handshakeDone => if s.config.localEndpoint ≠ .server then .error .invalidFrame else .ok ()
  | .datagram data lengthPresent =>
    match s.config.peerMaxDatagramFrameSize with
    | none => .error .datagramsNotEnabled
    | some frameLimit =>
      match Connection.datagramFrameWireSize data lengthPresent with
      | none => .error .invalidFrameLength
      | some frameSize => if frameLimit < frameSize then .error .datagramTooLarge else .ok ()
  | .ackFrequency _ | .immediateAck =>
    if s.config.enableAckFrequency then .ok () else .error .ackFrequencyDisabled
  | _ => .ok ()

def validateOutboundFrames (s : Sender B) (frames : List Frame) : Except Error Unit :=
  if frames = [] then .error .missingFrame else frames.forM s.validateOutboundFrame

def encodeFrames : List Frame → Except Error Bytes
  | [] => .ok []
  | frame :: rest => do
    let bytes ← k.frameBytes frame
    let others ← encodeFrames rest
    .ok (bytes ++ others)

def currentSendDatagramSize (s : Sender B) : Nat :=
  let configured := min s.config.maxDatagramSize s.config.endpointMaxDatagramSize
  match k.pmtudCurrentSize s.books with
  | none => configured
  | some size => min configured size

def prepareFramesForSend (s : Sender B) (frames : List Frame) (a : Attempt) :
    Except Error PreparedPacket := do
  let payload ← encodeFrames k frames
  let packetNumberLen := packetNumberLenForPayload s.nextPacketNumber
    (k.largestAcknowledged s.books) payload.length
  let packetLen ← shortPacketLen s.peerConnectionId s.nextPacketNumber packetNumberLen payload
  if s.currentSendDatagramSize k < packetLen then .error .datagramTooLarge
  else if packetInFlight frames ∧
      a.sentTimeNs.any (fun now => (k.pacingDeadlineAt s.books now packetLen).isSome) = true then
    .error .pacingLimited
  else
    .ok
      { frames := frames
        packetNumber := s.nextPacketNumber
        packetNumberLen := packetNumberLen
        payload := payload
        packetLen := packetLen }

/-- The record that the tracker of sent packets keeps of it. -/
def sentRecord (prepared : PreparedPacket) (a : Attempt) : SentPacket where
  packetNumber := prepared.packetNumber
  ackEliciting := ackEliciting prepared.frames
  inFlight := packetInFlight prepared.frames
  bytes := prepared.payload.length
  ecn := a.ecn
  sentTimeNs := a.sentTimeNs
  largestAcknowledgedSent := largestAckFrameSent prepared.frames

/-- The first packet with HANDSHAKE_DONE in it remembers its recovery group. -/
def handshakeDoneTracked (s : Sender B) (frames : List Frame) : Option Nat → Sender B
  | none => s
  | some groupId =>
    if s.handshakeStatus.needsHandshakeDone && containsHandshakeDone frames then
      { s with handshakeStatus := s.handshakeStatus.onHandshakeDoneTracked groupId }
    else s

def sendPreparedFramesEcnAtUnchecked (s : Sender B) (prepared : PreparedPacket) (a : Attempt) :
    Except Error Unit × Sender B :=
  let record := sentRecord prepared a
  match s.trackAndSend k (k.track · record prepared.payload) record prepared.payload
      prepared.packetNumberLen a record.inFlight with
  | (.error e, s) => (.error e, s)
  | (.ok groupId, s) => (.ok (), s.handshakeDoneTracked prepared.frames groupId)

/-- HANDSHAKE_DONE joins the first packet, after the frames of the caller. -/
def withHandshakeDone (s : Sender B) (frames : List Frame) : List Frame :=
  if frames ≠ [] ∧ s.handshakeStatus.needsHandshakeDone ∧ containsHandshakeDone frames = false then
    frames ++ [.handshakeDone]
  else frames

/-- `sendTrackedFramesEcnAt`: control frames, which use no flow control. -/
def sendTrackedFrames (s : Sender B) (frames : List Frame) (a : Attempt) :
    Except Error Unit × Sender B :=
  match s.validateOutboundFrames frames, s.validateNextPacketNumber with
  | .error e, _ => (.error e, s)
  | .ok _, .error e => (.error e, s)
  | .ok _, .ok _ =>
    match s.prepareFramesForSend k (s.withHandshakeDone frames) a with
    | .error e => (.error e, s)
    | .ok prepared => s.sendPreparedFramesEcnAtUnchecked k prepared a

/-- Tell the peer that this endpoint is blocked, and fail. -/
def sendBlocked (s : Sender B) (control : Frame) (error : Error) (a : Attempt) :
    Except Error Unit × Sender B :=
  match s.sendTrackedFrames k [control] { a with sentTimeNs := some a.clockNs, ecn := .notEct } with
  | (.error e, s) => (.error e, s)
  | (.ok _, s) => (.error error, { s with books := k.noteBlockedSent s.books control })

/-- The streams of the frames, one after the other. -/
def checkStreams (s : Sender B) : List Frame → Verdict
  | [] => .granted
  | frame :: rest =>
    match k.checkStream s.books frame with
    | .granted => checkStreams s rest
    | verdict => verdict

/-- `sendWithEcnAtRaw`, once the packet fits and its streams may send. -/
def sendWithFlowControl (s : Sender B) (prepared : PreparedPacket) (a : Attempt) :
    Except Error Unit × Sender B :=
  match k.reserveFlow s.books prepared.frames with
  | (.refused e, books) => (.error e, { s with books := books })
  | (.blocked control e, books) => { s with books := books }.sendBlocked k control e a
  | (.granted, books) =>
    match { s with books := books }.sendPreparedFramesEcnAtUnchecked k prepared a with
    | (.error e, s) => (.error e, { s with books := k.releaseFlow s.books prepared.frames })
    | (.ok _, s) => (.ok (), { s with books := k.noteSentStreams s.books prepared.frames })

def sendWithEcnAtRaw (s : Sender B) (frames : List Frame) (a : Attempt) :
    Except Error Unit × Sender B :=
  if s.closeInfo ∨ s.idleTimedOut then (.error .connectionClosed, s)
  else if a.ecn ≠ .notEct ∧ k.ecnDisabled s.books then (.error .ecnDisabled, s)
  else
    match s.validateNextPacketNumber, s.validateOutboundFrames frames with
    | .error e, _ => (.error e, s)
    | .ok _, .error e => (.error e, s)
    | .ok _, .ok _ =>
      match s.checkStreams k frames with
      | .refused e => (.error e, s)
      | .blocked control e => s.sendBlocked k control e a
      | .granted =>
        match s.prepareFramesForSend k frames a with
        | .error e => (.error e, s)
        | .ok prepared => s.sendWithFlowControl k prepared a

def sendWithEcnAt (s : Sender B) (frames : List Frame) (a : Attempt) :
    Except Error Unit × Sender B :=
  s.sendWithEcnAtRaw k (s.withHandshakeDone frames) a

/-- PING and as much PADDING as makes the packet `probeSize` bytes long. -/
def pmtuProbePayload (len : Nat) : Bytes := 1 :: List.replicate (len - 1) 0

def sendPmtuProbeAt (s : Sender B) (peerMaxUdpPayload : Nat) (a : Attempt) :
    Except Error (Option Nat) × Sender B :=
  match s.validateNextPacketNumber with
  | .error e => (.error e, s)
  | .ok _ =>
    match k.probeSize s.books peerMaxUdpPayload with
    | none => (.ok none, s)
    | some probeSize =>
      if s.config.maxDatagramSize < probeSize then (.error .datagramTooLarge, s)
      else
        let overhead := 1 + s.peerConnectionId.length + 4 + aeadTagLen
        if probeSize ≤ overhead + 1 then (.ok none, s)
        else
          let payload := pmtuProbePayload (probeSize - overhead)
          let record : SentPacket :=
            { packetNumber := s.nextPacketNumber, bytes := payload.length,
              sentTimeNs := a.sentTimeNs, pmtuProbeSize := some probeSize }
          match s.trackAndSend k (k.track · record payload) record payload 4 a true with
          | (.error e, s) => (.error e, s)
          | (.ok _, s) => (.ok (some probeSize), { s with books := k.onProbeSent s.books probeSize })

/-- A retransmission is tracked under the group of its payload. -/
def trackCandidate (mode : RetransmitMode) (candidate : Candidate) (record : SentPacket)
    (books : B) : Except Error (Option Nat) × B :=
  match k.trackRetransmission books mode candidate record with
  | (.error e, books) => (.error e, books)
  | (.ok _, books) => (.ok none, books)

def retransmitCandidateAt (s : Sender B) (candidate : Candidate) (mode : RetransmitMode)
    (a : Attempt) : Except Error Unit × Sender B :=
  match s.validateNextPacketNumber with
  | .error e => (.error e, s)
  | .ok _ =>
    let packetNumberLen := packetNumberLenForPayload s.nextPacketNumber
      (k.largestAcknowledged s.books) candidate.payload.length
    match shortPacketLen s.peerConnectionId s.nextPacketNumber packetNumberLen candidate.payload with
    | .error e => (.error e, s)
    | .ok packetLen =>
      if s.currentSendDatagramSize k < packetLen then (.error .datagramTooLarge, s)
      else
        let record : SentPacket :=
          { packetNumber := s.nextPacketNumber, bytes := candidate.payload.length,
            sentTimeNs := a.sentTimeNs }
        match s.trackAndSend k (trackCandidate k mode candidate record) record candidate.payload
            packetNumberLen a true with
        | (.error e, s) => (.error e, s)
        | (.ok _, s) => (.ok (), s)

end Single

end Sender

end Netz.Quic
