/-
The batch send paths of a 1-RTT connection (`quic/one_rtt.zig`) and the sender as a machine.

`retransmitPtoProbeBatchAt` sends payloads of the retransmission queue again,
`sendManyProgressAt` sends application packets.  Both plan a prefix of what they were given,
reserve credit for all of it, protect all of it, and give it to the socket in one call.
They differ in what they do with the packet numbers of a batch that the socket did not
take as a whole.
-/
import Netz.Quic.Send

namespace Netz.Quic

namespace Sender

variable {B : Type}

section Batch

variable (k : Books B)

/-! ### PTO probes -/

def probesPayloadLen (probes : List PreparedProbe) : Nat :=
  (probes.map (fun p => p.candidate.payload.length)).sum

/--
Plan at most `fuel` more probes after `probes`.  A limit that is met with something planned
ends the batch; met at once, it is the answer.
-/
def planProbes (s : Sender B) (firstCandidateIndex nowNs : Nat) :
    Nat → List PreparedProbe → Except Error (List PreparedProbe)
  | 0, probes => .ok probes
  | fuel + 1, probes =>
    match k.ptoCandidateAt s.books (firstCandidateIndex + probes.length) with
    | none => .ok probes
    | some candidate =>
      let packetNumber := s.nextPacketNumber + probes.length
      let packetNumberLen := packetNumberLenForPayload packetNumber
        (k.largestAcknowledged s.books) candidate.payload.length
      match shortPacketLen s.peerConnectionId packetNumber packetNumberLen candidate.payload with
      | .error e => .error e
      | .ok packetLen =>
        if s.currentSendDatagramSize k < packetLen then .error .datagramTooLarge
        else if s.antiAmplificationLimitRemaining.any (fun credit =>
            decide (credit < probesPayloadLen probes + candidate.payload.length)) = true then
          if probes = [] then .error .antiAmplificationLimited else .ok probes
        else if (k.probeDeadlineAt s.books nowNs probes packetLen).isSome then
          if probes = [] then .error .pacingLimited else .ok probes
        else
          planProbes s firstCandidateIndex nowNs fuel
            (probes ++ [⟨candidate, packetNumber, packetNumberLen, packetLen⟩])

def probeRecord (probe : PreparedProbe) (a : Attempt) : SentPacket where
  packetNumber := probe.packetNumber
  bytes := probe.candidate.payload.length
  sentTimeNs := a.sentTimeNs

def untrackProbes (a : Attempt) (books : B) (probes : List PreparedProbe) : B :=
  probes.foldl (fun books probe => k.untrack books (probeRecord probe a)) books

/-- Track every probe, or none. -/
def trackProbes (a : Attempt) (books : B) : List PreparedProbe → Except Error Unit × B
  | [] => (.ok (), books)
  | probe :: rest =>
    match k.trackRetransmission books .ptoProbe probe.candidate (probeRecord probe a) with
    | (.error e, books) => (.error e, books)
    | (.ok _, books) =>
      match trackProbes a books rest with
      | (.error e, books) => (.error e, k.untrack books (probeRecord probe a))
      | (.ok _, books) => (.ok (), books)

/-- Protect the probes in order, each after a look at the AEAD limit. -/
def sealProbes (s : Sender B) : List PreparedProbe → Option Error × List ShortPacket × Sender B
  | [] => (none, [], s)
  | probe :: rest =>
    match s.prepareAeadForEncryption probe.packetNumber with
    | (.error e, s) => (some e, [], s)
    | (.ok _, s) =>
      let packet := s.shortPacket probe.packetNumber probe.packetNumberLen probe.candidate.payload
      match (s.sealShortPacket probe.packetNumber probe.packetNumberLen
          probe.candidate.payload).sealProbes rest with
      | (result, packets, s) => (result, packet :: packets, s)

def noteSent (nowNs : Nat) (books : B) (packets : List ShortPacket) : B :=
  packets.foldl (fun books packet => k.notePacketSent books packet nowNs true) books

/-- Nothing of the batch was sent: give back the credit and forget the packets. -/
def abandonProbes (s : Sender B) (probes : List PreparedProbe) (a : Attempt) : Sender B :=
  let s := s.releaseAntiAmplification (probesPayloadLen probes)
  { s with books := untrackProbes k a s.books probes }

/-- The socket took the first `sentCount` probes: keep exactly these. -/
def commitProbes (s : Sender B) (probes : List PreparedProbe) (packets : List ShortPacket)
    (sentCount : Nat) (a : Attempt) : Sender B :=
  let s := s.handOver (packets.take sentCount)
  let s := s.releaseAntiAmplification
    (probesPayloadLen probes - probesPayloadLen (probes.take sentCount))
  { s with
    books := untrackProbes k a (noteSent k a.nowNs s.books (packets.take sentCount))
      (probes.drop sentCount)
    nextPacketNumber := s.nextPacketNumber + (packets.take sentCount).length }

/-- Reserve, track, protect and send the planned probes. -/
def sendProbes (s : Sender B) (probes : List PreparedProbe) (a : Attempt)
    (delivery : BatchDelivery) : Except Error BatchSendResult × Sender B :=
  match s.reserveAntiAmplification (probesPayloadLen probes) with
  | .error e => (.error e, s)
  | .ok s =>
    match trackProbes k a s.books probes with
    | (.error e, books) =>
      (.error e, { s with books := books }.releaseAntiAmplification (probesPayloadLen probes))
    | (.ok _, books) =>
      let s := { s with books := books }
      match delivery with
      | .outOfMemory => (.error .outOfMemory, s.abandonProbes k probes a)
      | .refused =>
        match s.sealProbes probes with
        | (some e, _, s) => (.error e, s.abandonProbes k probes a)
        | (none, _, s) => (.error .sendFailed, s.abandonProbes k probes a)
      | .progress sentCount sendError =>
        match s.sealProbes probes with
        | (some e, _, s) => (.error e, s.abandonProbes k probes a)
        | (none, packets, s) =>
          (.ok ⟨(packets.take sentCount).length, packets.length, sendError⟩,
            s.commitProbes k probes packets sentCount a)

def retransmitPtoProbeBatchAt (s : Sender B) (firstCandidateIndex remainingLimit : Nat)
    (a : Attempt) (delivery : BatchDelivery) : Except Error BatchSendResult × Sender B :=
  match s.planProbes k firstCandidateIndex a.nowNs (min remainingLimit maxBatchPackets) [] with
  | .error e => (.error e, s)
  | .ok [] => (.ok ⟨0, 0, false⟩, s)
  | .ok probes => s.sendProbes k probes a delivery

/-! ### Application packets -/

def packetsPayloadLen (packets : List PreparedPacket) : Nat :=
  (packets.map (fun p => p.payload.length)).sum

/-- What the packets of a batch come to, before anything is reserved. -/
inductive BatchPlan (α : Type) where
  | refused (error : Error)
  | blocked (control : Frame) (error : Error)
  | ready (packets : List α)

/-- One frame: may it be sent, may its stream send, and what are its bytes. -/
def preflightFrames (s : Sender B) : List Frame → BatchPlan UInt8
  | [] => .ready []
  | frame :: rest =>
    match s.validateOutboundFrame frame with
    | .error e => .refused e
    | .ok _ =>
      match k.checkStream s.books frame with
      | .refused e => .refused e
      | .blocked control e => .blocked control e
      | .granted =>
        match k.frameBytes frame with
        | .error e => .refused e
        | .ok bytes =>
          match preflightFrames s rest with
          | .ready others => .ready (bytes ++ others)
          | plan => plan

def preflightPackets (s : Sender B) : List (List Frame) → BatchPlan (List Frame × Bytes)
  | [] => .ready []
  | [] :: _ => .refused .missingFrame
  | frames :: rest =>
    match s.preflightFrames k frames with
    | .refused e => .refused e
    | .blocked control e => .blocked control e
    | .ready payload =>
      match preflightPackets s rest with
      | .ready others => .ready ((frames, payload) :: others)
      | plan => plan

/-- Number and size the packets, up to the first that a limit holds back. -/
def planPackets (s : Sender B) (nowNs : Nat) (planned : List PreparedPacket) :
    List (List Frame × Bytes) → BatchPlan PreparedPacket
  | [] => .ready planned
  | (frames, payload) :: rest =>
    let packetNumber := s.nextPacketNumber + planned.length
    let packetNumberLen := packetNumberLenForPayload packetNumber
      (k.largestAcknowledged s.books) payload.length
    match shortPacketLen s.peerConnectionId packetNumber packetNumberLen payload with
    | .error e => .refused e
    | .ok packetLen =>
      if s.currentSendDatagramSize k < packetLen then .refused .datagramTooLarge
      else
        let packet : PreparedPacket := ⟨frames, packetNumber, packetNumberLen, payload, packetLen⟩
        match k.admitPacket s.books nowNs planned packet with
        | .admitted => planPackets s nowNs (planned ++ [packet]) rest
        | .failed e => .refused e
        | .limited e => if planned = [] then .refused e else .ready planned
        | .blocked control e => if planned = [] then .blocked control e else .ready planned

/-- `sentInFlightAt`: the record of a batch does not say which ACK the packet carries. -/
def batchRecord (prepared : PreparedPacket) (a : Attempt) : SentPacket :=
  { sentRecord prepared a with largestAcknowledgedSent := none }

/-- Track and protect the packets in order. -/
def sealPackets (s : Sender B) (a : Attempt) :
    List PreparedPacket → Option Error × List ShortPacket × Sender B
  | [] => (none, [], s)
  | p :: rest =>
    match k.trackBatched s.books (batchRecord p a) p.payload with
    | (.error e, books) => (some e, [], { s with books := books })
    | (.ok _, books) =>
      let packet := s.shortPacket p.packetNumber p.packetNumberLen p.payload
      match ({ s with books := books }.sealShortPacket p.packetNumber p.packetNumberLen
          p.payload).sealPackets a rest with
      | (result, packets, s) => (result, packet :: packets, s)

def untrackPackets (a : Attempt) (books : B) (packets : List PreparedPacket) : B :=
  packets.foldl (fun books p => k.untrackBatched books (batchRecord p a)) books

/-- The packets that the socket took, with what each was sealed as. -/
def notePackets (nowNs : Nat) (books : B) (packets : List (PreparedPacket × ShortPacket)) : B :=
  packets.foldl (fun books p =>
    k.noteSentStreams (k.notePacketSent books p.2 nowNs (packetInFlight p.1.frames)) p.1.frames) books

/--
Nothing of the batch was sent.  The numbers of the packets that were protected are used up
all the same.
-/
def abandonPackets (s : Sender B) (packets : List PreparedPacket) (protectedCount : Nat)
    (needsKeyUpdate : Bool) (a : Attempt) : Sender B :=
  let s := s.releaseAntiAmplification (packetsPayloadLen packets)
  let books := k.releaseBatch (untrackPackets k a s.books (packets.take protectedCount)) packets
  if protectedCount = 0 then { s with books := books }
  else
    { s with
      books := books
      nextPacketNumber := s.nextPacketNumber + protectedCount
      pendingKeyUpdateAckThreshold :=
        if needsKeyUpdate then some (s.nextPacketNumber + protectedCount)
        else s.pendingKeyUpdateAckThreshold }

/-- The socket took the first `sentCount` packets; every number of the batch is used up. -/
def commitPackets (s : Sender B) (packets : List PreparedPacket) (sealed : List ShortPacket)
    (sentCount : Nat) (needsKeyUpdate : Bool) (a : Attempt) : Sender B :=
  let s := s.handOver (sealed.take sentCount)
  let s := s.releaseAntiAmplification
    (packetsPayloadLen packets - packetsPayloadLen (packets.take sentCount))
  let sent := notePackets k a.nowNs s.books ((packets.zip sealed).take sentCount)
  let unsent := packets.drop sentCount
  { s with
    books := k.releaseBatch (untrackPackets k a sent unsent) unsent
    nextPacketNumber := s.nextPacketNumber + sealed.length
    pendingKeyUpdateAckThreshold :=
      if needsKeyUpdate ∧ (sealed.take sentCount).length = 0 then
        some (s.nextPacketNumber + sealed.length)
      else s.pendingKeyUpdateAckThreshold }

/-- Keys for the whole batch: it was cut so that one generation can protect it. -/
def prepareBatchKeys (s : Sender B) (needsKeyUpdate : Bool) : Except Error Unit × Sender B :=
  if needsKeyUpdate then s.prepareAeadForEncryption s.nextPacketNumber else (.ok (), s)

/-- Reserve, track, protect and send the planned packets. -/
def sendPackets (s : Sender B) (packets : List PreparedPacket) (needsKeyUpdate : Bool)
    (a : Attempt) (delivery : BatchDelivery) : Except Error BatchSendResult × Sender B :=
  if delivery = .outOfMemory then (.error .outOfMemory, s)
  else
    match k.reserveBatch s.books packets with
    | (.error e, books) => (.error e, { s with books := books })
    | (.ok _, books) =>
      match { s with books := books }.reserveAntiAmplification (packetsPayloadLen packets) with
      | .error e => (.error e, { s with books := k.releaseBatch books packets })
      | .ok s =>
        match s.prepareBatchKeys needsKeyUpdate with
        | (.error e, s) => (.error e, s.abandonPackets k packets 0 needsKeyUpdate a)
        | (.ok _, s) =>
          match s.sealPackets k a packets with
          | (some e, sealed, s) =>
            (.error e, s.abandonPackets k packets sealed.length needsKeyUpdate a)
          | (none, sealed, s) =>
            match delivery with
            | .progress sentCount sendError =>
              (.ok ⟨(sealed.take sentCount).length, sealed.length, sendError⟩,
                s.commitPackets k packets sealed sentCount needsKeyUpdate a)
            | _ => (.error .sendFailed, s.abandonPackets k packets sealed.length needsKeyUpdate a)

/-- `sendBlocked` where a batch result is expected. -/
def sendBatchBlocked (s : Sender B) (control : Frame) (error : Error) (a : Attempt) :
    Except Error BatchSendResult × Sender B :=
  match s.sendBlocked k control error a with
  | (.error e, s) => (.error e, s)
  | (.ok _, s) => (.error error, s)

/-- The current keys have protected as many packets as they may. -/
def needsKeyUpdate (s : Sender B) : Bool :=
  decide (s.config.aeadConfidentialityLimit ≤ s.sendKeyGenerationEncryptedPackets)

/-- How many packets of a batch one generation of keys can protect. -/
def encryptable (s : Sender B) (batchLimit : Nat) : Nat :=
  min batchLimit
    (if s.needsKeyUpdate then s.config.aeadConfidentialityLimit
      else s.config.aeadConfidentialityLimit - s.sendKeyGenerationEncryptedPackets)

/-- Check, number and size the part of the batch that the keys can protect. -/
def planBatch (s : Sender B) (packets : List (List Frame)) (a : Attempt) :
    BatchPlan PreparedPacket :=
  let encryptable := s.encryptable (min packets.length maxBatchPackets)
  if encryptable = 0 then .refused .aeadLimitReached
  else if maxPacketNumber < s.nextPacketNumber + (encryptable - 1) then .refused .invalidPacketNumber
  else
    match s.preflightPackets k (packets.take encryptable) with
    | .refused e => .refused e
    | .blocked control e => .blocked control e
    | .ready payloads => s.planPackets k a.nowNs [] payloads

def sendManyProgressAt (s : Sender B) (packets : List (List Frame)) (a : Attempt)
    (delivery : BatchDelivery) : Except Error BatchSendResult × Sender B :=
  match packets with
  | [] => (.ok ⟨0, 0, false⟩, s)
  | first :: _ =>
    let a := { a with ecn := .notEct }
    if s.closeInfo ∨ s.idleTimedOut then (.error .connectionClosed, s)
    else if s.handshakeStatus.needsHandshakeDone then
      match s.sendWithEcnAt k first a with
      | (.error e, s) => (.error e, s)
      | (.ok _, s) => (.ok ⟨1, 1, false⟩, s)
    else
      match s.validateNextPacketNumber with
      | .error e => (.error e, s)
      | .ok _ =>
        if s.needsKeyUpdate ∧
            (s.config.aeadConfidentialityLimit = 0 ∨ s.pendingKeyUpdateAckThreshold ≠ none) then
          (.error .aeadLimitReached, s.enterAeadLimitReached)
        else
          match s.planBatch k packets a with
          | .refused e => (.error e, s)
          | .blocked control e => s.sendBatchBlocked k control e a
          | .ready planned => s.sendPackets k planned s.needsKeyUpdate a delivery

end Batch

/-! ### Everything else that happens to a sender -/

def initiateKeyUpdate (s : Sender B) : Except Error Unit × Sender B :=
  if s.closeInfo then (.error .connectionClosed, s)
  else if s.pendingKeyUpdateAckThreshold ≠ none then (.error .invalidPacket, s)
  else (.ok (), s.advanceSendKeyPhase s.nextPacketNumber)

/-- The peer updated its keys to `peerKeyPhase`; follow it. -/
def acceptPeerKeyUpdate (s : Sender B) (peerKeyPhase : Bool) : Except Error Unit × Sender B :=
  if s.sendKeyPhase.currentKeyPhase = peerKeyPhase then (.ok (), s)
  else if s.pendingKeyUpdateAckThreshold ≠ none then (.error .keyUpdateError, s)
  else (.ok (), s.advanceSendKeyPhase s.nextPacketNumber)

/-- `PeerAddressUpdate`: what an incoming datagram says about the peer's address. -/
inductive PeerAddressUpdate where
  /-- It cannot be attributed to the peer, or its address is validated already. -/
  | none
  | sameUnvalidated
  | natRebinding
  | newPath

/-- A datagram of `bytes` bytes came in. -/
def arrive (s : Sender B) (bytes : Nat) : Sender B :=
  { s with wire := s.wire ++ [.received bytes] }

/-- `commitPeerAddressUpdate` for a datagram of `bytes` bytes. -/
def commitPeerAddressUpdate (s : Sender B) (bytes : Nat) : PeerAddressUpdate → Sender B
  | .none => s.arrive bytes
  | .sameUnvalidated => (s.arrive bytes).recordPeerAddressBytesReceived bytes
  | .natRebinding => (s.arrive bytes).setPeerAddressValidated true
  | .newPath => (s.startUnvalidatedPath.arrive bytes).recordPeerAddressBytesReceived bytes

def beginPeerMigration (s : Sender B) : Except Error Unit × Sender B :=
  if s.config.peerDisableActiveMigration then (.error .activeMigrationDisabled, s)
  else (.ok (), s.startUnvalidatedPath)

/-- A packet sent under 0-RTT keys keeps its number; `books` is what tracks it from here on. -/
def importSentEarlyData (s : Sender B) (packetNumber : Nat) (books : Except Error B) :
    Except Error Unit × Sender B :=
  if packetNumber ≠ s.nextPacketNumber then (.error .invalidPacketNumber, s)
  else
    match books with
    | .error e => (.error e, s)
    | .ok books => (.ok (), { s with books := books, nextPacketNumber := packetNumber + 1 })

/-- What calls that neither send nor touch the keys or the peer's address may change. -/
structure Others (B : Type) where
  pendingKeyUpdateAckThreshold : Option Nat
  closeInfo : Bool
  idleTimedOut : Bool
  handshakeStatus : HandshakeStatus
  peerConnectionId : Bytes
  spinBit : Bool
  books : B

def replaceOthers (s : Sender B) (o : Others B) : Sender B :=
  { s with
    pendingKeyUpdateAckThreshold := o.pendingKeyUpdateAckThreshold
    closeInfo := o.closeInfo
    idleTimedOut := o.idleTimedOut
    handshakeStatus := o.handshakeStatus
    peerConnectionId := o.peerConnectionId
    spinBit := o.spinBit
    books := o.books }

inductive Op (B : Type) where
  | sendWithEcnAt (frames : List Frame) (a : Attempt)
  | sendTrackedFrames (frames : List Frame) (a : Attempt)
  | sendPmtuProbeAt (peerMaxUdpPayload : Nat) (a : Attempt)
  | retransmitCandidateAt (candidate : Candidate) (mode : RetransmitMode) (a : Attempt)
  | retransmitPtoProbeBatchAt (firstCandidateIndex remainingLimit : Nat) (a : Attempt)
      (delivery : BatchDelivery)
  | sendManyProgressAt (packets : List (List Frame)) (a : Attempt) (delivery : BatchDelivery)
  | initiateKeyUpdate
  | acceptPeerKeyUpdate (peerKeyPhase : Bool)
  | receiveDatagram (bytes : Nat) (update : PeerAddressUpdate)
  | setPeerAddressValidated (validated : Bool)
  | beginPeerMigration
  | importSentEarlyData (packetNumber : Nat) (books : Except Error B)
  | other (others : Others B)

/-- Forget what a call answered when it succeeded. -/
def answer {α : Type} : Except Error α × Sender B → Except Error Unit × Sender B
  | (.error e, s) => (.error e, s)
  | (.ok _, s) => (.ok (), s)

def step (k : Books B) (s : Sender B) : Op B → Except Error Unit × Sender B
  | .sendWithEcnAt frames a => s.sendWithEcnAt k frames a
  | .sendTrackedFrames frames a => s.sendTrackedFrames k frames a
  | .sendPmtuProbeAt peerMaxUdpPayload a => answer (s.sendPmtuProbeAt k peerMaxUdpPayload a)
  | .retransmitCandidateAt candidate mode a => s.retransmitCandidateAt k candidate mode a
  | .retransmitPtoProbeBatchAt first remaining a delivery =>
    answer (s.retransmitPtoProbeBatchAt k first remaining a delivery)
  | .sendManyProgressAt packets a delivery => answer (s.sendManyProgressAt k packets a delivery)
  | .initiateKeyUpdate => s.initiateKeyUpdate
  | .acceptPeerKeyUpdate peerKeyPhase => s.acceptPeerKeyUpdate peerKeyPhase
  | .receiveDatagram bytes update => (.ok (), s.commitPeerAddressUpdate bytes update)
  | .setPeerAddressValidated validated => (.ok (), s.setPeerAddressValidated validated)
  | .beginPeerMigration => s.beginPeerMigration
  | .importSentEarlyData packetNumber books => s.importSentEarlyData packetNumber books
  | .other others => (.ok (), s.replaceOthers others)

end Sender

end Netz.Quic
