/-
QUIC frames, errors and the integer bounds they share (`quic/mod.zig`).

Integers that travel as QUIC varints are `u64` in the source and `Nat` here; the
bounds that the parser enforces are `Frame.wellFormed`.  Zig error sets are
unions of global names, so one enumeration serves every module.
-/
import Mathlib.Algebra.Order.Ring.Int
import Netz.Lib.Guard

namespace Netz.Quic

/-- `quic.varint.max_value`. -/
def varintMax : Nat := 2 ^ 62 - 1

/-- `std.math.maxInt(u64)`, which is also `std.math.maxInt(usize)`. -/
def maxU64 : Nat := 2 ^ 64 - 1

/-- `quic.max_stream_count`. -/
def maxStreamCount : Nat := 2 ^ 60

/-- `std.math.add` on `u64` or `usize`. -/
def checkedAdd (a b : Nat) : Option Nat := if a + b ≤ maxU64 then some (a + b) else none

/-- `+|` on `u64` or `usize`. -/
def saturatingAdd (a b : Nat) : Nat := min (a + b) maxU64

/-- The error names of the QUIC modules. -/
inductive Error where
  | outOfMemory
  -- `wire.Error`
  | bufferTooShort
  | integerOverflow
  | varIntTooLarge
  -- `packet_space.Error`
  | tooManyAckRanges
  | invalidAckFrame
  | duplicatePacket
  | invalidPacketNumber
  -- `stream_state.Error`
  | wrongStream
  | invalidStreamRange
  | finalSizeMismatch
  | streamBufferTooLarge
  | conflictingStreamData
  | nothingAvailable
  -- `flow_control.Error`
  | flowControlBlocked
  | flowControlViolation
  | invalidWindow
  -- `congestion.Error`, `recovery.Error`, `path_validation.Error`
  | congestionLimited
  | emptyPayload
  | invalidRetransmission
  | unknownPathResponse
  | noPendingPathResponse
  | noPendingPathChallenge
  -- `connection_id.Error`
  | invalidConnectionId
  | duplicateConnectionId
  | duplicateResetToken
  | activeConnectionIdLimit
  | poolFull
  | unknownConnectionId
  | retireQueueFull
  | retirePriorToTooLarge
  -- `quic.Error`
  | invalidFrame
  | invalidFrameLength
  | invalidAckRange
  | invalidConnectionIdLength
  | unsupportedFrameType
  | invalidTransportParameter
  | invalidTransportParameterLength
  | duplicateTransportParameter
  | transportParameterForbidden
  -- `one_rtt.Error`
  | missingFrame
  | connectionClosed
  | streamLimitExceeded
  | streamStateError
  | streamStopped
  | datagramTooLarge
  | datagramsNotEnabled
  | antiAmplificationLimited
  | ackFrequencyDisabled
  | pacingLimited
  | aeadLimitReached
  | ecnDisabled
  | activeMigrationDisabled
  -- `protection.Error`
  | invalidPacketNumberLength
  | invalidInitialPacket
  | invalidHeaderProtectionSample
  | invalidPayloadLength
  | keyUpdateError
  | invalidPacket
  -- what the socket layer reports
  | sendFailed
deriving DecidableEq

abbrev Bytes := List UInt8

structure AckRange where
  gap : Nat
  ackRangeLength : Nat
deriving DecidableEq

structure EcnCounts where
  ect0Count : Nat := 0
  ect1Count : Nat := 0
  ecnCeCount : Nat := 0
deriving DecidableEq

structure AckFrame where
  largestAcknowledged : Nat
  ackDelay : Nat
  firstAckRange : Nat
  ranges : List AckRange := []
  ecnCounts : Option EcnCounts := none
deriving DecidableEq

structure ResetStreamFrame where
  streamId : Nat
  applicationErrorCode : Nat
  finalSize : Nat
deriving DecidableEq

structure StopSendingFrame where
  streamId : Nat
  applicationErrorCode : Nat
deriving DecidableEq

structure StreamFrame where
  streamId : Nat
  offset : Nat := 0
  fin : Bool := false
  data : Bytes
deriving DecidableEq

structure NewConnectionIdFrame where
  sequenceNumber : Nat
  retirePriorTo : Nat
  connectionId : Bytes
  statelessResetToken : Vector UInt8 16
deriving DecidableEq

structure AckFrequencyFrame where
  sequenceNumber : Nat
  ackElicitingThreshold : Nat
  requestMaxAckDelay : Nat
  reorderingThreshold : Nat
deriving DecidableEq

/-- `quic.Frame`; the frames with one field carry it directly. -/
inductive Frame where
  | padding (len : Nat)
  | ping
  | ack (frame : AckFrame)
  | resetStream (frame : ResetStreamFrame)
  | stopSending (frame : StopSendingFrame)
  | newToken (token : Bytes)
  | crypto (offset : Nat) (data : Bytes)
  | stream (frame : StreamFrame)
  | maxData (maximumData : Nat)
  | maxStreamData (streamId maximumStreamData : Nat)
  | maxStreamsBidi (maximumStreams : Nat)
  | maxStreamsUni (maximumStreams : Nat)
  | dataBlocked (maximumData : Nat)
  | streamDataBlocked (streamId maximumStreamData : Nat)
  | streamsBlockedBidi (maximumStreams : Nat)
  | streamsBlockedUni (maximumStreams : Nat)
  | newConnectionId (frame : NewConnectionIdFrame)
  | retireConnectionId (sequenceNumber : Nat)
  | pathChallenge (data : Vector UInt8 8)
  | pathResponse (data : Vector UInt8 8)
  | connectionClose (errorCode frameType : Nat) (reasonPhrase : Bytes)
  | applicationClose (errorCode : Nat) (reasonPhrase : Bytes)
  | handshakeDone
  | immediateAck
  | datagram (data : Bytes) (lengthPresent : Bool)
  | ackFrequency (frame : AckFrequencyFrame)
deriving DecidableEq

/--
What `parseFrame` makes sure of.  That the ranges of an ACK do not wrap below zero is
checked once more where they are decoded, and is not repeated here.
-/
def Frame.wellFormed : Frame → Bool
  | .padding _ | .ping | .handshakeDone | .immediateAck => true
  | .pathChallenge _ | .pathResponse _ | .datagram _ _ => true
  | .ack frame =>
    decide (frame.largestAcknowledged ≤ varintMax) && decide (frame.ackDelay ≤ varintMax) &&
      decide (frame.firstAckRange ≤ frame.largestAcknowledged) &&
      frame.ranges.all (fun r => decide (r.gap ≤ varintMax) && decide (r.ackRangeLength ≤ varintMax))
  | .resetStream frame =>
    decide (frame.streamId ≤ varintMax) && decide (frame.applicationErrorCode ≤ varintMax) &&
      decide (frame.finalSize ≤ varintMax)
  | .stopSending frame =>
    decide (frame.streamId ≤ varintMax) && decide (frame.applicationErrorCode ≤ varintMax)
  | .newToken token => decide (0 < token.length)
  | .crypto offset data => decide (offset + data.length ≤ varintMax)
  | .stream frame =>
    decide (frame.streamId ≤ varintMax) && decide (frame.offset + frame.data.length ≤ varintMax)
  | .maxData maximumData | .dataBlocked maximumData => decide (maximumData ≤ varintMax)
  | .maxStreamData streamId maximum | .streamDataBlocked streamId maximum =>
    decide (streamId ≤ varintMax) && decide (maximum ≤ varintMax)
  | .maxStreamsBidi maximum | .maxStreamsUni maximum
  | .streamsBlockedBidi maximum | .streamsBlockedUni maximum => decide (maximum ≤ maxStreamCount)
  | .newConnectionId frame =>
    decide (frame.sequenceNumber ≤ varintMax) &&
      decide (frame.retirePriorTo ≤ frame.sequenceNumber) &&
      decide (1 ≤ frame.connectionId.length) && decide (frame.connectionId.length ≤ 20)
  | .retireConnectionId sequenceNumber => decide (sequenceNumber ≤ varintMax)
  | .connectionClose errorCode frameType _ =>
    decide (errorCode ≤ varintMax) && decide (frameType ≤ varintMax)
  | .applicationClose errorCode _ => decide (errorCode ≤ varintMax)
  | .ackFrequency frame =>
    decide (frame.sequenceNumber ≤ varintMax) && decide (1 ≤ frame.ackElicitingThreshold) &&
      decide (frame.ackElicitingThreshold ≤ varintMax) &&
      decide (frame.requestMaxAckDelay ≤ varintMax) && decide (frame.reorderingThreshold ≤ varintMax)

end Netz.Quic
