/-
The QUIC frame parsers (`quic/mod.zig`) and the two loops of the 1-RTT receive path that
run them over a payload (`quic/one_rtt.zig`).

`parseFrameOwned` allocates the ranges of an ACK; `parseFrameInto` puts them in storage of
the caller's, whose size is then a limit.  Both leave everything else to
`parseFrameAfterType`.
-/
import Netz.Quic.FrameCodec

namespace Netz.Quic

open Lib Varint FrameType Cursor

namespace Cursor

export Reader (check)

end Cursor

/-- `try usizeFromVarint(try varint.decode(cursor))` -/
def decodeUsize : Cursor Nat := do
  let value ← decode
  check (usizeFromVarint value)

/-! ### ACK frames -/

def parseAckRange : Cursor AckRange := do
  let gap ← decode
  let ackRangeLength ← decode
  return { gap, ackRangeLength }

def parseEcnCounts (hasEcn : Bool) : Cursor (Option EcnCounts) :=
  if hasEcn then do
    let ect0Count ← decode
    let ect1Count ← decode
    let ecnCeCount ← decode
    return some { ect0Count, ect1Count, ecnCeCount }
  else return none

/--
`parseAckFrame` and `parseAckFrameInto`, which differ only in where the ranges are put:
`storage` says whether there is room for that many.
-/
def parseAckFrameWith (storage : Nat → Except Error Unit) (hasEcn : Bool) : Cursor AckFrame := do
  let largestAcknowledged ← decode
  let ackDelay ← decode
  let rangeCount ← decodeUsize
  let firstAckRange ← decode
  check (validateAckRangePayloadFits (← remaining) rangeCount hasEcn)
  check (storage rangeCount)
  let ranges ← parseAckRange.times rangeCount
  let ecnCounts ← parseEcnCounts hasEcn
  let ack : AckFrame := { largestAcknowledged, ackDelay, firstAckRange, ranges, ecnCounts }
  check (validateAckFrame ack)
  return ack

/-- Without an allocator only an empty list of ranges has somewhere to go. -/
def allocatedRanges (allocator : Bool) (rangeCount : Nat) : Except Error Unit :=
  if rangeCount = 0 ∨ allocator then .ok () else .error .invalidAckRange

def borrowedRanges (storageLen rangeCount : Nat) : Except Error Unit :=
  if rangeCount > storageLen then .error .bufferTooShort else .ok ()

def parseAckFrame (allocator hasEcn : Bool) : Cursor AckFrame :=
  parseAckFrameWith (allocatedRanges allocator) hasEcn

def parseAckFrameInto (hasEcn : Bool) (storageLen : Nat) : Cursor AckFrame :=
  parseAckFrameWith (borrowedRanges storageLen) hasEcn

/-! ### One frame -/

def parseStreamCount : Cursor Nat := do
  let maximumStreams ← decode
  check (validateStreamCount maximumStreams)
  return maximumStreams

/-- A length field, and as many bytes. -/
def readLengthPrefixed : Cursor Bytes := do
  let len ← decodeUsize
  readSlice len

def parseNewToken : Cursor Frame := do
  let len ← decodeUsize
  if len = 0 then throw .invalidFrame
  else return .newToken (← readSlice len)

def parseCrypto : Cursor Frame := do
  let offset ← decode
  let len ← decodeUsize
  check (validateEndOffset offset len)
  return .crypto offset (← readSlice len)

def parseNewConnectionId : Cursor Frame := do
  let sequenceNumber ← decode
  let retirePriorTo ← decode
  if retirePriorTo > sequenceNumber then throw .invalidFrame
  else
    let connectionIdLen := (← readByte).toNat
    check (validateConnectionIdLen connectionIdLen)
    let connectionId ← readSlice connectionIdLen
    let statelessResetToken ← readArray 16
    return .newConnectionId { sequenceNumber, retirePriorTo, connectionId, statelessResetToken }

def parseStream (frameType : Nat) : Cursor Frame := do
  let hasOffset := frameType &&& 0x04 ≠ 0
  let hasLength := frameType &&& 0x02 ≠ 0
  let streamId ← decode
  let offset ← (if hasOffset then decode else pure 0)
  let len ← (if hasLength then decodeUsize else remaining)
  check (validateEndOffset offset len)
  return .stream {
    streamId, offset, fin := decide (frameType &&& 0x01 ≠ 0), data := ← readSlice len }

def parseAckFrequency : Cursor Frame := do
  let sequenceNumber ← decode
  let ackElicitingThreshold ← decode
  let requestMaxAckDelay ← decode
  let reorderingThreshold ← decode
  let frame : AckFrequencyFrame :=
    { sequenceNumber, ackElicitingThreshold, requestMaxAckDelay, reorderingThreshold }
  check (validateAckFrequencyFrame frame)
  return .ackFrequency frame

/-- The types are tried in the order of the source; `STREAM` by its mask. -/
def parseFrameAfterType (allocator : Bool) (frameType : Nat) : Cursor Frame :=
  if frameType = ping.toInt then return .ping
  else if frameType = ack.toInt ∨ frameType = ackEcn.toInt then
    return .ack (← parseAckFrame allocator (frameType == ackEcn.toInt))
  else if frameType = resetStream.toInt then do
    let streamId ← decode
    let applicationErrorCode ← decode
    let finalSize ← decode
    return .resetStream { streamId, applicationErrorCode, finalSize }
  else if frameType = stopSending.toInt then do
    let streamId ← decode
    let applicationErrorCode ← decode
    return .stopSending { streamId, applicationErrorCode }
  else if frameType = newToken.toInt then parseNewToken
  else if frameType = crypto.toInt then parseCrypto
  else if frameType = maxData.toInt then return .maxData (← decode)
  else if frameType = maxStreamData.toInt then do
    let streamId ← decode
    return .maxStreamData streamId (← decode)
  else if frameType = maxStreamsBidi.toInt then
    return .maxStreamsBidi (← parseStreamCount)
  else if frameType = maxStreamsUni.toInt then
    return .maxStreamsUni (← parseStreamCount)
  else if frameType = dataBlocked.toInt then return .dataBlocked (← decode)
  else if frameType = streamDataBlocked.toInt then do
    let streamId ← decode
    return .streamDataBlocked streamId (← decode)
  else if frameType = streamsBlockedBidi.toInt then
    return .streamsBlockedBidi (← parseStreamCount)
  else if frameType = streamsBlockedUni.toInt then
    return .streamsBlockedUni (← parseStreamCount)
  else if frameType = newConnectionId.toInt then parseNewConnectionId
  else if frameType = retireConnectionId.toInt then
    return .retireConnectionId (← decode)
  else if frameType = pathChallenge.toInt then
    return .pathChallenge (← readArray 8)
  else if frameType = pathResponse.toInt then
    return .pathResponse (← readArray 8)
  else if isStream frameType then parseStream frameType
  else if frameType = connectionClose.toInt then do
    let errorCode ← decode
    let triggeringFrameType ← decode
    return .connectionClose errorCode triggeringFrameType (← readLengthPrefixed)
  else if frameType = connectionCloseApp.toInt then do
    let errorCode ← decode
    return .applicationClose errorCode (← readLengthPrefixed)
  else if frameType = handshakeDone.toInt then return .handshakeDone
  else if frameType = immediateAck.toInt then return .immediateAck
  else if frameType = datagram.toInt then
    return .datagram (← Reader.takeRest) false
  else if frameType = datagramLen.toInt then
    return .datagram (← readLengthPrefixed) true
  else if frameType = ackFrequency.toInt then parseAckFrequency
  else throw .unsupportedFrameType

structure ParsedFrame where
  frame : Frame
  consumed : Nat
deriving DecidableEq

/-- The frame type, which has to be in its shortest form. -/
def parseFrameType : Cursor Nat := do
  let frameTypeLen := encodedLen (← peekByte)
  let frameType ← decode
  check (validateFrameTypeEncoding frameType frameTypeLen)
  return frameType

/-- PADDING swallows the whole run of zero bytes, and counts its type byte. -/
def parsePadding : Cursor Frame := fun input =>
  let rest := input.dropWhile (· = padding.byte)
  .ok (.padding (1 + (input.length - rest.length)), rest)

/-- `parseFrameWithAllocator`, over a cursor. -/
def frameOwned (allocator : Bool) : Cursor Frame := do
  let frameType ← parseFrameType
  if frameType = padding.toInt then parsePadding
  else parseFrameAfterType allocator frameType

/-- `parseFrameInto`, over a cursor. -/
def frameInto (storageLen : Nat) : Cursor Frame := do
  let frameType ← parseFrameType
  if frameType = padding.toInt then parsePadding
  else if frameType = ack.toInt ∨ frameType = ackEcn.toInt then
    return .ack (← parseAckFrameInto (frameType == ackEcn.toInt) storageLen)
  else parseFrameAfterType false frameType

/-- Run a frame parser from the start of `bytes`. -/
def parseWith (parser : Cursor Frame) (bytes : Bytes) : Except Error ParsedFrame :=
  match parser bytes with
  | .ok (frame, rest) => .ok { frame, consumed := bytes.length - rest.length }
  | .error e => .error e

def parseFrameOwned (bytes : Bytes) : Except Error ParsedFrame :=
  parseWith (frameOwned true) bytes

def parseFrameInto (bytes : Bytes) (storageLen : Nat) : Except Error ParsedFrame :=
  parseWith (frameInto storageLen) bytes

end Netz.Quic

/-! ### The two ways in which the 1-RTT receive path takes a decrypted payload apart
(`quic/one_rtt.zig`).

`parseServicePacketFramesOrClose` parses in place: frames go to a buffer of the connection,
and the ranges of all ACK frames of the packet share another.  The owning path first runs
`classifyFramePayloadCloseError` over the payload to find a reason to close, and then
`parsePacketFramesForType`, which allocates.  A rejected payload comes with the error that is
returned, and with the CONNECTION_CLOSE that is queued for it. -/

namespace Netz.Quic

/-! ### Closing on a bad payload -/

/-- The codes of `TransportErrorCode` that a payload can be closed with. -/
inductive TransportErrorCode where
  | frameEncodingError
  | protocolViolation

structure FramePayloadCloseError where
  code : TransportErrorCode
  frameType : Nat
  reasonPhrase : String

def frameDecodeTransportErrorCode : Error → Option TransportErrorCode
  | .unsupportedFrameType | .invalidFrame | .invalidFrameLength | .invalidAckRange
  | .invalidConnectionIdLength | .bufferTooShort | .integerOverflow | .varIntTooLarge =>
    some .frameEncodingError
  | _ => none

def rawFrameTypeValue (bytes : Bytes) : Nat :=
  match Varint.decode bytes with
  | .ok (value, _) => value
  | .error _ => 0

def emptyPayloadClose : FramePayloadCloseError :=
  { code := .protocolViolation, frameType := 0, reasonPhrase := "empty payload" }

def frameEncodingClose (code : TransportErrorCode) (bytes : Bytes) : FramePayloadCloseError :=
  { code, frameType := rawFrameTypeValue bytes, reasonPhrase := "frame encoding" }

/-- What a rejected payload leaves behind: the error, and the close that was asked for. -/
structure Rejection where
  error : Error
  close : Option FramePayloadCloseError := none

/-! ### Packet types -/

inductive FramePacketType where
  | initial
  | handshake
  | zeroRtt
  | oneRtt

def frameAllowedInPacketType (frame : Frame) : FramePacketType → Bool
  | .initial | .handshake =>
    match frame with
    | .padding _ | .ping | .ack _ | .crypto _ _ | .connectionClose _ _ _ => true
    | _ => false
  | .zeroRtt =>
    match frame with
    | .padding _ | .ping | .resetStream _ | .stopSending _ | .stream _ | .maxData _
    | .maxStreamData _ _ | .maxStreamsBidi _ | .maxStreamsUni _ | .dataBlocked _
    | .streamDataBlocked _ _ | .streamsBlockedBidi _ | .streamsBlockedUni _
    | .newConnectionId _ | .pathChallenge _ | .connectionClose _ _ _
    | .applicationClose _ _ | .datagram _ _ => true
    | _ => false
  | .oneRtt => true

def validateFrameForPacketType (frame : Frame) (packetType : FramePacketType) : Except Error Unit :=
  if frameAllowedInPacketType frame packetType then .ok () else .error .invalidFrame

/-! ### The owning path -/

/-- The loop of `classifyFramePayloadCloseError`; a frame takes a byte, so the fuel lasts. -/
def classifyFrames (packetType : FramePacketType) :
    Nat → Bytes → Except Error (Option FramePayloadCloseError)
  | _, [] => .ok none
  | 0, _ :: _ => .ok none
  | fuel + 1, b :: rest =>
    match parseFrameOwned (b :: rest) with
    | .error err =>
      match frameDecodeTransportErrorCode err with
      | none => .error err
      | some code => .ok (some (frameEncodingClose code (b :: rest)))
    | .ok parsed =>
      if !frameAllowedInPacketType parsed.frame packetType then
        .ok (some { code := .protocolViolation, frameType := rawFrameTypeValue (b :: rest),
                    reasonPhrase := "packet type" })
      else classifyFrames packetType fuel ((b :: rest).drop parsed.consumed)

def classifyFramePayloadCloseError (payload : Bytes) (packetType : FramePacketType) :
    Except Error (Option FramePayloadCloseError) :=
  if payload.length = 0 then .ok (some emptyPayloadClose)
  else classifyFrames packetType payload.length payload

/-- The loop of `parsePacketFramesForType`, with `room` for further frames. -/
def parsePacketFramesLoop (packetType : FramePacketType) :
    Nat → Bytes → Except Error (List Frame)
  | _, [] => .ok []
  | 0, _ :: _ => .error .missingFrame
  | room + 1, b :: rest => do
    let parsed ← parseFrameOwned (b :: rest)
    validateFrameForPacketType parsed.frame packetType
    let frames ← parsePacketFramesLoop packetType room ((b :: rest).drop parsed.consumed)
    return parsed.frame :: frames

def parsePacketFramesForType (payload : Bytes) (maxFrames : Nat) (packetType : FramePacketType) :
    Except Error (List Frame) := do
  let frames ← parsePacketFramesLoop packetType maxFrames payload
  if frames.length = 0 then .error .missingFrame else .ok frames

/-! ### The service path -/

/-- How many entries of the range buffer a frame keeps. -/
def Frame.ackRangeCount : Frame → Nat
  | .ack frame => frame.ranges.length
  | _ => 0

/--
What the receive path is set up with.  `ensureTotalCapacity` makes room for at least
`maxAckRanges` ranges; how much more is up to the growth of the list.
-/
structure ReceiveBuffers where
  maxAckRanges : Nat := 64
  maxFramesPerPacket : Nat := 16
  ackRangeCapacity : Nat
  capacity_ge : maxAckRanges ≤ ackRangeCapacity

namespace ReceiveBuffers

/-- `openReceivedBytesWithFrameClose`, from the decrypted payload on. -/
def openPayloadWithFrameClose (buffers : ReceiveBuffers) (payload : Bytes) :
    Except Rejection (List Frame) :=
  match classifyFramePayloadCloseError payload .oneRtt with
  | .error err => .error { error := err }
  | .ok (some close) => .error { error := .invalidFrame, close := some close }
  | .ok none =>
    match parsePacketFramesForType payload buffers.maxFramesPerPacket .oneRtt with
    | .error err => .error { error := err }
    | .ok frames => .ok frames

/--
The loop of `parseServicePacketFramesOrClose`: `room` for further frames, and the ranges of
the next ACK go behind the `ackRangeStart` that are taken.
-/
def parseServiceLoop (buffers : ReceiveBuffers) :
    Nat → Nat → Bytes → Except Rejection (List Frame)
  | _, _, [] => .ok []
  | 0, _, _ :: _ => .error { error := .missingFrame }
  | room + 1, ackRangeStart, b :: rest =>
    match parseFrameInto (b :: rest) (buffers.ackRangeCapacity - ackRangeStart) with
    | .error err =>
      match frameDecodeTransportErrorCode err with
      | none => .error { error := err }
      | some code =>
        .error { error := .invalidFrame, close := some (frameEncodingClose code (b :: rest)) }
    | .ok parsed => do
      let frames ← buffers.parseServiceLoop room (ackRangeStart + parsed.frame.ackRangeCount)
        ((b :: rest).drop parsed.consumed)
      return parsed.frame :: frames

def parseServicePacketFramesOrClose (buffers : ReceiveBuffers) (payload : Bytes) :
    Except Rejection (List Frame) :=
  if payload.length = 0 then
    .error { error := .invalidFrame, close := some emptyPayloadClose }
  else buffers.parseServiceLoop buffers.maxFramesPerPacket 0 payload

end ReceiveBuffers

end Netz.Quic
