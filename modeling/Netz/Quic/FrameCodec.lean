/-
QUIC variable-length integers (`quic/varint.zig`) and the cursor they are read with
(`internal/wire.zig`).

A cursor is modelled by the bytes it has left, so its position is what the buffer has lost.
-/
import Netz.Lib.BigEndian
import Netz.Lib.Reader
import Netz.Quic.Frame

namespace Netz.Quic

open Lib

/-! ### `wire.Cursor` -/

/-- A program over a `wire.Cursor`. -/
abbrev Cursor := Reader Error UInt8

namespace Cursor

def peekByte : Cursor UInt8 := Reader.peek .bufferTooShort

def readByte : Cursor UInt8 := Reader.next .bufferTooShort

def readSlice (len : Nat) : Cursor Bytes := Reader.take .bufferTooShort len

/-- `(try cursor.readSlice(n))[0..n].*` -/
def readArray (n : Nat) : Cursor (Vector UInt8 n) := Reader.takeVector .bufferTooShort n

def remaining : Cursor Nat := Reader.remaining

end Cursor

/-! ### `varint` -/

namespace Varint

def length (value : Nat) : Except Error Nat :=
  if value ≤ 63 then .ok 1
  else if value ≤ 16383 then .ok 2
  else if value ≤ 1073741823 then .ok 4
  else if value ≤ varintMax then .ok 8
  else .error .varIntTooLarge

def encodedLen (first : UInt8) : Nat := 1 <<< (first.toNat >>> 6)

/-- `encodeIntoWithLen`: the bytes written; other lengths are unreachable. -/
def encodeWithLen (value : Nat) : Nat → Bytes
  | 1 => bigEndian 1 value
  | 2 => bigEndian 2 (value ||| 0x4000)
  | 4 => bigEndian 4 (value ||| 0x80000000)
  | 8 => bigEndian 8 (value ||| 0xc000000000000000)
  | _ => []

def encode (value : Nat) : Except Error Bytes := do
  let len ← length value
  return encodeWithLen value len

/-- The bits that are not the length prefix. -/
def valueMask : Nat → Nat
  | 1 => 0x3f
  | 2 => 0x3fff
  | 4 => 0x3fffffff
  | 8 => 0x3fffffffffffffff
  | _ => 0

def decode : Cursor Nat := do
  let first ← Cursor.peekByte
  let len := encodedLen first
  let bytes ← Cursor.readSlice len
  return ofBigEndian bytes &&& valueMask len

end Varint

end Netz.Quic

/-! ### The QUIC frame codec (`quic/mod.zig`): `Frame.wireLen`, `Frame.write` and the frame parsers

The three functions lay the same bytes out independently, and they are kept apart here.  A
writer returns the bytes that it appends, and capacity is never the problem: `write` asks for
`wireLen` bytes beforehand.  Parsers run over a `Cursor`; allocation is taken to succeed. -/

namespace Netz.Quic

open Lib

/-! ### `FrameType` -/

inductive FrameType where
  | padding
  | ping
  | ack
  | ackEcn
  | resetStream
  | stopSending
  | crypto
  | newToken
  | stream
  | maxData
  | maxStreamData
  | maxStreamsBidi
  | maxStreamsUni
  | dataBlocked
  | streamDataBlocked
  | streamsBlockedBidi
  | streamsBlockedUni
  | newConnectionId
  | retireConnectionId
  | pathChallenge
  | pathResponse
  | connectionClose
  | connectionCloseApp
  | handshakeDone
  | immediateAck
  | datagram
  | datagramLen
  | ackFrequency

/-- `@intFromEnum` -/
def FrameType.toInt : FrameType → Nat
  | .padding => 0x00
  | .ping => 0x01
  | .ack => 0x02
  | .ackEcn => 0x03
  | .resetStream => 0x04
  | .stopSending => 0x05
  | .crypto => 0x06
  | .newToken => 0x07
  | .stream => 0x08
  | .maxData => 0x10
  | .maxStreamData => 0x11
  | .maxStreamsBidi => 0x12
  | .maxStreamsUni => 0x13
  | .dataBlocked => 0x14
  | .streamDataBlocked => 0x15
  | .streamsBlockedBidi => 0x16
  | .streamsBlockedUni => 0x17
  | .newConnectionId => 0x18
  | .retireConnectionId => 0x19
  | .pathChallenge => 0x1a
  | .pathResponse => 0x1b
  | .connectionClose => 0x1c
  | .connectionCloseApp => 0x1d
  | .handshakeDone => 0x1e
  | .immediateAck => 0x1f
  | .datagram => 0x30
  | .datagramLen => 0x31
  | .ackFrequency => 0xaf

/-- The mask is eight bits wide; the value it is put to is sixty-four. -/
def FrameType.isStream (value : Nat) : Bool := value &&& 0xf8 == 0x08

/-! ### Field checks -/

def usizeFromVarint (value : Nat) : Except Error Nat :=
  if value ≤ maxU64 then .ok value else .error .integerOverflow

def validateEndOffset (offset dataLen : Nat) : Except Error Unit :=
  match checkedAdd offset dataLen with
  | none => .error .invalidFrameLength
  | some stop => if stop > varintMax then .error .invalidFrameLength else .ok ()

def validateFrameTypeEncoding (frameType encodedLen : Nat) : Except Error Unit :=
  match Varint.length frameType with
  | .error _ => .error .unsupportedFrameType
  | .ok shortest => if encodedLen ≠ shortest then .error .invalidFrame else .ok ()

def validateQuicVarint (value : Nat) : Except Error Unit :=
  if value > varintMax then .error .invalidFrameLength else .ok ()

def validateAckRangePayloadFits (remaining rangeCount : Nat) (hasEcn : Bool) : Except Error Unit :=
  -- both the product and the sum are checked against `usize`
  if rangeCount * 2 > maxU64 then .error .invalidFrameLength
  else
    match checkedAdd (rangeCount * 2) (if hasEcn then 3 else 0) with
    | none => .error .invalidFrameLength
    | some minBytes => if remaining < minBytes then .error .invalidFrameLength else .ok ()

def validateStreamCount (maximumStreams : Nat) : Except Error Unit :=
  if maximumStreams > maxStreamCount then .error .invalidFrame else .ok ()

def validateConnectionIdLen (len : Nat) : Except Error Unit :=
  if len = 0 ∨ len > 20 then .error .invalidConnectionIdLength else .ok ()

/-- The loop of `validateAckFrame`: each range lies a gap below the one before it. -/
def validateAckRanges : Nat → List AckRange → Except Error Unit
  | _, [] => .ok ()
  | smallest, range :: rest => do
    validateQuicVarint range.gap
    validateQuicVarint range.ackRangeLength
    match checkedAdd range.gap 2 with
    | none => .error .invalidAckRange
    | some skipped =>
      if smallest < skipped then .error .invalidAckRange
      else if range.ackRangeLength > smallest - skipped then .error .invalidAckRange
      else validateAckRanges (smallest - skipped - range.ackRangeLength) rest

def validateEcnCounts : Option EcnCounts → Except Error Unit
  | none => .ok ()
  | some ecn => do
    validateQuicVarint ecn.ect0Count
    validateQuicVarint ecn.ect1Count
    validateQuicVarint ecn.ecnCeCount

def validateAckFrame (ack : AckFrame) : Except Error Unit := do
  validateQuicVarint ack.largestAcknowledged
  validateQuicVarint ack.ackDelay
  validateQuicVarint ack.firstAckRange
  validateQuicVarint ack.ranges.length
  if ack.firstAckRange > ack.largestAcknowledged then .error .invalidAckRange
  else
    validateAckRanges (ack.largestAcknowledged - ack.firstAckRange) ack.ranges
    validateEcnCounts ack.ecnCounts

def validateAckFrequencyFrame (frame : AckFrequencyFrame) : Except Error Unit := do
  validateQuicVarint frame.sequenceNumber
  validateQuicVarint frame.ackElicitingThreshold
  validateQuicVarint frame.requestMaxAckDelay
  validateQuicVarint frame.reorderingThreshold
  if frame.ackElicitingThreshold = 0 then .error .invalidFrame else .ok ()

/-! ### `Frame.wireLen` -/

def addWireLen (a b : Nat) : Except Error Nat :=
  match checkedAdd a b with
  | none => .error .invalidFrameLength
  | some len => .ok len

def singleVarintFrameWireLen (value : Nat) : Except Error Nat := do
  addWireLen 1 (← Varint.length value)

def doubleVarintFrameWireLen (first second : Nat) : Except Error Nat := do
  let len ← addWireLen 1 (← Varint.length first)
  addWireLen len (← Varint.length second)

def tripleVarintFrameWireLen (first second third : Nat) : Except Error Nat := do
  let len ← addWireLen 1 (← Varint.length first)
  let len ← addWireLen len (← Varint.length second)
  addWireLen len (← Varint.length third)

def singleVarintPayloadFrameWireLen (value payloadLen : Nat) : Except Error Nat := do
  let len ← singleVarintFrameWireLen value
  addWireLen len payloadLen

def doubleVarintPayloadFrameWireLen (first second payloadLen : Nat) : Except Error Nat := do
  let len ← doubleVarintFrameWireLen first second
  addWireLen len payloadLen

def tripleVarintPayloadFrameWireLen (first second third payloadLen : Nat) :
    Except Error Nat := do
  let len ← tripleVarintFrameWireLen first second third
  addWireLen len payloadLen

/-- An offset of zero is not written. -/
def addOffsetWireLen (len offset : Nat) : Except Error Nat :=
  if offset ≠ 0 then do addWireLen len (← Varint.length offset) else .ok len

def streamFrameWireLen (stream : StreamFrame) : Except Error Nat := do
  let len ← addWireLen 1 (← Varint.length stream.streamId)
  let len ← addOffsetWireLen len stream.offset
  let len ← addWireLen len (← Varint.length stream.data.length)
  addWireLen len stream.data.length

def datagramFrameWireLen (data : Bytes) (lengthPresent : Bool) : Except Error Nat :=
  if lengthPresent then do
    let len ← addWireLen 1 (← Varint.length data.length)
    addWireLen len data.length
  else addWireLen 1 data.length

def newConnectionIdFrameWireLen (frame : NewConnectionIdFrame) : Except Error Nat := do
  let len ← addWireLen 1 (← Varint.length frame.sequenceNumber)
  let len ← addWireLen len (← Varint.length frame.retirePriorTo)
  let len ← addWireLen len 1
  let len ← addWireLen len frame.connectionId.length
  addWireLen len 16

def ackFrequencyFrameWireLen (frame : AckFrequencyFrame) : Except Error Nat := do
  validateAckFrequencyFrame frame
  let len ← addWireLen 2 (← Varint.length frame.sequenceNumber)
  let len ← addWireLen len (← Varint.length frame.ackElicitingThreshold)
  let len ← addWireLen len (← Varint.length frame.requestMaxAckDelay)
  addWireLen len (← Varint.length frame.reorderingThreshold)

/-- The loop of `ackFrameWireLen` over the ranges. -/
def addRangesWireLen : Nat → List AckRange → Except Error Nat
  | len, [] => .ok len
  | len, range :: rest => do
    let len ← addWireLen len (← Varint.length range.gap)
    let len ← addWireLen len (← Varint.length range.ackRangeLength)
    addRangesWireLen len rest

def addEcnWireLen (len : Nat) : Option EcnCounts → Except Error Nat
  | none => .ok len
  | some ecn => do
    let len ← addWireLen len (← Varint.length ecn.ect0Count)
    let len ← addWireLen len (← Varint.length ecn.ect1Count)
    addWireLen len (← Varint.length ecn.ecnCeCount)

def ackFrameWireLen (ack : AckFrame) : Except Error Nat := do
  validateAckFrame ack
  let len ← addWireLen 1 (← Varint.length ack.largestAcknowledged)
  let len ← addWireLen len (← Varint.length ack.ackDelay)
  let len ← addWireLen len (← Varint.length ack.ranges.length)
  let len ← addWireLen len (← Varint.length ack.firstAckRange)
  let len ← addRangesWireLen len ack.ranges
  addEcnWireLen len ack.ecnCounts

/-- `Frame.wireLen` -/
def Frame.wireLen : Frame → Except Error Nat
  | .padding len => .ok len
  | .ping | .handshakeDone | .immediateAck => .ok 1
  | .ack frame => ackFrameWireLen frame
  | .resetStream reset =>
    tripleVarintFrameWireLen reset.streamId reset.applicationErrorCode reset.finalSize
  | .stopSending stop => doubleVarintFrameWireLen stop.streamId stop.applicationErrorCode
  | .newToken token =>
    if token.length = 0 then .error .invalidFrame
    else singleVarintPayloadFrameWireLen token.length token.length
  | .crypto offset data => do
    validateEndOffset offset data.length
    doubleVarintPayloadFrameWireLen offset data.length data.length
  | .stream frame => do
    validateEndOffset frame.offset frame.data.length
    streamFrameWireLen frame
  | .maxData maximum | .dataBlocked maximum => singleVarintFrameWireLen maximum
  | .maxStreamData streamId maximum | .streamDataBlocked streamId maximum =>
    doubleVarintFrameWireLen streamId maximum
  | .maxStreamsBidi maximum | .maxStreamsUni maximum
  | .streamsBlockedBidi maximum | .streamsBlockedUni maximum => do
    validateStreamCount maximum
    singleVarintFrameWireLen maximum
  | .newConnectionId frame => do
    validateConnectionIdLen frame.connectionId.length
    if frame.retirePriorTo > frame.sequenceNumber then .error .invalidFrame
    else newConnectionIdFrameWireLen frame
  | .retireConnectionId sequenceNumber => singleVarintFrameWireLen sequenceNumber
  | .pathChallenge _ | .pathResponse _ => .ok 9
  | .connectionClose errorCode frameType reason =>
    tripleVarintPayloadFrameWireLen errorCode frameType reason.length reason.length
  | .applicationClose errorCode reason =>
    doubleVarintPayloadFrameWireLen errorCode reason.length reason.length
  | .datagram data lengthPresent => datagramFrameWireLen data lengthPresent
  | .ackFrequency frame => ackFrequencyFrameWireLen frame

/-! ### `Frame.write` -/

/-- The byte that a frame type below 64 is written as. -/
def FrameType.byte (frameType : FrameType) : UInt8 := UInt8.ofNat frameType.toInt

def appendPadding (len : Nat) : Bytes := List.replicate len FrameType.padding.byte

def writeSingleByteFrame (frameType : FrameType) : Bytes := [frameType.byte]

def writeSingleVarintPayloadFrame (frameType : FrameType) (value : Nat) (payload : Bytes) :
    Except Error Bytes := do
  let valueLen ← Varint.length value
  return frameType.byte :: (Varint.encodeWithLen value valueLen ++ payload)

def writeDoubleVarintPayloadFrame (frameType : FrameType) (first second : Nat)
    (payload : Bytes) : Except Error Bytes := do
  let firstLen ← Varint.length first
  let secondLen ← Varint.length second
  return frameType.byte ::
    (Varint.encodeWithLen first firstLen ++ Varint.encodeWithLen second secondLen ++ payload)

def writeTripleVarintPayloadFrame (frameType : FrameType) (first second third : Nat)
    (payload : Bytes) : Except Error Bytes := do
  let firstLen ← Varint.length first
  let secondLen ← Varint.length second
  let thirdLen ← Varint.length third
  return frameType.byte ::
    (Varint.encodeWithLen first firstLen ++ Varint.encodeWithLen second secondLen ++
      Varint.encodeWithLen third thirdLen ++ payload)

def writeSingleVarintFrame (frameType : FrameType) (value : Nat) : Except Error Bytes :=
  writeSingleVarintPayloadFrame frameType value []

def writeDoubleVarintFrame (frameType : FrameType) (first second : Nat) : Except Error Bytes :=
  writeDoubleVarintPayloadFrame frameType first second []

def writeTripleVarintFrame (frameType : FrameType) (first second third : Nat) :
    Except Error Bytes :=
  writeTripleVarintPayloadFrame frameType first second third []

/-- The type byte always has the Length bit, so that frames compose. -/
def streamFrameType (stream : StreamFrame) : Nat :=
  FrameType.stream.toInt ||| 0x02 ||| (if stream.offset ≠ 0 then 0x04 else 0) |||
    (if stream.fin then 0x01 else 0)

def writeStreamFrame (stream : StreamFrame) : Except Error Bytes := do
  let streamIdLen ← Varint.length stream.streamId
  let offsetLen ← (if stream.offset = 0 then .ok 0 else Varint.length stream.offset)
  let dataLenLen ← Varint.length stream.data.length
  return UInt8.ofNat (streamFrameType stream) ::
    (Varint.encodeWithLen stream.streamId streamIdLen ++
      (if stream.offset ≠ 0 then Varint.encodeWithLen stream.offset offsetLen else []) ++
      Varint.encodeWithLen stream.data.length dataLenLen ++ stream.data)

def writeDatagramFrame (data : Bytes) (lengthPresent : Bool) : Except Error Bytes := do
  let dataLenLen ← (if lengthPresent then Varint.length data.length else .ok 0)
  return (if lengthPresent then
      FrameType.datagramLen.byte :: Varint.encodeWithLen data.length dataLenLen
    else [FrameType.datagram.byte]) ++ data

def writeNewConnectionIdFrame (frame : NewConnectionIdFrame) : Except Error Bytes := do
  let sequenceLen ← Varint.length frame.sequenceNumber
  let retireLen ← Varint.length frame.retirePriorTo
  return FrameType.newConnectionId.byte ::
    (Varint.encodeWithLen frame.sequenceNumber sequenceLen ++
      Varint.encodeWithLen frame.retirePriorTo retireLen ++
      [UInt8.ofNat frame.connectionId.length] ++ frame.connectionId ++
      frame.statelessResetToken.toList)

def writeFixedPathFrame (frameType : FrameType) (data : Vector UInt8 8) : Bytes :=
  frameType.byte :: data.toList

/-- The type of an ACK_FREQUENCY frame takes two bytes, which are written out. -/
def writeAckFrequencyFrame (frame : AckFrequencyFrame) : Except Error Bytes := do
  validateAckFrequencyFrame frame
  let sequenceLen ← Varint.length frame.sequenceNumber
  let thresholdLen ← Varint.length frame.ackElicitingThreshold
  let maxAckDelayLen ← Varint.length frame.requestMaxAckDelay
  let reorderingLen ← Varint.length frame.reorderingThreshold
  return [0x40, FrameType.ackFrequency.byte] ++
    Varint.encodeWithLen frame.sequenceNumber sequenceLen ++
    Varint.encodeWithLen frame.ackElicitingThreshold thresholdLen ++
    Varint.encodeWithLen frame.requestMaxAckDelay maxAckDelayLen ++
    Varint.encodeWithLen frame.reorderingThreshold reorderingLen

/-- The loop of `writeAckFields` over the ranges. -/
def writeAckRanges : List AckRange → Except Error Bytes
  | [] => .ok []
  | range :: rest => do
    let gap ← Varint.encode range.gap
    let len ← Varint.encode range.ackRangeLength
    let tail ← writeAckRanges rest
    return gap ++ len ++ tail

def writeEcnCounts : Option EcnCounts → Except Error Bytes
  | none => .ok []
  | some ecn => do
    let ect0 ← Varint.encode ecn.ect0Count
    let ect1 ← Varint.encode ecn.ect1Count
    let ce ← Varint.encode ecn.ecnCeCount
    return ect0 ++ ect1 ++ ce

def writeAckFields (ack : AckFrame) : Except Error Bytes := do
  let largest ← Varint.encode ack.largestAcknowledged
  let delay ← Varint.encode ack.ackDelay
  let count ← Varint.encode ack.ranges.length
  let first ← Varint.encode ack.firstAckRange
  let ranges ← writeAckRanges ack.ranges
  let ecn ← writeEcnCounts ack.ecnCounts
  return largest ++ delay ++ count ++ first ++ ranges ++ ecn

def writeAckFrame (ack : AckFrame) : Except Error Bytes := do
  let _ ← ackFrameWireLen ack
  let fields ← writeAckFields ack
  return (if ack.ecnCounts.isNone then FrameType.ack.byte else FrameType.ackEcn.byte) :: fields

/-- `Frame.writeAssumeCapacity`: the bytes that it appends. -/
def Frame.writeAssumeCapacity : Frame → Except Error Bytes
  | .padding len => .ok (appendPadding len)
  | .ping => .ok (writeSingleByteFrame .ping)
  | .ack frame => writeAckFrame frame
  | .resetStream reset =>
    writeTripleVarintFrame .resetStream reset.streamId reset.applicationErrorCode reset.finalSize
  | .stopSending stop => writeDoubleVarintFrame .stopSending stop.streamId stop.applicationErrorCode
  | .newToken token =>
    if token.length = 0 then .error .invalidFrame
    else writeSingleVarintPayloadFrame .newToken token.length token
  | .crypto offset data => do
    validateEndOffset offset data.length
    writeDoubleVarintPayloadFrame .crypto offset data.length data
  | .stream frame => do
    validateEndOffset frame.offset frame.data.length
    writeStreamFrame frame
  | .maxData maximum => writeSingleVarintFrame .maxData maximum
  | .maxStreamData streamId maximum => writeDoubleVarintFrame .maxStreamData streamId maximum
  | .maxStreamsBidi maximum => do
    validateStreamCount maximum
    writeSingleVarintFrame .maxStreamsBidi maximum
  | .maxStreamsUni maximum => do
    validateStreamCount maximum
    writeSingleVarintFrame .maxStreamsUni maximum
  | .dataBlocked maximum => writeSingleVarintFrame .dataBlocked maximum
  | .streamDataBlocked streamId maximum =>
    writeDoubleVarintFrame .streamDataBlocked streamId maximum
  | .streamsBlockedBidi maximum => do
    validateStreamCount maximum
    writeSingleVarintFrame .streamsBlockedBidi maximum
  | .streamsBlockedUni maximum => do
    validateStreamCount maximum
    writeSingleVarintFrame .streamsBlockedUni maximum
  | .newConnectionId frame => do
    validateConnectionIdLen frame.connectionId.length
    if frame.retirePriorTo > frame.sequenceNumber then .error .invalidFrame
    else writeNewConnectionIdFrame frame
  | .retireConnectionId sequenceNumber => writeSingleVarintFrame .retireConnectionId sequenceNumber
  | .pathChallenge data => .ok (writeFixedPathFrame .pathChallenge data)
  | .pathResponse data => .ok (writeFixedPathFrame .pathResponse data)
  | .connectionClose errorCode frameType reason =>
    writeTripleVarintPayloadFrame .connectionClose errorCode frameType reason.length reason
  | .applicationClose errorCode reason =>
    writeDoubleVarintPayloadFrame .connectionCloseApp errorCode reason.length reason
  | .handshakeDone => .ok (writeSingleByteFrame .handshakeDone)
  | .immediateAck => .ok (writeSingleByteFrame .immediateAck)
  | .datagram data lengthPresent => writeDatagramFrame data lengthPresent
  | .ackFrequency frame => writeAckFrequencyFrame frame

/-- `Frame.write`: the list with the frame appended. -/
def Frame.write (frame : Frame) (list : Bytes) : Except Error Bytes := do
  let _ ← frame.wireLen
  let bytes ← frame.writeAssumeCapacity
  return list ++ bytes

end Netz.Quic
