/-
gRPC message framing (`grpc/wire.zig`, `grpc/stream/codec.zig`).

A message is a flag, a length of four bytes, and a payload.  `MessageIterator` goes over a whole
string; `Decoder` takes the string in pieces, and delivers each message when it is complete: out of
the piece where that holds all of the payload, or else out of a buffer of its own.

Decompression is a parameter.  The consumer of the messages never fails, and memory never runs out.
-/
import Netz.Lib.BigEndian

namespace Netz.Grpc

open Lib

abbrev Bytes := List UInt8

inductive DecompressError where
  | decompressedMessageTooLarge
  | decompressionFailed
deriving DecidableEq

inductive Error where
  | bufferTooShort
  | grpcMessageTooLarge
  | invalidCompressedFlag
  | compressionNotNegotiated
  | unsupportedCompression
  | invalidStreamState
  | decompression (e : DecompressError)
  /-- More rounds of a loop than the source can make. -/
  | panic
deriving DecidableEq

/-! ### Compression -/

inductive Algorithm where
  | identity
  | deflate
  | gzip
deriving DecidableEq

structure AlgorithmSet where
  deflate : Bool := false
  gzip : Bool := false

def AlgorithmSet.contains (set : AlgorithmSet) : Algorithm → Bool
  | .identity => true
  | .deflate => set.deflate
  | .gzip => set.gzip

/-- `compression.decompressAlloc` for the algorithms other than `identity`. -/
class Decompressor where
  decompress : Algorithm → Bytes → Nat → Except DecompressError Bytes

def decompressAlloc [Decompressor] (algorithm : Algorithm) (input : Bytes) (maxOutputLen : Nat) :
    Except Error Bytes :=
  if algorithm = .identity then
    if maxOutputLen < input.length then .error (.decompression .decompressedMessageTooLarge)
    else .ok input
  else
    match Decompressor.decompress algorithm input maxOutputLen with
    | .error e => .error (.decompression e)
    | .ok bytes => .ok bytes

/-! ### The whole string -/

structure Message where
  compressed : Bool
  payload : Bytes

structure MessageIterator where
  input : Bytes
  maxMessageSize : Nat
  offset : Nat := 0

def MessageIterator.next (it : MessageIterator) : Except Error (Option Message) × MessageIterator :=
  if it.offset = it.input.length then (.ok none, it)
  else if it.input.length - it.offset < 5 then (.error .bufferTooShort, it)
  else
    let compressedFlag := it.input.getD it.offset 0
    if 1 < compressedFlag then (.error .invalidCompressedFlag, it)
    else
      let messageLen := ofBigEndian ((it.input.drop (it.offset + 1)).take 4)
      if it.maxMessageSize < messageLen then (.error .grpcMessageTooLarge, it)
      else
        let payloadStart := it.offset + 5
        let stop := payloadStart + messageLen
        if it.input.length < stop then (.error .bufferTooShort, it)
        else
          (.ok (some {
            compressed := compressedFlag == 1
            payload := (it.input.drop payloadStart).take messageLen }),
            { it with offset := stop })

/-! ### In pieces -/

structure DecodedMessage where
  payload : Bytes
  wasCompressed : Bool
deriving DecidableEq

/-- `payload` is the part of the buffer that is written; the buffer has `payloadLen` bytes. -/
structure Decoder where
  maxMessageSize : Nat
  encoding : Algorithm
  acceptedEncodings : AlgorithmSet
  prefixBytes : Bytes := []
  payload : Option Bytes := none
  payloadLen : Nat := 0
  finished : Bool := false

namespace Decoder

def preparePayload (decoder : Decoder) : Except Error Unit × Decoder :=
  let compressedFlag := decoder.prefixBytes.getD 0 0
  if 1 < compressedFlag then (.error .invalidCompressedFlag, decoder)
  else
    let prepared := { decoder with payloadLen := ofBigEndian (decoder.prefixBytes.drop 1) }
    if prepared.maxMessageSize < prepared.payloadLen then (.error .grpcMessageTooLarge, prepared)
    else if compressedFlag = 1 then
      if prepared.encoding = .identity then (.error .compressionNotNegotiated, prepared)
      else if !prepared.acceptedEncodings.contains prepared.encoding then
        (.error .unsupportedCompression, prepared)
      else (.ok (), prepared)
    else (.ok (), prepared)

def resetMessage (decoder : Decoder) : Decoder :=
  { decoder with prefixBytes := [], payloadLen := 0 }

section Feed

variable [Decompressor]

def deliver (decoder : Decoder) (payload : Bytes) : Except Error DecodedMessage :=
  if decoder.prefixBytes.getD 0 0 = 1 then
    (decompressAlloc decoder.encoding payload decoder.maxMessageSize).map
      fun bytes => { payload := bytes, wasCompressed := true }
  else .ok { payload := payload, wasCompressed := false }

/-- What is to be done behind a part of the input: stop, or deliver a message and go on. -/
inductive Progress where
  | stop (result : Except Error Unit) (decoder : Decoder)
  | message (payload : Bytes) (decoder : Decoder) (rest : Bytes)

/-- The payload, once the prefix is there. -/
def takePayload (decoder : Decoder) (bytes : Bytes) : Progress :=
  if decoder.payloadLen = 0 then .message [] decoder bytes
  else
    match decoder.payload with
    | none =>
      if decoder.payloadLen ≤ bytes.length then
        .message (bytes.take decoder.payloadLen) decoder (bytes.drop decoder.payloadLen)
      else .stop (.ok ()) { decoder with payload := some bytes }
    | some written =>
      let count := min (decoder.payloadLen - written.length) bytes.length
      let payload := written ++ bytes.take count
      if payload.length ≠ decoder.payloadLen then
        .stop (.ok ()) { decoder with payload := some payload }
      else .message payload { decoder with payload := none } (bytes.drop count)

/-- One round of the loop, up to the delivery. -/
def takeBytes (decoder : Decoder) (bytes : Bytes) : Progress :=
  if decoder.prefixBytes.length < 5 then
    let count := min (5 - decoder.prefixBytes.length) bytes.length
    let filled := { decoder with prefixBytes := decoder.prefixBytes ++ bytes.take count }
    if filled.prefixBytes.length ≠ 5 then .stop (.ok ()) filled
    else
      match filled.preparePayload with
      | (.error e, next) => .stop (.error e) next
      | (.ok (), next) => next.takePayload (bytes.drop count)
  else decoder.takePayload bytes

/-- The result of a call, the messages it delivered, and the state behind it. -/
structure Fed where
  result : Except Error Unit
  delivered : List DecodedMessage
  decoder : Decoder

def feedLoop : Nat → Decoder → Bytes → Fed
  | 0, decoder, _ => { result := .error .panic, delivered := [], decoder := decoder }
  | rounds + 1, decoder, bytes =>
    if bytes = [] then { result := .ok (), delivered := [], decoder := decoder }
    else
      match decoder.takeBytes bytes with
      | .stop result next => { result := result, delivered := [], decoder := next }
      | .message payload next rest =>
        match next.deliver payload with
        | .error e => { result := .error e, delivered := [], decoder := next }
        | .ok message =>
          let fed := feedLoop rounds next.resetMessage rest
          { fed with delivered := message :: fed.delivered }

def feed (decoder : Decoder) (bytes : Bytes) : Fed :=
  if decoder.finished then
    { result := .error .invalidStreamState, delivered := [], decoder := decoder }
  else decoder.feedLoop (bytes.length + 2) bytes

end Feed

def finish (decoder : Decoder) : Except Error Unit × Decoder :=
  if decoder.finished then (.error .invalidStreamState, decoder)
  else if decoder.prefixBytes.length ≠ 0 ∨ decoder.payload ≠ none ∨ decoder.payloadLen ≠ 0 then
    (.error .bufferTooShort, decoder)
  else (.ok (), { decoder with finished := true })

end Decoder

/-! ### Writing -/

inductive EncodeError where
  | grpcMessageTooLarge
  | invalidCompressionLevel
  | compressionFailed
deriving DecidableEq

/-- The encoders behind `compression.compressAlloc`. -/
class Compressor where
  compress : Algorithm → Bytes → Nat → Except EncodeError Bytes

/-- The bytes to send, and whether they are compressed: only where that makes them fewer. -/
def compressAlloc [Compressor] (algorithm : Algorithm) (input : Bytes) (level : Nat) :
    Except EncodeError (Bytes × Bool) :=
  if algorithm = .identity then .ok (input, false)
  else if 9 < level then .error .invalidCompressionLevel
  else
    match Compressor.compress algorithm input level with
    | .error e => .error e
    | .ok encoded =>
      if input.length ≤ encoded.length then .ok (input, false) else .ok (encoded, true)

def writeMessage (out payload : Bytes) (compressed : Bool) : Except EncodeError Bytes :=
  if 2 ^ 32 - 1 < payload.length then .error .grpcMessageTooLarge
  else .ok (out ++ ((if compressed then 1 else 0) :: bigEndian 4 payload.length ++ payload))

structure Encoder where
  algorithm : Algorithm := .identity
  compressionLevel : Nat := 6
  maxMessageSize : Nat := 16 * 1024 * 1024

def Encoder.appendMessage [Compressor] (encoder : Encoder) (out payload : Bytes) :
    Except EncodeError Bytes :=
  if encoder.maxMessageSize < payload.length then .error .grpcMessageTooLarge
  else
    match compressAlloc encoder.algorithm payload encoder.compressionLevel with
    | .error e => .error e
    | .ok (bytes, compressed) => writeMessage out bytes compressed

end Netz.Grpc
