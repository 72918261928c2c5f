/-
The streaming body reader (`http1/runtime/body_reader.zig`).

The reader buffers what the transport delivers and hands the data of the chunks on as it comes.
The transport may cut its input anywhere: the `n`-th read delivers at most `cuts n + 1` bytes, and
nothing only at the end.  Only chunked bodies are modelled; the consumer never fails.
-/
import Netz.Http1.Chunked

namespace Netz.Http1

open Lib
open Http (ascii)

def bufferedReadAheadBytes : Nat := 64 * 1024

inductive RuntimeError where
  | http (e : Error)
  | connectionClosed
  | bodyTooLarge
  | headersTooLarge
deriving DecidableEq

def RuntimeError.lift {α : Type} : Except Error α → Except RuntimeError α
  | .error e => .error (.http e)
  | .ok a => .ok a

structure Transport where
  rest : Bytes
  cuts : Nat → Nat
  reads : Nat := 0

/-- `read_some` into a buffer. -/
def Transport.readSome (transport : Transport) (room : Nat) : Bytes × Transport :=
  let count := min room (transport.cuts transport.reads + 1)
  (transport.rest.take count,
    { transport with rest := transport.rest.drop count, reads := transport.reads + 1 })

structure Limits where
  maxHeadBytes : Nat
  maxBodyBytes : Nat

/-- `delivered` is what the consumer has got. -/
structure BodyReader where
  transport : Transport
  inbuf : Bytes
  offset : Nat
  limits : Limits
  options : ParseOptions
  delivered : Bytes := []

/-! ### Trailers -/

def findHeadEnd (bytes : Bytes) (maxHeadBytes : Nat) : Except RuntimeError (Option Nat) :=
  match indexOf (crlf ++ crlf) bytes with
  | some headEnd =>
    if maxHeadBytes < headEnd + 4 then .error .headersTooLarge else .ok (some headEnd)
  | none => if maxHeadBytes ≤ bytes.length then .error .headersTooLarge else .ok none

/-- The field on a line of a trailer block. -/
def trailerField (line : Bytes) : Header :=
  let beforeColon := line.takeWhile (· != 0x3a)
  { name := beforeColon, value := trimOws (line.drop (beforeColon.length + 1)) }

/-- The first pass of `parseTrailerBlock`. -/
def countTrailerLines (options : ParseOptions) : List Bytes → Nat → Except Error Nat
  | [], count => .ok count
  | line :: lines, count =>
    if line.length = 0 then countTrailerLines options lines count
    else if isContinuation line then .error .malformedHeader
    else if options.maxHeaders ≤ count then .error .tooManyHeaders
    else if 0x3a ∈ line then do
      validateHeaderName (trailerField line).name
      validateHeaderValue (trailerField line).value
      countTrailerLines options lines (count + 1)
    else .error .malformedHeader

def parseTrailerBlock (bytes : Bytes) (options : ParseOptions) : Except Error (List Header) := do
  let lines := splitLines (bytes.take (bytes.length - 4))
  let count ← countTrailerLines options lines 0
  return if count = 0 then []
    else (lines.filter fun line => line.length ≠ 0).map trailerField

namespace BodyReader

/-! ### The buffer -/

def buffered (reader : BodyReader) : Bytes := reader.inbuf.drop reader.offset

def consumePrefix (reader : BodyReader) (len : Nat) : BodyReader :=
  { reader with offset := reader.offset + len }

def compact (reader : BodyReader) : BodyReader :=
  if reader.offset = 0 then reader else { reader with inbuf := reader.buffered, offset := 0 }

def readMore (reader : BodyReader) (maxBufferBytes : Nat) : Except RuntimeError BodyReader :=
  let compacted := reader.compact
  if maxBufferBytes ≤ compacted.inbuf.length then .error .bodyTooLarge
  else
    let room := min bufferedReadAheadBytes (maxBufferBytes - compacted.inbuf.length)
    let (bytes, transport) := compacted.transport.readSome room
    if bytes.length = 0 then .error .connectionClosed
    else .ok { compacted with inbuf := compacted.inbuf ++ bytes, transport := transport }

/-- The loops that read on until `find` finds something in the buffer. -/
def readUntil {α : Type} (find : Bytes → Except RuntimeError (Option α)) (maxBufferBytes : Nat) :
    Nat → BodyReader → Except RuntimeError (α × BodyReader)
  | 0, _ => .error (.http .panic)
  | rounds + 1, reader =>
    match find reader.buffered with
    | .error e => .error e
    | .ok (some a) => .ok (a, reader)
    | .ok none =>
      match reader.readMore maxBufferBytes with
      | .error e => .error e
      | .ok next => readUntil find maxBufferBytes rounds next

/-- Every round but the last takes something from the transport. -/
def rounds (reader : BodyReader) : Nat := reader.transport.rest.length + 1

def findBytes (count : Nat) (bytes : Bytes) : Except RuntimeError (Option Unit) :=
  if bytes.length < count then .ok none else .ok (some ())

def requireBytes (reader : BodyReader) (count : Nat) : Except RuntimeError BodyReader := do
  let (_, next) ← readUntil (findBytes count) count reader.rounds reader
  return next

/-! ### Chunks -/

def findChunkLine (maxBytes : Nat) (bytes : Bytes) : Except RuntimeError (Option Nat) :=
  match indexOf crlf bytes with
  | some lineEnd => .ok (some lineEnd)
  | none => if maxBytes ≤ bytes.length then .error (.http .chunkExtensionTooLarge) else .ok none

/-- The size, and the bytes of extensions so far. -/
def readChunkSize (reader : BodyReader) (extensionBytes maxBytes : Nat) :
    Except RuntimeError (Nat × Nat × BodyReader) := do
  let (lineEnd, found) ← readUntil (findChunkLine maxBytes) maxBytes reader.rounds reader
  let line := found.buffered.take lineEnd
  let extensionBytes ← RuntimeError.lift (countExtension extensionBytes line)
  let size ← RuntimeError.lift (chunkSize line)
  return (size, extensionBytes, found.consumePrefix (lineEnd + 2))

/-- Something is in the buffer. -/
def fill (reader : BodyReader) : Except RuntimeError BodyReader :=
  if reader.buffered.length = 0 then reader.readMore bufferedReadAheadBytes else .ok reader

/-- The consumer gets the front of the buffer. -/
def handOn (reader : BodyReader) (count : Nat) : BodyReader :=
  { reader with delivered := reader.delivered ++ reader.buffered.take count }.consumePrefix count

/-- The data of a chunk, as it comes. -/
def readData : Nat → Nat → BodyReader → Except RuntimeError BodyReader
  | 0, _, _ => .error (.http .panic)
  | rounds + 1, remaining, reader =>
    if remaining = 0 then .ok reader
    else do
      let filled ← reader.fill
      let count := min remaining filled.buffered.length
      readData rounds (remaining - count) (filled.handOn count)

def addBodyBytes (current additional maximum : Nat) : Except RuntimeError Nat :=
  if maxUsize < current + additional then .error .bodyTooLarge
  else if maximum < current + additional then .error .bodyTooLarge
  else .ok (current + additional)

def readTrailers (reader : BodyReader) : Except RuntimeError (List Header × BodyReader) := do
  let reader ← reader.requireBytes 2
  if crlf <+: reader.buffered then return ([], reader.consumePrefix 2)
  else
    let maxHeadBytes := reader.limits.maxHeadBytes
    let (trailerEnd, found) ←
      readUntil (fun bytes => findHeadEnd bytes maxHeadBytes) maxHeadBytes reader.rounds reader
    let len := trailerEnd + 4
    let bytes := found.buffered.take len
    let headers ← RuntimeError.lift (parseTrailerBlock bytes reader.options)
    RuntimeError.lift (validateTrailers headers)
    return (headers, found.consumePrefix len)

structure BodyResult where
  bodyBytes : Nat
  trailers : List Header
deriving DecidableEq

def chunkedLoop : Nat → Nat → Nat → BodyReader → Except RuntimeError (BodyResult × BodyReader)
  | 0, _, _, _ => .error (.http .panic)
  | rounds + 1, total, extensionBytes, reader => do
    let (size, extensionBytes, sized) ←
      reader.readChunkSize extensionBytes (maxChunkExtensionBytes + 32)
    if size = 0 then
      let (trailers, done) ← sized.readTrailers
      return ({ bodyBytes := total, trailers := trailers }, done)
    else
      let total ← addBodyBytes total size sized.limits.maxBodyBytes
      let read ← readData (size + 1) size sized
      let ended ← read.requireBytes 2
      if ended.buffered.take 2 ≠ crlf then .error (.http .invalidChunk)
      else chunkedLoop rounds total extensionBytes (ended.consumePrefix 2)

def readChunked (reader : BodyReader) : Except RuntimeError (BodyResult × BodyReader) :=
  chunkedLoop (reader.buffered.length + reader.transport.rest.length + 1) 0 0 reader

end BodyReader

end Netz.Http1
