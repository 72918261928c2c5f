/-
The chunked transfer coding (`http1/mod.zig`).

`decodeChunked` goes over the chunk lines twice: the scan checks them and adds up the sizes, and
the copy takes the data.  Behind the last chunk come the trailers.
-/
import Netz.Http1.Wire

namespace Netz.Http1

open Lib
open Http (ascii)

def maxChunkExtensionBytes : Nat := 16 * 1024

/-! ### Numbers -/

def hexDigit (value : Nat) : UInt8 :=
  if value < 10 then UInt8.ofNat (0x30 + value) else UInt8.ofNat (0x61 + (value - 10))

/-- The digits of a `usize`, of which there are no more than 16. -/
def hexDigits : Nat → Nat → Bytes
  | 0, _ => []
  | room + 1, value =>
    if value < 16 then [hexDigit value]
    else hexDigits room (value / 16) ++ [hexDigit (value % 16)]

/-- `std.fmt.bufPrint` with `{x}`. -/
def renderHex (value : Nat) : Bytes := hexDigits 16 value

def hexDigitLen (value : Nat) : Nat := (renderHex value).length

def parseChunkSize (rawSize : Bytes) : Except Error Nat :=
  if rawSize.length = 0 then .error .invalidChunk
  else if rawSize.all isHex then
    if ofDigits 16 rawSize ≤ maxUsize then .ok (ofDigits 16 rawSize)
    else .error .chunkSizeOverflow
  else .error .invalidChunk

/-! ### Chunk lines -/

def chunkSizePart (rawSize : Bytes) : Except Error Bytes :=
  if rawSize.length = 0 then .error .invalidChunk
  else
    let digits := rawSize.takeWhile isHex
    if digits.length = 0 then .error .invalidChunk
    else if (rawSize.drop digits.length).all isOws then .ok digits
    else .error .invalidChunk

/-- Where the extension of a chunk line begins, or its end. -/
def semicolon (line : Bytes) : Nat := (line.takeWhile (· != 0x3b)).length

/-- The bytes of extensions so far, with those of a line. -/
def countExtension (extensionBytes : Nat) (line : Bytes) : Except Error Nat :=
  if semicolon line = line.length then .ok extensionBytes
  else
    match checkedAdd .chunkExtensionTooLarge extensionBytes (line.length - semicolon line) with
    | .error e => .error e
    | .ok total =>
      if maxChunkExtensionBytes < total then .error .chunkExtensionTooLarge else .ok total

def validateChunkExtension (extension : Bytes) : Except Error Unit :=
  if extension.any (fun byte => byte == lf || byte == cr) then .error .invalidChunk else .ok ()

/-- The extension of a line, where it has one. -/
def checkExtension (line : Bytes) : Except Error Unit :=
  if semicolon line = line.length then .ok ()
  else validateChunkExtension (line.drop (semicolon line + 1))

def chunkSize (line : Bytes) : Except Error Nat := do
  let sizePart ← chunkSizePart (line.take (semicolon line))
  parseChunkSize sizePart

/-! ### Trailers -/

def forbiddenTrailers : List String :=
  ["authorization", "cache-control", "content-encoding", "content-length", "content-range",
    "content-type", "host", "max-forwards", "set-cookie", "trailer", "transfer-encoding", "te"]

def validTrailerFieldName (name : Bytes) : Bool :=
  !forbiddenTrailers.any fun forbidden => eqlIgnoreCase name (ascii forbidden)

def validateTrailers (trailers : List Header) : Except Error Unit :=
  if trailers.all fun trailer => validTrailerFieldName trailer.name then .ok ()
  else .error .invalidTrailer

/-! ### Encoding -/

def headerBlockWireLen : List Header → Nat → Except Error Nat
  | [], len => .ok len
  | header :: headers, len => do
    validateHeader header
    let len ← checkedAdd .renderBufferTooSmall len header.name.length
    let len ← checkedAdd .renderBufferTooSmall len 2
    let len ← checkedAdd .renderBufferTooSmall len header.value.length
    let len ← checkedAdd .renderBufferTooSmall len 2
    headerBlockWireLen headers len

def writeHeader (header : Header) : Bytes := header.name ++ ascii ": " ++ header.value ++ crlf

def chunksWireLen : List Bytes → Nat → Except Error Nat
  | [], len => .ok len
  | chunk :: chunks, len => do
    let len ← checkedAdd .renderBufferTooSmall len (hexDigitLen chunk.length)
    let len ← checkedAdd .renderBufferTooSmall len 2
    let len ← checkedAdd .renderBufferTooSmall len chunk.length
    let len ← checkedAdd .renderBufferTooSmall len 2
    chunksWireLen chunks len

def writeChunk (chunk : Bytes) : Bytes := renderHex chunk.length ++ crlf ++ chunk ++ crlf

def encodeChunked (chunks : List Bytes) (trailers : List Header) : Except Error Bytes := do
  validateTrailers trailers
  if chunks.length = 0 ∧ trailers.length = 0 then return ascii "0\r\n\r\n"
  else
    let encodedLen ← chunksWireLen chunks 0
    let encodedLen ← checkedAdd .renderBufferTooSmall encodedLen 3
    let trailersLen ← headerBlockWireLen trailers 0
    let encodedLen ← checkedAdd .renderBufferTooSmall encodedLen trailersLen
    let _ ← checkedAdd .renderBufferTooSmall encodedLen 2
    return chunks.flatMap writeChunk ++ ascii "0\r\n" ++ trailers.flatMap writeHeader ++ crlf

/-! ### Decoding -/

structure ChunkedBodyScan where
  bodyLen : Nat
  trailerStart : Nat
deriving DecidableEq

def scanLoop (bytes : Bytes) : Nat → Nat → Nat → Nat → Except Error ChunkedBodyScan
  | 0, _, _, _ => .error .panic
  | rounds + 1, pos, extensionBytes, bodyLen =>
    match indexOf crlf (bytes.drop pos) with
    | none => .error .bufferTooShort
    | some lineEnd => do
      let line := (bytes.drop pos).take lineEnd
      let extensionBytes ← countExtension extensionBytes line
      checkExtension line
      let size ← chunkSize line
      let dataEnd ← checkedAdd .chunkSizeOverflow (pos + lineEnd + 2) size
      let requiredEnd ← checkedAdd .chunkSizeOverflow dataEnd 2
      if bytes.length < requiredEnd then .error .bufferTooShort
      else if size = 0 then
        return { bodyLen := bodyLen, trailerStart := pos + lineEnd + 2 }
      else
        let bodyLen ← checkedAdd .chunkSizeOverflow bodyLen size
        if (bytes.drop dataEnd).take 2 ≠ crlf then .error .invalidChunk
        else scanLoop bytes rounds (dataEnd + 2) extensionBytes bodyLen

def scanChunkedBody (bytes : Bytes) : Except Error ChunkedBodyScan :=
  scanLoop bytes (bytes.length + 1) 0 0 0

/-- `out` is what has been copied to a buffer of `room` bytes. -/
def copyLoop (bytes : Bytes) (room : Nat) : Nat → Nat → Bytes → Except Error Bytes
  | 0, _, _ => .error .panic
  | rounds + 1, pos, out =>
    match indexOf crlf (bytes.drop pos) with
    | none => .error .bufferTooShort
    | some lineEnd => do
      let size ← chunkSize ((bytes.drop pos).take lineEnd)
      if size = 0 then return out
      else
        let dataStart := pos + lineEnd + 2
        if room < out.length + size ∨ bytes.length < dataStart + size then .error .panic
        else
          let copied := out ++ (bytes.drop dataStart).take size
          copyLoop bytes room rounds (dataStart + size + 2) copied

def copyChunkedBody (bytes : Bytes) (room : Nat) : Except Error Bytes :=
  copyLoop bytes room (bytes.length + 1) 0 []

structure DecodedChunked where
  body : Bytes
  trailers : List Header
  consumed : Nat
deriving DecidableEq

/-- The trailers and their length, with the empty line. -/
def decodeTrailers (tail : Bytes) (options : ParseOptions) : Except Error (List Header × Nat) :=
  match indexOf crlf tail with
  | none => .error .bufferTooShort
  | some trailerEnd =>
    if trailerEnd = 0 then .ok ([], 2)
    else
      match indexOf (crlf ++ crlf) tail with
      | none => .error .bufferTooShort
      | some fullEnd => do
        let trailers ← parseHeaderLines (splitLines (tail.take fullEnd)) options {}
        validateTrailers trailers
        return (trailers, fullEnd + 4)

def decodeChunked (bytes : Bytes) (options : ParseOptions) : Except Error DecodedChunked :=
  if ascii "0\r\n\r\n" <+: bytes then .ok { body := [], trailers := [], consumed := 5 }
  else do
    let scan ← scanChunkedBody bytes
    let body ← copyChunkedBody bytes scan.bodyLen
    let (trailers, len) ← decodeTrailers (bytes.drop scan.trailerStart) options
    return { body := body, trailers := trailers, consumed := scan.trailerStart + len }

end Netz.Http1
