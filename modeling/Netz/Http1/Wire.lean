/-
The fields and the numbers of HTTP/1 (`http1/mod.zig`, `internal/wire.zig`).

Strings are byte lists and a `usize` has 64 bits.  The parsers go over lines that end with CRLF;
what they do with a line that is not a field is up to the policy and to the byte that spoils it.
-/
import Netz.Http.Wire
import Netz.Lib.Substring
import Mathlib.Data.List.DropRight

namespace Netz.Http1

open Lib
open Http (ascii)

abbrev Bytes := List UInt8

def maxUsize : Nat := 2 ^ 64 - 1

inductive Error where
  | bufferTooShort
  | tooManyHeaders
  | malformedStartLine
  | malformedHeader
  | invalidMethod
  | invalidVersion
  | invalidChunk
  | invalidHost
  | invalidContentLength
  | conflictingContentLength
  | invalidTransferEncoding
  | invalidTrailer
  | chunkSizeOverflow
  | chunkExtensionTooLarge
  | contentLengthOverflow
  | renderBufferTooSmall
  /-- More rounds of a loop than the source can make, or `unreachable`. -/
  | panic
deriving DecidableEq

def checkedAdd (e : Error) (a b : Nat) : Except Error Nat :=
  if a + b ≤ maxUsize then .ok (a + b) else .error e

/-! ### Characters -/

def cr : UInt8 := 13

def lf : UInt8 := 10

def crlf : Bytes := [cr, lf]

def isOws (byte : UInt8) : Bool := byte == 0x20 || byte == 0x09

def isDigit (byte : UInt8) : Bool := 0x30 ≤ byte && byte ≤ 0x39

def isAlphabetic (byte : UInt8) : Bool :=
  (0x41 ≤ byte && byte ≤ 0x5a) || (0x61 ≤ byte && byte ≤ 0x7a)

def isAlphanumeric (byte : UInt8) : Bool := isDigit byte || isAlphabetic byte

/-- The value of a digit, up to base 16. -/
def digitValue (byte : UInt8) : Option Nat :=
  if isDigit byte then some (byte.toNat - 0x30)
  else if 0x41 ≤ byte ∧ byte ≤ 0x46 then some (byte.toNat - 0x41 + 10)
  else if 0x61 ≤ byte ∧ byte ≤ 0x66 then some (byte.toNat - 0x61 + 10)
  else none

def isHex (byte : UInt8) : Bool := (digitValue byte).isSome

def toLower (byte : UInt8) : UInt8 := if 0x41 ≤ byte ∧ byte ≤ 0x5a then byte + 32 else byte

def eqlIgnoreCase (a b : Bytes) : Bool := a.map toLower == b.map toLower

/-- `std.mem.trim(u8, value, " \t")`. -/
def trimOws (value : Bytes) : Bytes := (value.dropWhile isOws).rdropWhile isOws

/-- `std.fmt.parseInt` of digits of the base, without its limit. -/
def ofDigits (base : Nat) (digits : Bytes) : Nat :=
  digits.foldl (fun acc byte => acc * base + (digitValue byte).getD 0) 0

/-! ### Fields -/

structure Header where
  name : Bytes
  value : Bytes
deriving DecidableEq

def Header.eqlName (header : Header) (name : String) : Bool :=
  eqlIgnoreCase header.name (ascii name)

structure ParseOptions where
  maxHeaders : Nat := 100
  allowObsFold : Bool := false
  allowMultipleSpacesInRequestLineDelimiters : Bool := false
  ignoreInvalidHeadersInRequests : Bool := false

structure HeaderParsePolicy where
  allowSpacesBeforeColon : Bool := false
  ignoreInvalid : Bool := false

def validHeaderNameByte (byte : UInt8) : Bool :=
  isAlphanumeric byte || (ascii "!#$%&'*+-.^_`|~").contains byte

def validateHeaderName (name : Bytes) : Except Error Unit :=
  if name.length = 0 then .error .malformedHeader
  else if name.all validHeaderNameByte then .ok ()
  else .error .malformedHeader

def validHeaderValueByte (byte : UInt8) : Bool :=
  !((byte < 0x20 && byte != 0x09) || byte == 0x7f)

def validateHeaderValue (value : Bytes) : Except Error Unit :=
  if value.all validHeaderValueByte then .ok () else .error .malformedHeader

def validateHeader (header : Header) : Except Error Unit := do
  validateHeaderName header.name
  validateHeaderValue header.value

def parseHeaderLine (line : Bytes) (allowSpacesBeforeColon : Bool) : Except Error Header :=
  if 0x3a ∈ line then
    let beforeColon := line.takeWhile (· != 0x3a)
    let name := if allowSpacesBeforeColon then beforeColon.rdropWhile isOws else beforeColon
    let value := trimOws (line.drop (beforeColon.length + 1))
    match validateHeaderName name with
    | .error e => .error e
    | .ok () =>
      match validateHeaderValue value with
      | .error e => .error e
      | .ok () => .ok { name := name, value := value }
  else .error .malformedHeader

def hasFatalInvalidHeaderByte (line : Bytes) : Bool :=
  line.contains 0 || line.contains cr || line.contains lf

/-- A line that cannot be a field is passed over. -/
def HeaderParsePolicy.ignores (policy : HeaderParsePolicy) (line : Bytes) : Bool :=
  policy.ignoreInvalid && !hasFatalInvalidHeaderByte line

/-- A line that goes on with the field before it. -/
def isContinuation : Bytes → Bool
  | [] => false
  | byte :: _ => isOws byte

/-- A byte in front of the first line. -/
def prepend (byte : UInt8) : List Bytes → List Bytes
  | [] => [[byte]]
  | line :: lines => (byte :: line) :: lines

/-- `std.mem.splitSequence(u8, bytes, "\r\n")`. -/
def splitLines : Bytes → List Bytes
  | [] => [[]]
  | [byte] => [[byte]]
  | byte :: next :: rest =>
    if byte = cr ∧ next = lf then [] :: splitLines rest
    else prepend byte (splitLines (next :: rest))

/-! ### Fields on lines -/

/-- The fields before a line, and whether lines that go on with a field are passed over. -/
structure Folding where
  headers : List Header
  skipContinuations : Bool

/-- The last field goes on with a line. -/
def appendFoldedHeaderValue (headers : List Header) (continuation : Bytes) : List Header :=
  match headers.getLast? with
  | none => headers
  | some last =>
    headers.dropLast ++ [{ last with
      value := if continuation.length ≠ 0 then last.value ++ [0x20] ++ continuation
        else last.value }]

/-- One line of `parseHeaderLines`. -/
def foldHeaderLine (options : ParseOptions) (policy : HeaderParsePolicy) (state : Folding)
    (line : Bytes) : Except Error Folding :=
  if line.length = 0 then .ok state
  else if isContinuation line then
    if state.skipContinuations then .ok state
    else if state.headers.length = 0 then
      if policy.ignores line then .ok state else .error .malformedHeader
    else
      match validateHeaderValue (trimOws line) with
      | .error e =>
        if policy.ignores line then
          .ok { headers := state.headers.dropLast, skipContinuations := true }
        else .error e
      | .ok () => .ok { state with headers := appendFoldedHeaderValue state.headers (trimOws line) }
  else
    match parseHeaderLine line policy.allowSpacesBeforeColon with
    | .error e =>
      if policy.ignores line then .ok { state with skipContinuations := true } else .error e
    | .ok header =>
      if options.maxHeaders ≤ state.headers.length then .error .tooManyHeaders
      else .ok { headers := state.headers ++ [header], skipContinuations := false }

/-- The first pass of `parseHeaderLinesNoFold`. -/
def countHeaderLines (options : ParseOptions) (policy : HeaderParsePolicy) :
    List Bytes → Nat → Except Error Nat
  | [], count => .ok count
  | line :: lines, count =>
    if line.length = 0 then countHeaderLines options policy lines count
    else if isContinuation line then
      if policy.ignores line then countHeaderLines options policy lines count
      else .error .malformedHeader
    else
      match parseHeaderLine line policy.allowSpacesBeforeColon with
      | .error e =>
        if policy.ignores line then countHeaderLines options policy lines count else .error e
      | .ok _ =>
        if options.maxHeaders ≤ count then .error .tooManyHeaders
        else countHeaderLines options policy lines (count + 1)

/-- The second pass. -/
def fillHeader (policy : HeaderParsePolicy) (line : Bytes) : Option Header :=
  if line.length = 0 then none
  else if isContinuation line then none
  else (parseHeaderLine line policy.allowSpacesBeforeColon).toOption

def parseHeaderLinesNoFold (lines : List Bytes) (options : ParseOptions)
    (policy : HeaderParsePolicy) : Except Error (List Header) := do
  let count ← countHeaderLines options policy lines 0
  return if count = 0 then [] else lines.filterMap (fillHeader policy)

def parseHeaderLines (lines : List Bytes) (options : ParseOptions)
    (policy : HeaderParsePolicy) : Except Error (List Header) :=
  if !options.allowObsFold then parseHeaderLinesNoFold lines options policy
  else do
    let state ← lines.foldlM (foldHeaderLine options policy)
      { headers := [], skipContinuations := false }
    return state.headers

end Netz.Http1
