/-
Request heads (`http1/mod.zig`).

There are two parsers.  `parseRequestHead` walks over the lines of the head up to the empty one and
borrows the fields; `parseRequest` looks for the empty line first, may fold lines, and takes the
body too.  The version and the headers of a head say whether its connection is kept open.
-/
import Netz.Http1.Chunked

namespace Netz.Http1

open Lib
open Http (ascii)

/-! ### The request line -/

inductive Method where
  | GET
  | HEAD
  | POST
  | PUT
  | DELETE
  | CONNECT
  | OPTIONS
  | TRACE
  | PATCH
deriving DecidableEq

def methods : List (String × Method) :=
  [("GET", .GET), ("HEAD", .HEAD), ("POST", .POST), ("PUT", .PUT), ("DELETE", .DELETE),
    ("CONNECT", .CONNECT), ("OPTIONS", .OPTIONS), ("TRACE", .TRACE), ("PATCH", .PATCH)]

def Method.parse (bytes : Bytes) : Except Error Method :=
  match methods.find? fun field => ascii field.1 == bytes with
  | none => .error .invalidMethod
  | some field => .ok field.2

inductive Version where
  | http10
  | http11
deriving DecidableEq

def Version.parse (bytes : Bytes) : Except Error Version :=
  if bytes = ascii "HTTP/1.0" then .ok .http10
  else if bytes = ascii "HTTP/1.1" then .ok .http11
  else .error .invalidVersion

/-- The fields of a request line, of which there are no more than three. -/
def requestLineFields (allowMultipleSpaces : Bool) : Nat → Bytes → List Bytes →
    Except Error (List Bytes)
  | 0, _, _ => .error .panic
  | rounds + 1, rest, fields =>
    if rest.length = 0 then .ok fields
    else if fields.length = 3 then .error .malformedStartLine
    else
      let field := rest.takeWhile (· != 0x20)
      let behind := rest.drop field.length
      if behind.length = 0 then .ok (fields ++ [field])
      else
        let spaces := (behind.takeWhile (· == 0x20)).length
        if !allowMultipleSpaces && spaces != 1 then .error .malformedStartLine
        else if (behind.drop spaces).length = 0 then .error .malformedStartLine
        else requestLineFields allowMultipleSpaces rounds (behind.drop spaces) (fields ++ [field])

structure RequestLineParts where
  method : Bytes
  target : Bytes
  version : Bytes

def parseRequestLine (line : Bytes) (allowMultipleSpaces : Bool) : Except Error RequestLineParts :=
  match requestLineFields allowMultipleSpaces (line.length + 1) line [] with
  | .error e => .error e
  | .ok [method, target, version] => .ok { method := method, target := target, version := version }
  | .ok _ => .error .malformedStartLine

/-! ### Targets and hosts -/

def isControl (byte : UInt8) : Bool := byte ≤ 0x20 || byte == 0x7f

def validateRequestTarget (target : Bytes) : Except Error Unit :=
  if target.length = 0 then .error .malformedStartLine
  else if target.any fun byte => isControl byte || byte == 0x23 then .error .malformedStartLine
  else .ok ()

def validUriScheme : Bytes → Bool
  | [] => false
  | first :: rest => isAlphabetic first &&
    rest.all fun byte => isAlphanumeric byte || (ascii "+-.").contains byte

def absoluteFormAuthority (target : Bytes) : Option Bytes :=
  match indexOf (ascii "://") target with
  | none => none
  | some schemeEnd =>
    if !validUriScheme (target.take schemeEnd) then none
    else
      let authority := (target.drop (schemeEnd + 3)).takeWhile fun byte =>
        !(ascii "/?#").contains byte
      if authority.length = 0 then none
      else if 0x40 ∈ authority then none
      else some authority

def validateOriginOrAbsoluteFormTarget (target : Bytes) : Except Error Unit :=
  if target.head? = some 0x2f then .ok ()
  else if (absoluteFormAuthority target).isSome then .ok ()
  else .error .malformedStartLine

def validateAuthorityForbiddenDelimiters (authority : Bytes) (err : Error) : Except Error Unit :=
  if authority.any fun byte => isControl byte || (ascii ",/\\?#@").contains byte then .error err
  else .ok ()

def validateAuthorityPort (port : Bytes) (err : Error) : Except Error Unit :=
  if port.length = 0 then .error err
  else if !port.all isDigit then .error err
  else if 2 ^ 16 ≤ ofDigits 10 port then .error err
  else .ok ()

/-- `std.mem.lastIndexOfScalar`. -/
def lastIndexOfScalar (bytes : Bytes) (byte : UInt8) : Option Nat :=
  (indexOf [byte] bytes.reverse).map fun i => bytes.length - 1 - i

/-- The port of an authority without brackets, where it has one. -/
def portBehindColon (authority : Bytes) (err : Error) : Except Error (Option Bytes) :=
  if 0x5b ∈ authority ∨ 0x5d ∈ authority then .error err
  else
    match lastIndexOfScalar authority 0x3a with
    | none => .ok none
    | some colon =>
      if colon = 0 ∨ authority.length ≤ colon + 1 then .error err
      else if 0x3a ∈ authority.take colon then .error err
      else .ok (some (authority.drop (colon + 1)))

def connectPort (target : Bytes) : Except Error Bytes :=
  if target.head? = some 0x5b then
    match indexOf [0x5d] target with
    | none => .error .malformedStartLine
    | some close =>
      if close ≤ 1 ∨ target.length < close + 2 ∨ target[close + 1]? ≠ some 0x3a then
        .error .malformedStartLine
      else .ok (target.drop (close + 2))
  else
    match portBehindColon target .malformedStartLine with
    | .error e => .error e
    | .ok none => .error .malformedStartLine
    | .ok (some port) => .ok port

def validateConnectTarget (target : Bytes) : Except Error Unit :=
  match validateRequestTarget target with
  | .error e => .error e
  | .ok () =>
    if target.head? = some 0x2f ∨ target.head? = some 0x2a ∨
        (indexOf (ascii "://") target).isSome then .error .malformedStartLine
    else do
      validateAuthorityForbiddenDelimiters target .malformedStartLine
      let port ← connectPort target
      validateAuthorityPort port .malformedStartLine

def validateRequestTargetForMethod (method : Method) (target : Bytes) : Except Error Unit :=
  match method with
  | .CONNECT => validateConnectTarget target
  | .OPTIONS => do
    validateRequestTarget target
    if target = ascii "*" then return () else validateOriginOrAbsoluteFormTarget target
  | _ => do
    validateRequestTarget target
    if target = ascii "*" then .error .malformedStartLine
    else validateOriginOrAbsoluteFormTarget target

def hostPort (host : Bytes) : Except Error (Option Bytes) :=
  if host.head? = some 0x5b then
    match indexOf [0x5d] host with
    | none => .error .invalidHost
    | some close =>
      if close ≤ 1 then .error .invalidHost
      else if close + 1 = host.length then .ok none
      else if host[close + 1]? ≠ some 0x3a ∨ host.length ≤ close + 2 then .error .invalidHost
      else .ok (some (host.drop (close + 2)))
  else portBehindColon host .invalidHost

def validateHostValue (rawHost : Bytes) : Except Error Unit :=
  let host := trimOws rawHost
  if host.length = 0 then .error .invalidHost
  else if (indexOf (ascii "://") host).isSome then .error .invalidHost
  else do
    validateAuthorityForbiddenDelimiters host .invalidHost
    let port ← hostPort host
    match port with
    | none => return ()
    | some value => validateAuthorityPort value .invalidHost

/-- One field of `validateHostHeaderBlockValue`. -/
def addHost (found : Option Bytes) (header : Header) : Except Error (Option Bytes) :=
  if !header.eqlName "host" then .ok found
  else if found.isSome then .error .invalidHost
  else
    match validateHostValue header.value with
    | .error e => .error e
    | .ok () => .ok (some header.value)

def validateHostHeaderBlockValue (version : Version) (headers : List Header) :
    Except Error (Option Bytes) := do
  let found ← headers.foldlM addHost none
  if version = .http11 ∧ found = none then .error .invalidHost else return found

def validateRequestHostParts (version : Version) (target : Bytes) (headers : List Header) :
    Except Error Unit := do
  let host ← validateHostHeaderBlockValue version headers
  match absoluteFormAuthority target with
  | none => return ()
  | some authority => do
    validateHostValue authority
    match host with
    | none => return ()
    | some value =>
      if !eqlIgnoreCase (trimOws value) authority then .error .invalidHost else return ()

/-! ### Body framing -/

inductive BodyFraming where
  | none
  | contentLength
  | chunked
  | closeDelimited
deriving DecidableEq

/-- One number of a Content-Length field. -/
def addContentLength (found : Option Nat) (rawPart : Bytes) : Except Error (Option Nat) :=
  let part := trimOws rawPart
  if part.length = 0 then .error .invalidContentLength
  else if !part.all isDigit then .error .invalidContentLength
  else if maxUsize < ofDigits 10 part then .error .contentLengthOverflow
  else
    match found with
    | none => .ok (some (ofDigits 10 part))
    | some existing =>
      if existing ≠ ofDigits 10 part then .error .conflictingContentLength
      else .ok (some existing)

def parseContentLengthFieldValue (value : Bytes) (previous : Option Nat) :
    Except Error (Option Nat) :=
  (value.splitOn 0x2c).foldlM addContentLength previous

def addContentLengthField (found : Option Nat) (header : Header) : Except Error (Option Nat) :=
  if !header.eqlName "content-length" then .ok found
  else parseContentLengthFieldValue header.value found

def contentLength (headers : List Header) : Except Error (Option Nat) :=
  headers.foldlM addContentLengthField none

/-- The transfer codings so far. -/
structure Codings where
  sawTransferEncoding : Bool := false
  sawChunked : Bool := false
  finalIsChunked : Bool := false

def addCoding (codings : Codings) (rawToken : Bytes) : Except Error Codings :=
  let token := trimOws rawToken
  if token.length = 0 then .error .invalidTransferEncoding
  else
    let isChunked := eqlIgnoreCase token (ascii "chunked")
    if isChunked && codings.sawChunked then .error .invalidTransferEncoding
    else .ok { codings with
      sawChunked := codings.sawChunked || isChunked, finalIsChunked := isChunked }

def addCodingField (codings : Codings) (header : Header) : Except Error Codings :=
  if !header.eqlName "transfer-encoding" then .ok codings
  else (header.value.splitOn 0x2c).foldlM addCoding { codings with sawTransferEncoding := true }

def transferEncodingFraming (headers : List Header) : Except Error (Option BodyFraming) := do
  let codings ← headers.foldlM addCodingField {}
  if !codings.sawTransferEncoding then return none
  else if !codings.sawChunked || !codings.finalIsChunked then .error .invalidTransferEncoding
  else return some .chunked

def bodyFraming (headers : List Header) : Except Error BodyFraming := do
  let coded ← transferEncodingFraming headers
  match coded with
  | some framing => return framing
  | none => do
    let length ← contentLength headers
    match length with
    | some _ => return .contentLength
    | none => return .none

def validateTransferEncodingForVersion (version : Version) (headers : List Header) :
    Except Error Unit :=
  if version ≠ .http10 then .ok ()
  else if headers.any fun header => header.eqlName "transfer-encoding" then
    .error .invalidTransferEncoding
  else .ok ()

/-! ### The borrowed head -/

structure BorrowedHead where
  startLine : Bytes
  headers : List Header
  headLen : Nat

/-- The lines behind the start line, from a position on; `storage` is the room for fields. -/
def headLines (storage : Nat) (options : ParseOptions) (policy : HeaderParsePolicy) :
    Nat → Bytes → Nat → List Header → Except Error (List Header × Nat)
  | 0, _, _, _ => .error .panic
  | rounds + 1, rest, pos, headers =>
    match indexOf crlf rest with
    | none => .error .bufferTooShort
    | some lineEnd =>
      if lineEnd = 0 then .ok (headers, pos + 2)
      else
        let line := rest.take lineEnd
        let next := rest.drop (lineEnd + 2)
        if isContinuation line then
          if policy.ignores line then
            headLines storage options policy rounds next (pos + lineEnd + 2) headers
          else .error .malformedHeader
        else
          match parseHeaderLine line policy.allowSpacesBeforeColon with
          | .error e =>
            if policy.ignores line then
              headLines storage options policy rounds next (pos + lineEnd + 2) headers
            else .error e
          | .ok header =>
            if options.maxHeaders ≤ headers.length ∨ storage ≤ headers.length then
              .error .tooManyHeaders
            else
              headLines storage options policy rounds next (pos + lineEnd + 2) (headers ++ [header])

def parseHeadLines (bytes : Bytes) (storage : Nat) (options : ParseOptions)
    (policy : HeaderParsePolicy) : Except Error BorrowedHead :=
  match indexOf crlf bytes with
  | none => .error .bufferTooShort
  | some firstLineEnd => do
    let (headers, headLen) ← headLines storage options policy (bytes.length + 1)
      (bytes.drop (firstLineEnd + 2)) (firstLineEnd + 2) []
    return { startLine := bytes.take firstLineEnd, headers := headers, headLen := headLen }

structure RequestHead where
  method : Method
  target : Bytes
  version : Version
  headers : List Header
  bodyFraming : BodyFraming
  contentLength : Option Nat
  headLen : Nat
deriving DecidableEq

def requestPolicy (options : ParseOptions) : HeaderParsePolicy :=
  { ignoreInvalid := options.ignoreInvalidHeadersInRequests }

/-- The declared length of a head with this framing. -/
def declaredLength (framing : BodyFraming) (headers : List Header) : Except Error (Option Nat) :=
  if framing = .contentLength then contentLength headers else .ok none

def parseRequestHead (bytes : Bytes) (storage : Nat) (options : ParseOptions) :
    Except Error RequestHead := do
  let parsed ← parseHeadLines bytes storage options (requestPolicy options)
  let line ←
    parseRequestLine parsed.startLine options.allowMultipleSpacesInRequestLineDelimiters
  let method ← Method.parse line.method
  validateRequestTargetForMethod method line.target
  let version ← Version.parse line.version
  validateTransferEncodingForVersion version parsed.headers
  validateRequestHostParts version line.target parsed.headers
  let framing ← bodyFraming parsed.headers
  let length ← declaredLength framing parsed.headers
  return {
    method := method
    target := line.target
    version := version
    headers := parsed.headers
    bodyFraming := framing
    contentLength := length
    headLen := parsed.headLen }

/-! ### The whole request -/

structure ParsedBody where
  framing : BodyFraming
  body : Bytes
  trailers : List Header := []
  consumed : Nat

/-- The body behind a head whose length is declared. -/
def fixedBody (bytes : Bytes) (bodyStart : Nat) (headers : List Header) :
    Except Error ParsedBody := do
  let length ← contentLength headers
  match length with
  | none => .error .panic
  | some len => do
    let bodyEnd ← checkedAdd .contentLengthOverflow bodyStart len
    if bytes.length < bodyEnd then .error .bufferTooShort
    else return {
      framing := .contentLength
      body := (bytes.drop bodyStart).take len
      consumed := bodyEnd }

def parseBody (bytes : Bytes) (bodyStart : Nat) (headers : List Header) (options : ParseOptions) :
    Except Error ParsedBody := do
  let framing ← bodyFraming headers
  match framing with
  | .none => return { framing := .none, body := [], consumed := bodyStart }
  | .contentLength => fixedBody bytes bodyStart headers
  | .chunked => do
    let decoded ← decodeChunked (bytes.drop bodyStart) options
    return {
      framing := .chunked
      body := decoded.body
      trailers := decoded.trailers
      consumed := bodyStart + decoded.consumed }
  | .closeDelimited => .error .panic

structure Request where
  method : Method
  target : Bytes
  version : Version
  headers : List Header
  body : Bytes
  bodyFraming : BodyFraming
  trailers : List Header
  consumed : Nat
deriving DecidableEq

def stripContentLength (headers : List Header) : List Header :=
  headers.filter fun header => !header.eqlName "content-length"

def parseRequest (bytes : Bytes) (options : ParseOptions) : Except Error Request :=
  match indexOf (crlf ++ crlf) bytes with
  | none => .error .bufferTooShort
  | some headEnd =>
    match splitLines (bytes.take headEnd) with
    | [] => .error .malformedStartLine
    | requestLine :: lines => do
      let parts ←
        parseRequestLine requestLine options.allowMultipleSpacesInRequestLineDelimiters
      let method ← Method.parse parts.method
      validateRequestTargetForMethod method parts.target
      let version ← Version.parse parts.version
      let headers ← parseHeaderLines lines options (requestPolicy options)
      validateTransferEncodingForVersion version headers
      let body ← parseBody bytes (headEnd + 4) headers options
      return {
        method := method
        target := parts.target
        version := version
        headers := if body.framing = .chunked ∨ body.framing = .closeDelimited then
          stripContentLength headers else headers
        body := body.body
        bodyFraming := body.framing
        trailers := body.trailers
        consumed := body.consumed }

/-! ### Keeping the connection open

The parsed messages and the streaming reader (`http1/runtime/body_reader.zig`) decide it each in
their own way. -/

/-- `std.ascii.eqlIgnoreCase` of a trimmed token. -/
def isToken (raw : Bytes) (token : String) : Bool := eqlIgnoreCase (trimOws raw) (ascii token)

def containsToken (value : Bytes) (token : String) : Bool :=
  (value.splitOn 0x2c).any fun raw => isToken raw token

def findHeader (headers : List Header) (name : String) : Option Bytes :=
  (headers.find? (·.eqlName name)).map (·.value)

/-- What the parsed messages do with their version and headers. -/
def keepAlive (version : Version) (headers : List Header) : Bool :=
  match findHeader headers "connection" with
  | none => version == .http11
  | some connection =>
    if containsToken connection "close" then false
    else if containsToken connection "keep-alive" then true
    else version == .http11

def RequestHead.keepAlive (head : RequestHead) : Bool := Http1.keepAlive head.version head.headers

def Request.keepAlive (request : Request) : Bool :=
  Http1.keepAlive request.version request.headers

/-- A response, as far as the decision reads it. -/
structure Response where
  version : Version
  headers : List Header

def Response.keepAlive (response : Response) : Bool :=
  Http1.keepAlive response.version response.headers

/-- The tokens of one field, up to the first that decides. -/
def valuesKeepAlive : List Bytes → Option Bool
  | [] => none
  | raw :: rest =>
    if isToken raw "close" then some false
    else if isToken raw "keep-alive" then some true
    else valuesKeepAlive rest

/-- The streaming reader's decision. -/
def messageKeepAlive (version : Version) : List Header → Bool
  | [] => version == .http11
  | header :: rest =>
    if !header.eqlName "connection" then messageKeepAlive version rest
    else
      match valuesKeepAlive (header.value.splitOn 0x2c) with
      | some keep => keep
      | none => messageKeepAlive version rest

end Netz.Http1
