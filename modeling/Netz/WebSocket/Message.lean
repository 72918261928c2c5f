/-
WebSocket messages (`websocket/mod.zig`).

A message is a data frame and the continuation frames behind it, with control frames anywhere in
between.  The assembler collects the payloads, and validates text as it arrives; a call that fails
leaves what it has done so far.
-/
import Netz.WebSocket.Frame

namespace Netz.WebSocket

/-! ### Text -/

structure Utf8Validator where
  remaining : Nat := 0
  nextMin : UInt8 := 0x80
  nextMax : UInt8 := 0xbf
deriving DecidableEq

namespace Utf8Validator

/-- The state behind the first byte of a character. -/
def leadByte (validator : Utf8Validator) (byte : UInt8) : Except Error Utf8Validator :=
  if byte ≤ 0x7f then .ok validator
  else if 0xc2 ≤ byte ∧ byte ≤ 0xdf then .ok { validator with remaining := 1 }
  else if byte = 0xe0 then .ok { validator with remaining := 2, nextMin := 0xa0 }
  else if (0xe1 ≤ byte ∧ byte ≤ 0xec) ∨ (0xee ≤ byte ∧ byte ≤ 0xef) then
    .ok { validator with remaining := 2 }
  else if byte = 0xed then .ok { validator with remaining := 2, nextMax := 0x9f }
  else if byte = 0xf0 then .ok { validator with remaining := 3, nextMin := 0x90 }
  else if 0xf1 ≤ byte ∧ byte ≤ 0xf3 then .ok { validator with remaining := 3 }
  else if byte = 0xf4 then .ok { validator with remaining := 3, nextMax := 0x8f }
  else .error .invalidUtf8

def feedByte (validator : Utf8Validator) (byte : UInt8) : Except Error Utf8Validator :=
  if validator.remaining ≠ 0 then
    if byte < validator.nextMin ∨ validator.nextMax < byte then .error .invalidUtf8
    else .ok { remaining := validator.remaining - 1 }
  else validator.leadByte byte

def feed (validator : Utf8Validator) : Bytes → Except Error Unit × Utf8Validator
  | [] => (.ok (), validator)
  | byte :: rest =>
    match validator.feedByte byte with
    | .error e => (.error e, validator)
    | .ok next => next.feed rest

def finish (validator : Utf8Validator) : Except Error Unit :=
  if validator.remaining ≠ 0 then .error .invalidUtf8 else .ok ()

end Utf8Validator

/-! ### Messages -/

structure Message where
  opcode : Opcode
  payload : Bytes
  compressed : Bool := false

structure MessageAssembler where
  maxMessageBytes : Nat := maxUsize
  opcode : Option Opcode := none
  compressed : Bool := false
  textUtf8 : Utf8Validator := {}
  buffer : Bytes := []
  fits : maxMessageBytes ≤ maxUsize := by decide

namespace MessageAssembler

/-- The part of `feed` that looks at the opcode. -/
def openFrame (assembler : MessageAssembler) (header : FrameHeader) :
    Except Error MessageAssembler :=
  if header.opcode ≠ .continuation then
    if assembler.opcode ≠ none then .error .invalidFrame
    else
      .ok { assembler with
        opcode := some header.opcode, compressed := header.rsv1, textUtf8 := {}, buffer := [] }
  else if assembler.opcode = none then .error .invalidFrame
  else if header.rsv1 then .error .unexpectedRsv
  else .ok assembler

/-- The text of a frame is validated as far as it goes, and to its end with the last one. -/
def feedText (assembler : MessageAssembler) (frame : Frame) :
    Except Error Unit × MessageAssembler :=
  if assembler.opcode = some .text ∧ !assembler.compressed then
    match assembler.textUtf8.feed frame.payload with
    | (.error e, textUtf8) => (.error e, { assembler with textUtf8 := textUtf8 })
    | (.ok (), textUtf8) =>
      (if frame.header.fin then textUtf8.finish else .ok (),
        { assembler with textUtf8 := textUtf8 })
  else (.ok (), assembler)

/-- The part of `feed` behind the payload. -/
def closeFrame (assembler : MessageAssembler) (frame : Frame) :
    Except Error (Option Message) × MessageAssembler :=
  match assembler.feedText frame with
  | (.error e, next) => (.error e, next)
  | (.ok (), next) =>
    if !frame.header.fin then (.ok none, next)
    else
      match next.opcode with
      | none => (.error .panic, next)
      | some opcode =>
        (.ok (some { opcode := opcode, payload := next.buffer, compressed := next.compressed }),
          { next with opcode := none, compressed := false, textUtf8 := {}, buffer := [] })

/-- The part of `feed` behind the header. -/
def takePayload (assembler : MessageAssembler) (frame : Frame) :
    Except Error (Option Message) × MessageAssembler :=
  let newLen := assembler.buffer.length + frame.payload.length
  if maxUsize < newLen ∨ assembler.maxMessageBytes < newLen then
    (.error .payloadTooLarge, assembler)
  else { assembler with buffer := assembler.buffer ++ frame.payload }.closeFrame frame

def feed (assembler : MessageAssembler) (frame : Frame) :
    Except Error (Option Message) × MessageAssembler :=
  if frame.header.opcode.isControl then (.ok none, assembler)
  else
    match assembler.openFrame frame.header with
    | .error e => (.error e, assembler)
    | .ok opened => opened.takePayload frame

end MessageAssembler

end Netz.WebSocket
