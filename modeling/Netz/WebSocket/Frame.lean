/-
WebSocket frames (`websocket/mod.zig`).

A frame is a header of two to fourteen bytes and a payload, which a mask key may cover.  There are
two writers and two parsers: one of each allocates, the other fills storage of the caller.

The vectors of the machine are a parameter: their length in bytes, where there are any, is a
multiple of the length of a mask key.
-/
import Netz.Lib.BigEndian
import Netz.Lib.Reader
import Netz.Lib.Utf8

namespace Netz.WebSocket

open Lib

abbrev Bytes := List UInt8

inductive Error where
  | bufferTooShort
  | invalidOpcode
  | invalidFrame
  | invalidControlFrame
  | invalidUtf8
  | payloadTooLarge
  | unmaskedClientFrame
  | maskedServerFrame
  | unexpectedRsv
  | nonMinimalLength
  | invalidCloseCode
  /-- An assertion of the source that fails. -/
  | panic
deriving DecidableEq

abbrev Cursor := Reader Error UInt8

namespace Cursor

def readByte : Cursor UInt8 := Reader.next .bufferTooShort

def readInt (n : Nat) : Cursor Nat := do return ofBigEndian (← Reader.take .bufferTooShort n)

end Cursor

def maxUsize : Nat := 2 ^ 64 - 1

def utf8ValidateSlice (bytes : Bytes) : Bool := (ByteArray.mk bytes.toArray).validateUTF8

/-! ### Opcodes -/

/-- An `enum(u4)` that is not exhaustive: values without a name are opcodes too. -/
structure Opcode where
  value : Fin 16
deriving DecidableEq

namespace Opcode

def continuation : Opcode := ⟨0x0⟩
def text : Opcode := ⟨0x1⟩
def binary : Opcode := ⟨0x2⟩
def close : Opcode := ⟨0x8⟩
def ping : Opcode := ⟨0x9⟩
def pong : Opcode := ⟨0xa⟩

def isControl (opcode : Opcode) : Bool := decide (0x8 ≤ opcode.value.val)

/-- The opcodes with a name. -/
def defined : List Opcode := [continuation, text, binary, close, ping, pong]

end Opcode

/-! ### Masks -/

abbrev MaskKey := Vector UInt8 4

/-- `std.simd.suggestVectorLength(u8)`, where the backend has vectors. -/
class VectorBackend where
  vectorSize : Option Nat
  lanes : ∀ size, vectorSize = some size → 0 < size ∧ 4 ∣ size

def rotatedMask (maskKey : MaskKey) (offset : Nat) : MaskKey :=
  Vector.ofFn fun i => maskKey[(offset % 4 + i.val) % 4]

/-- `std.simd.repeat` -/
def maskVector (size : Nat) (rotated : MaskKey) : Bytes :=
  (List.range size).map fun i => rotated[i % 4]

def xorVector (data mask : Bytes) : Bytes := List.zipWith (· ^^^ ·) data mask

def applyMaskScalar (payload : Bytes) (maskKey : MaskKey) : Bytes :=
  payload.mapIdx fun i byte => byte ^^^ maskKey[i % 4]

/-- The loop over whole vectors, and the scalar rest. -/
def applyMaskLoop (size : Nat) (rotated : MaskKey) : Nat → Bytes → Bytes
  | 0, data => applyMaskScalar data rotated
  | rounds + 1, data =>
    if size ≤ data.length then
      xorVector (data.take size) (maskVector size rotated) ++
        applyMaskLoop size rotated rounds (data.drop size)
    else applyMaskScalar data rotated

section Masking

variable [VectorBackend]

def applyMask (payload : Bytes) (maskKey : MaskKey) (offset : Nat) : Bytes :=
  if payload.length = 0 then payload
  else
    let rotated := rotatedMask maskKey offset
    match VectorBackend.vectorSize with
    | none => applyMaskScalar payload rotated
    | some size => applyMaskLoop size rotated payload.length payload

/-- The copying variant takes no vectors that a mask key does not divide. -/
def applyMaskCopyAssumeCapacity (payload : Bytes) (maskKey : MaskKey) (offset : Nat) : Bytes :=
  if payload.length = 0 then []
  else
    let rotated := rotatedMask maskKey offset
    match VectorBackend.vectorSize with
    | none => applyMaskScalar payload rotated
    | some size =>
      if size % 4 = 0 then applyMaskLoop size rotated payload.length payload
      else applyMaskScalar payload rotated

def applyMaskCopy (outputLen : Nat) (payload : Bytes) (maskKey : MaskKey) (offset : Nat) :
    Except Error Bytes :=
  if outputLen < payload.length then .error .bufferTooShort
  else .ok (applyMaskCopyAssumeCapacity payload maskKey offset)

/-- The payload as it is on the wire. -/
def encodedPayload (payload : Bytes) : Option MaskKey → Bytes
  | some maskKey => applyMaskCopyAssumeCapacity payload maskKey 0
  | none => payload

/-- The payload as it was, masked in place. -/
def decodedPayload (encoded : Bytes) : Option MaskKey → Bytes
  | some maskKey => applyMask encoded maskKey 0
  | none => encoded

/-- The payload as it was, masked into storage of `outputLen` bytes. -/
def copiedPayload (outputLen : Nat) (encoded : Bytes) : Option MaskKey → Except Error Bytes
  | some maskKey => applyMaskCopy outputLen encoded maskKey 0
  | none => .ok encoded

end Masking

/-! ### Headers -/

structure FrameHeader where
  fin : Bool
  rsv1 : Bool := false
  rsv2 : Bool := false
  rsv3 : Bool := false
  opcode : Opcode
  masked : Bool
  payloadLen : Nat
  maskKey : Option MaskKey
  headerLen : Nat

/-- The extended length: its value, and how many bytes it takes. -/
def readExtendedLen (len : Nat) : Cursor (Nat × Nat) := do
  if len = 126 then return (← Cursor.readInt 2, 2)
  else if len = 127 then
    let len ← Cursor.readInt 8
    if 2 ^ 63 ≤ len then throw .invalidFrame else return (len, 8)
  else return (len, 0)

def readMaskKey (masked : Bool) : Cursor (Option MaskKey) := do
  if masked then return some (← Reader.takeVector .bufferTooShort 4) else return none

/-- The part of `FrameHeader.parse` behind the first two bytes. -/
def FrameHeader.parseRest (b0 b1 : UInt8) (opcode : Opcode) : Cursor FrameHeader := do
  let (len, extended) ← readExtendedLen (b1 &&& 0x7f).toNat
  let masked := b1 &&& 0x80 != 0
  let maskKey ← readMaskKey masked
  if opcode.isControl ∧ ((b0 &&& 0x80 != 0) = false ∨ 125 < len) then throw .invalidControlFrame
  else
    return {
      fin := b0 &&& 0x80 != 0
      rsv1 := b0 &&& 0x40 != 0
      rsv2 := b0 &&& 0x20 != 0
      rsv3 := b0 &&& 0x10 != 0
      opcode := opcode
      masked := masked
      payloadLen := len
      maskKey := maskKey
      headerLen := 2 + extended + if masked then 4 else 0 }

/-- `FrameHeader.parse` -/
def FrameHeader.parse : Cursor FrameHeader := do
  let b0 ← Cursor.readByte
  let b1 ← Cursor.readByte
  let opcode := (b0 &&& 0x0f).toNat
  if (0x3 ≤ opcode ∧ opcode ≤ 0x7) ∨ 0xb ≤ opcode then throw .invalidOpcode
  else FrameHeader.parseRest b0 b1 ⟨Fin.ofNat 16 opcode⟩

inductive ExpectMask where
  | any
  | masked
  | unmasked

structure ParseFrameOptions where
  expectMask : ExpectMask := .any
  allowRsv1 : Bool := false
  allowRsv2 : Bool := false
  allowRsv3 : Bool := false
  validateUtf8 : Bool := true

def validateExpectMask (masked : Bool) : ExpectMask → Except Error Unit
  | .any => .ok ()
  | .masked => if !masked then .error .unmaskedClientFrame else .ok ()
  | .unmasked => if masked then .error .maskedServerFrame else .ok ()

/-- The length is in the shortest form, as far as the length of the header shows it. -/
def validateMinimalLength (header : FrameHeader) : Except Error Unit :=
  if header.payloadLen ≤ 125 ∧ 4 ≤ header.headerLen ∧ header.maskKey = none then
    .error .nonMinimalLength
  else if header.payloadLen ≤ 125 ∧ 8 ≤ header.headerLen ∧ header.maskKey ≠ none then
    .error .nonMinimalLength
  else if 126 ≤ header.payloadLen ∧ header.payloadLen ≤ 65535 ∧
      header.headerLen - (if header.maskKey = none then 2 else 6) = 8 then
    .error .nonMinimalLength
  else .ok ()

def validateFrameHeader (header : FrameHeader) (options : ParseFrameOptions) :
    Except Error Unit := do
  let rsv := header.rsv1 || header.rsv2 || header.rsv3
  if header.opcode.isControl && rsv then .error .unexpectedRsv
  else if header.opcode = .continuation ∧ rsv then .error .unexpectedRsv
  else if (header.rsv1 && !options.allowRsv1) || (header.rsv2 && !options.allowRsv2) ||
      (header.rsv3 && !options.allowRsv3) then
    .error .unexpectedRsv
  else
    validateExpectMask header.masked options.expectMask
    validateMinimalLength header

/-! ### Payloads -/

def validCloseCode (code : Nat) : Bool :=
  code ∈ [1000, 1001, 1002, 1003, 1007, 1008, 1009, 1010, 1011, 1012, 1013, 1014] ||
    decide (3000 ≤ code) && decide (code ≤ 4999)

/-- `validateClosePayload`: what `parseClosePayload` checks. -/
def validateClosePayload (payload : Bytes) : Except Error Unit :=
  if payload.length = 0 then .ok ()
  else if 125 < payload.length then .error .invalidControlFrame
  else if payload.length = 1 then .error .invalidControlFrame
  else if !validCloseCode (ofBigEndian (payload.take 2)) then .error .invalidCloseCode
  else if !utf8ValidateSlice (payload.drop 2) then .error .invalidUtf8
  else .ok ()

def validatePayload (header : FrameHeader) (payload : Bytes) (options : ParseFrameOptions) :
    Except Error Unit :=
  if header.opcode = .text then
    if options.validateUtf8 && header.fin && !header.rsv1 && !utf8ValidateSlice payload then
      .error .invalidUtf8
    else .ok ()
  else if header.opcode = .close then validateClosePayload payload
  else .ok ()

/-! ### Parsers -/

structure Frame where
  header : FrameHeader
  payload : Bytes
  consumed : Nat

section Parsers

variable [VectorBackend]

def parseFrameOptions (bytes : Bytes) (options : ParseFrameOptions) : Except Error Frame := do
  let (header, _) ← FrameHeader.parse bytes
  validateFrameHeader header options
  if maxUsize < header.payloadLen then .error .payloadTooLarge
  else if bytes.length < header.headerLen + header.payloadLen then .error .bufferTooShort
  else
    let payload := decodedPayload ((bytes.drop header.headerLen).take header.payloadLen)
      header.maskKey
    validatePayload header payload options
    return {
      header := header
      payload := payload
      consumed := header.headerLen + header.payloadLen }

/-- `outLen` is the length of the storage. -/
def parseFrameInto (outLen : Nat) (bytes : Bytes) (options : ParseFrameOptions) :
    Except Error Frame := do
  let (header, _) ← FrameHeader.parse bytes
  validateFrameHeader header options
  let consumed := header.headerLen + header.payloadLen
  if maxUsize < header.payloadLen ∨ maxUsize < consumed then .error .payloadTooLarge
  else if bytes.length < consumed then .error .bufferTooShort
  else if outLen < header.payloadLen then .error .bufferTooShort
  else
    let encoded := (bytes.drop header.headerLen).take header.payloadLen
    let payload ← copiedPayload header.payloadLen encoded header.maskKey
    validatePayload header payload options
    return { header := header, payload := payload, consumed := consumed }

end Parsers

/-! ### Writers -/

structure WriteFrameOptions where
  fin : Bool := true
  maskKey : Option MaskKey := none
  rsv1 : Bool := false
  rsv2 : Bool := false
  rsv3 : Bool := false

def validateOutgoingControl (opcode : Opcode) (payload : Bytes) (options : WriteFrameOptions) :
    Except Error Unit :=
  if !opcode.isControl then .ok ()
  else if !options.fin || decide (125 < payload.length) then .error .invalidControlFrame
  else if options.rsv1 || options.rsv2 || options.rsv3 then .error .unexpectedRsv
  else .ok ()

def validateOutgoingFrame (opcode : Opcode) (payload : Bytes) (options : WriteFrameOptions) :
    Except Error Unit :=
  if opcode ∉ Opcode.defined then .error .invalidOpcode
  else do
    validateOutgoingControl opcode payload options
    if opcode = .continuation ∧ (options.rsv1 || options.rsv2 || options.rsv3) then
      .error .unexpectedRsv
    else if opcode = .text ∧ options.fin ∧ !options.rsv1 ∧ !utf8ValidateSlice payload then
      .error .invalidUtf8
    else if opcode = .close then validateClosePayload payload
    else .ok ()

/-- A bit of the first byte. -/
def flag (set : Bool) (bit : UInt8) : UInt8 := if set then bit else 0

/-- The length's byte, without the mask bit, and the extended length. -/
def encodePayloadLen (len : Nat) : UInt8 × Bytes :=
  if len ≤ 125 then (UInt8.ofNat len, [])
  else if len ≤ 65535 then (126, bigEndian 2 len)
  else (127, bigEndian 8 len)

def firstByte (opcode : Opcode) (options : WriteFrameOptions) : UInt8 :=
  flag options.fin 0x80 ||| flag options.rsv1 0x40 ||| flag options.rsv2 0x20 |||
    flag options.rsv3 0x10 ||| UInt8.ofNat opcode.value.val

def maskBytes : Option MaskKey → Bytes
  | some maskKey => maskKey.toList
  | none => []

def writeFrameHeaderInto (opcode : Opcode) (payload : Bytes) (options : WriteFrameOptions) :
    Except Error Bytes := do
  validateOutgoingFrame opcode payload options
  let (len, extended) := encodePayloadLen payload.length
  return firstByte opcode options :: (flag options.maskKey.isSome 0x80 ||| len) ::
    (extended ++ maskBytes options.maskKey)

section Writers

variable [VectorBackend]

/-- Appends to `list`. -/
def writeFrameExtended (list : Bytes) (opcode : Opcode) (payload : Bytes)
    (options : WriteFrameOptions) : Except Error Bytes := do
  let header ← writeFrameHeaderInto opcode payload options
  if maxUsize < header.length + payload.length then .error .payloadTooLarge
  else .ok (list ++ header ++ encodedPayload payload options.maskKey)

/-- `storageLen` is the length of the storage. -/
def writeFrameInto (storageLen : Nat) (opcode : Opcode) (payload : Bytes)
    (options : WriteFrameOptions) : Except Error Bytes := do
  let header ← writeFrameHeaderInto opcode payload options
  let required := header.length + payload.length
  if maxUsize < required then .error .payloadTooLarge
  else if storageLen < required then .error .bufferTooShort
  else .ok (header ++ encodedPayload payload options.maskKey)

end Writers

end Netz.WebSocket
