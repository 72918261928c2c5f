/-
Prefixed integers (`http2/mod.zig`, `http3/qpack/integer.zig`).

HPACK and QPACK write an integer into the low bits of a byte, and what does not fit there in
groups of seven bits behind it.  The two decoders take integers of different sizes.
-/
import Mathlib.Algebra.Order.Ring.Int
import Netz.Lib.Reader

namespace Netz.Http

open Lib

abbrev Bytes := List UInt8

/-- The bytes of an ASCII string. -/
def ascii (s : String) : Bytes := s.toList.map fun c => UInt8.ofNat c.toNat

/-- The entry of a name in a table of names. -/
def lookup {α : Type} (entries : List (Bytes × α)) (name : Bytes) : Option α :=
  (entries.find? fun entry => entry.1 == name).map (·.2)

lemma mem_of_lookup {α : Type} {entries : List (Bytes × α)} {name : Bytes} {a : α}
    (h : lookup entries name = some a) : (name, a) ∈ entries := by
  unfold lookup at h
  obtain ⟨entry, hfind, hvalue⟩ := Option.map_eq_some_iff.mp h
  have hname : entry.1 = name := by simpa using List.find?_some hfind
  rw [← hname, ← hvalue]
  exact List.mem_of_find?_eq_some hfind

def maxU64 : Nat := 2 ^ 64 - 1

inductive Error where
  | bufferTooShort
  | integerOverflow
  | invalidEncoding
  | hpackDynamicTableUnsupported
  | qpackEncoderStreamError
  | qpackDecoderStreamError
  | qpackDecompressionFailed
  | qpackBlocked
  | closedCriticalStream
  | invalidStreamType
  | outOfMemory
  /-- An assertion or a checked operation of the source that fails. -/
  | panic
deriving DecidableEq

/-- `wire.Cursor`. -/
abbrev Cursor := Reader Error UInt8

namespace Cursor

def readByte : Cursor UInt8 := Reader.next .bufferTooShort

def readSlice (len : Nat) : Cursor Bytes := Reader.take .bufferTooShort len

export Reader (check)

end Cursor

/-! ### Encoding -/

/-- The groups behind the prefix, least significant first; a `u64` has ten at most. -/
def encodeRest : Nat → Nat → Bytes
  | 0, remaining => [UInt8.ofNat remaining]
  | groups + 1, remaining =>
    if 128 ≤ remaining then
      (UInt8.ofNat (remaining % 128) ||| 0x80) :: encodeRest groups (remaining / 128)
    else [UInt8.ofNat remaining]

/-- `highBits` are the bits of the first byte above the prefix. -/
def encodeInteger (prefixBits : Nat) (highBits : UInt8) (value : Nat) : Bytes :=
  let prefixMax := 2 ^ prefixBits - 1
  if value < prefixMax then [highBits ||| UInt8.ofNat value]
  else (highBits ||| UInt8.ofNat prefixMax) :: encodeRest 9 (value - prefixMax)

def encodedLenLoop : Nat → Nat → Nat → Nat
  | 0, len, _ => len
  | groups + 1, len, remaining =>
    if 128 ≤ remaining then encodedLenLoop groups (len + 1) (remaining / 128) else len

def encodedLen (prefixBits value : Nat) : Nat :=
  let prefixMax := 2 ^ prefixBits - 1
  if value < prefixMax then 1 else encodedLenLoop 9 2 (value - prefixMax)

/-! ### Decoding -/

def addU64 (a b : Nat) : Cursor Nat :=
  if a + b ≤ maxU64 then pure (a + b) else throw .integerOverflow

/-- The loop of HPACK's `decodeInteger`. -/
def decodeIntegerLoop : Nat → Nat → Nat → Cursor Nat
  | 0, _, _ => throw .panic
  | groups + 1, value, shift => do
    let byte ← Cursor.readByte
    let next ← addU64 value ((byte &&& 0x7f).toNat * 2 ^ shift)
    if byte &&& 0x80 = 0 then return next
    if 56 ≤ shift then throw .integerOverflow
    decodeIntegerLoop groups next (shift + 7)

/-- HPACK's `decodeInteger`. -/
def decodeInteger (prefixBits : Nat) (first : UInt8) : Cursor Nat :=
  let prefixMax := 2 ^ prefixBits - 1
  let value := (first &&& UInt8.ofNat prefixMax).toNat
  if value < prefixMax then pure value else decodeIntegerLoop 9 value 0

/-- The loop of QPACK's `decode`; `shift` is a `u6`, and a shift drops the bits that do not fit. -/
def decodePrefixedLoop : Nat → Nat → Nat → Cursor Nat
  | 0, _, _ => throw .panic
  | groups + 1, value, shift => do
    let byte ← Cursor.readByte
    let next ← addU64 value ((byte &&& 0x7f).toNat * 2 ^ shift % 2 ^ 64)
    if byte &&& 0x80 = 0 then return next
    if 63 ≤ shift then throw .panic
    decodePrefixedLoop groups next (shift + 7)

/-- QPACK's `decode`. -/
def decodePrefixedInteger (prefixBits : Nat) (first : UInt8) : Cursor Nat :=
  let prefixMax := 2 ^ prefixBits - 1
  let value := (first &&& UInt8.ofNat prefixMax).toNat
  if value < prefixMax then pure value else decodePrefixedLoop 10 value 0

end Netz.Http
