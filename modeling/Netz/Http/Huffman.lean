/-
The static Huffman code (`http2/hpack_huffman.zig`), and its codecs (`http2/mod.zig`,
`http3/qpack/huffman.zig`).

The encoder shifts code words into a register of 40 bits and takes whole bytes off its top; the
decoder walks a trie, bit by bit.  Both files have the same two codecs.
-/
import Netz.Http.Wire
import Netz.Lib.PrefixCode

namespace Netz.Http

open Lib Cursor

namespace Huffman

/-- A code word: its length, and its bits as a number. -/
structure Entry where
  bits : Nat
  code : Nat
deriving DecidableEq

def eosSymbol : Nat := 256

/-- `encode_table`, by symbol. -/
def encodeTable : List Entry :=
  [
    ⟨13, 0x1ff8⟩, ⟨23, 0x7fffd8⟩, ⟨28, 0xfffffe2⟩, ⟨28, 0xfffffe3⟩, ⟨28, 0xfffffe4⟩,
    ⟨28, 0xfffffe5⟩, ⟨28, 0xfffffe6⟩, ⟨28, 0xfffffe7⟩, ⟨28, 0xfffffe8⟩, ⟨24, 0xffffea⟩,
    ⟨30, 0x3ffffffc⟩, ⟨28, 0xfffffe9⟩, ⟨28, 0xfffffea⟩, ⟨30, 0x3ffffffd⟩, ⟨28, 0xfffffeb⟩,
    ⟨28, 0xfffffec⟩, ⟨28, 0xfffffed⟩, ⟨28, 0xfffffee⟩, ⟨28, 0xfffffef⟩, ⟨28, 0xffffff0⟩,
    ⟨28, 0xffffff1⟩, ⟨28, 0xffffff2⟩, ⟨30, 0x3ffffffe⟩, ⟨28, 0xffffff3⟩, ⟨28, 0xffffff4⟩,
    ⟨28, 0xffffff5⟩, ⟨28, 0xffffff6⟩, ⟨28, 0xffffff7⟩, ⟨28, 0xffffff8⟩, ⟨28, 0xffffff9⟩,
    ⟨28, 0xffffffa⟩, ⟨28, 0xffffffb⟩, ⟨6, 0x14⟩, ⟨10, 0x3f8⟩, ⟨10, 0x3f9⟩, ⟨12, 0xffa⟩,
    ⟨13, 0x1ff9⟩, ⟨6, 0x15⟩, ⟨8, 0xf8⟩, ⟨11, 0x7fa⟩, ⟨10, 0x3fa⟩, ⟨10, 0x3fb⟩, ⟨8, 0xf9⟩,
    ⟨11, 0x7fb⟩, ⟨8, 0xfa⟩, ⟨6, 0x16⟩, ⟨6, 0x17⟩, ⟨6, 0x18⟩, ⟨5, 0x0⟩, ⟨5, 0x1⟩, ⟨5, 0x2⟩,
    ⟨6, 0x19⟩, ⟨6, 0x1a⟩, ⟨6, 0x1b⟩, ⟨6, 0x1c⟩, ⟨6, 0x1d⟩, ⟨6, 0x1e⟩, ⟨6, 0x1f⟩, ⟨7, 0x5c⟩,
    ⟨8, 0xfb⟩, ⟨15, 0x7ffc⟩, ⟨6, 0x20⟩, ⟨12, 0xffb⟩, ⟨10, 0x3fc⟩, ⟨13, 0x1ffa⟩, ⟨6, 0x21⟩,
    ⟨7, 0x5d⟩, ⟨7, 0x5e⟩, ⟨7, 0x5f⟩, ⟨7, 0x60⟩, ⟨7, 0x61⟩, ⟨7, 0x62⟩, ⟨7, 0x63⟩, ⟨7, 0x64⟩,
    ⟨7, 0x65⟩, ⟨7, 0x66⟩, ⟨7, 0x67⟩, ⟨7, 0x68⟩, ⟨7, 0x69⟩, ⟨7, 0x6a⟩, ⟨7, 0x6b⟩, ⟨7, 0x6c⟩,
    ⟨7, 0x6d⟩, ⟨7, 0x6e⟩, ⟨7, 0x6f⟩, ⟨7, 0x70⟩, ⟨7, 0x71⟩, ⟨7, 0x72⟩, ⟨8, 0xfc⟩, ⟨7, 0x73⟩,
    ⟨8, 0xfd⟩, ⟨13, 0x1ffb⟩, ⟨19, 0x7fff0⟩, ⟨13, 0x1ffc⟩, ⟨14, 0x3ffc⟩, ⟨6, 0x22⟩, ⟨15, 0x7ffd⟩,
    ⟨5, 0x3⟩, ⟨6, 0x23⟩, ⟨5, 0x4⟩, ⟨6, 0x24⟩, ⟨5, 0x5⟩, ⟨6, 0x25⟩, ⟨6, 0x26⟩, ⟨6, 0x27⟩, ⟨5, 0x6⟩,
    ⟨7, 0x74⟩, ⟨7, 0x75⟩, ⟨6, 0x28⟩, ⟨6, 0x29⟩, ⟨6, 0x2a⟩, ⟨5, 0x7⟩, ⟨6, 0x2b⟩, ⟨7, 0x76⟩,
    ⟨6, 0x2c⟩, ⟨5, 0x8⟩, ⟨5, 0x9⟩, ⟨6, 0x2d⟩, ⟨7, 0x77⟩, ⟨7, 0x78⟩, ⟨7, 0x79⟩, ⟨7, 0x7a⟩,
    ⟨7, 0x7b⟩, ⟨15, 0x7ffe⟩, ⟨11, 0x7fc⟩, ⟨14, 0x3ffd⟩, ⟨13, 0x1ffd⟩, ⟨28, 0xffffffc⟩,
    ⟨20, 0xfffe6⟩, ⟨22, 0x3fffd2⟩, ⟨20, 0xfffe7⟩, ⟨20, 0xfffe8⟩, ⟨22, 0x3fffd3⟩, ⟨22, 0x3fffd4⟩,
    ⟨22, 0x3fffd5⟩, ⟨23, 0x7fffd9⟩, ⟨22, 0x3fffd6⟩, ⟨23, 0x7fffda⟩, ⟨23, 0x7fffdb⟩,
    ⟨23, 0x7fffdc⟩, ⟨23, 0x7fffdd⟩, ⟨23, 0x7fffde⟩, ⟨24, 0xffffeb⟩, ⟨23, 0x7fffdf⟩,
    ⟨24, 0xffffec⟩, ⟨24, 0xffffed⟩, ⟨22, 0x3fffd7⟩, ⟨23, 0x7fffe0⟩, ⟨24, 0xffffee⟩,
    ⟨23, 0x7fffe1⟩, ⟨23, 0x7fffe2⟩, ⟨23, 0x7fffe3⟩, ⟨23, 0x7fffe4⟩, ⟨21, 0x1fffdc⟩,
    ⟨22, 0x3fffd8⟩, ⟨23, 0x7fffe5⟩, ⟨22, 0x3fffd9⟩, ⟨23, 0x7fffe6⟩, ⟨23, 0x7fffe7⟩,
    ⟨24, 0xffffef⟩, ⟨22, 0x3fffda⟩, ⟨21, 0x1fffdd⟩, ⟨20, 0xfffe9⟩, ⟨22, 0x3fffdb⟩, ⟨22, 0x3fffdc⟩,
    ⟨23, 0x7fffe8⟩, ⟨23, 0x7fffe9⟩, ⟨21, 0x1fffde⟩, ⟨23, 0x7fffea⟩, ⟨22, 0x3fffdd⟩,
    ⟨22, 0x3fffde⟩, ⟨24, 0xfffff0⟩, ⟨21, 0x1fffdf⟩, ⟨22, 0x3fffdf⟩, ⟨23, 0x7fffeb⟩,
    ⟨23, 0x7fffec⟩, ⟨21, 0x1fffe0⟩, ⟨21, 0x1fffe1⟩, ⟨22, 0x3fffe0⟩, ⟨21, 0x1fffe2⟩,
    ⟨23, 0x7fffed⟩, ⟨22, 0x3fffe1⟩, ⟨23, 0x7fffee⟩, ⟨23, 0x7fffef⟩, ⟨20, 0xfffea⟩, ⟨22, 0x3fffe2⟩,
    ⟨22, 0x3fffe3⟩, ⟨22, 0x3fffe4⟩, ⟨23, 0x7ffff0⟩, ⟨22, 0x3fffe5⟩, ⟨22, 0x3fffe6⟩,
    ⟨23, 0x7ffff1⟩, ⟨26, 0x3ffffe0⟩, ⟨26, 0x3ffffe1⟩, ⟨20, 0xfffeb⟩, ⟨19, 0x7fff1⟩,
    ⟨22, 0x3fffe7⟩, ⟨23, 0x7ffff2⟩, ⟨22, 0x3fffe8⟩, ⟨25, 0x1ffffec⟩, ⟨26, 0x3ffffe2⟩,
    ⟨26, 0x3ffffe3⟩, ⟨26, 0x3ffffe4⟩, ⟨27, 0x7ffffde⟩, ⟨27, 0x7ffffdf⟩, ⟨26, 0x3ffffe5⟩,
    ⟨24, 0xfffff1⟩, ⟨25, 0x1ffffed⟩, ⟨19, 0x7fff2⟩, ⟨21, 0x1fffe3⟩, ⟨26, 0x3ffffe6⟩,
    ⟨27, 0x7ffffe0⟩, ⟨27, 0x7ffffe1⟩, ⟨26, 0x3ffffe7⟩, ⟨27, 0x7ffffe2⟩, ⟨24, 0xfffff2⟩,
    ⟨21, 0x1fffe4⟩, ⟨21, 0x1fffe5⟩, ⟨26, 0x3ffffe8⟩, ⟨26, 0x3ffffe9⟩, ⟨28, 0xffffffd⟩,
    ⟨27, 0x7ffffe3⟩, ⟨27, 0x7ffffe4⟩, ⟨27, 0x7ffffe5⟩, ⟨20, 0xfffec⟩, ⟨24, 0xfffff3⟩,
    ⟨20, 0xfffed⟩, ⟨21, 0x1fffe6⟩, ⟨22, 0x3fffe9⟩, ⟨21, 0x1fffe7⟩, ⟨21, 0x1fffe8⟩, ⟨23, 0x7ffff3⟩,
    ⟨22, 0x3fffea⟩, ⟨22, 0x3fffeb⟩, ⟨25, 0x1ffffee⟩, ⟨25, 0x1ffffef⟩, ⟨24, 0xfffff4⟩,
    ⟨24, 0xfffff5⟩, ⟨26, 0x3ffffea⟩, ⟨23, 0x7ffff4⟩, ⟨26, 0x3ffffeb⟩, ⟨27, 0x7ffffe6⟩,
    ⟨26, 0x3ffffec⟩, ⟨26, 0x3ffffed⟩, ⟨27, 0x7ffffe7⟩, ⟨27, 0x7ffffe8⟩, ⟨27, 0x7ffffe9⟩,
    ⟨27, 0x7ffffea⟩, ⟨27, 0x7ffffeb⟩, ⟨28, 0xffffffe⟩, ⟨27, 0x7ffffec⟩, ⟨27, 0x7ffffed⟩,
    ⟨27, 0x7ffffee⟩, ⟨27, 0x7ffffef⟩, ⟨27, 0x7fffff0⟩, ⟨26, 0x3ffffee⟩, ⟨30, 0x3fffffff⟩]

/-- The code word of a byte. -/
def entryOf (byte : UInt8) : Entry := encodeTable.getD byte.toNat ⟨0, 0⟩

/-! ### Encoding -/

/-- The register: the bits that are still to be written stand above `bitsLeft`, a `u6`, in
`bits`, a `u64`. -/
structure BitWriter where
  bits : Nat := 0
  bitsLeft : Nat := 40
  out : Bytes := []

namespace BitWriter

/-- The byte at the top of the register. -/
def topByte (writer : BitWriter) : UInt8 := UInt8.ofNat (writer.bits / 2 ^ 32)

/-- The loop that writes whole bytes; a code word has four at most. -/
def flush : Nat → BitWriter → BitWriter
  | 0, writer => writer
  | rounds + 1, writer =>
    if writer.bitsLeft ≤ 32 then
      flush rounds
        { bits := writer.bits * 2 ^ 8 % 2 ^ 64
          bitsLeft := writer.bitsLeft + 8
          out := writer.out ++ [writer.topByte] }
    else writer

def put (writer : BitWriter) (entry : Entry) : BitWriter :=
  flush 5
    { writer with
      bits := writer.bits ||| entry.code * 2 ^ (writer.bitsLeft - entry.bits)
      bitsLeft := writer.bitsLeft - entry.bits }

/-- The last byte is filled up with ones. -/
def finish (writer : BitWriter) : Bytes :=
  if writer.bitsLeft = 40 then writer.out
  else writer.out ++ [{ writer with bits := writer.bits ||| (2 ^ writer.bitsLeft - 1) }.topByte]

end BitWriter

def encodeHuffman (value : Bytes) : Bytes :=
  (value.foldl (fun (writer : BitWriter) byte => writer.put (entryOf byte)) {}).finish

def bitLength (value : Bytes) : Nat := (value.map fun byte => (entryOf byte).bits).sum

def huffmanEncodedLen (value : Bytes) : Nat := (bitLength value + 7) / 8

/-- HTTP/2's encoder asserts the length that was predicted behind its last byte. -/
def encodeHuffmanWithLen (value : Bytes) (encodedLen : Nat) : Option Bytes :=
  let out := encodeHuffman value
  if out.length = encodedLen then some out else none

def BitWriter.within (len : Nat) (writer : BitWriter) : Option BitWriter :=
  if writer.out.length ≤ len then some writer else none

/-- HTTP/3's encoder writes into a slice, and asserts at every byte that there is room. -/
def encodeHuffmanInto (len : Nat) (value : Bytes) : Option Bytes := do
  let writer ← value.foldlM (fun (writer : BitWriter) byte => (writer.put (entryOf byte)).within len) {}
  let out := writer.finish
  if out.length = len then some out else none

/-! ### Decoding -/

/-- The code words with their symbols. -/
def codeWords : List (List Bool × Nat) :=
  encodeTable.zipIdx.map fun (entry, symbol) => (bitsOf entry.bits entry.code, symbol)

def decodeTrie : Trie Nat := Trie.build codeWords

def maxCodeBits : Nat := 30

structure Progress where
  node : Trie Nat := decodeTrie
  pendingCode : Nat := 0
  pendingBits : Nat := 0
  out : Bytes := []

/-- One bit of the input. -/
def Progress.step (progress : Progress) (bit : Bool) : Except Error Progress :=
  let pendingCode := (2 * progress.pendingCode + bit.toNat) % 2 ^ 32
  let pendingBits := progress.pendingBits + 1
  if maxCodeBits < pendingBits then .error .invalidEncoding
  else
    let next := progress.node.child bit
    if next.isEmpty then .error .invalidEncoding
    else
      match next.symbol with
      | none =>
        .ok { progress with node := next, pendingCode := pendingCode, pendingBits := pendingBits }
      | some symbol =>
        if symbol = eosSymbol then .error .invalidEncoding
        else .ok { out := progress.out ++ [UInt8.ofNat symbol] }

/-- What may be left behind the last symbol is padding: the beginning of the EOS code word. -/
def Progress.finish (progress : Progress) : Except Error Bytes :=
  if progress.pendingBits = 0 then .ok progress.out
  else if 7 < progress.pendingBits then .error .invalidEncoding
  else if progress.pendingCode ≠ 2 ^ progress.pendingBits - 1 then .error .invalidEncoding
  else .ok progress.out

def decodeHuffman (encoded : Bytes) : Except Error Bytes := do
  let progress ← (bitsOfBytes encoded).foldlM Progress.step {}
  progress.finish

/-- The walk of `huffmanDecodedLen`, which only counts. -/
structure Measure where
  node : Trie Nat := decodeTrie
  pendingCode : Nat := 0
  pendingBits : Nat := 0
  len : Nat := 0

def Measure.step (measure : Measure) (bit : Bool) : Except Error Measure :=
  let pendingCode := (2 * measure.pendingCode + bit.toNat) % 2 ^ 32
  let pendingBits := measure.pendingBits + 1
  if maxCodeBits < pendingBits then .error .invalidEncoding
  else
    let next := measure.node.child bit
    if next.isEmpty then .error .invalidEncoding
    else
      match next.symbol with
      | none =>
        .ok { measure with node := next, pendingCode := pendingCode, pendingBits := pendingBits }
      | some symbol =>
        if symbol = eosSymbol then .error .invalidEncoding else .ok { len := measure.len + 1 }

def Measure.finish (measure : Measure) : Except Error Nat :=
  if measure.pendingBits = 0 then .ok measure.len
  else if 7 < measure.pendingBits then .error .invalidEncoding
  else if measure.pendingCode ≠ 2 ^ measure.pendingBits - 1 then .error .invalidEncoding
  else .ok measure.len

def huffmanDecodedLen (encoded : Bytes) : Except Error Nat := do
  let measure ← (bitsOfBytes encoded).foldlM Measure.step {}
  measure.finish

end Huffman

/-! ### Strings -/

/-- `encodeString`: in the shorter of the two forms. -/
def encodeString (value : Bytes) : Bytes :=
  if value.length = 0 then [0]
  else if value.length ≤ 2 then UInt8.ofNat value.length :: value
  else
    let huffmanLen := Huffman.huffmanEncodedLen value
    if value.length ≤ huffmanLen then encodeInteger 7 0x00 value.length ++ value
    else encodeInteger 7 0x80 huffmanLen ++ Huffman.encodeHuffman value

def decodeMaybeHuffman (raw : Bytes) (huffman : Bool) : Except Error Bytes :=
  if huffman then Huffman.decodeHuffman raw else .ok raw

/-- HPACK's `decodeString`. -/
def decodeString : Cursor Bytes := do
  let first ← readByte
  let len ← decodeInteger 7 first
  let raw ← readSlice len
  check (decodeMaybeHuffman raw (first &&& 0x80 != 0))

/-- QPACK's `decodeString`. -/
def decodePrefixedString : Cursor Bytes := do
  let first ← readByte
  let len ← decodePrefixedInteger 7 first
  let raw ← readSlice len
  check (decodeMaybeHuffman raw (first &&& 0x80 != 0))

end Netz.Http
