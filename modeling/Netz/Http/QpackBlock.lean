/-
QPACK instructions and field sections (`http3/qpack/mod.zig`).

A field section begins with its Required Insert Count, modulo twice the number of entries that
fit into a table, and with a base that its relative indexes count from.  The encoder looks all
fields up first, and writes each in one of seven forms then.
-/
import Netz.Http.Huffman
import Netz.Http.QpackTable

namespace Netz.Http.Qpack

open Lib Cursor

structure HeaderField where
  name : Bytes
  value : Bytes
  neverIndexed : Bool := false
deriving DecidableEq

/-! ### Encoder instructions -/

inductive EncoderInstruction where
  | insertNameReference (static : Bool) (nameIndex : Nat) (value : Bytes)
  | insertLiteral (name value : Bytes)
  | setCapacity (capacity : Nat)
  | duplicate (index : Nat)

def writeEncoderInstruction : EncoderInstruction → Bytes
  | .insertNameReference static nameIndex value =>
    encodeInteger 6 (if static then 0xc0 else 0x80) nameIndex ++ encodeString value
  | .insertLiteral name value => encodeInteger 5 0x40 name.length ++ (name ++ encodeString value)
  | .setCapacity capacity => encodeInteger 5 0x20 capacity
  | .duplicate index => encodeInteger 5 0x00 index

/-! ### Decoder instructions -/

inductive DecoderInstruction where
  | sectionAcknowledgment (streamId : Nat)
  | streamCancellation (streamId : Nat)
  | insertCountIncrement (increment : Nat)

/-! ### The Required Insert Count -/

def encodeRequiredInsertCount (requiredInsertCount maxEntries : Nat) : Except Error Nat :=
  if requiredInsertCount = 0 then .ok 0
  else if maxEntries = 0 then .error .qpackDecompressionFailed
  else if maxU64 < 2 * maxEntries then .error .qpackDecompressionFailed
  else .ok (requiredInsertCount % (2 * maxEntries) + 1)

def decodeRequiredInsertCount (encodedInsertCount maxEntries totalNumberOfInserts : Nat) :
    Except Error Nat :=
  if encodedInsertCount = 0 then .ok 0
  else if maxEntries = 0 then .error .qpackDecompressionFailed
  else
    let fullRange := 2 * maxEntries
    if maxU64 < fullRange ∨ fullRange < encodedInsertCount then .error .qpackDecompressionFailed
    else
      let maxValue := totalNumberOfInserts + maxEntries
      let requiredInsertCount := maxValue / fullRange * fullRange + (encodedInsertCount - 1)
      if maxU64 < maxValue ∨ maxU64 < requiredInsertCount then .error .qpackDecompressionFailed
      else if maxValue < requiredInsertCount then
        if requiredInsertCount ≤ fullRange then .error .qpackDecompressionFailed
        else if requiredInsertCount - fullRange = 0 then .error .qpackDecompressionFailed
        else .ok (requiredInsertCount - fullRange)
      else if requiredInsertCount = 0 then .error .qpackDecompressionFailed
      else .ok requiredInsertCount

/-! ### Encoding a field section -/

def appendReferenceUnique (references : List Nat) (absoluteIndex : Nat) : List Nat :=
  if absoluteIndex ∈ references then references else references ++ [absoluteIndex]

/-- One field: its bytes, and the entry that they refer to. -/
def encodeFieldLine (base : Nat) (field : HeaderField) (dynamicMatch : Option Match) :
    Bytes × Option Nat :=
  match dynamicMatch.filter fun found => !field.neverIndexed && found.fullMatch with
  | some found =>
    let absoluteIndex := found.absoluteIndex
    (if absoluteIndex < base then encodeInteger 6 0x80 (base - absoluteIndex - 1)
      else encodeInteger 4 0x10 (absoluteIndex - base),
      some absoluteIndex)
  | none =>
    match findStaticMatch field.name field.value with
    | some found =>
      (if found.fullMatch && !field.neverIndexed then encodeInteger 6 0xc0 found.index
        else
          encodeInteger 4 (if field.neverIndexed then 0x70 else 0x50) found.index ++
            encodeString field.value,
        none)
    | none =>
      match dynamicMatch with
      | some found =>
        let absoluteIndex := found.absoluteIndex
        ((if absoluteIndex < base then
            encodeInteger 4 (if field.neverIndexed then 0x60 else 0x40) (base - absoluteIndex - 1)
          else encodeInteger 3 (if field.neverIndexed then 0x08 else 0x00) (absoluteIndex - base)) ++
            encodeString field.value,
          some absoluteIndex)
      | none =>
        (encodeInteger 3 (if field.neverIndexed then 0x30 else 0x20) field.name.length ++
            (field.name ++ encodeString field.value),
          none)

def noteReference (references : List Nat) : Option Nat → List Nat
  | some absoluteIndex => appendReferenceUnique references absoluteIndex
  | none => references

def encodeFieldLines (base : Nat) :
    List (HeaderField × Option Match) → List Nat → Bytes × List Nat
  | [], references => ([], references)
  | (field, dynamicMatch) :: rest, references =>
    let (bytes, reference) := encodeFieldLine base field dynamicMatch
    let (more, all) := encodeFieldLines base rest (noteReference references reference)
    (bytes ++ more, all)

/-- One more than the newest match, used or not. -/
def requiredInsertCountOf (matched : List (HeaderField × Option Match)) : Nat :=
  matched.foldl
    (fun required line => max required ((line.2.map fun found => found.absoluteIndex + 1).getD 0)) 0

section Encoding

variable [StringHash]

/-- The fields with their matches below the limit. -/
def dynamicMatches (table : DynamicTable) (fields : List HeaderField) (referenceLimit : Nat) :
    List (HeaderField × Option Match) :=
  let dynamicReferencesPossible :=
    decide (referenceLimit ≠ 0) && decide (table.entryCount ≠ 0) &&
      (table.entries[table.head]?).any fun oldest => decide (oldest.absoluteIndex < referenceLimit)
  fields.map fun field =>
    (field,
      if dynamicReferencesPossible then
        table.findMatchBefore field.name field.value referenceLimit
      else none)

/-- The bytes of a section, and the entries that they refer to. -/
def encodeDynamicBlockWithReferenceLimit (table : DynamicTable) (fields : List HeaderField)
    (referenceLimit : Nat) : Except Error (Bytes × List Nat) :=
  let matched := dynamicMatches table fields referenceLimit
  let base := table.insertCount
  let requiredInsertCount := requiredInsertCountOf matched
  match encodeRequiredInsertCount requiredInsertCount table.maxEntries with
  | .error e => .error e
  | .ok encodedInsertCount =>
    let (lines, references) := encodeFieldLines base matched []
    .ok (encodeInteger 8 0x00 encodedInsertCount ++
      (encodeInteger 7 0x00 (base - requiredInsertCount) ++ lines), references)

def encodeDynamicBlockKnownReceived (table : DynamicTable) (fields : List HeaderField)
    (knownReceivedCount : Nat) : Except Error (Bytes × List Nat) :=
  if table.insertCount < knownReceivedCount then .error .qpackDecoderStreamError
  else encodeDynamicBlockWithReferenceLimit table fields knownReceivedCount

end Encoding

/-! ### Decoding a field section -/

structure FieldSectionPrefix where
  requiredInsertCount : Nat
  base : Nat
deriving DecidableEq

def decodeBase (requiredInsertCount deltaBase : Nat) (negative : Bool) : Except Error Nat :=
  if negative then
    if requiredInsertCount ≤ deltaBase then .error .qpackDecompressionFailed
    else .ok (requiredInsertCount - deltaBase - 1)
  else if maxU64 < requiredInsertCount + deltaBase then .error .qpackDecompressionFailed
  else .ok (requiredInsertCount + deltaBase)

def decodeFieldSectionPrefix (table : DynamicTable) : Cursor FieldSectionPrefix := do
  let first ← readByte
  let encodedInsertCount ← decodePrefixedInteger 8 first
  let requiredInsertCount ← check
    (decodeRequiredInsertCount encodedInsertCount table.maxEntries table.insertCount)
  let deltaFirst ← readByte
  let deltaBase ← decodePrefixedInteger 7 deltaFirst
  let base ← check (decodeBase requiredInsertCount deltaBase (deltaFirst &&& 0x80 != 0))
  return { requiredInsertCount := requiredInsertCount, base := base }

def orDecompressionFailed {α : Type} (found : Option α) : Cursor α :=
  match found with
  | some a => pure a
  | none => throw .qpackDecompressionFailed

def decodeIndexedLine (table : DynamicTable) (base : Nat) (first : UInt8) :
    Cursor HeaderField := do
  let index ← decodePrefixedInteger 6 first
  if first &&& 0x40 ≠ 0 then
    let entry ← orDecompressionFailed (staticEntry index)
    return { name := entry.1, value := entry.2 }
  else
    let entry ← orDecompressionFailed (table.fieldRelativeToBase base index)
    return { name := entry.name, value := entry.value }

def decodePostBaseIndexedLine (table : DynamicTable) (base : Nat) (first : UInt8) :
    Cursor HeaderField := do
  let index ← decodePrefixedInteger 4 first
  let entry ← orDecompressionFailed (table.fieldPostBase base index)
  return { name := entry.name, value := entry.value }

def decodeNameReferenceLine (table : DynamicTable) (base : Nat) (first : UInt8) :
    Cursor HeaderField := do
  let index ← decodePrefixedInteger 4 first
  let value ← decodePrefixedString
  if first &&& 0x10 ≠ 0 then
    let entry ← orDecompressionFailed (staticEntry index)
    return { name := entry.1, value := value, neverIndexed := first &&& 0x20 != 0 }
  else
    let entry ← orDecompressionFailed (table.fieldRelativeToBase base index)
    return { name := entry.name, value := value, neverIndexed := first &&& 0x20 != 0 }

def decodePostBaseNameReferenceLine (table : DynamicTable) (base : Nat) (first : UInt8) :
    Cursor HeaderField := do
  let index ← decodePrefixedInteger 3 first
  let entry ← orDecompressionFailed (table.fieldPostBase base index)
  let value ← decodePrefixedString
  return { name := entry.name, value := value, neverIndexed := first &&& 0x08 != 0 }

def decodeLiteralLine (first : UInt8) : Cursor HeaderField := do
  let nameLen ← decodePrefixedInteger 3 first
  let raw ← readSlice nameLen
  let name ← check (decodeMaybeHuffman raw (first &&& 0x08 != 0))
  let value ← decodePrefixedString
  return { name := name, value := value, neverIndexed := first &&& 0x10 != 0 }

/-- One round of the loop of `decodeDynamicBlock`. -/
def decodeFieldLine (table : DynamicTable) (base : Nat) : Cursor HeaderField := do
  let first ← readByte
  if first &&& 0x80 ≠ 0 then decodeIndexedLine table base first
  else if first &&& 0xf0 = 0x10 then decodePostBaseIndexedLine table base first
  else if first &&& 0xc0 = 0x40 then decodeNameReferenceLine table base first
  else if first &&& 0xf0 = 0x00 then decodePostBaseNameReferenceLine table base first
  else if first &&& 0xe0 = 0x20 then decodeLiteralLine first
  else throw .qpackDecompressionFailed

/-- The loop; every round takes a byte, so the rounds last for the section. -/
def decodeFieldLines (table : DynamicTable) (base : Nat) :
    Nat → Bytes → Except Error (List HeaderField)
  | 0, _ => .error .panic
  | rounds + 1, input =>
    if input = [] then .ok []
    else
      match decodeFieldLine table base input with
      | .error e => .error e
      | .ok (field, rest) => (decodeFieldLines table base rounds rest).map (field :: ·)

structure DynamicBlockDecode where
  fields : List HeaderField
  requiredInsertCount : Nat
  base : Nat
deriving DecidableEq

def decodeDynamicBlock (table : DynamicTable) (block : Bytes) : Except Error DynamicBlockDecode :=
  match decodeFieldSectionPrefix table block with
  | .error e => .error e
  | .ok (sectionPrefix, rest) =>
    if table.insertCount < sectionPrefix.requiredInsertCount then .error .qpackBlocked
    else
      (decodeFieldLines table sectionPrefix.base (rest.length + 1) rest).map fun fields =>
        { fields := fields, requiredInsertCount := sectionPrefix.requiredInsertCount
          base := sectionPrefix.base }

/-! ### Instructions for a table -/

section Instructions

variable [StringHash]

/-- An insertion takes all its memory before it changes more than the layout of the entries. -/
def insertUnless (refused : Bool) (table : DynamicTable) (name value : Bytes) :
    Except Error Unit × DynamicTable :=
  match table.insert name value with
  | (.error e, table) => (.error e, table)
  | (.ok _, inserted) =>
    if refused then (.error .outOfMemory, table.compactIfNeeded) else (.ok (), inserted)

def applyDecodedEncoderInstruction (refused : Bool) (table : DynamicTable) :
    EncoderInstruction → Except Error Unit × DynamicTable
  | .setCapacity capacity =>
    match table.setCapacity capacity with
    | .error e => (.error e, table)
    | .ok table => (.ok (), table)
  | .duplicate index =>
    match table.relative index with
    | none => (.error .qpackEncoderStreamError, table)
    | some entry => insertUnless refused table entry.name entry.value
  | .insertLiteral name value => insertUnless refused table name value
  | .insertNameReference static nameIndex value =>
    match if static then (staticEntry nameIndex).map (·.1)
      else (table.relative nameIndex).map (·.name) with
    | none => (.error .qpackEncoderStreamError, table)
    | some name => insertUnless refused table name value

end Instructions

end Netz.Http.Qpack
