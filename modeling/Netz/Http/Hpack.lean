/-
HPACK header compression (`http2/mod.zig`).

The dynamic table is a list with a head: entries are added at the end and leave at the head, and
what has left is dropped when it is half of the list.  Two indexes hold the last position of each
name and of each field.  The encoder remembers which size updates the decoder has to be told of;
the decoder changes its table as it goes through a block.
-/
import Netz.Http.Huffman
import Netz.Lib.Positions

namespace Netz.Http.Hpack

open Lib

def defaultDynamicTableSize : Nat := 4096

structure HeaderField where
  name : Bytes
  value : Bytes
  neverIndex : Bool := false
deriving DecidableEq

/-! ### The static table -/

/-- `static_table`; its first entry has index 1. -/
def staticTable : List (Bytes × Bytes) :=
  ([
    (":authority", ""), (":method", "GET"), (":method", "POST"), (":path", "/"),
    (":path", "/index.html"), (":scheme", "http"), (":scheme", "https"), (":status", "200"),
    (":status", "204"), (":status", "206"), (":status", "304"), (":status", "400"),
    (":status", "404"), (":status", "500"), ("accept-charset", ""),
    ("accept-encoding", "gzip, deflate"), ("accept-language", ""), ("accept-ranges", ""),
    ("accept", ""), ("access-control-allow-origin", ""), ("age", ""), ("allow", ""),
    ("authorization", ""), ("cache-control", ""), ("content-disposition", ""),
    ("content-encoding", ""), ("content-language", ""), ("content-length", ""),
    ("content-location", ""), ("content-range", ""), ("content-type", ""), ("cookie", ""),
    ("date", ""), ("etag", ""), ("expect", ""), ("expires", ""), ("from", ""), ("host", ""),
    ("if-match", ""), ("if-modified-since", ""), ("if-none-match", ""), ("if-range", ""),
    ("if-unmodified-since", ""), ("last-modified", ""), ("link", ""), ("location", ""),
    ("max-forwards", ""), ("proxy-authenticate", ""), ("proxy-authorization", ""), ("range", ""),
    ("referer", ""), ("refresh", ""), ("retry-after", ""), ("server", ""), ("set-cookie", ""),
    ("strict-transport-security", ""), ("transfer-encoding", ""), ("user-agent", ""), ("vary", ""),
    ("via", ""), ("www-authenticate", "")] : List (String × String)).map
    fun entry => (ascii entry.1, ascii entry.2)

def staticNameIndex : List (Bytes × List Nat) :=
  ([
    (":authority", [1]), (":method", [2, 3]), (":path", [4, 5]), (":scheme", [6, 7]),
    (":status", [8, 9, 10, 11, 12, 13, 14]), ("accept-charset", [15]), ("accept-encoding", [16]),
    ("accept-language", [17]), ("accept-ranges", [18]), ("accept", [19]),
    ("access-control-allow-origin", [20]), ("age", [21]), ("allow", [22]), ("authorization", [23]),
    ("cache-control", [24]), ("content-disposition", [25]), ("content-encoding", [26]),
    ("content-language", [27]), ("content-length", [28]), ("content-location", [29]),
    ("content-range", [30]), ("content-type", [31]), ("cookie", [32]), ("date", [33]),
    ("etag", [34]), ("expect", [35]), ("expires", [36]), ("from", [37]), ("host", [38]),
    ("if-match", [39]), ("if-modified-since", [40]), ("if-none-match", [41]), ("if-range", [42]),
    ("if-unmodified-since", [43]), ("last-modified", [44]), ("link", [45]), ("location", [46]),
    ("max-forwards", [47]), ("proxy-authenticate", [48]), ("proxy-authorization", [49]),
    ("range", [50]), ("referer", [51]), ("refresh", [52]), ("retry-after", [53]), ("server", [54]),
    ("set-cookie", [55]), ("strict-transport-security", [56]), ("transfer-encoding", [57]),
    ("user-agent", [58]), ("vary", [59]), ("via", [60]), ("www-authenticate", [61])] : List (String × List Nat)).map
    fun entry => (ascii entry.1, entry.2)

/-- The names that `fastStaticPseudoIndex` tries first, with the values it knows. -/
def fastStaticFields : List (Bytes × List (Bytes × Nat)) :=
  ([(":method", [("GET", 2), ("POST", 3)]),
    (":path", [("/", 4), ("/index.html", 5)]),
    (":scheme", [("http", 6), ("https", 7)]),
    (":status", [("200", 8), ("204", 9), ("206", 10), ("304", 11), ("400", 12), ("404", 13),
      ("500", 14)]),
    (":authority", [("", 1)]), ("accept-encoding", [("gzip, deflate", 16)]), ("accept", [("", 19)]),
    ("cache-control", [("", 24)]), ("content-length", [("", 28)]), ("content-type", [("", 31)]),
    ("server", [("", 54)]), ("user-agent", [("", 58)]),
    ("vary", [("", 59)])] : List (String × List (String × Nat))).map
    fun entry => (ascii entry.1, entry.2.map fun value => (ascii value.1, value.2))

def fastStaticNames : List (Bytes × Nat) :=
  ([(":authority", 1), (":method", 2), (":path", 4), (":scheme", 6), (":status", 8),
    ("accept", 19), ("accept-encoding", 16), ("cache-control", 24), ("content-length", 28),
    ("content-type", 31), ("server", 54), ("user-agent", 58),
    ("vary", 59)] : List (String × Nat)).map
    fun entry => (ascii entry.1, entry.2)

def fastStaticPseudoIndex (name value : Bytes) : Option Nat :=
  (lookup fastStaticFields name).bind fun values => lookup values value

def staticEntryAt (index : Nat) : Option (Bytes × Bytes) :=
  if index = 0 then none else staticTable[index - 1]?

def findStaticIndex (name value : Bytes) : Option Nat :=
  match fastStaticPseudoIndex name value with
  | some index => some index
  | none =>
    (lookup staticNameIndex name).bind fun indexes =>
      indexes.find? fun index => (staticEntryAt index).any fun entry => entry.2 == value

def findStaticNameIndex (name : Bytes) : Option Nat :=
  match lookup fastStaticNames name with
  | some index => some index
  | none => (lookup staticNameIndex name).bind fun indexes => indexes.head?

/-! ### The dynamic table -/

def entrySize (field : HeaderField) : Nat := field.name.length + field.value.length + 32

/-- The keys of both indexes are strings of their own; those of the source borrow the strings of an
entry, and are redirected or rebuilt when it goes. -/
structure DynamicTable where
  entries : List HeaderField := []
  latestName : Table Bytes Nat := []
  latestExact : Table (Bytes × Bytes) Nat := []
  sizeLimit : Nat := defaultDynamicTableSize
  used : Nat := 0
  head : Nat := 0

namespace DynamicTable

def entryCount (table : DynamicTable) : Nat := table.entries.length - table.head

def clear (table : DynamicTable) : DynamicTable :=
  { table with entries := [], latestName := [], latestExact := [], used := 0, head := 0 }

/-- The indexes of the entries, in order. -/
def rebuildIndexes (table : DynamicTable) : DynamicTable :=
  { table with
    latestName := table.entries.zipIdx.foldl
      (fun index entry => index.upsert entry.1.name entry.2) []
    latestExact := table.entries.zipIdx.foldl
      (fun index entry => index.upsert (entry.1.name, entry.1.value) entry.2) [] }

def compactIfNeeded (table : DynamicTable) : DynamicTable :=
  if table.head = 0 then table
  else if table.head < table.entries.length / 2 ∧ table.entryCount ≠ 0 then table
  else { table with entries := table.entries.drop table.head, head := 0 }.rebuildIndexes

/-- An entry that leaves takes its keys along where no later entry has them. -/
def removeLatestIndexes (table : DynamicTable) (field : HeaderField) (position : Nat) :
    DynamicTable :=
  { table with
    latestName :=
      if table.latestName.get field.name = some position then table.latestName.remove field.name
      else table.latestName
    latestExact :=
      if table.latestExact.get (field.name, field.value) = some position then
        table.latestExact.remove (field.name, field.value)
      else table.latestExact }

/-- The loop of `evictToLimit`, with as many rounds as there are entries. -/
def evictLoop : Nat → DynamicTable → DynamicTable
  | 0, table => table
  | rounds + 1, table =>
    if table.sizeLimit < table.used then
      match table.entries[table.head]? with
      | none => table
      | some removed =>
        let unindexed := table.removeLatestIndexes removed table.head
        evictLoop rounds
          { unindexed with used := table.used - entrySize removed, head := table.head + 1 }
    else table

def evictToLimit (table : DynamicTable) : DynamicTable :=
  (table.evictLoop table.entryCount).compactIfNeeded

def setLimit (table : DynamicTable) (newLimit : Nat) : DynamicTable :=
  { table with sizeLimit := newLimit }.evictToLimit

/-- The part of `add` behind the check of the size. -/
def append (table : DynamicTable) (field : HeaderField) : DynamicTable :=
  { table with
    latestName := table.latestName.upsert field.name table.entries.length
    latestExact := table.latestExact.upsert (field.name, field.value) table.entries.length
    entries := table.entries ++ [field]
    used := table.used + entrySize field }

def add (table : DynamicTable) (name value : Bytes) : DynamicTable :=
  let field : HeaderField := { name := name, value := value }
  if table.sizeLimit < entrySize field then table.clear
  else (table.compactIfNeeded.append field).evictToLimit

def clone (table : DynamicTable) : DynamicTable :=
  (table.entries.drop table.head).foldl (fun copy entry => copy.add entry.name entry.value)
    { sizeLimit := table.sizeLimit }

def get (table : DynamicTable) (dynamicIndex : Nat) : Option HeaderField :=
  if table.entryCount ≤ dynamicIndex then none
  else table.entries[table.entries.length - 1 - dynamicIndex]?

/-- The index on the wire of a position in the table. -/
def wireIndex (table : DynamicTable) (position : Option Nat) : Option Nat :=
  if table.entryCount = 0 then none
  else
    match position with
    | none => none
    | some position =>
      if table.head ≤ position ∧ position < table.entries.length then
        some (staticTable.length + (table.entries.length - 1 - position) + 1)
      else none

def findIndex (table : DynamicTable) (name value : Bytes) : Option Nat :=
  table.wireIndex (table.latestExact.get (name, value))

def findNameIndex (table : DynamicTable) (name : Bytes) : Option Nat :=
  table.wireIndex (table.latestName.get name)

end DynamicTable

/-! ### Encoding -/

def toLower (byte : UInt8) : UInt8 := if 0x41 ≤ byte ∧ byte ≤ 0x5a then byte + 0x20 else byte

def eqlIgnoreCase (a b : Bytes) : Bool := a.map toLower == b.map toLower

def sensitiveHeaderName (name : Bytes) : Bool :=
  ["authorization", "proxy-authorization", "cookie", "set-cookie"].any fun sensitive =>
    eqlIgnoreCase name (ascii sensitive)

/-- The values of these names are not worth an entry. -/
def skipValueIndex (name : Bytes) : Bool :=
  name == ascii ":path" ||
    ["age", "content-length", "etag", "if-modified-since", "if-none-match", "location"].any
      fun skipped => eqlIgnoreCase name (ascii skipped)

/-- An entry may take three quarters of the table. -/
def shouldIndexField (field : HeaderField) (tableLimit : Nat) : Bool :=
  let size := entrySize field
  decide (size ≤ tableLimit) && decide (size ≤ tableLimit / 4 * 3 + tableLimit % 4 * 3 / 4)

inductive SizeUpdate where
  | one (size : Nat)
  | two (min max : Nat)

structure Encoder where
  dynamicTable : DynamicTable := {}
  pendingSizeUpdate : Option SizeUpdate := none
  lastEmittedDynamicTableSize : Nat := defaultDynamicTableSize

/-- One field of a block: its bytes, and the table behind it. -/
def encodeField (table : DynamicTable) (field : HeaderField) : Bytes × DynamicTable :=
  let neverIndex := field.neverIndex || sensitiveHeaderName field.name
  let indexed :=
    if neverIndex then none
    else
      match findStaticIndex field.name field.value with
      | some index => some index
      | none => table.findIndex field.name field.value
  match indexed with
  | some index => (encodeInteger 7 0x80 index, table)
  | none =>
    let canIndex := !neverIndex && !skipValueIndex field.name &&
      shouldIndexField field table.sizeLimit
    let nameIndex :=
      match findStaticNameIndex field.name with
      | some index => some index
      | none => table.findNameIndex field.name
    let first :=
      if canIndex then encodeInteger 6 0x40 (nameIndex.getD 0)
      else encodeInteger 4 (if neverIndex then 0x10 else 0x00) (nameIndex.getD 0)
    let name := if nameIndex.isNone then encodeString field.name else []
    (first ++ (name ++ encodeString field.value),
      if canIndex then table.add field.name field.value else table)

def encodeFields (table : DynamicTable) : List HeaderField → Bytes × DynamicTable
  | [] => ([], table)
  | field :: rest =>
    let (bytes, next) := encodeField table field
    let (more, last) := encodeFields next rest
    (bytes ++ more, last)

/-- The size updates at the beginning of a block, and the last size they tell. -/
def SizeUpdate.encode : SizeUpdate → Bytes
  | .one size => encodeInteger 5 0x20 size
  | .two min max => encodeInteger 5 0x20 min ++ encodeInteger 5 0x20 max

def SizeUpdate.last : SizeUpdate → Nat
  | .one size => size
  | .two _ max => max

namespace Encoder

def queueSizeUpdate (encoder : Encoder) (maxSize : Nat) : Option SizeUpdate :=
  match encoder.pendingSizeUpdate with
  | none => if maxSize ≠ encoder.lastEmittedDynamicTableSize then some (.one maxSize) else none
  | some (.one old) =>
    if old < maxSize then
      if encoder.lastEmittedDynamicTableSize < old then some (.one maxSize)
      else some (.two old maxSize)
    else some (.one maxSize)
  | some (.two min _) => if maxSize < min then some (.one maxSize) else some (.two min maxSize)

def setMaxDynamicTableSize (encoder : Encoder) (maxSize : Nat) : Encoder :=
  { encoder with
    pendingSizeUpdate := encoder.queueSizeUpdate maxSize
    dynamicTable := encoder.dynamicTable.setLimit maxSize }

def encodeBlock (encoder : Encoder) (fields : List HeaderField) : Bytes × Encoder :=
  let (bytes, table) := encodeFields encoder.dynamicTable fields
  match encoder.pendingSizeUpdate with
  | none => (bytes, { encoder with dynamicTable := table })
  | some update =>
    (update.encode ++ bytes,
      { dynamicTable := table
        pendingSizeUpdate := none
        lastEmittedDynamicTableSize := update.last })

end Encoder

/-! ### Decoding -/

structure Decoder where
  dynamicTable : DynamicTable := {}
  maxDynamicTableSize : Nat := defaultDynamicTableSize

def indexedHeader (table : DynamicTable) (index : Nat) : Except Error HeaderField :=
  if index = 0 then .error .invalidEncoding
  else
    match staticTable[index - 1]? with
    | some entry => .ok { name := entry.1, value := entry.2 }
    | none =>
      match table.get (index - staticTable.length - 1) with
      | some entry => .ok { name := entry.name, value := entry.value }
      | none => .error .hpackDynamicTableUnsupported

def indexedName (table : DynamicTable) (index : Nat) : Except Error Bytes :=
  (indexedHeader table index).map (·.name)

/-- What one instruction of a block does: it yields a field, or changes the table, or both. -/
structure Decoded where
  field : Option HeaderField
  table : DynamicTable

def decodeIndexed (table : DynamicTable) (first : UInt8) : Cursor Decoded := do
  let index ← decodeInteger 7 first
  let field ← Cursor.check (indexedHeader table index)
  return { field := some field, table := table }

def decodeSizeUpdate (table : DynamicTable) (maxSize : Nat) (sawHeader : Bool) (first : UInt8) :
    Cursor Decoded := do
  if sawHeader then throw .invalidEncoding
  let newSize ← decodeInteger 5 first
  if maxSize < newSize then throw .invalidEncoding
  return { field := none, table := table.setLimit newSize }

def decodeName (table : DynamicTable) (nameIndex : Nat) : Cursor Bytes :=
  if nameIndex = 0 then decodeString else Cursor.check (indexedName table nameIndex)

def decodeLiteral (table : DynamicTable) (first : UInt8) : Cursor Decoded := do
  let indexedLiteral := first &&& 0x40 != 0
  let nameIndex ← decodeInteger (if indexedLiteral then 6 else 4) first
  let name ← decodeName table nameIndex
  let value ← decodeString
  return { field := some { name := name, value := value, neverIndex := first &&& 0x10 != 0 }
           table := if indexedLiteral then table.add name value else table }

/-- One round of the loop of `decodeBlockWithDynamicTable`. -/
def decodeOne (table : DynamicTable) (maxSize : Nat) (sawHeader : Bool) : Cursor Decoded := do
  let first ← Cursor.readByte
  if first &&& 0x80 ≠ 0 then decodeIndexed table first
  else if first &&& 0xe0 = 0x20 then decodeSizeUpdate table maxSize sawHeader first
  else decodeLiteral table first

/-- The loop; every round takes a byte, so the rounds last for the block. -/
def decodeLoop (maxSize : Nat) : Nat → DynamicTable → Bool → List HeaderField → Bytes →
    Except Error (List HeaderField) × DynamicTable
  | 0, table, _, _, _ => (.error .panic, table)
  | rounds + 1, table, sawHeader, fields, input =>
    if input = [] then (.ok fields, table)
    else
      match decodeOne table maxSize sawHeader input with
      | .error e => (.error e, table)
      | .ok (decoded, rest) =>
        decodeLoop maxSize rounds decoded.table (sawHeader || decoded.field.isSome)
          (fields ++ decoded.field.toList) rest

namespace Decoder

def setMaxDynamicTableSize (decoder : Decoder) (maxSize : Nat) : Decoder :=
  { dynamicTable :=
      if maxSize < decoder.dynamicTable.sizeLimit then decoder.dynamicTable.setLimit maxSize
      else decoder.dynamicTable
    maxDynamicTableSize := maxSize }

def decodeBlock (decoder : Decoder) (block : Bytes) : Except Error (List HeaderField) × Decoder :=
  let (result, table) :=
    decodeLoop decoder.maxDynamicTableSize (block.length + 1) decoder.dynamicTable false [] block
  (result, { decoder with dynamicTable := table })

end Decoder

/-! ### Both ends -/

/-- An encoder, and the decoder its blocks go to. -/
structure Link where
  encoder : Encoder := {}
  decoder : Decoder := {}

inductive Op where
  | setMaxDynamicTableSize (maxSize : Nat)
  | block (fields : List HeaderField)

namespace Link

/-- One step; a block is decoded as it was encoded. -/
def step (link : Link) : Op → Option (Except Error (List HeaderField)) × Link
  | .setMaxDynamicTableSize maxSize =>
    (none,
      { encoder := link.encoder.setMaxDynamicTableSize maxSize
        decoder := link.decoder.setMaxDynamicTableSize maxSize })
  | .block fields =>
    let (bytes, encoder) := link.encoder.encodeBlock fields
    let (result, decoder) := link.decoder.decodeBlock bytes
    (some result, { encoder := encoder, decoder := decoder })

end Link

end Netz.Http.Hpack
