/-
QPACK tables (`http3/qpack/static_table.zig`, `http3/qpack/dynamic_table.zig`).

Entries of the dynamic table carry absolute indexes, which count all insertions.  The table is a
list with a head: entries are added at the end and leave at the head, and what has left is
dropped when it is half of the list.  Two indexes hold the last insertion under a hash of the
name, or of name and value; what they answer is compared with the entry itself.
-/
import Netz.Http.Wire
import Netz.Lib.Table

namespace Netz.Http.Qpack

open Lib

/-! ### The static table -/

/-- `entries` of the static table; its first entry has index 0. -/
def staticTable : List (Bytes × Bytes) :=
  ([
    (":authority", ""), (":path", "/"), ("age", "0"), ("content-disposition", ""),
    ("content-length", "0"), ("cookie", ""), ("date", ""), ("etag", ""),
    ("if-modified-since", ""), ("if-none-match", ""), ("last-modified", ""), ("link", ""),
    ("location", ""), ("referer", ""), ("set-cookie", ""), (":method", "CONNECT"),
    (":method", "DELETE"), (":method", "GET"), (":method", "HEAD"), (":method", "OPTIONS"),
    (":method", "POST"), (":method", "PUT"), (":scheme", "http"), (":scheme", "https"),
    (":status", "103"), (":status", "200"), (":status", "304"), (":status", "404"),
    (":status", "503"), ("accept", "*/*"), ("accept", "application/dns-message"),
    ("accept-encoding", "gzip, deflate, br"), ("accept-ranges", "bytes"),
    ("access-control-allow-headers", "cache-control"),
    ("access-control-allow-headers", "content-type"), ("access-control-allow-origin", "*"),
    ("cache-control", "max-age=0"), ("cache-control", "max-age=2592000"),
    ("cache-control", "max-age=604800"), ("cache-control", "no-cache"),
    ("cache-control", "no-store"), ("cache-control", "public, max-age=31536000"),
    ("content-encoding", "br"), ("content-encoding", "gzip"),
    ("content-type", "application/dns-message"), ("content-type", "application/javascript"),
    ("content-type", "application/json"), ("content-type", "application/x-www-form-urlencoded"),
    ("content-type", "image/gif"), ("content-type", "image/jpeg"), ("content-type", "image/png"),
    ("content-type", "text/css"), ("content-type", "text/html; charset=utf-8"),
    ("content-type", "text/plain"), ("content-type", "text/plain;charset=utf-8"),
    ("range", "bytes=0-"), ("strict-transport-security", "max-age=31536000"),
    ("strict-transport-security", "max-age=31536000; includesubdomains"),
    ("strict-transport-security", "max-age=31536000; includesubdomains; preload"),
    ("vary", "accept-encoding"), ("vary", "origin"), ("x-content-type-options", "nosniff"),
    ("x-xss-protection", "1; mode=block"), (":status", "100"), (":status", "204"),
    (":status", "206"), (":status", "302"), (":status", "400"), (":status", "403"),
    (":status", "421"), (":status", "425"), (":status", "500"), ("accept-language", ""),
    ("access-control-allow-credentials", "FALSE"), ("access-control-allow-credentials", "TRUE"),
    ("access-control-allow-headers", "*"), ("access-control-allow-methods", "get"),
    ("access-control-allow-methods", "get, post, options"),
    ("access-control-allow-methods", "options"),
    ("access-control-expose-headers", "content-length"),
    ("access-control-request-headers", "content-type"), ("access-control-request-method", "get"),
    ("access-control-request-method", "post"), ("alt-svc", "clear"), ("authorization", ""),
    ("content-security-policy", "script-src 'none'; object-src 'none'; base-uri 'none'"),
    ("early-data", "1"), ("expect-ct", ""), ("forwarded", ""), ("if-range", ""), ("origin", ""),
    ("purpose", "prefetch"), ("server", ""), ("timing-allow-origin", "*"),
    ("upgrade-insecure-requests", "1"), ("user-agent", ""), ("x-forwarded-for", ""),
    ("x-frame-options", "deny"), ("x-frame-options", "sameorigin")] : List (String × String)).map
    fun entry => (ascii entry.1, ascii entry.2)

def staticNameIndex : List (Bytes × List Nat) :=
  ([
    (":authority", [0]), (":path", [1]), ("age", [2]), ("content-disposition", [3]),
    ("content-length", [4]), ("cookie", [5]), ("date", [6]), ("etag", [7]),
    ("if-modified-since", [8]), ("if-none-match", [9]), ("last-modified", [10]), ("link", [11]),
    ("location", [12]), ("referer", [13]), ("set-cookie", [14]),
    (":method", [15, 16, 17, 18, 19, 20, 21]), (":scheme", [22, 23]),
    (":status", [24, 25, 26, 27, 28, 63, 64, 65, 66, 67, 68, 69, 70, 71]), ("accept", [29, 30]),
    ("accept-encoding", [31]), ("accept-ranges", [32]),
    ("access-control-allow-headers", [33, 34, 75]), ("access-control-allow-origin", [35]),
    ("cache-control", [36, 37, 38, 39, 40, 41]), ("content-encoding", [42, 43]),
    ("content-type", [44, 45, 46, 47, 48, 49, 50, 51, 52, 53, 54]), ("range", [55]),
    ("strict-transport-security", [56, 57, 58]), ("vary", [59, 60]),
    ("x-content-type-options", [61]), ("x-xss-protection", [62]), ("accept-language", [72]),
    ("access-control-allow-credentials", [73, 74]),
    ("access-control-allow-methods", [76, 77, 78]), ("access-control-expose-headers", [79]),
    ("access-control-request-headers", [80]), ("access-control-request-method", [81, 82]),
    ("alt-svc", [83]), ("authorization", [84]), ("content-security-policy", [85]),
    ("early-data", [86]), ("expect-ct", [87]), ("forwarded", [88]), ("if-range", [89]),
    ("origin", [90]), ("purpose", [91]), ("server", [92]), ("timing-allow-origin", [93]),
    ("upgrade-insecure-requests", [94]), ("user-agent", [95]), ("x-forwarded-for", [96]),
    ("x-frame-options", [97, 98])] : List (String × List Nat)).map
    fun entry => (ascii entry.1, entry.2)

/-- The names that `fastPseudoHeaderMatch` tries first: the values it knows, and its answer for
other values, where it has one. -/
def fastStaticFields : List (Bytes × List (Bytes × Nat) × Option Nat) :=
  ([
    (":method", [("CONNECT", 15), ("DELETE", 16), ("GET", 17), ("HEAD", 18), ("OPTIONS", 19),
      ("POST", 20), ("PUT", 21)], some 15),
    (":scheme", [("http", 22), ("https", 23)], some 22),
    (":status", [("103", 24), ("200", 25), ("304", 26), ("404", 27), ("503", 28), ("100", 63),
      ("204", 64), ("206", 65), ("302", 66), ("400", 67), ("403", 68), ("421", 69), ("425", 70),
      ("500", 71)], some 24),
    (":authority", [("", 0)], some 0),
    (":path", [("/", 1)], some 1),
    ("content-length", [("0", 4)], some 4),
    ("accept", [("*/*", 29), ("application/dns-message", 30)], none),
    ("accept-encoding", [("gzip, deflate, br", 31)], some 31),
    ("cache-control", [("max-age=0", 36), ("no-cache", 39), ("no-store", 40)], none),
    ("content-type", [("application/json", 46), ("text/html; charset=utf-8", 52), ("text/plain",
      53)], none),
    ("content-encoding", [("br", 42), ("gzip", 43)], none),
    ("vary", [("accept-encoding", 59), ("origin", 60)], none),
    ("x-content-type-options", [("nosniff", 61)], some 61)] :
      List (String × List (String × Nat) × Option Nat)).map
    fun entry => (ascii entry.1, entry.2.1.map fun value => (ascii value.1, value.2), entry.2.2)

def fastStaticNames : List (Bytes × Nat) :=
  ([
    (":authority", 0), (":path", 1), (":method", 15), (":scheme", 22), (":status", 24),
    ("content-length", 4), ("accept", 29), ("accept-encoding", 31), ("cache-control", 36),
    ("content-type", 44), ("content-encoding", 42), ("vary", 59),
    ("x-content-type-options", 61)] : List (String × Nat)).map
    fun entry => (ascii entry.1, entry.2)

structure StaticMatch where
  index : Nat
  fullMatch : Bool

def fastPseudoHeaderMatch (name value : Bytes) : Option StaticMatch :=
  (lookup fastStaticFields name).bind fun known =>
    match lookup known.1 value with
    | some index => some { index := index, fullMatch := true }
    | none => known.2.map fun index => { index := index, fullMatch := false }

/-- `findMatch` of the static table. -/
def findStaticMatch (name value : Bytes) : Option StaticMatch :=
  match fastPseudoHeaderMatch name value with
  | some found => some found
  | none =>
    (lookup staticNameIndex name).bind fun indexes =>
      match indexes.find? fun index => (staticTable[index]?).any fun entry => entry.2 == value with
      | some index => some { index := index, fullMatch := true }
      | none => indexes.head?.map fun index => { index := index, fullMatch := false }

/-- `findName` of the static table. -/
def findStaticName (name : Bytes) : Option Nat :=
  match lookup fastStaticNames name with
  | some index => some index
  | none => (lookup staticNameIndex name).bind fun indexes => indexes.head?

def staticEntry (index : Nat) : Option (Bytes × Bytes) := staticTable[index]?

/-! ### The dynamic table -/

def dynamicEntryOverhead : Nat := 32

structure DynamicEntry where
  absoluteIndex : Nat
  name : Bytes
  value : Bytes
  nameHash : Nat
  valueHash : Nat
deriving DecidableEq

def DynamicEntry.size (entry : DynamicEntry) : Nat :=
  entry.name.length + entry.value.length + dynamicEntryOverhead

/-- `dynamicEntrySize`; `none` where the size is not a `usize`. -/
def dynamicEntrySize (name value : Bytes) : Option Nat :=
  let size := name.length + value.length + dynamicEntryOverhead
  if size ≤ maxU64 then some size else none

structure Match where
  absoluteIndex : Nat
  fullMatch : Bool

structure DynamicTable where
  entries : List DynamicEntry := []
  latestName : Table Nat Nat := []
  latestExact : Table (Nat × Nat) Nat := []
  head : Nat := 0
  currentSize : Nat := 0
  capacity : Nat := 0
  maxCapacity : Nat
  insertCount : Nat := 0
deriving DecidableEq

namespace DynamicTable

def init (maxCapacity : Nat) : DynamicTable := { maxCapacity := maxCapacity }

def entryCount (table : DynamicTable) : Nat := table.entries.length - table.head

def maxEntries (table : DynamicTable) : Nat := table.maxCapacity / dynamicEntryOverhead

def clearEntries (table : DynamicTable) : DynamicTable :=
  { table with entries := [], latestName := [], latestExact := [], head := 0, currentSize := 0 }

/-- An entry that leaves takes its keys along where no later entry has them. -/
def removeLatestIndexes (table : DynamicTable) (entry : DynamicEntry) : DynamicTable :=
  let exactKey := (entry.nameHash, entry.valueHash)
  { table with
    latestName :=
      if table.latestName.get entry.nameHash = some entry.absoluteIndex then
        table.latestName.remove entry.nameHash
      else table.latestName
    latestExact :=
      if table.latestExact.get exactKey = some entry.absoluteIndex then
        table.latestExact.remove exactKey
      else table.latestExact }

def compactIfNeeded (table : DynamicTable) : DynamicTable :=
  if table.head = 0 then table
  else if table.head < table.entries.length / 2 ∧ table.entryCount ≠ 0 then table
  else { table with entries := table.entries.drop table.head, head := 0 }

/-- The loop of `evictToFit`, with as many rounds as there are entries. -/
def evictLoop (incomingSize : Nat) : Nat → DynamicTable → DynamicTable
  | 0, table => table
  | rounds + 1, table =>
    if table.capacity < table.currentSize ∨ table.capacity - table.currentSize < incomingSize then
      match table.entries[table.head]? with
      | none => table
      | some entry =>
        evictLoop incomingSize rounds
          { table.removeLatestIndexes entry with
            currentSize := table.currentSize - entry.size, head := table.head + 1 }
    else table

def evictToFit (table : DynamicTable) (incomingSize : Nat) : DynamicTable :=
  (table.evictLoop incomingSize table.entryCount).compactIfNeeded

def setCapacity (table : DynamicTable) (newCapacity : Nat) : Except Error DynamicTable :=
  if table.maxCapacity < newCapacity then .error .qpackEncoderStreamError
  else .ok ({ table with capacity := newCapacity }.evictToFit 0)

/-- Index 0 is the most recent entry. -/
def relative (table : DynamicTable) (relativeIndex : Nat) : Option DynamicEntry :=
  if table.entryCount ≤ relativeIndex then none
  else table.entries[table.entries.length - 1 - relativeIndex]?

def absolute (table : DynamicTable) (absoluteIndex : Nat) : Option DynamicEntry :=
  if table.entryCount = 0 then none
  else
    match table.entries[table.head]? with
    | none => none
    | some oldest =>
      if absoluteIndex < oldest.absoluteIndex ∨ table.insertCount ≤ absoluteIndex then none
      else
        (table.entries[table.head + (absoluteIndex - oldest.absoluteIndex)]?).filter
          fun entry => entry.absoluteIndex == absoluteIndex

def fieldRelativeToBase (table : DynamicTable) (base relativeIndex : Nat) : Option DynamicEntry :=
  if base ≤ relativeIndex then none else table.absolute (base - relativeIndex - 1)

def fieldPostBase (table : DynamicTable) (base postBaseIndex : Nat) : Option DynamicEntry :=
  if maxU64 < base + postBaseIndex then none else table.absolute (base + postBaseIndex)

/-- One round of `findMatchBeforeLinear`, newest entry first: an exact match ends the search, and
the first name match is kept. -/
def scanMatch (name value : Bytes) (nameHash valueHash limit : Nat) :
    List DynamicEntry → Option Nat → Option Match
  | [], nameMatch => nameMatch.map fun index => { absoluteIndex := index, fullMatch := false }
  | entry :: older, nameMatch =>
    if limit ≤ entry.absoluteIndex ∨ entry.nameHash ≠ nameHash ∨ entry.name ≠ name then
      scanMatch name value nameHash valueHash limit older nameMatch
    else if entry.valueHash = valueHash ∧ entry.value = value then
      some { absoluteIndex := entry.absoluteIndex, fullMatch := true }
    else
      scanMatch name value nameHash valueHash limit older
        (nameMatch.or (some entry.absoluteIndex))

def findMatchBeforeLinear (table : DynamicTable) (name value : Bytes)
    (nameHash valueHash limit : Nat) : Option Match :=
  scanMatch name value nameHash valueHash limit (table.entries.drop table.head).reverse none

def findNameBeforeLinear (table : DynamicTable) (name : Bytes) (nameHash limit : Nat) :
    Option Nat :=
  ((table.entries.drop table.head).reverse.find? fun entry =>
    decide (entry.absoluteIndex < limit) && entry.nameHash == nameHash && entry.name == name).map
    (·.absoluteIndex)

end DynamicTable

/-! ### Insertions and lookups -/

/-- `dynamicStringHash`: any function will do. -/
class StringHash where
  hash : Bytes → Nat

variable [StringHash]

def dynamicStringHash (bytes : Bytes) : Nat := StringHash.hash bytes

namespace DynamicTable

/-- The indexes point to the new entry before any entry leaves. -/
def reserve (table : DynamicTable) (name value : Bytes) : DynamicTable :=
  let compacted := table.compactIfNeeded
  { compacted with
    latestName := compacted.latestName.upsert (dynamicStringHash name) table.insertCount
    latestExact := compacted.latestExact.upsert (dynamicStringHash name, dynamicStringHash value)
      table.insertCount }

/-- The part of `insert` behind its checks. -/
def push (table : DynamicTable) (name value : Bytes) (entrySize : Nat) : DynamicTable :=
  let evicted := (table.reserve name value).evictToFit entrySize
  { evicted with
    entries := evicted.entries ++
      [{ absoluteIndex := table.insertCount, name := name, value := value
         nameHash := dynamicStringHash name, valueHash := dynamicStringHash value }]
    currentSize := evicted.currentSize + entrySize
    insertCount := table.insertCount + 1 }

/-- `insert`; an entry that is too large empties the table. -/
def insert (table : DynamicTable) (name value : Bytes) : Except Error Nat × DynamicTable :=
  match dynamicEntrySize name value with
  | none => (.error .qpackEncoderStreamError, table)
  | some entrySize =>
    if table.capacity < entrySize then (.error .qpackEncoderStreamError, table.clearEntries)
    else if maxU64 ≤ table.insertCount then (.error .qpackEncoderStreamError, table)
    else (.ok table.insertCount, table.push name value entrySize)

def duplicate (table : DynamicTable) (relativeIndex : Nat) : Except Error Nat × DynamicTable :=
  match table.relative relativeIndex with
  | none => (.error .qpackEncoderStreamError, table)
  | some entry => table.insert entry.name entry.value

/-- The newest exact match before `limit`, or else the newest name match. -/
def findMatchBefore (table : DynamicTable) (name value : Bytes) (limit : Nat) : Option Match :=
  if limit = 0 ∨ table.entryCount = 0 then none
  else
    let nameHash := dynamicStringHash name
    let valueHash := dynamicStringHash value
    let isExact := fun entry : DynamicEntry =>
      entry.nameHash == nameHash && entry.valueHash == valueHash && entry.name == name &&
        entry.value == value
    let isName := fun entry : DynamicEntry => entry.nameHash == nameHash && entry.name == name
    match table.latestExact.get (nameHash, valueHash) with
    | some index =>
      if index < limit ∧ (table.absolute index).any isExact then
        some { absoluteIndex := index, fullMatch := true }
      else table.findMatchBeforeLinear name value nameHash valueHash limit
    | none =>
      match table.latestName.get nameHash with
      | some index =>
        if index < limit ∧ (table.absolute index).any isName then
          some { absoluteIndex := index, fullMatch := false }
        else table.findMatchBeforeLinear name value nameHash valueHash limit
      | none => none

def findNameBefore (table : DynamicTable) (name : Bytes) (limit : Nat) : Option Nat :=
  if limit = 0 ∨ table.entryCount = 0 then none
  else
    let nameHash := dynamicStringHash name
    match table.latestName.get nameHash with
    | some index =>
      if index < limit ∧
          (table.absolute index).any (fun entry => entry.nameHash == nameHash && entry.name == name)
      then some index
      else table.findNameBeforeLinear name nameHash limit
    | none => none

def findName (table : DynamicTable) (name : Bytes) : Option Nat :=
  table.findNameBefore name table.insertCount

end DynamicTable

end Netz.Http.Qpack
