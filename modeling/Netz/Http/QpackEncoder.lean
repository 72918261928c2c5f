/-
The encoder's side of QPACK (`http3/runtime.zig`).

The encoder keeps the sections that the decoder has not acknowledged, with what they refer to: an
index holds the first of each stream, and counts hold how many sections refer to an entry.  An
entry may leave the table once the decoder has received it and no section refers to it.

A call that fails leaves the state as it was.
-/
import Netz.Http.QpackBlock
import Netz.Lib.FirstIndex
import Netz.Quic.Stream

namespace Netz.Http.Qpack

open Lib

structure PendingSection where
  streamId : Nat
  requiredInsertCount : Nat
  references : List Nat
deriving DecidableEq

structure QpackEncodeState where
  table : DynamicTable
  knownReceivedCount : Nat := 0
  pendingSections : List PendingSection := []
  pendingSectionIndex : Table Nat Nat := []
  referenceCounts : Table Nat Nat := []
  encoderInstructions : Bytes := []
  decoderStream : Option Quic.RecvState := none
  decoderStreamTypeReceived : Bool := false
  peerMaxCapacity : Option Nat := none
  maxStreamBuffer : Nat
deriving DecidableEq

def maxReferencedInsertCount (references : List Nat) : Nat :=
  references.foldl (fun required absoluteIndex => max required (absoluteIndex + 1)) 0

namespace QpackEncodeState

def init (peerMaxCapacity maxStreamBuffer : Nat) : QpackEncodeState :=
  { table := DynamicTable.init peerMaxCapacity, peerMaxCapacity := some peerMaxCapacity
    maxStreamBuffer := maxStreamBuffer }

def initAwaitingPeerSettings (maxStreamBuffer : Nat) : QpackEncodeState :=
  { table := DynamicTable.init 0, maxStreamBuffer := maxStreamBuffer }

/-! ### Eviction -/

def entryEvictable (state : QpackEncodeState) (absoluteIndex : Nat) : Bool :=
  if state.knownReceivedCount ≤ absoluteIndex then false
  else (state.referenceCounts.get absoluteIndex).isNone

/-- The loop of `canEvictForInsert`, over the entries from the head on. -/
def canEvictLoop (state : QpackEncodeState) (incomingSize : Nat) :
    Nat → List DynamicEntry → Bool
  | simulatedSize, [] =>
    !(decide (state.table.capacity < simulatedSize) ||
      decide (state.table.capacity - simulatedSize < incomingSize))
  | simulatedSize, entry :: rest =>
    if state.table.capacity < simulatedSize ∨
        state.table.capacity - simulatedSize < incomingSize then
      state.entryEvictable entry.absoluteIndex &&
        state.canEvictLoop incomingSize (simulatedSize - entry.size) rest
    else true

def canEvictForInsert (state : QpackEncodeState) (incomingSize : Nat) : Bool :=
  state.canEvictLoop incomingSize state.table.currentSize
    (state.table.entries.drop state.table.head)

/-- The loop of `ensureEvictableForCapacity`. -/
def ensureEvictableLoop (state : QpackEncodeState) (capacity : Nat) :
    Nat → List DynamicEntry → Except Error Unit
  | simulatedSize, [] => if capacity < simulatedSize then .error .panic else .ok ()
  | simulatedSize, entry :: rest =>
    if capacity < simulatedSize then
      if state.entryEvictable entry.absoluteIndex then
        state.ensureEvictableLoop capacity (simulatedSize - entry.size) rest
      else .error .qpackEncoderStreamError
    else .ok ()

def ensureEvictableForCapacity (state : QpackEncodeState) (capacity : Nat) : Except Error Unit :=
  if state.table.maxCapacity < capacity then .error .qpackEncoderStreamError
  else
    state.ensureEvictableLoop capacity state.table.currentSize
      (state.table.entries.drop state.table.head)

/-! ### The table -/

def setCapacity (state : QpackEncodeState) (capacity : Nat) :
    Except Error QpackEncodeState := do
  state.ensureEvictableForCapacity capacity
  let table ← state.table.setCapacity capacity
  return { state with
    table := table
    encoderInstructions := state.encoderInstructions ++
      writeEncoderInstruction (.setCapacity capacity) }

def configurePeerCapacity (state : QpackEncodeState) (capacity : Nat) :
    Except Error QpackEncodeState :=
  match state.peerMaxCapacity with
  | some configured => if configured ≠ capacity then .error .qpackEncoderStreamError else .ok state
  | none =>
    if state.table.insertCount ≠ 0 ∨ state.table.entryCount ≠ 0 then
      .error .qpackEncoderStreamError
    else
      let resized := { state with table := { state.table with maxCapacity := capacity } }
      if capacity = 0 then .ok { resized with peerMaxCapacity := some capacity }
      else
        (resized.setCapacity capacity).map fun configured =>
          { configured with peerMaxCapacity := some capacity }

section Insertion

variable [StringHash]

/-- The shortest instruction for a field: with a name from the static table, with a name from the
dynamic table, or with its own. -/
def insertInstruction (state : QpackEncodeState) (name value : Bytes) : EncoderInstruction :=
  match findStaticName name with
  | some index => .insertNameReference true index value
  | none =>
    match state.table.findName name with
    | some absoluteIndex =>
      .insertNameReference false (state.table.insertCount - absoluteIndex - 1) value
    | none => .insertLiteral name value

def insertField (state : QpackEncodeState) (name value : Bytes) :
    Except Error (Option Nat) × QpackEncodeState :=
  match dynamicEntrySize name value with
  | none => (.error .qpackEncoderStreamError, state)
  | some entrySize =>
    if state.table.capacity < entrySize then (.ok none, state)
    else if !state.canEvictForInsert entrySize then (.ok none, state)
    else
      match state.table.insert name value with
      | (.error e, table) => (.error e, { state with table := table })
      | (.ok absoluteIndex, table) =>
        (.ok (some absoluteIndex),
          { state with
            table := table
            encoderInstructions := state.encoderInstructions ++
              writeEncoderInstruction (state.insertInstruction name value) })

/-! ### Sections -/

/-- The block of a section; it is kept where it refers to entries. -/
def encodeFieldSection (state : QpackEncodeState) (streamId : Nat) (fields : List HeaderField) :
    Except Error (Bytes × QpackEncodeState) :=
  match encodeDynamicBlockKnownReceived state.table fields state.knownReceivedCount with
  | .error e => .error e
  | .ok (block, references) =>
    if references = [] then .ok (block, state)
    else if 2 ^ 32 ≤ references.length then .error .outOfMemory
    else
      .ok (block,
        { state with
          pendingSections := state.pendingSections ++
            [{ streamId := streamId
               requiredInsertCount := maxReferencedInsertCount references
               references := references }]
          pendingSectionIndex :=
            if (state.pendingSectionIndex.get streamId).isSome then state.pendingSectionIndex
            else state.pendingSectionIndex.put streamId state.pendingSections.length
          referenceCounts := state.referenceCounts.bumpAll references })

end Insertion

def releaseSection (state : QpackEncodeState) (index : Nat) : Except Error QpackEncodeState :=
  match state.pendingSections[index]? with
  | none => .error .panic
  | some pendingSection =>
    let pendingSections := state.pendingSections.eraseIdx index
    let removed :=
      if state.pendingSectionIndex.get pendingSection.streamId = some index then
        state.pendingSectionIndex.remove pendingSection.streamId
      else state.pendingSectionIndex
    match state.referenceCounts.dropAll pendingSection.references with
    | none => .error .panic
    | some referenceCounts =>
      .ok { state with
        pendingSections := pendingSections
        pendingSectionIndex := repairFrom (·.streamId) pendingSections removed index
        referenceCounts := referenceCounts }

/-- All sections of a stream, and how many there were. -/
def releaseSectionsForStream (state : QpackEncodeState) (streamId : Nat) :
    Except Error (Nat × QpackEncodeState) :=
  match state.pendingSectionIndex.get streamId with
  | none => .ok (0, state)
  | some startIndex =>
    let later := state.pendingSections.drop startIndex
    let released := later.filter fun pendingSection => pendingSection.streamId == streamId
    let pendingSections := state.pendingSections.take startIndex ++
      later.filter fun pendingSection => !(pendingSection.streamId == streamId)
    match state.referenceCounts.dropAll (released.flatMap (·.references)) with
    | none => .error .panic
    | some referenceCounts =>
      .ok (released.length,
        { state with
          pendingSections := pendingSections
          pendingSectionIndex := repairFrom (·.streamId) pendingSections
            (state.pendingSectionIndex.remove streamId) startIndex
          referenceCounts := referenceCounts })

def abandonStream (state : QpackEncodeState) (streamId : Nat) : Except Error QpackEncodeState :=
  (state.releaseSectionsForStream streamId).map (·.2)

def rollbackLoop : Nat → QpackEncodeState → Except Error QpackEncodeState
  | 0, state => .ok state
  | rounds + 1, state =>
    match state.releaseSection (state.pendingSections.length - 1) with
    | .error e => .error e
    | .ok next => rollbackLoop rounds next

def rollbackPendingSections (state : QpackEncodeState) (originalLen : Nat) :
    Except Error QpackEncodeState :=
  rollbackLoop (state.pendingSections.length - originalLen) state

/-! ### Decoder instructions -/

def applyDecoderInstruction (state : QpackEncodeState) :
    DecoderInstruction → Except Error QpackEncodeState
  | .insertCountIncrement increment =>
    let next := state.knownReceivedCount + increment
    if maxU64 < next ∨ state.table.insertCount < next then .error .qpackDecoderStreamError
    else .ok { state with knownReceivedCount := next }
  | .sectionAcknowledgment streamId =>
    match state.pendingSectionIndex.get streamId with
    | none => .error .qpackDecoderStreamError
    | some index =>
      match state.pendingSections[index]? with
      | none => .error .panic
      | some pendingSection =>
        (state.releaseSection index).map fun released =>
          { released with
            knownReceivedCount :=
              max released.knownReceivedCount pendingSection.requiredInsertCount }
  | .streamCancellation streamId =>
    match state.releaseSectionsForStream streamId with
    | .error e => .error e
    | .ok (released, next) => if released = 0 then .error .qpackDecoderStreamError else .ok next

/-! ### Calls -/

inductive Call where
  | configurePeerCapacity (capacity : Nat)
  | setCapacity (capacity : Nat)
  | insertField (name value : Bytes)
  | encodeFieldSection (streamId : Nat) (fields : List HeaderField)
  | applyDecoderInstruction (instruction : DecoderInstruction)
  | abandonStream (streamId : Nat)
  | rollbackPendingSections (originalLen : Nat)

inductive Reply where
  | done
  | inserted (absoluteIndex : Option Nat)
  | block (bytes : Bytes)

/-- A call without an answer of its own. -/
def settle (state : QpackEncodeState) (result : Except Error QpackEncodeState) :
    Except Error Reply × QpackEncodeState :=
  match result with
  | .error e => (.error e, state)
  | .ok next => (.ok .done, next)

variable [StringHash]

def call (state : QpackEncodeState) : Call → Except Error Reply × QpackEncodeState
  | .configurePeerCapacity capacity => state.settle (state.configurePeerCapacity capacity)
  | .setCapacity capacity => state.settle (state.setCapacity capacity)
  | .insertField name value =>
    let (result, next) := state.insertField name value
    (result.map .inserted, next)
  | .encodeFieldSection streamId fields =>
    match state.encodeFieldSection streamId fields with
    | .error e => (.error e, state)
    | .ok (block, next) => (.ok (.block block), next)
  | .applyDecoderInstruction instruction => state.settle (state.applyDecoderInstruction instruction)
  | .abandonStream streamId => state.settle (state.abandonStream streamId)
  | .rollbackPendingSections originalLen => state.settle (state.rollbackPendingSections originalLen)

end QpackEncodeState

end Netz.Http.Qpack
