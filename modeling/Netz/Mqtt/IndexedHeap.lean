/-
The indexed binary min-heap (`mqtt/will/indexed_heap.zig`).

Entries live in the context; the heap holds their indexes, and tells the context where each of
them is.  A loop is given the fuel that its index allows.
-/
import Mathlib.Data.List.Basic

namespace Netz.Mqtt

/-- The items of a heap, and the context that its callbacks are run on. -/
structure IndexedMinHeap (Context : Type) where
  context : Context
  items : List Nat

namespace IndexedMinHeap

variable {Context : Type} (lessEntry : Context → Nat → Nat → Bool)
  (setPosition : Context → Nat → Option Nat → Context)

def less (heap : IndexedMinHeap Context) (a b : Nat) : Bool :=
  lessEntry heap.context (heap.items.getD a 0) (heap.items.getD b 0)

def swap (heap : IndexedMinHeap Context) (a b : Nat) : IndexedMinHeap Context :=
  let items := (heap.items.set a (heap.items.getD b 0)).set b (heap.items.getD a 0)
  let context := setPosition heap.context (items.getD a 0) (some a)
  { context := setPosition context (items.getD b 0) (some b), items }

def siftUp : Nat → Nat → IndexedMinHeap Context → IndexedMinHeap Context
  | 0, _, heap => heap
  | fuel + 1, index, heap =>
    if index = 0 then heap
    else
      let parent := (index - 1) / 2
      if !heap.less lessEntry index parent then heap
      else siftUp fuel parent (heap.swap setPosition index parent)

/-- The earlier of the children of an index, the right one being there or not. -/
def smallestChild (heap : IndexedMinHeap Context) (index : Nat) : Nat :=
  let left := index * 2 + 1
  let right := left + 1
  if right < heap.items.length && heap.less lessEntry right left then right else left

def siftDown : Nat → Nat → IndexedMinHeap Context → IndexedMinHeap Context
  | 0, _, heap => heap
  | fuel + 1, index, heap =>
    if index * 2 + 1 ≥ heap.items.length then heap
    else
      let smallest := heap.smallestChild lessEntry index
      if !heap.less lessEntry smallest index then heap
      else siftDown fuel smallest (heap.swap setPosition index smallest)

def fix (heap : IndexedMinHeap Context) (heapIndex : Nat) : IndexedMinHeap Context :=
  if heapIndex ≠ 0 ∧ heap.less lessEntry heapIndex ((heapIndex - 1) / 2) then
    siftUp lessEntry setPosition heapIndex heapIndex heap
  else siftDown lessEntry setPosition heap.items.length heapIndex heap

def append (heap : IndexedMinHeap Context) (entryIndex : Nat) : IndexedMinHeap Context :=
  let heapIndex := heap.items.length
  siftUp lessEntry setPosition heapIndex heapIndex
    { context := setPosition heap.context entryIndex (some heapIndex),
      items := heap.items ++ [entryIndex] }

/-- The entry that was at the index, and the heap without it. -/
def remove (heap : IndexedMinHeap Context) (heapIndex : Nat) : Nat × IndexedMinHeap Context :=
  let removedEntry := heap.items.getD heapIndex 0
  let last := heap.items.getLastD 0
  let items := heap.items.dropLast
  let context := setPosition heap.context removedEntry none
  if heapIndex = items.length then (removedEntry, { context, items })
  else
    (removedEntry,
      fix lessEntry setPosition
        { context := setPosition context last (some heapIndex), items := items.set heapIndex last }
        heapIndex)

end IndexedMinHeap

end Netz.Mqtt
