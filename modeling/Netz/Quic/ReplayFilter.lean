/-
The replay filter of early data (`quic/zero_rtt/replay_filter.zig`).

The digests of accepted replay keys are kept until they expire, at most `maxEntries` of them.  A
hash map leads from a digest to its place in the list, and `earliestIndex` is the place of an entry
that expires first.

What the allocator grants is an input.  An index out of bounds, a `.?` of null and a failed
assertion are `panic`.
-/
import Netz.Lib.SwapRemove

namespace Netz.Quic.ReplayFilter

open Lib

abbrev Bytes := List UInt8

inductive Error where
  | outOfMemory
  | invalidCapacity
  | invalidReplayKey
  | replayedEarlyData
  | panic
deriving DecidableEq

/-- An entry of the list, and one of a snapshot. -/
structure Entry (κ : Type) where
  key : κ
  expiresAtMs : Nat
deriving DecidableEq

structure Filter (κ : Type) where
  entries : List (Entry κ) := []
  entryIndex : Table κ Nat := []
  earliestIndex : Option Nat := none
  maxEntries : Nat

/-- Whether the map and the list may grow. -/
structure Room where
  index : Bool
  entries : Bool

namespace Filter

variable {κ : Type}

def init (maxEntries : Nat) : Except Error (Filter κ) :=
  if maxEntries = 0 then .error .invalidCapacity
  else .ok { maxEntries := maxEntries }

/-! ### The entry that expires first -/

def expiryAt (filter : Filter κ) (index : Nat) : Except Error Nat :=
  match filter.entries[index]? with
  | none => .error .panic
  | some entry => .ok entry.expiresAtMs

def earliestExpiryIndex (filter : Filter κ) : Except Error Nat :=
  match filter.earliestIndex with
  | none => .error .panic
  | some index => .ok index

def considerEarliest (filter : Filter κ) (index : Nat) : Except Error (Filter κ) :=
  match filter.earliestIndex with
  | none => .ok { filter with earliestIndex := some index }
  | some earliest => do
    let expiry ← filter.expiryAt index
    let earliestExpiry ← filter.expiryAt earliest
    return if expiry < earliestExpiry then { filter with earliestIndex := some index }
      else filter

/-- The loop over the entries from `index` on. -/
def scanEarliest (filter : Filter κ) : List (Entry κ) → Nat → Nat → Except Error Nat
  | [], _, earliest => .ok earliest
  | entry :: rest, index, earliest => do
    let earliestExpiry ← filter.expiryAt earliest
    filter.scanEarliest rest (index + 1)
      (if entry.expiresAtMs < earliestExpiry then index else earliest)

def recomputeEarliest (filter : Filter κ) : Except Error (Filter κ) :=
  if filter.entries.length = 0 then .ok { filter with earliestIndex := none }
  else do
    let earliest ← filter.scanEarliest (filter.entries.drop 1) 1 0
    return { filter with earliestIndex := some earliest }

variable [DecidableEq κ]

/-! ### Entries -/

/-- `indexSlot` is the place of the key in the map. -/
def appendEntryAssumeCapacity (filter : Filter κ) (entry : Entry κ) : Except Error (Filter κ) :=
  let index := filter.entries.length
  considerEarliest { filter with
    entries := filter.entries ++ [entry]
    entryIndex := filter.entryIndex.assign entry.key index } index

/-- The index behind an unordered removal. -/
def repairIndex (filter : Filter κ) (index lastIndex : Nat) : Except Error (Filter κ) :=
  if index = lastIndex then .ok filter
  else
    match filter.entries[index]? with
    | none => .error .panic
    | some moved =>
      if (filter.entryIndex.get moved.key).isSome then
        .ok { filter with entryIndex := filter.entryIndex.assign moved.key index }
      else .error .panic

def removeEntryAt (filter : Filter κ) (index : Nat) : Except Error (Filter κ) :=
  let lastIndex := filter.entries.length - 1
  match filter.entries[index]? with
  | none => .error .panic
  | some removed => do
    let repaired ← repairIndex { filter with
      entries := swapRemove filter.entries index
      entryIndex := filter.entryIndex.remove removed.key } index lastIndex
    if repaired.entries.length = 0 then .ok { repaired with earliestIndex := none }
    else if filter.earliestIndex = some index then repaired.recomputeEarliest
    else if filter.earliestIndex = some lastIndex then
      .ok { repaired with earliestIndex := some index }
    else .ok repaired

/-! ### Expiry -/

def pruneLoop (nowMs : Nat) : Nat → Nat → Nat → Filter κ → Except Error (Nat × Filter κ)
  | 0, _, _, _ => .error .panic
  | rounds + 1, index, removed, filter =>
    match filter.entries[index]? with
    | none => .ok (removed, filter)
    | some entry =>
      if entry.expiresAtMs ≤ nowMs then do
        let next ← filter.removeEntryAt index
        pruneLoop nowMs rounds index (removed + 1) next
      else pruneLoop nowMs rounds (index + 1) removed filter

def pruneExpiredUnlocked (filter : Filter κ) (nowMs : Nat) : Except Error (Nat × Filter κ) :=
  match filter.earliestIndex with
  | none => .ok (0, filter)
  | some earliest => do
    let expiry ← filter.expiryAt earliest
    if nowMs < expiry then .ok (0, filter)
    else pruneLoop nowMs (filter.entries.length + 1) 0 0 filter

/-! ### Calls -/

/-- The first entry to expire makes room for a new one.  The key of that is in the map. -/
def evictFor (filter : Filter κ) (entry : Entry κ) : Except Error (Filter κ) := do
  let earliest ← filter.earliestExpiryIndex
  let evicted ← filter.removeEntryAt earliest
  if (evicted.entryIndex.get entry.key).isSome then evicted.appendEntryAssumeCapacity entry
  else .error .panic

/-- A result, and the state behind it; behind a panic there is none. -/
def settle (filter : Filter κ) : Except Error (Filter κ) → Except Error Unit × Filter κ
  | .error e => (.error e, filter)
  | .ok next => (.ok (), next)

/-- `checkAndMark` behind the pruning.  A new place in the map has no value at first. -/
def mark (filter : Filter κ) (entry : Entry κ) (room : Room) : Except Error Unit × Filter κ :=
  if (filter.entryIndex.get entry.key).isSome then (.error .replayedEarlyData, filter)
  else if !room.index then (.error .outOfMemory, filter)
  else
    let slotted := { filter with entryIndex := filter.entryIndex.put entry.key 0 }
    if slotted.entries.length < slotted.maxEntries then
      if !room.entries then
        (.error .outOfMemory,
          { slotted with entryIndex := slotted.entryIndex.remove entry.key })
      else slotted.settle (slotted.appendEntryAssumeCapacity entry)
    else slotted.settle (slotted.evictFor entry)

def checkAndMark (digest : Bytes → κ) (filter : Filter κ) (replayKey : Bytes)
    (nowMs expiresAtMs : Nat) (room : Room) : Except Error Unit × Filter κ :=
  if replayKey.length = 0 ∨ expiresAtMs ≤ nowMs then (.error .invalidReplayKey, filter)
  else
    match filter.pruneExpiredUnlocked nowMs with
    | .error e => (.error e, filter)
    | .ok (_, pruned) => pruned.mark { key := digest replayKey, expiresAtMs := expiresAtMs } room

def pruneExpired (filter : Filter κ) (nowMs : Nat) : Except Error Nat × Filter κ :=
  match filter.pruneExpiredUnlocked nowMs with
  | .error e => (.error e, filter)
  | .ok (removed, pruned) => (.ok removed, pruned)

def exportSnapshot (filter : Filter κ) (room : Bool) : Except Error (List (Entry κ)) :=
  if room then .ok filter.entries else .error .outOfMemory

/-- A key of the snapshot that is in the filter already takes the later expiry. -/
def restoreKnown (filter : Filter κ) (entry : Entry κ) (existing : Nat) : Except Error (Filter κ) :=
  match filter.entries[existing]? with
  | none => .error .panic
  | some known =>
    if known.expiresAtMs < entry.expiresAtMs then
      let later := { filter with
        entries := filter.entries.set existing { known with expiresAtMs := entry.expiresAtMs } }
      if later.earliestIndex = some existing then later.recomputeEarliest else .ok later
    else .ok filter

/-- One entry of a snapshot. -/
def restoreEntry (filter : Filter κ) (nowMs : Nat) (entry : Entry κ) (room : Room) :
    Except Error (Filter κ) :=
  if entry.expiresAtMs ≤ nowMs then .ok filter
  else
    match filter.entryIndex.get entry.key with
    | some existing => filter.restoreKnown entry existing
    | none =>
      if filter.entries.length < filter.maxEntries then
        if !room.index then .error .outOfMemory
        else if !room.entries then .error .outOfMemory
        else appendEntryAssumeCapacity
          { filter with entryIndex := filter.entryIndex.put entry.key 0 } entry
      else do
        let evict ← filter.earliestExpiryIndex
        let expiry ← filter.expiryAt evict
        if entry.expiresAtMs ≤ expiry then .ok filter
        else
          let evicted ← filter.removeEntryAt evict
          appendEntryAssumeCapacity
            { evicted with entryIndex := evicted.entryIndex.put entry.key 0 } entry

/-- `rooms` answers the allocations of each entry. -/
def restoreSnapshot (nowMs : Nat) (rooms : Nat → Room) :
    List (Entry κ) → Filter κ → Except Error (Filter κ)
  | [], filter => .ok filter
  | entry :: rest, filter => do
    let next ← filter.restoreEntry nowMs entry (rooms rest.length)
    restoreSnapshot nowMs rooms rest next

def initWithSnapshot (maxEntries : Nat) (snapshot : List (Entry κ)) (nowMs : Nat)
    (rooms : Nat → Room) : Except Error (Filter κ) := do
  let filter ← init maxEntries
  restoreSnapshot nowMs rooms snapshot filter

end Filter

end Netz.Quic.ReplayFilter
