/-
Unreliable DATAGRAM frames (`quic/one_rtt.zig`): how large a payload may be, and the bounded queue of
those received.

A size is a `usize`, kept as a natural.  The search for the largest payload runs until it finds one,
so its rounds are counted here, and `none` means that it is still running.  The queue asks the
allocator only where its array grows, and takes the answer as an input.
-/
import Netz.Quic.FrameCodec

namespace Netz.Quic

/-! ### Sizes -/

def datagramFrameWireSize (length : Nat) (lengthPresent : Bool) : Option Nat :=
  let frameType := if lengthPresent then FrameType.datagramLen else FrameType.datagram
  match Varint.length frameType.toInt with
  | .error _ => none
  | .ok typeLen =>
    match checkedAdd typeLen length with
    | none => none
    | some total =>
      if lengthPresent then
        match Varint.length length with
        | .error _ => none
        | .ok lenLen => checkedAdd total lenLen
      else some total

/-- The loop of `maxDatagramPayloadForFrameSize`, with the length of the length so far. -/
def maxDatagramPayloadLoop (frameSize typeLen : Nat) : Nat → Nat → Option (Option Nat)
  | 0, _ => none
  | rounds + 1, lenLen =>
    if frameSize ≤ typeLen + lenLen then some none
    else
      match Varint.length (frameSize - typeLen - lenLen) with
      | .error _ => some none
      | .ok candidateLen =>
        if candidateLen = lenLen then some (some (frameSize - typeLen - lenLen))
        else maxDatagramPayloadLoop frameSize typeLen rounds candidateLen

def maxDatagramPayloadForFrameSize (rounds frameSize : Nat) : Option (Option Nat) :=
  match Varint.length FrameType.datagramLen.toInt with
  | .error _ => some none
  | .ok typeLen =>
    if frameSize ≤ typeLen then some none
    else maxDatagramPayloadLoop frameSize typeLen rounds 1

/-! ### The receive queue -/

structure DatagramRecvQueue (α : Type) where
  slots : List (Option α) := []
  head : Nat := 0
  len : Nat := 0

namespace DatagramRecvQueue

/-- How a call can fail. -/
inductive Failure where
  | outOfMemory
  /-- An assertion, an unwrapped null or an index out of bounds. -/
  | violated

variable {α : Type}

def count (q : DatagramRecvQueue α) : Nat := q.len

/-- The payload that gives way, if one does. -/
def pushDroppingOldest (q : DatagramRecvQueue α) (allocates : Bool) (payload : α)
    (capacity : Nat) : Except Failure (Option α) × DatagramRecvQueue α :=
  if capacity = 0 ∨ capacity < q.len then (.error .violated, q)
  else if q.len < capacity then
    let tail := if q.slots.length = 0 then 0 else (q.head + q.len) % capacity
    if tail < q.slots.length then
      match q.slots[tail]? with
      | some none =>
        (.ok none, { q with slots := q.slots.set tail (some payload), len := q.len + 1 })
      | _ => (.error .violated, q)
    else if tail ≠ q.slots.length then (.error .violated, q)
    else if allocates then
      (.ok none, { q with slots := q.slots ++ [some payload], len := q.len + 1 })
    else (.error .outOfMemory, q)
  else
    match q.slots[q.head]? with
    | some (some dropped) =>
      (.ok (some dropped),
        { q with
          slots := q.slots.set q.head (some payload)
          head := (q.head + 1) % q.slots.length })
    | _ => (.error .violated, q)

def pop (q : DatagramRecvQueue α) : Except Failure (Option α) × DatagramRecvQueue α :=
  if q.len = 0 then (.ok none, q)
  else
    match q.slots[q.head]? with
    | some (some payload) =>
      (.ok (some payload),
        { slots := q.slots.set q.head none
          len := q.len - 1
          head := if q.len - 1 = 0 then 0 else (q.head + 1) % q.slots.length })
    | _ => (.error .violated, q)

/-- What is queued, oldest first. -/
def contents (q : DatagramRecvQueue α) : List α :=
  (List.range q.len).filterMap fun offset => (q.slots[(q.head + offset) % q.slots.length]?).join

inductive Call (α : Type) where
  | push (allocates : Bool) (payload : α)
  | pop

def step (capacity : Nat) (q : DatagramRecvQueue α) :
    Call α → Except Failure (Option α) × DatagramRecvQueue α
  | .push allocates payload => q.pushDroppingOldest allocates payload capacity
  | .pop => q.pop

end DatagramRecvQueue

end Netz.Quic
