/-
Receiving half of a QUIC stream (`quic/stream.zig`).

`RecvState` reassembles a stream from frames that arrive in any order.  Bytes and
the bitmap of received positions are kept from `storageOffset` on; the prefix the
application has read is dropped lazily, so `storageOffset` may lag `readOffset`.

`Preflight` is the shadow of a `RecvState` that one packet is validated against: it
borrows the stored bytes and adds the frames of the packet seen so far, without
copying either.

`usize` is 64 bits wide, so casting a `u64` offset never fails.  Running out of
memory is not modelled here: it is the only error of `insertTracked` that does not
depend on the frame and the state.
-/
import Netz.Lib.Buffer
import Netz.Quic.Frame

namespace Netz.Quic

open Lib

structure RecvState where
  streamId : Nat
  /-- The stream offset of `buffer[0]`. -/
  storageOffset : Nat := 0
  buffer : Bytes := []
  received : List Bool := []
  readOffset : Nat := 0
  /-- The first offset that has not arrived contiguously. -/
  contiguousEnd : Nat := 0
  finalSize : Option Nat := none
  receivedTotal : Nat := 0
  highestReceivedEnd : Nat := 0
  maxBuffered : Nat
deriving DecidableEq

/-- Whether a known final size rules out a frame that ends at `absoluteEnd`. -/
def exceedsFinalSize (finalSize : Option Nat) (absoluteEnd : Nat) (fin : Bool) : Bool :=
  match finalSize with
  | some size => decide (size < absoluteEnd) || (fin && decide (absoluteEnd ≠ size))
  | none => false

namespace RecvState

def init (streamId maxBuffered : Nat) : RecvState :=
  { streamId := streamId, maxBuffered := maxBuffered }

/-- A frame that brings no byte that is not already there; only its FIN can matter. -/
def acceptKnown (s : RecvState) (absoluteEnd : Nat) (fin : Bool) : Except Error Nat × RecvState :=
  if fin = true ∧ absoluteEnd < s.highestReceivedEnd then (.error .finalSizeMismatch, s)
  else (.ok 0, if fin then { s with finalSize := some absoluteEnd } else s)

/--
The overlap loop: `remaining` cells from `relative` on are compared with the data, or
counted when they had not arrived.
-/
def scanOverlap (s : RecvState) (data : Bytes) (relativeOffset : Nat) :
    Nat → Nat → Nat → Option Nat
  | 0, _, newly => some newly
  | remaining + 1, relative, newly =>
    if s.received.getD relative false then
      if s.buffer.getD relative 0 ≠ data.getD (relative - relativeOffset) 0 then none
      else scanOverlap s data relativeOffset remaining (relative + 1) newly
    else scanOverlap s data relativeOffset remaining (relative + 1) (newly + 1)

/-- How many of the frame's positions had not arrived; `none` when a byte conflicts. -/
def newlyReceived (s : RecvState) (data : Bytes) (relativeOffset relativeEnd : Nat) : Option Nat :=
  let oldLen := s.received.length
  if oldLen ≤ relativeOffset then some data.length
  else
    let overlapEnd := min relativeEnd oldLen
    match s.scanOverlap data relativeOffset (overlapEnd - relativeOffset) relativeOffset 0 with
    | none => none
    | some newly => some (if oldLen < relativeEnd then newly + (relativeEnd - oldLen) else newly)

/-- Store the data and move the contiguous end over whatever it connects. -/
def store (s : RecvState) (data : Bytes) (relativeOffset relativeEnd absoluteEnd newly : Nat)
    (fin : Bool) : RecvState :=
  let received := overwrite (resize s.received relativeEnd false) relativeOffset
    (List.replicate data.length true)
  let contiguousRelative := s.contiguousEnd - s.storageOffset
  let joined := relativeOffset ≤ contiguousRelative ∧ contiguousRelative < relativeEnd
  let contiguousRelative := if joined then relativeEnd else contiguousRelative
  let contiguousEnd := if joined then s.storageOffset + relativeEnd else s.contiguousEnd
  { s with
    buffer := overwrite (resize s.buffer relativeEnd 0) relativeOffset data
    received := received
    contiguousEnd := contiguousEnd + leadingTrue (received.drop contiguousRelative)
    highestReceivedEnd := max s.highestReceivedEnd absoluteEnd
    receivedTotal := saturatingAdd s.receivedTotal newly
    finalSize := if fin then some absoluteEnd else s.finalSize }

/-- A frame that reaches past `storageOffset`. -/
def insertRetained (s : RecvState) (frame : StreamFrame) (absoluteEnd : Nat) :
    Except Error Nat × RecvState :=
  let retainedOffset := max frame.offset s.storageOffset
  let data := frame.data.drop (retainedOffset - frame.offset)
  let relativeOffset := retainedOffset - s.storageOffset
  match checkedAdd relativeOffset data.length with
  | none => (.error .invalidStreamRange, s)
  | some relativeEnd =>
    if s.maxBuffered < relativeEnd then (.error .streamBufferTooLarge, s)
    else if relativeEnd ≤ s.received.length ∧ absoluteEnd ≤ s.contiguousEnd then
      if slice s.buffer relativeOffset relativeEnd ≠ data then (.error .conflictingStreamData, s)
      else s.acceptKnown absoluteEnd frame.fin
    else
      match s.newlyReceived data relativeOffset relativeEnd with
      | none => (.error .conflictingStreamData, s)
      | some newly =>
        if frame.fin = true ∧ absoluteEnd < s.highestReceivedEnd then
          (.error .finalSizeMismatch, s)
        else (.ok newly, s.store data relativeOffset relativeEnd absoluteEnd newly frame.fin)

/-- Insert a frame, and say how many of its positions had not arrived before. -/
def insertTracked (s : RecvState) (frame : StreamFrame) : Except Error Nat × RecvState :=
  if frame.streamId ≠ s.streamId then (.error .wrongStream, s)
  else
    match checkedAdd frame.offset frame.data.length with
    | none => (.error .invalidStreamRange, s)
    | some absoluteEnd =>
      if exceedsFinalSize s.finalSize absoluteEnd frame.fin then (.error .finalSizeMismatch, s)
      else if absoluteEnd ≤ s.storageOffset then s.acceptKnown absoluteEnd frame.fin
      else s.insertRetained frame absoluteEnd

def receivedByteCount (s : RecvState) : Nat := s.receivedTotal

/-- The bytes that have arrived contiguously and have not been read. -/
def available (s : RecvState) : Bytes :=
  slice s.buffer (s.readOffset - s.storageOffset) (s.contiguousEnd - s.storageOffset)

def compactConsumedPrefix (s : RecvState) : RecvState :=
  let consumed := s.readOffset - s.storageOffset
  if consumed = 0 then s
  else if consumed < s.buffer.length / 2 ∧ consumed < s.maxBuffered / 2 then s
  else
    { s with
      buffer := s.buffer.drop consumed
      received := s.received.drop consumed
      storageOffset := s.readOffset }

def consume (s : RecvState) (len : Nat) : Except Error Unit × RecvState :=
  if len = 0 then (.ok (), s)
  else if s.available.length < len then (.error .nothingAvailable, s)
  else (.ok (), { s with readOffset := s.readOffset + len }.compactConsumedPrefix)

def complete (s : RecvState) : Bool :=
  match s.finalSize with
  | none => false
  | some size => decide (size ≤ s.contiguousEnd) && decide (size ≤ s.readOffset)

/-! ### The packet's shadow of a stream -/

structure Preflight where
  streamId : Nat
  storageOffset : Nat
  buffer : Bytes
  received : List Bool
  finalSize : Option Nat
  receivedTotal : Nat
  highestReceivedEnd : Nat
  maxBuffered : Nat

namespace Preflight

def init (s : RecvState) : Preflight where
  streamId := s.streamId
  storageOffset := s.storageOffset
  buffer := s.buffer
  received := s.received
  finalSize := s.finalSize
  receivedTotal := s.receivedTotal
  highestReceivedEnd := s.highestReceivedEnd
  maxBuffered := s.maxBuffered

def initEmpty (streamId maxBuffered : Nat) : Preflight where
  streamId := streamId
  storageOffset := 0
  buffer := []
  received := []
  finalSize := none
  receivedTotal := 0
  highestReceivedEnd := 0
  maxBuffered := maxBuffered

def applyFinalSize (p : Preflight) (size : Nat) (final : Bool) : Except Error Preflight :=
  if final = true ∧ size < p.highestReceivedEnd then .error .finalSizeMismatch
  else
    match p.finalSize with
    | some known =>
      if known < size then .error .finalSizeMismatch
      else if final = true ∧ size ≠ known then .error .finalSizeMismatch
      else .ok p
    | none => .ok (if final then { p with finalSize := some size } else p)

/--
The byte the first earlier frame of the packet that covers `absolute` puts there.  The end
of an earlier frame was checked when it was accepted, so it does not overflow here.
-/
def pendingByte (streamId absolute : Nat) : List StreamFrame → Option UInt8
  | [] => none
  | prior :: rest =>
    if prior.streamId ≠ streamId then pendingByte streamId absolute rest
    else if absolute < prior.offset ∨ prior.offset + prior.data.length ≤ absolute then
      pendingByte streamId absolute rest
    else some (prior.data.getD (absolute - prior.offset) 0)

/-- The byte-by-byte check of a frame: `remaining` positions from `absolute` on. -/
def scanFrame (p : Preflight) (pending : List StreamFrame) (frame : StreamFrame) :
    Nat → Nat → Nat → Option Nat
  | 0, _, newly => some newly
  | remaining + 1, absolute, newly =>
    let incoming := frame.data.getD (absolute - frame.offset) 0
    let relative := absolute - p.storageOffset
    if p.received.getD relative false then
      if p.buffer.getD relative 0 ≠ incoming then none
      else scanFrame p pending frame remaining (absolute + 1) newly
    else
      match pendingByte p.streamId absolute pending with
      | some byte =>
        if byte ≠ incoming then none
        else scanFrame p pending frame remaining (absolute + 1) newly
      | none => scanFrame p pending frame remaining (absolute + 1) (newly + 1)

/-- Check one more frame of the packet; `pending` are the frames accepted before it. -/
def insertTracked (p : Preflight) (pending : List StreamFrame) (frame : StreamFrame) :
    Except Error (Nat × Preflight × List StreamFrame) :=
  if frame.streamId ≠ p.streamId then .error .wrongStream
  else
    match checkedAdd frame.offset frame.data.length with
    | none => .error .invalidStreamRange
    | some absoluteEnd =>
      if exceedsFinalSize p.finalSize absoluteEnd frame.fin then .error .finalSizeMismatch
      else if absoluteEnd ≤ p.storageOffset then
        if frame.fin = true ∧ absoluteEnd < p.highestReceivedEnd then .error .finalSizeMismatch
        else .ok (0, if frame.fin then { p with finalSize := some absoluteEnd } else p, pending)
      else
        let retainedOffset := max frame.offset p.storageOffset
        if p.maxBuffered < absoluteEnd - p.storageOffset then .error .streamBufferTooLarge
        else
          match p.scanFrame pending frame (absoluteEnd - retainedOffset) retainedOffset 0 with
          | none => .error .conflictingStreamData
          | some newly =>
            if frame.fin = true ∧ absoluteEnd < p.highestReceivedEnd then .error .finalSizeMismatch
            else
              .ok (newly,
                { p with
                  receivedTotal := saturatingAdd p.receivedTotal newly
                  highestReceivedEnd := max p.highestReceivedEnd absoluteEnd
                  finalSize := if frame.fin then some absoluteEnd else p.finalSize },
                pending ++ [frame])

end Preflight

end RecvState

end Netz.Quic
