/-
The receive windows of an HTTP/2 connection (`http2/runtime.zig`).

`sendWindowUpdates` raises the connection's window and a stream's window, and then writes both
frames at once.  The `errdefer` of each raise stands in the block of that raise.
-/
import Netz.Lib.BigEndian
import Netz.Lib.Table

namespace Netz.Http2

open Lib

abbrev Bytes := List UInt8

def maxI64 : Int := 2 ^ 63 - 1

def maxFlowWindow : Int := 2 ^ 31 - 1

inductive Error where
  | flowControlViolation
  | invalidStreamId
  | outOfMemory
  | writeFailed

structure FlowWindow where
  value : Int := 65535

def FlowWindow.update (window : FlowWindow) (increment : Nat) : Except Error FlowWindow :=
  let next := window.value + increment
  if maxI64 < next then .error .flowControlViolation
  else if maxFlowWindow < next then .error .flowControlViolation
  else .ok { value := next }

/-- What the receive windows need of `Connection`.  `recvStreamWindows` stands for the list of
entries with its index. -/
structure Connection where
  initialWindowSize : Nat := 65535
  activeStreams : List Nat := []
  recvConnectionWindow : FlowWindow := {}
  recvStreamWindows : Table Nat FlowWindow := []
  written : Bytes := []

/-- How the allocations and the write of one call come out. -/
structure Io where
  allocated : Bool := true
  written : Bool := true

/-- `encodeWindowUpdateFrame`; a payload of four bytes always fits its header. -/
def encodeWindowUpdateFrame (streamId increment : Nat) : Bytes :=
  [0, 0, 4, 8, 0] ++ bigEndian 4 streamId ++ bigEndian 4 increment

namespace Connection

def outboundStreamIsActive (c : Connection) (streamId : Nat) : Bool :=
  c.activeStreams.contains streamId

def hasRecvStreamWindow (c : Connection) (streamId : Nat) : Bool :=
  (c.recvStreamWindows.get streamId).isSome

/-- The window of a stream, which is made when there is none. -/
def recvStreamWindow (c : Connection) (io : Io) (streamId : Nat) :
    Except Error (FlowWindow × Table Nat FlowWindow) :=
  if streamId = 0 then .error .invalidStreamId
  else
    match c.recvStreamWindows.get streamId with
    | some window => .ok (window, c.recvStreamWindows)
    | none =>
      let window : FlowWindow := { value := c.initialWindowSize }
      if io.allocated then .ok (window, c.recvStreamWindows.put streamId window)
      else .error .outOfMemory

/-- The block for the connection: its window, and the frame. -/
def raiseConnection (c : Connection) : Option Nat → Except Error (FlowWindow × Bytes)
  | none => .ok (c.recvConnectionWindow, [])
  | some increment =>
    match c.recvConnectionWindow.update increment with
    | .error e => .error e
    | .ok window => .ok (window, encodeWindowUpdateFrame 0 increment)

/-- The block for the stream: the frame, and the windows of the streams. -/
def raiseStream (c : Connection) (io : Io) (streamId : Nat) :
    Option Nat → Except Error Bytes × Table Nat FlowWindow
  | none => (.ok [], c.recvStreamWindows)
  | some increment =>
    match c.recvStreamWindow io streamId with
    | .error e => (.error e, c.recvStreamWindows)
    | .ok (window, windows) =>
      match window.update increment with
      | .error e => (.error e, windows)
      | .ok window =>
        (.ok (encodeWindowUpdateFrame streamId increment), windows.assign streamId window)

/-- The check that there is a stream to raise the window of. -/
def lacksStream (c : Connection) (streamId streamIncrement : Option Nat) : Bool :=
  streamIncrement.isSome &&
    !streamId.any fun id => c.outboundStreamIsActive id || c.hasRecvStreamWindow id

def sendWindowUpdates (c : Connection) (io : Io)
    (streamId connectionIncrement streamIncrement : Option Nat) : Except Error Unit × Connection :=
  if connectionIncrement = none ∧ streamIncrement = none then (.ok (), c)
  else if c.lacksStream streamId streamIncrement then (.error .invalidStreamId, c)
  else
    match c.raiseConnection connectionIncrement with
    | .error e => (.error e, c)
    | .ok (window, first) =>
      -- from here on nothing takes the connection's increment back
      match c.raiseStream io (streamId.getD 0) streamIncrement with
      | (.error e, windows) =>
        (.error e, { c with recvConnectionWindow := window, recvStreamWindows := windows })
      | (.ok second, windows) =>
        let c := { c with recvConnectionWindow := window, recvStreamWindows := windows }
        if io.written then (.ok (), { c with written := c.written ++ (first ++ second) })
        else (.error .writeFailed, c)

end Connection

end Netz.Http2
