/-
gRPC timeouts and status messages (`grpc/wire.zig`).

Each function has one error, which is `none` here; memory never runs out.
-/
import Netz.Grpc.Stream
import Netz.Http1.Chunked

namespace Netz.Grpc

open Http1 (isDigit digitValue ofDigits hexDigit)

/-! ### Timeouts -/

inductive TimeoutUnit where
  | hour
  | minute
  | second
  | millisecond
  | microsecond
  | nanosecond
deriving DecidableEq

namespace TimeoutUnit

def nanoseconds : TimeoutUnit → Nat
  | .hour => 60 * 60 * 1000000000
  | .minute => 60 * 1000000000
  | .second => 1000000000
  | .millisecond => 1000000
  | .microsecond => 1000
  | .nanosecond => 1

def toInt : TimeoutUnit → UInt8
  | .hour => 0x48
  | .minute => 0x4d
  | .second => 0x53
  | .millisecond => 0x6d
  | .microsecond => 0x75
  | .nanosecond => 0x6e

/-- From coarse to fine. -/
def units : List TimeoutUnit := [.hour, .minute, .second, .millisecond, .microsecond, .nanosecond]

def fromInt? (byte : UInt8) : Option TimeoutUnit := units.find? fun unit => unit.toInt = byte

end TimeoutUnit

structure Timeout where
  value : Nat
  unit : TimeoutUnit

namespace Timeout

def init (value : Nat) (unit : TimeoutUnit) : Option Timeout :=
  if value = 0 ∨ 99999999 < value then none else some { value := value, unit := unit }

def parse (raw : Bytes) : Option Timeout :=
  if raw.length < 2 ∨ 9 < raw.length then none
  else
    match TimeoutUnit.fromInt? (raw.getLastD 0) with
    | none => none
    | some unit =>
      let digits := raw.dropLast
      if 8 < digits.length then none
      else if !digits.all isDigit then none
      else init (ofDigits 10 digits) unit

/-- The result in this unit, where the loops end with it. -/
def within (value : Nat) (unit : TimeoutUnit) : Option (Option Timeout) :=
  if value ≤ 99999999 then some (init value unit) else none

def exact (nanoseconds : Nat) (unit : TimeoutUnit) : Option (Option Timeout) :=
  if nanoseconds % unit.nanoseconds ≠ 0 then none
  else within (nanoseconds / unit.nanoseconds) unit

def rounded (nanoseconds : Nat) (unit : TimeoutUnit) : Option (Option Timeout) :=
  within ((nanoseconds - 1) / unit.nanoseconds + 1) unit

def fromDuration (nanoseconds : Int) : Option Timeout :=
  if nanoseconds ≤ 0 then none
  else
    ((TimeoutUnit.units.findSome? (exact nanoseconds.toNat)).or
      (TimeoutUnit.units.reverse.findSome? (rounded nanoseconds.toNat))).join

def duration (timeout : Timeout) : Nat := timeout.value * timeout.unit.nanoseconds

/-- `std.fmt.bufPrint` with `{d}`, for a buffer of `room` bytes. -/
def decimal : Nat → Nat → Option Bytes
  | 0, _ => none
  | room + 1, value =>
    if value < 10 then some [hexDigit value]
    else (decimal room (value / 10)).map (· ++ [hexDigit (value % 10)])

def formatInto (timeout : Timeout) : Option Bytes :=
  (decimal 8 timeout.value).map (· ++ [timeout.unit.toInt])

end Timeout

/-! ### Status messages -/

def statusMessageByteUnescaped (byte : UInt8) : Bool :=
  (0x20 ≤ byte && byte ≤ 0x24) || (0x26 ≤ byte && byte ≤ 0x7e)

/-- Its digits are upper case. -/
def upperHexDigit (value : UInt8) : UInt8 :=
  if value < 10 then 0x30 + value else 0x41 + (value - 10)

/-- `room` is what is left of the buffer. -/
def encodeStatusMessageInto : Nat → Bytes → Option Bytes
  | _, [] => some []
  | room, byte :: rest =>
    if statusMessageByteUnescaped byte then
      if room = 0 then none else (encodeStatusMessageInto (room - 1) rest).map (byte :: ·)
    else if room < 3 then none
    else (encodeStatusMessageInto (room - 3) rest).map
      ([0x25, upperHexDigit (byte >>> 4), upperHexDigit (byte &&& 0x0f)] ++ ·)

/-- The byte that two digits spell. -/
def percentByte (high low : UInt8) : Option UInt8 :=
  (digitValue high).bind fun h => (digitValue low).map fun l => UInt8.ofNat (16 * h + l)

def decodeStatusMessage : Bytes → Bytes
  | [] => []
  | [a] => [a]
  | [a, b] => [a, b]
  | a :: b :: c :: rest =>
    match if a = 0x25 then percentByte b c else none with
    | some byte => byte :: decodeStatusMessage rest
    | none => a :: decodeStatusMessage (b :: c :: rest)

end Netz.Grpc
