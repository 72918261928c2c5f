/-
CRYPTO bytes (`quic/crypto_stream.zig`), and reassembly when memory runs out.

`writeCryptoFrames` splits a byte string into CRYPTO frames; `Reassembler` puts them together
again.  Like `RecvState` it keeps the bytes and a bitmap of what has arrived in two arrays that
grow one after the other, so both insertions end in `growThenStore`.  Fresh bytes are 0 here; what
uninitialised cells of the bitmap hold is an input.
-/
import Netz.Lib.Machine
import Netz.Quic.FrameParse
import Netz.Quic.Stream

namespace Netz.Quic

open Lib

/-! ### Two arrays that grow -/

/-- What the allocator says to the two `resize` calls of an insertion, and what is in the cells of
`received` that nothing was written to. -/
inductive Growth where
  | granted (undefined : List Bool := [])
  | bufferRefused
  | receivedRefused

def Growth.undefined : Growth → List Bool
  | .granted undefined => undefined
  | .bufferRefused | .receivedRefused => []

inductive InsertError (ε : Type) where
  | invalid (error : ε)
  | outOfMemory
  /-- A slice of `received` ends past its items. -/
  | outOfBounds
deriving DecidableEq

/-- Grow both arrays to `stop` if the first is shorter, and store. -/
def growThenStore {ε σ α : Type} (growth : Growth) (bufferLen receivedLen stop : Nat)
    (s halfGrown : σ) (result : α) (stored : σ) : Except (InsertError ε) α × σ :=
  if bufferLen < stop then
    match growth with
    | .bufferRefused => (.error .outOfMemory, s)
    | .receivedRefused => (.error .outOfMemory, halfGrown)
    | .granted _ => (.ok result, stored)
  else if receivedLen < stop then (.error .outOfBounds, s)
  else (.ok result, stored)

namespace RecvState

/-- `insertRetained` with its allocator. -/
def insertRetainedIn (growth : Growth) (s : RecvState) (frame : StreamFrame) (absoluteEnd : Nat) :
    Except (InsertError Error) Nat × RecvState :=
  let retainedOffset := max frame.offset s.storageOffset
  let data := frame.data.drop (retainedOffset - frame.offset)
  let relativeOffset := retainedOffset - s.storageOffset
  match checkedAdd relativeOffset data.length with
  | none => (.error (.invalid .invalidStreamRange), s)
  | some relativeEnd =>
    if s.maxBuffered < relativeEnd then (.error (.invalid .streamBufferTooLarge), s)
    else if relativeEnd ≤ s.received.length ∧ absoluteEnd ≤ s.contiguousEnd then
      if slice s.buffer relativeOffset relativeEnd ≠ data then
        (.error (.invalid .conflictingStreamData), s)
      else ((s.acceptKnown absoluteEnd frame.fin).1.mapError .invalid,
        (s.acceptKnown absoluteEnd frame.fin).2)
    else
      match s.newlyReceived data relativeOffset relativeEnd with
      | none => (.error (.invalid .conflictingStreamData), s)
      | some newly =>
        if frame.fin = true ∧ absoluteEnd < s.highestReceivedEnd then
          (.error (.invalid .finalSizeMismatch), s)
        else
          growThenStore growth s.buffer.length s.received.length relativeEnd s
            { s with buffer := resize s.buffer relativeEnd 0 } newly
            (s.store data relativeOffset relativeEnd absoluteEnd newly frame.fin)

/-- `insertTracked` with its allocator. -/
def insertTrackedIn (growth : Growth) (s : RecvState) (frame : StreamFrame) :
    Except (InsertError Error) Nat × RecvState :=
  if frame.streamId ≠ s.streamId then (.error (.invalid .wrongStream), s)
  else
    match checkedAdd frame.offset frame.data.length with
    | none => (.error (.invalid .invalidStreamRange), s)
    | some absoluteEnd =>
      if exceedsFinalSize s.finalSize absoluteEnd frame.fin then
        (.error (.invalid .finalSizeMismatch), s)
      else if absoluteEnd ≤ s.storageOffset then
        ((s.acceptKnown absoluteEnd frame.fin).1.mapError .invalid,
          (s.acceptKnown absoluteEnd frame.fin).2)
      else s.insertRetainedIn growth frame absoluteEnd

/-- What may be done with a stream later, and seen of it. -/
inductive Call where
  | insertTracked (growth : Growth) (frame : StreamFrame)
  | consume (len : Nat)

def call (s : RecvState) : Call → (Except (InsertError Error) Nat × Bytes) × RecvState
  | .insertTracked growth frame =>
    let (result, s') := s.insertTrackedIn growth frame
    ((result, s'.available), s')
  | .consume len =>
    let (result, s') := s.consume len
    (((result.map fun _ => len).mapError .invalid, s'.available), s')

end RecvState

/-! ### The reassembler -/

inductive CryptoError where
  | invalidCryptoRange
  | cryptoBufferTooLarge
  | conflictingCryptoData
  | nothingAvailable
  | frame (error : Error)
deriving DecidableEq

structure CryptoFrame where
  offset : Nat
  data : Bytes

def CryptoFrame.toFrame (frame : CryptoFrame) : Frame := .crypto frame.offset frame.data

structure Reassembler where
  buffer : Bytes := []
  received : List Bool := []
  readOffset : Nat := 0
  contiguousEnd : Nat := 0
  maxBuffered : Nat
deriving DecidableEq

namespace Reassembler

/-- The overlap loop: a byte that has arrived differs from the one at its place. -/
def conflicts (r : Reassembler) : Nat → Bytes → Bool
  | _, [] => false
  | absolute, byte :: rest =>
    if r.received.length ≤ absolute then false
    else if r.received.getD absolute false = true ∧ r.buffer.getD absolute 0 ≠ byte then true
    else r.conflicts (absolute + 1) rest

/-- `received` grown to `stop`: cleared from the old length of the buffer on, which is not its own
length when its last growth was refused. -/
def grownReceived (r : Reassembler) (stop : Nat) (undefined : List Bool) : List Bool :=
  if r.buffer.length < stop then
    resize (r.received ++ undefined.takeD (r.buffer.length - r.received.length) false) stop false
  else r.received

def store (r : Reassembler) (offset stop : Nat) (data : Bytes) (undefined : List Bool) :
    Reassembler :=
  let received := overwrite (r.grownReceived stop undefined) offset
    (List.replicate data.length true)
  { r with
    buffer := overwrite (resize r.buffer stop 0) offset data
    received := received
    contiguousEnd := r.contiguousEnd + leadingTrue (received.drop r.contiguousEnd) }

def insert (growth : Growth) (r : Reassembler) (frame : CryptoFrame) :
    Except (InsertError CryptoError) Unit × Reassembler :=
  if frame.data.length = 0 then (.ok (), r)
  else
    match checkedAdd frame.offset frame.data.length with
    | none => (.error (.invalid .invalidCryptoRange), r)
    | some stop =>
      if r.maxBuffered < stop then (.error (.invalid .cryptoBufferTooLarge), r)
      else if stop ≤ r.received.length ∧ stop ≤ r.contiguousEnd then
        if slice r.buffer frame.offset stop ≠ frame.data then
          (.error (.invalid .conflictingCryptoData), r)
        else (.ok (), r)
      else if r.conflicts frame.offset frame.data then
        (.error (.invalid .conflictingCryptoData), r)
      else
        growThenStore growth r.buffer.length r.received.length stop r
          { r with buffer := resize r.buffer stop 0 } ()
            (r.store frame.offset stop frame.data growth.undefined)

def available (r : Reassembler) : Bytes := slice r.buffer r.readOffset r.contiguousEnd

def consume (r : Reassembler) (len : Nat) : Except CryptoError Unit × Reassembler :=
  if len = 0 then (.ok (), r)
  else if r.available.length < len then (.error .nothingAvailable, r)
  else (.ok (), { r with readOffset := r.readOffset + len })

def readAllAvailable (r : Reassembler) : Except CryptoError Bytes × Reassembler :=
  if r.available.length = 0 then (.error .nothingAvailable, r)
  else (.ok r.available, { r with readOffset := r.readOffset + r.available.length })

inductive Op where
  | insert (growth : Growth) (frame : CryptoFrame)
  | consume (len : Nat)
  | readAllAvailable

/-- A call, with the bytes it hands over; `consume` drops bytes that were looked at before. -/
def step (r : Reassembler) : Op → Except (InsertError CryptoError) Bytes × Reassembler
  | .insert growth frame =>
    let (result, r') := r.insert growth frame
    (result.map fun _ => [], r')
  | .consume len =>
    let (result, r') := r.consume len
    ((result.map fun _ => r.available.take len).mapError .invalid, r')
  | .readAllAvailable =>
    let (result, r') := r.readAllAvailable
    (result.mapError .invalid, r')

end Reassembler

/-! ### Splitting -/

/-- What one frame adds to the length. -/
def cryptoFrameWireLen (len frameOffset chunkLen : Nat) : Except Error Nat := do
  let len ← addWireLen len 1
  let len ← addWireLen len (← Varint.length frameOffset)
  let len ← addWireLen len (← Varint.length chunkLen)
  addWireLen len chunkLen

/-- The loop of `cryptoFramesWireLen`; a round takes a byte, so the fuel lasts. -/
def cryptoFramesWireLenLoop (offset bytesLen maxFrameDataLen : Nat) :
    Nat → Nat → Nat → Except CryptoError Nat
  | 0, _, len => .ok len
  | fuel + 1, written, len =>
    if written < bytesLen then
      let chunkLen := min maxFrameDataLen (bytesLen - written)
      match checkedAdd offset written with
      | none => .error .invalidCryptoRange
      | some frameOffset =>
        match checkedAdd frameOffset chunkLen with
        | none => .error .invalidCryptoRange
        | some frameEnd =>
          if varintMax < frameEnd then .error .invalidCryptoRange
          else do
            let len ← (cryptoFrameWireLen len frameOffset chunkLen).mapError .frame
            cryptoFramesWireLenLoop offset bytesLen maxFrameDataLen fuel (written + chunkLen) len
    else .ok len

def cryptoFramesWireLen (offset bytesLen maxFrameDataLen : Nat) : Except CryptoError Nat :=
  if maxFrameDataLen = 0 then .error .invalidCryptoRange
  else cryptoFramesWireLenLoop offset bytesLen maxFrameDataLen bytesLen 0 0

/-- The writing loop; `rest` is `bytes[written..]`. -/
def writeChunks (offset maxFrameDataLen : Nat) : Nat → Nat → Bytes → Except CryptoError Bytes
  | 0, _, _ => .ok []
  | fuel + 1, written, rest =>
    if rest.length = 0 then .ok []
    else
      let chunk := rest.take maxFrameDataLen
      match checkedAdd offset written with
      | none => .error .invalidCryptoRange
      | some frameOffset => do
        let word ←
          (writeDoubleVarintPayloadFrame .crypto frameOffset chunk.length chunk).mapError .frame
        let words ← writeChunks offset maxFrameDataLen fuel (written + chunk.length)
          (rest.drop maxFrameDataLen)
        return word ++ words

/-- The bytes appended to the list, once there is room for them. -/
def writeCryptoFrames (offset : Nat) (bytes : Bytes) (maxFrameDataLen : Nat) :
    Except CryptoError Bytes :=
  if bytes.length = 0 then .ok []
  else if maxFrameDataLen = 0 then .error .invalidCryptoRange
  else do
    let _ ← cryptoFramesWireLen offset bytes.length maxFrameDataLen
    writeChunks offset maxFrameDataLen bytes.length 0 bytes

end Netz.Quic
