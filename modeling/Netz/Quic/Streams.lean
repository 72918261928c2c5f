/-
Flow-control windows (`quic/flow_control.zig`).

`SendFlow` counts what was sent against the limit the peer advertised; `RecvFlow`
checks what arrives against the limit advertised to the peer and moves that limit
as the application consumes.  Limits only ever grow.
-/
import Netz.Quic.Stream

namespace Netz.Quic

structure SendFlow where
  limit : Nat
  used : Nat := 0
  blockedAt : Option Nat := none
deriving DecidableEq

namespace SendFlow

def init (limit : Nat) : SendFlow := { limit := min limit varintMax }

def available (f : SendFlow) : Nat := f.limit - f.used

def reserve (f : SendFlow) (amount : Nat) : Except Error SendFlow :=
  if amount = 0 then .ok f
  else if f.available < amount then .error .flowControlBlocked
  else .ok { f with used := f.used + amount }

/-- `used -|= amount` -/
def giveBack (f : SendFlow) (amount : Nat) : SendFlow := { f with used := f.used - amount }

/-- One BLOCKED frame for each limit. -/
def shouldSendBlocked (f : SendFlow) : Bool :=
  match f.blockedAt with
  | some blockedAt => blockedAt != f.limit
  | none => true

def markBlockedSent (f : SendFlow) : SendFlow := { f with blockedAt := some f.limit }

/-- A larger limit re-arms the BLOCKED signal. -/
def updateLimit (f : SendFlow) (newLimit : Nat) : SendFlow :=
  let capped := min newLimit varintMax
  if capped ≤ f.limit then f else { f with limit := capped, blockedAt := none }

end SendFlow

structure RecvFlow where
  limit : Nat
  window : Nat
  maxWindow : Nat
  highestReceived : Nat := 0
  consumed : Nat := 0
  autotuneEpochConsumed : Nat := 0
deriving DecidableEq

namespace RecvFlow

def initWithMaxWindow (initialLimit window maxWindow : Nat) : Except Error RecvFlow :=
  if window = 0 ∨ maxWindow = 0 then .error .invalidWindow
  else if varintMax < initialLimit ∨ varintMax < window ∨ varintMax < maxWindow then
    .error .invalidWindow
  else .ok { limit := initialLimit, window := window, maxWindow := max window maxWindow }

def receive (f : RecvFlow) (endOffset : Nat) : Except Error RecvFlow :=
  if f.limit < endOffset then .error .flowControlViolation
  else if endOffset ≤ f.highestReceived then .ok f
  else .ok { f with highestReceived := endOffset }

/-- The window doubles when a quarter of it was drained since the last time it grew. -/
def maybeGrowWindow (f : RecvFlow) : RecvFlow :=
  if f.maxWindow ≤ f.window then f
  else if f.consumed - f.autotuneEpochConsumed ≤ f.window / 4 then f
  else
    { f with
      window := min (min (f.window * 2) maxU64) f.maxWindow
      autotuneEpochConsumed := f.consumed }

/-- Half of the window is used up: move the limit, and answer it when there is a new one. -/
def advanceLimit (f : RecvFlow) : Option Nat × RecvFlow :=
  if f.limit - f.consumed ≤ f.window / 2 then
    let f := f.maybeGrowWindow
    let nextLimit := min (saturatingAdd f.consumed f.window) varintMax
    if nextLimit ≤ f.limit then (none, f) else (some nextLimit, { f with limit := nextLimit })
  else (none, f)

/-- Return consumed bytes to the window; the new limit, when there is one to advertise. -/
def consume (f : RecvFlow) (amount : Nat) : Option Nat × RecvFlow :=
  if amount = 0 then (none, f)
  else if f.highestReceived ≤ f.consumed then (none, f)
  else
    { f with consumed := min f.highestReceived (saturatingAdd f.consumed amount) }.advanceLimit

/-- A call on a receive window. -/
inductive Op where
  | receive (endOffset : Nat)
  | consume (amount : Nat)

/-- One call; receiving answers no limit. -/
def step (f : RecvFlow) : Op → Except Error (Option Nat) × RecvFlow
  | .receive endOffset =>
    match f.receive endOffset with
    | .error e => (.error e, f)
    | .ok f' => (.ok none, f')
  | .consume amount =>
    let (limit, f') := f.consume amount
    (.ok limit, f')

end RecvFlow

end Netz.Quic

/-! ### The stream table of a 1-RTT connection (`quic/one_rtt.zig`)

A received STREAM or RESET_STREAM frame is handled twice.  The preflight checks the
whole packet against shadows of the streams it touches; only then are the frames
applied one after another.  Both are here, each written from its own code.

The two hash maps that index the tables by stream id, and the indices that cache the
last lookup, are not modelled: the tables hold one entry for each id, and a lookup is
a search by id. -/

namespace Netz.Quic

inductive EndpointRole where
  | client
  | server
deriving DecidableEq

inductive StreamDirection where
  | bidirectional
  | unidirectional
deriving DecidableEq

/-- The settings of `ConnectionConfig` that the receive path reads, with their defaults. -/
structure ConnectionConfig where
  localEndpoint : EndpointRole := .client
  maxAckRanges : Nat := 64
  initialSendMaxData : Nat := 2 ^ 62 - 1
  initialReceiveMaxData : Nat := 2 ^ 62 - 1
  receiveWindow : Nat := 64 * 1024
  maxReceiveWindow : Option Nat := none
  initialSendMaxStreamData : Nat := 2 ^ 62 - 1
  initialReceiveMaxStreamData : Nat := 2 ^ 62 - 1
  initialSendMaxStreamDataBidiLocal : Option Nat := none
  initialSendMaxStreamDataBidiRemote : Option Nat := none
  initialSendMaxStreamDataUni : Option Nat := none
  initialReceiveMaxStreamDataBidiLocal : Option Nat := none
  initialReceiveMaxStreamDataBidiRemote : Option Nat := none
  initialReceiveMaxStreamDataUni : Option Nat := none
  initialSendMaxStreamsBidi : Nat := 2 ^ 60 - 1
  initialSendMaxStreamsUni : Nat := 2 ^ 60 - 1
  initialReceiveMaxStreamsBidi : Nat := 2 ^ 60 - 1
  initialReceiveMaxStreamsUni : Nat := 2 ^ 60 - 1
  streamReceiveWindow : Nat := 64 * 1024
  maxStreamReceiveWindow : Option Nat := none
deriving DecidableEq

def streamInitiatedByLocal (localEndpoint : EndpointRole) (streamId : Nat) : Bool :=
  match localEndpoint with
  | .client => streamId % 2 == 0
  | .server => streamId % 2 != 0

def streamDirection (streamId : Nat) : StreamDirection :=
  if streamId / 2 % 2 = 0 then .bidirectional else .unidirectional

def streamHasSendSide (localEndpoint : EndpointRole) (streamId : Nat) : Bool :=
  streamDirection streamId == .bidirectional || streamInitiatedByLocal localEndpoint streamId

def streamHasReceiveSide (localEndpoint : EndpointRole) (streamId : Nat) : Bool :=
  streamDirection streamId == .bidirectional || !streamInitiatedByLocal localEndpoint streamId

def streamCountForId (streamId : Nat) : Nat := streamId / 4 + 1

structure StreamResetInfo where
  applicationErrorCode : Nat
  finalSize : Nat
deriving DecidableEq

structure StreamFlowEntry where
  streamId : Nat
  flow : SendFlow
  highestSentEnd : Nat := 0
  finalSize : Option Nat := none
  /-- The error code of a received STOP_SENDING. -/
  stopped : Option Nat := none
  resetSent : Option StreamResetInfo := none
deriving DecidableEq

structure StreamRecvFlowEntry where
  streamId : Nat
  flow : RecvFlow
  recvState : RecvState
  highestReceivedEnd : Nat := 0
  finalSize : Option Nat := none
  reset : Option StreamResetInfo := none
  streamCountCreditReleased : Bool := false
deriving DecidableEq

/-- The part of a `Connection` that handles streams. -/
structure StreamTable where
  config : ConnectionConfig
  recvFlow : RecvFlow
  recvDataTotal : Nat := 0
  sendStreams : List StreamFlowEntry := []
  recvStreams : List StreamRecvFlowEntry := []
  peerMaxStreamsBidi : Nat
  peerMaxStreamsUni : Nat
  recvMaxStreamsBidi : Nat
  recvMaxStreamsUni : Nat
deriving DecidableEq

namespace StreamTable

def init (config : ConnectionConfig) : Except Error StreamTable :=
  match RecvFlow.initWithMaxWindow config.initialReceiveMaxData config.receiveWindow
      (config.maxReceiveWindow.getD config.receiveWindow) with
  | .error e => .error e
  | .ok recvFlow =>
    .ok
      { config := config
        recvFlow := recvFlow
        peerMaxStreamsBidi := config.initialSendMaxStreamsBidi
        peerMaxStreamsUni := config.initialSendMaxStreamsUni
        recvMaxStreamsBidi := config.initialReceiveMaxStreamsBidi
        recvMaxStreamsUni := config.initialReceiveMaxStreamsUni }

/-! ### Looking streams up -/

def findSendStreamEntry (t : StreamTable) (streamId : Nat) : Option StreamFlowEntry :=
  t.sendStreams.find? (fun e => e.streamId == streamId)

def findRecvStreamEntry (t : StreamTable) (streamId : Nat) : Option StreamRecvFlowEntry :=
  t.recvStreams.find? (fun e => e.streamId == streamId)

/-- Write back an entry that was looked up. -/
def putRecvStreamEntry (t : StreamTable) (entry : StreamRecvFlowEntry) : StreamTable :=
  { t with
    recvStreams := t.recvStreams.map (fun e => if e.streamId = entry.streamId then entry else e) }

def putSendStreamEntry (t : StreamTable) (entry : StreamFlowEntry) : StreamTable :=
  { t with
    sendStreams := t.sendStreams.map (fun e => if e.streamId = entry.streamId then entry else e) }

def initialReceiveStreamDataLimit (t : StreamTable) (streamId : Nat) : Nat :=
  match streamDirection streamId, streamInitiatedByLocal t.config.localEndpoint streamId with
  | .unidirectional, true => 0
  | .unidirectional, false =>
    t.config.initialReceiveMaxStreamDataUni.getD t.config.initialReceiveMaxStreamData
  | .bidirectional, true =>
    t.config.initialReceiveMaxStreamDataBidiLocal.getD t.config.initialReceiveMaxStreamData
  | .bidirectional, false =>
    t.config.initialReceiveMaxStreamDataBidiRemote.getD t.config.initialReceiveMaxStreamData

def initialSendStreamDataLimit (t : StreamTable) (streamId : Nat) : Nat :=
  match streamDirection streamId, streamInitiatedByLocal t.config.localEndpoint streamId with
  | .unidirectional, false => 0
  | .unidirectional, true =>
    t.config.initialSendMaxStreamDataUni.getD t.config.initialSendMaxStreamData
  | .bidirectional, true =>
    t.config.initialSendMaxStreamDataBidiRemote.getD t.config.initialSendMaxStreamData
  | .bidirectional, false =>
    t.config.initialSendMaxStreamDataBidiLocal.getD t.config.initialSendMaxStreamData

def validatePeerStreamCount (t : StreamTable) (streamId : Nat) : Except Error Unit :=
  if streamInitiatedByLocal t.config.localEndpoint streamId then .ok ()
  else
    match streamDirection streamId with
    | .bidirectional =>
      if t.recvMaxStreamsBidi < streamCountForId streamId then .error .streamLimitExceeded
      else .ok ()
    | .unidirectional =>
      if t.recvMaxStreamsUni < streamCountForId streamId then .error .streamLimitExceeded
      else .ok ()

/-- A peer may not use a local stream before the local endpoint has opened it. -/
def validateStreamReceiveFrameId (t : StreamTable) (streamId : Nat) : Except Error Unit :=
  if streamHasReceiveSide t.config.localEndpoint streamId = false then .error .streamStateError
  else if streamInitiatedByLocal t.config.localEndpoint streamId then
    if t.findSendStreamEntry streamId = none then .error .streamStateError else .ok ()
  else t.validatePeerStreamCount streamId

def validateStreamSendControlId (t : StreamTable) (streamId : Nat) : Except Error Unit :=
  if streamHasSendSide t.config.localEndpoint streamId = false then .error .streamStateError
  else if streamInitiatedByLocal t.config.localEndpoint streamId then
    if t.findSendStreamEntry streamId = none then .error .streamStateError else .ok ()
  else t.validatePeerStreamCount streamId

/-- How much a stream may hold: at least what the peer may send at once. -/
def maxBuffered (t : StreamTable) (streamId : Nat) : Nat :=
  max (t.initialReceiveStreamDataLimit streamId)
    (t.config.maxStreamReceiveWindow.getD t.config.streamReceiveWindow)

/-- The entry of a stream, made on first use. -/
def recvStreamFlow (t : StreamTable) (streamId : Nat) :
    Except Error StreamRecvFlowEntry × StreamTable :=
  match t.findRecvStreamEntry streamId with
  | some entry => (.ok entry, t)
  | none =>
    match t.validateStreamReceiveFrameId streamId with
    | .error e => (.error e, t)
    | .ok _ =>
      match t.validatePeerStreamCount streamId with
      | .error e => (.error e, t)
      | .ok _ =>
        match RecvFlow.initWithMaxWindow (t.initialReceiveStreamDataLimit streamId)
            t.config.streamReceiveWindow
            (t.config.maxStreamReceiveWindow.getD t.config.streamReceiveWindow) with
        | .error e => (.error e, t)
        | .ok flow =>
          let entry : StreamRecvFlowEntry :=
            { streamId := streamId
              flow := flow
              recvState := RecvState.init streamId (t.maxBuffered streamId) }
          (.ok entry, { t with recvStreams := t.recvStreams ++ [entry] })

/-- How many streams the peer lets this endpoint open. -/
def peerMaxStreams (t : StreamTable) : StreamDirection → Nat
  | .bidirectional => t.peerMaxStreamsBidi
  | .unidirectional => t.peerMaxStreamsUni

/-- How many streams this endpoint lets the peer open. -/
def recvMaxStreams (t : StreamTable) : StreamDirection → Nat
  | .bidirectional => t.recvMaxStreamsBidi
  | .unidirectional => t.recvMaxStreamsUni

/--
The sending entry of a stream, made on first use.  The STREAMS_BLOCKED frame that goes
out when the peer's stream limit is reached is not part of the table.
-/
def sendStreamEntry (t : StreamTable) (streamId : Nat) : Except Error StreamFlowEntry × StreamTable :=
  match t.findSendStreamEntry streamId with
  | some entry => (.ok entry, t)
  | none =>
    if streamInitiatedByLocal t.config.localEndpoint streamId = true ∧
        t.peerMaxStreams (streamDirection streamId) < streamCountForId streamId then (.error .streamLimitExceeded, t)
    else
      let entry : StreamFlowEntry :=
        { streamId := streamId, flow := SendFlow.init (t.initialSendStreamDataLimit streamId) }
      (.ok entry, { t with sendStreams := t.sendStreams ++ [entry] })

/-! ### Applying frames -/

/-- Record a final size, or check a frame against the one that is known. -/
def applyFinalSize (entry : StreamRecvFlowEntry) (finalSize : Nat) (final : Bool) :
    Except Error StreamRecvFlowEntry :=
  if final = true ∧ finalSize < entry.highestReceivedEnd then .error .finalSizeMismatch
  else
    match entry.finalSize with
    | some known =>
      if known < finalSize then .error .finalSizeMismatch
      else if final = true ∧ finalSize ≠ known then .error .finalSizeMismatch
      else .ok entry
    | none => .ok (if final then { entry with finalSize := some finalSize } else entry)

/-- Charge bytes to the connection's window. -/
def charge (t : StreamTable) (amount : Nat) : Except Error StreamTable :=
  if amount = 0 then .ok t
  else
    match checkedAdd t.recvDataTotal amount with
    | none => .error .flowControlViolation
    | some nextTotal =>
      match t.recvFlow.receive nextTotal with
      | .error e => .error e
      | .ok recvFlow => .ok { t with recvFlow := recvFlow, recvDataTotal := nextTotal }

/-- The `.stream` case of `applyReceivedFramesForDestination`. -/
def receiveStream (t : StreamTable) (frame : StreamFrame) : Except Error Unit × StreamTable :=
  match t.recvStreamFlow frame.streamId with
  | (.error e, t) => (.error e, t)
  | (.ok entry, t) =>
    match checkedAdd frame.offset frame.data.length with
    | none => (.error .invalidFrameLength, t)
    | some streamEnd =>
      match applyFinalSize entry streamEnd frame.fin with
      | .error e => (.error e, t)
      | .ok entry =>
        match entry.flow.receive streamEnd with
        | .error e => (.error e, t.putRecvStreamEntry entry)
        | .ok flow =>
          match entry.recvState.insertTracked frame with
          | (.error e, recvState) =>
            (.error e, t.putRecvStreamEntry { entry with flow := flow, recvState := recvState })
          | (.ok newlyReceived, recvState) =>
            let entry := { entry with flow := flow, recvState := recvState }
            -- Retransmitted bytes take no connection credit a second time.
            match t.charge newlyReceived with
            | .error e => (.error e, t.putRecvStreamEntry entry)
            | .ok t =>
              (.ok (), t.putRecvStreamEntry
                { entry with highestReceivedEnd := max entry.highestReceivedEnd streamEnd })

def receiveResetStream (t : StreamTable) (reset : ResetStreamFrame) :
    Except Error Unit × StreamTable :=
  match t.recvStreamFlow reset.streamId with
  | (.error e, t) => (.error e, t)
  | (.ok entry, t) =>
    match applyFinalSize entry reset.finalSize true with
    | .error e => (.error e, t)
    | .ok entry =>
      match entry.flow.receive reset.finalSize with
      | .error e => (.error e, t.putRecvStreamEntry entry)
      | .ok flow =>
        let entry := { entry with flow := flow }
        let received := entry.recvState.receivedByteCount
        if reset.finalSize < received then (.error .finalSizeMismatch, t.putRecvStreamEntry entry)
        else
          match t.charge (reset.finalSize - received) with
          | .error e => (.error e, t.putRecvStreamEntry entry)
          | .ok t =>
            (.ok (), t.putRecvStreamEntry
              { entry with
                highestReceivedEnd := max entry.highestReceivedEnd reset.finalSize
                reset := some ⟨reset.applicationErrorCode, reset.finalSize⟩ })

/-! ### Checking frames first -/

structure RecvStreamPreflightEntry where
  streamId : Nat
  flowLimit : Nat
  recvState : RecvState.Preflight
  highestReceivedEnd : Nat := 0
  finalSize : Option Nat := none

/-- What the preflight of one packet has accumulated for its streams. -/
structure StreamPreflight where
  recvStreams : List RecvStreamPreflightEntry := []
  /-- The STREAM frames of the packet that were accepted so far. -/
  streamFrames : List StreamFrame := []
  recvDataTotal : Nat

def StreamPreflight.put (p : StreamPreflight) (entry : RecvStreamPreflightEntry) : StreamPreflight :=
  { p with
    recvStreams := p.recvStreams.map (fun e => if e.streamId = entry.streamId then entry else e) }

/-- The shadow of a stream, taken when the packet first touches it. -/
def preflightRecvStreamEntry (t : StreamTable) (p : StreamPreflight) (streamId : Nat) :
    Except Error (RecvStreamPreflightEntry × StreamPreflight) :=
  match p.recvStreams.find? (fun e => e.streamId == streamId) with
  | some entry => .ok (entry, p)
  | none =>
    match t.findRecvStreamEntry streamId with
    | some existing =>
      let entry : RecvStreamPreflightEntry :=
        { streamId := streamId
          flowLimit := existing.flow.limit
          recvState := RecvState.Preflight.init existing.recvState
          highestReceivedEnd := existing.highestReceivedEnd
          finalSize := existing.finalSize }
      .ok (entry, { p with recvStreams := p.recvStreams ++ [entry] })
    | none =>
      match t.validatePeerStreamCount streamId with
      | .error e => .error e
      | .ok _ =>
        let entry : RecvStreamPreflightEntry :=
          { streamId := streamId
            flowLimit := t.initialReceiveStreamDataLimit streamId
            recvState := RecvState.Preflight.initEmpty streamId (t.maxBuffered streamId) }
        .ok (entry, { p with recvStreams := p.recvStreams ++ [entry] })

def preflightApplyFinalSize (entry : RecvStreamPreflightEntry) (finalSize : Nat) (final : Bool) :
    Except Error RecvStreamPreflightEntry :=
  match entry.recvState.applyFinalSize finalSize final with
  | .error e => .error e
  | .ok recvState => .ok { entry with recvState := recvState, finalSize := recvState.finalSize }

def preflightRecvCredit (t : StreamTable) (p : StreamPreflight) (newlyReceived : Nat) :
    Except Error StreamPreflight :=
  if newlyReceived = 0 then .ok p
  else
    match checkedAdd p.recvDataTotal newlyReceived with
    | none => .error .flowControlViolation
    | some nextTotal =>
      if t.recvFlow.limit < nextTotal then .error .flowControlViolation
      else .ok { p with recvDataTotal := nextTotal }

def validateStreamFramePrecondition (t : StreamTable) (p : StreamPreflight) (frame : StreamFrame) :
    Except Error StreamPreflight := do
  t.validateStreamReceiveFrameId frame.streamId
  let (entry, p) ← t.preflightRecvStreamEntry p frame.streamId
  match checkedAdd frame.offset frame.data.length with
  | none => .error .invalidFrameLength
  | some streamEnd =>
    let entry ← preflightApplyFinalSize entry streamEnd frame.fin
    if entry.flowLimit < streamEnd then .error .flowControlViolation
    else
      let (newlyReceived, recvState, streamFrames) ←
        entry.recvState.insertTracked p.streamFrames frame
      let p ← t.preflightRecvCredit { p with streamFrames := streamFrames } newlyReceived
      .ok (p.put
        { entry with
          recvState := recvState
          highestReceivedEnd := max entry.highestReceivedEnd streamEnd })

def validateResetStreamPrecondition (t : StreamTable) (p : StreamPreflight)
    (reset : ResetStreamFrame) : Except Error StreamPreflight := do
  t.validateStreamReceiveFrameId reset.streamId
  let (entry, p) ← t.preflightRecvStreamEntry p reset.streamId
  let entry ← preflightApplyFinalSize entry reset.finalSize true
  if entry.flowLimit < reset.finalSize then .error .flowControlViolation
  else
    let received := entry.recvState.receivedTotal
    if reset.finalSize < received then .error .finalSizeMismatch
    else
      let p ← t.preflightRecvCredit p (reset.finalSize - received)
      .ok (p.put
        { entry with highestReceivedEnd := max entry.highestReceivedEnd reset.finalSize })

/-! ### What the application does with streams -/

/--
Return read bytes to both windows.  `sent` says whether the packet that advertises the new
limits went out; when it did not, both windows are restored.
-/
def releaseReceivedCapacity (t : StreamTable) (streamId amount : Nat) (sent : Bool) :
    Except Error Unit × StreamTable :=
  if amount = 0 then (.ok (), t)
  else
    match t.findRecvStreamEntry streamId with
    | none => (.error .streamStateError, t)
    | some entry =>
      if entry.recvState.available.length < amount then (.error .invalidStreamRange, t)
      else
        let (maxData, recvFlow) := t.recvFlow.consume amount
        let (maxStreamData, flow) := entry.flow.consume amount
        if (maxData ≠ none ∨ maxStreamData ≠ none) ∧ sent = false then (.error .sendFailed, t)
        else
          match entry.recvState.consume amount with
          | (.error e, _) => (.error e, t)
          | (.ok _, recvState) =>
            (.ok (), { t with recvFlow := recvFlow }.putRecvStreamEntry
              { entry with flow := flow, recvState := recvState })

def consumeReceived (t : StreamTable) (amount : Nat) : StreamTable :=
  { t with recvFlow := (t.recvFlow.consume amount).2 }

def consumeStreamReceived (t : StreamTable) (streamId amount : Nat) :
    Except Error Unit × StreamTable :=
  match t.recvStreamFlow streamId with
  | (.error e, t) => (.error e, t)
  | (.ok entry, t) =>
    (.ok (), t.putRecvStreamEntry { entry with flow := (entry.flow.consume amount).2 })

/-- Whether the sending half of a stream has neither ended nor been reset. -/
def sendHalfOpen (t : StreamTable) (streamId : Nat) : Bool :=
  match t.findSendStreamEntry streamId with
  | none => true
  | some send => send.finalSize.isNone && send.resetSent.isNone

/-- Return the slot of a finished peer stream; `sent` is the fate of the MAX_STREAMS packet. -/
def releaseCompletedPeerStream (t : StreamTable) (streamId : Nat) (sent : Bool) :
    Except Error Bool × StreamTable :=
  if streamInitiatedByLocal t.config.localEndpoint streamId then (.error .streamStateError, t)
  else
    match t.findRecvStreamEntry streamId with
    | none => (.error .streamStateError, t)
    | some entry =>
      if entry.streamCountCreditReleased then (.ok false, t)
      else if entry.recvState.complete = false ∧ entry.reset = none then (.ok false, t)
      else if streamDirection streamId = .bidirectional ∧
          t.sendHalfOpen streamId = true then
        (.ok false, t)
      else
        let limit := t.recvMaxStreams (streamDirection streamId)
        let released := { entry with streamCountCreditReleased := true }
        if limit = maxStreamCount then (.ok false, t.putRecvStreamEntry released)
        else if sent = false then (.error .sendFailed, t)
        else
          let t := t.putRecvStreamEntry released
          (.ok true,
            match streamDirection streamId with
            | .bidirectional => { t with recvMaxStreamsBidi := limit + 1 }
            | .unidirectional => { t with recvMaxStreamsUni := limit + 1 })

end StreamTable

end Netz.Quic
