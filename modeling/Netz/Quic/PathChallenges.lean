/-
The whole of `path_validation.State`, with its hash maps and its cached deadline.

A challenge is pending until it is sent, outstanding until it is answered or its deadline
passes, and then pending again, or failed once it has been sent often enough.  `PathState`
has the three lists of this state and nothing else.

The memory that lists and hash maps keep shows in nothing but whether a call has to ask for more.
What becomes of that is an input: one answer for a call that reserves its memory first, and for
the timeout sweep the number of challenges it still finds room for, kept or new.  `sent_time_ns`
is left out; nothing reads it.
-/
import Netz.Lib.SwapRemove
import Netz.Quic.PathValidation

namespace Netz.Quic

open Lib

def defaultMaxChallengeTransmissions : Nat := 3

/-- A queue whose consumed elements stay in front of the head until the last one is taken out. -/
structure Fifo (α : Type) where
  items : List α := []
  head : Nat := 0
  inside : head ≤ items.length := by simp

namespace Fifo

variable {α : Type}

def activeConst (f : Fifo α) : List α := f.items.drop f.head

def len (f : Fifo α) : Nat := f.items.length - f.head

lemma inside_nil : 0 ≤ ([] : List α).length := Nat.zero_le _

def compactIfEmpty (f : Fifo α) : Fifo α :=
  if f.head ≠ 0 ∧ f.head = f.items.length then ⟨[], 0, inside_nil⟩ else f

/-- `ensureUnusedCapacity` and `appendAssumeCapacity`. -/
def append (f : Fifo α) (value : α) : Fifo α where
  items := f.compactIfEmpty.items ++ [value]
  head := f.compactIfEmpty.head
  inside := by
    rw [List.length_append]
    exact Nat.le_add_right_of_le f.compactIfEmpty.inside

def popFront (f : Fifo α) : Option (α × Fifo α) :=
  if h : f.head < f.items.length then
    some (f.items[f.head], Fifo.compactIfEmpty ⟨f.items, f.head + 1, h⟩)
  else none

end Fifo

structure PathValidation where
  pendingResponses : Fifo PathData := {}
  pendingChallenges : Fifo Challenge := {}
  outstandingChallenges : List Challenge := []
  failedChallenges : List Challenge := []
  pendingResponseIndex : Table PathData Unit := []
  pendingChallengeIndex : Table PathData Unit := []
  outstandingChallengeIndex : Table PathData Nat := []
  earliestOutstandingDeadlineNs : Option Nat := none
  maxChallengeTransmissions : Nat := defaultMaxChallengeTransmissions

/-- The deadline has passed. -/
def Challenge.due (c : Challenge) (nowNs : Nat) : Bool :=
  match c.deadlineNs with
  | none => false
  | some deadline => decide (deadline ≤ nowNs)

/-- One more transmission of the challenge, which is due after the timeout. -/
def Challenge.transmit (c : Challenge) (nowNs timeoutNs : Option Nat) : Challenge :=
  { c with
    transmissions := min (c.transmissions + 1) 255
    deadlineNs :=
      match nowNs, timeoutNs with
      | some now, some timeout => some (saturatingAdd now timeout)
      | _, _ => c.deadlineNs }

namespace PathValidation

/-! ### The deadline of what is outstanding -/

def considerDeadline (earliest deadline : Option Nat) : Option Nat :=
  match deadline with
  | none => earliest
  | some candidate =>
    match earliest with
    | none => some candidate
    | some current => if candidate < current then some candidate else earliest

def considerOutstandingDeadline (s : PathValidation) (deadline : Option Nat) : PathValidation :=
  { s with
    earliestOutstandingDeadlineNs := considerDeadline s.earliestOutstandingDeadlineNs deadline }

/-- The earliest of all deadlines, from scratch. -/
def earliestDeadline (challenges : List Challenge) : Option Nat :=
  challenges.foldl (fun earliest c => considerDeadline earliest c.deadlineNs) none

def recomputeOutstandingDeadline (s : PathValidation) : PathValidation :=
  { s with earliestOutstandingDeadlineNs := earliestDeadline s.outstandingChallenges }

/-! ### Challenges -/

def queueChallenge (s : PathValidation) (data : PathData) (memory : Bool) :
    Except Error Unit × PathValidation :=
  if (s.outstandingChallengeIndex.get data).isSome then (.ok (), s)
  else if (s.pendingChallengeIndex.get data).isSome then (.ok (), s)
  else if memory = false then (.error .outOfMemory, s)
  else
    (.ok (),
      { s with
        pendingChallengeIndex := s.pendingChallengeIndex.put data ()
        pendingChallenges := s.pendingChallenges.append { data := data } })

/-- `getOrPut` and what is written to the slot. -/
def setIndex (t : Table PathData Nat) (data : PathData) (index : Nat) : Table PathData Nat :=
  if (t.get data).isSome then t.assign data index else t.put data index

def popPendingChallengeToOutstanding (s : PathValidation) (nowNs timeoutNs : Option Nat) :
    Option Challenge × PathValidation :=
  match s.pendingChallenges.popFront with
  | none => (none, s)
  | some (first, rest) =>
    let challenge := first.transmit nowNs timeoutNs
    (some challenge,
      { s with
        pendingChallenges := rest
        pendingChallengeIndex := s.pendingChallengeIndex.remove first.data
        outstandingChallengeIndex :=
          setIndex s.outstandingChallengeIndex first.data s.outstandingChallenges.length
        outstandingChallenges := s.outstandingChallenges ++ [challenge]
          }.considerOutstandingDeadline challenge.deadlineNs)

def nextChallengeFrameAt (s : PathValidation) (nowNs timeoutNs : Option Nat) (memory : Bool) :
    Except Error PathData × PathValidation :=
  if s.pendingChallenges.len = 0 then (.error .noPendingPathChallenge, s)
  else if memory = false then (.error .outOfMemory, s)
  else
    match s.popPendingChallengeToOutstanding nowNs timeoutNs with
    | (none, s) => (.error .noPendingPathChallenge, s)
    | (some challenge, s) => (.ok challenge.data, s)

/-- The loop of `nextChallengeFramesAt`. -/
def popPending (s : PathValidation) (nowNs timeoutNs : Option Nat) : Nat → List PathData × PathValidation
  | 0 => ([], s)
  | count + 1 =>
    match s.popPendingChallengeToOutstanding nowNs timeoutNs with
    | (none, s) => ([], s)
    | (some challenge, s) =>
      match s.popPending nowNs timeoutNs count with
      | (frames, s) => (challenge.data :: frames, s)

/-- As many frames as there is room for in `out`. -/
def nextChallengeFramesAt (s : PathValidation) (out : Nat) (nowNs timeoutNs : Option Nat)
    (memory : Bool) : Except Error (List PathData) × PathValidation :=
  let count := min out s.pendingChallenges.len
  if count = 0 then (.ok [], s)
  else if memory = false then (.error .outOfMemory, s)
  else
    match s.popPending nowNs timeoutNs count with
    | (frames, s) => (.ok frames, s)

/-- The challenge, and whether it had the cached deadline. -/
def removeOutstandingChallengeDeferredDeadline (s : PathValidation) (index : Nat)
    (removed : Challenge) : Bool × PathValidation :=
  let challenges := swapRemove s.outstandingChallenges index
  let outstanding := s.outstandingChallengeIndex.remove removed.data
  (removed.deadlineNs.isSome && removed.deadlineNs == s.earliestOutstandingDeadlineNs,
    { s with
      outstandingChallenges := challenges
      outstandingChallengeIndex :=
        if index ≠ s.outstandingChallenges.length - 1 then
          match challenges[index]? with
          | none => outstanding
          | some moved => outstanding.assign moved.data index
        else outstanding })

def removeOutstandingChallenge (s : PathValidation) (index : Nat) (removed : Challenge) :
    PathValidation :=
  match s.removeOutstandingChallengeDeferredDeadline index removed with
  | (true, s) => s.recomputeOutstandingDeadline
  | (false, s) => s

def receiveResponseValidated (s : PathValidation) (data : PathData) : Bool × PathValidation :=
  match s.outstandingChallengeIndex.get data with
  | none => (false, s)
  | some index =>
    match s.outstandingChallenges[index]? with
    | none => (false, s)
    | some removed => (true, s.removeOutstandingChallenge index removed)

/-! ### Timeouts -/

/-- A challenge whose deadline has passed fails, or waits to be sent again. -/
def expireChallenge (s : PathValidation) (index : Nat) (challenge : Challenge) :
    Bool × PathValidation :=
  if s.maxChallengeTransmissions ≤ challenge.transmissions then
    match s.removeOutstandingChallengeDeferredDeadline index challenge with
    | (cached, s) =>
      (cached,
        { s with
          failedChallenges := s.failedChallenges ++ [{ challenge with deadlineNs := none }] })
  else
    match s.removeOutstandingChallengeDeferredDeadline index challenge with
    | (cached, s) =>
      (cached,
        { s with
          pendingChallengeIndex := s.pendingChallengeIndex.put challenge.data ()
          pendingChallenges := s.pendingChallenges.append { challenge with deadlineNs := none } })

/-- The loop of `checkTimeouts`; there is memory for `room` more challenges. -/
def sweep (nowNs : Nat) : Nat → Nat → Nat → Nat → Bool → PathValidation →
    Except Error Nat × PathValidation
  | 0, _, _, expired, recompute, s =>
    (.ok expired, if recompute then s.recomputeOutstandingDeadline else s)
  | fuel + 1, i, room, expired, recompute, s =>
    match s.outstandingChallenges[i]? with
    | none => (.ok expired, if recompute then s.recomputeOutstandingDeadline else s)
    | some challenge =>
      if challenge.due nowNs = false then sweep nowNs fuel (i + 1) room expired recompute s
      else
        match room with
        | 0 => (.error .outOfMemory, s)
        | room + 1 =>
          match s.expireChallenge i challenge with
          | (cached, s) => sweep nowNs fuel i room (expired + 1) (recompute || cached) s

/-- Every turn of the loop goes past a challenge or takes one out. -/
def checkTimeouts (s : PathValidation) (nowNs room : Nat) : Except Error Nat × PathValidation :=
  match s.earliestOutstandingDeadlineNs with
  | none => (.ok 0, s)
  | some earliest =>
    if nowNs < earliest then (.ok 0, s)
    else sweep nowNs s.outstandingChallenges.length 0 room 0 false s

/-! ### Responses -/

def receiveChallenge (s : PathValidation) (data : PathData) (memory : Bool) :
    Except Error Bool × PathValidation :=
  if (s.pendingResponseIndex.get data).isSome then (.ok false, s)
  else if memory = false then (.error .outOfMemory, s)
  else
    (.ok true,
      { s with
        pendingResponseIndex := s.pendingResponseIndex.put data ()
        pendingResponses := s.pendingResponses.append data })

def nextResponseFrame (s : PathValidation) : Except Error PathData × PathValidation :=
  match s.pendingResponses.popFront with
  | none => (.error .noPendingPathResponse, s)
  | some (data, rest) =>
    (.ok data,
      { s with
        pendingResponses := rest
        pendingResponseIndex := s.pendingResponseIndex.remove data })

def discardResponses (s : PathValidation) : Nat → PathValidation
  | 0 => s
  | count + 1 =>
    match s.nextResponseFrame with
    | (.error _, s) => s
    | (.ok _, s) => s.discardResponses count

/-! ### Copies -/

def rebuildSet (keys : List PathData) : Table PathData Unit :=
  keys.foldl (fun t data => t.put data ()) []

/-- The lists, and indexes made from them. -/
def clone (s : PathValidation) (memory : Bool) : Except Error PathValidation :=
  if memory = false then .error .outOfMemory
  else
    .ok
      { pendingResponses := { items := s.pendingResponses.activeConst }
        pendingChallenges := { items := s.pendingChallenges.activeConst }
        outstandingChallenges := s.outstandingChallenges
        failedChallenges := s.failedChallenges
        pendingResponseIndex := rebuildSet s.pendingResponses.activeConst
        pendingChallengeIndex := rebuildSet (s.pendingChallenges.activeConst.map (·.data))
        outstandingChallengeIndex := rebuild (fun c => [c.data]) s.outstandingChallenges
        earliestOutstandingDeadlineNs := earliestDeadline s.outstandingChallenges
        maxChallengeTransmissions := s.maxChallengeTransmissions }

/-! ### Calls -/

inductive Op where
  | queueChallenge (data : PathData) (memory : Bool)
  | nextChallengeFrameAt (nowNs timeoutNs : Option Nat) (memory : Bool)
  | nextChallengeFramesAt (out : Nat) (nowNs timeoutNs : Option Nat) (memory : Bool)
  | receiveResponseValidated (data : PathData)
  | checkTimeouts (nowNs room : Nat)
  | receiveChallenge (data : PathData) (memory : Bool)
  | nextResponseFrame
  | discardResponses (count : Nat)
  /-- The state is replaced by a copy of itself, as when the peer moves to a new path. -/
  | clone (memory : Bool)

inductive Reply where
  | done
  | accepted (fresh : Bool)
  | response (data : PathData)
  | frames (data : List PathData)
  | validated (known : Bool)
  | expired (count : Nat)

/-- What a call answers, as a reply. -/
def answer {α : Type} (reply : α → Reply) (result : Except Error α × PathValidation) :
    Except Error Reply × PathValidation :=
  (result.1.map reply, result.2)

def step (s : PathValidation) : Op → Except Error Reply × PathValidation
  | .queueChallenge data memory => answer (fun _ => .done) (s.queueChallenge data memory)
  | .nextChallengeFrameAt nowNs timeoutNs memory =>
    answer (fun data => .frames [data]) (s.nextChallengeFrameAt nowNs timeoutNs memory)
  | .nextChallengeFramesAt out nowNs timeoutNs memory =>
    answer .frames (s.nextChallengeFramesAt out nowNs timeoutNs memory)
  | .receiveResponseValidated data =>
    (.ok (.validated (s.receiveResponseValidated data).1), (s.receiveResponseValidated data).2)
  | .checkTimeouts nowNs room => answer .expired (s.checkTimeouts nowNs room)
  | .receiveChallenge data memory => answer .accepted (s.receiveChallenge data memory)
  | .nextResponseFrame => answer .response s.nextResponseFrame
  | .discardResponses count => (.ok .done, s.discardResponses count)
  | .clone memory =>
    match s.clone memory with
    | .error e => (.error e, s)
    | .ok copy => (.ok .done, copy)

end PathValidation

end Netz.Quic
