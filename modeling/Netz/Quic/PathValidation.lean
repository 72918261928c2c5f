/-
Path validation (`quic/path_validation.zig`).

Received PATH_CHALLENGE data waits in `pendingResponses` until it is echoed; challenges
of our own wait in `pendingChallenges` until they are sent and are `outstandingChallenges`
from then on.  Here the queues are lists of what is behind their heads, and lookups in the hash maps
are searches; the heads and the maps are in `PathChallenges`.
-/
import Netz.Quic.Frame

namespace Netz.Quic

abbrev PathData := Vector UInt8 8

structure Challenge where
  data : PathData
  transmissions : Nat := 0
  deadlineNs : Option Nat := none

/-- `path_validation.State`. -/
structure PathState where
  pendingResponses : List PathData := []
  pendingChallenges : List Challenge := []
  outstandingChallenges : List Challenge := []

namespace PathState

def outstanding (s : PathState) (data : PathData) : Bool :=
  s.outstandingChallenges.any (fun c => c.data == data)

def queueChallenge (s : PathState) (data : PathData) : PathState :=
  if s.outstanding data || s.pendingChallenges.any (fun c => c.data == data) then s
  else { s with pendingChallenges := s.pendingChallenges ++ [⟨data, 0, none⟩] }

/-- Send the oldest pending challenge. -/
def nextChallengeFrameAt (s : PathState) (deadlineNs : Option Nat) : PathState :=
  match s.pendingChallenges with
  | [] => s
  | challenge :: rest =>
    { s with
      pendingChallenges := rest
      outstandingChallenges := s.outstandingChallenges ++ [{ challenge with
            transmissions := min (challenge.transmissions + 1) 255
            deadlineNs := deadlineNs }] }

/-- Queue an echo; whether it was not queued already. -/
def receiveChallenge (s : PathState) (data : PathData) : Bool × PathState :=
  if data ∈ s.pendingResponses then (false, s)
  else (true, { s with pendingResponses := s.pendingResponses ++ [data] })

def discardResponses (s : PathState) (count : Nat) : PathState :=
  { s with pendingResponses := s.pendingResponses.drop count }

/-- `swapRemove`: the last element takes the place of the removed one. -/
def swapRemove {α : Type} (l : List α) (index : Nat) : List α :=
  match l.getLast? with
  | none => l
  | some last => (l.set index last).dropLast

def receiveResponseValidated (s : PathState) (data : PathData) : Bool × PathState :=
  match s.outstandingChallenges.findIdx? (fun c => c.data == data) with
  | none => (false, s)
  | some index =>
    (true, { s with outstandingChallenges := swapRemove s.outstandingChallenges index })

/-- `ReceivePreflight`: what the frames of one packet would add and answer. -/
structure ReceivePreflight where
  pendingChallenges : List PathData := []
  receivedResponses : List PathData := []

namespace ReceivePreflight

def receiveChallenge (s : PathState) (p : ReceivePreflight) (data : PathData) : ReceivePreflight :=
  if data ∈ s.pendingResponses ∨ data ∈ p.pendingChallenges then p
  else { p with pendingChallenges := p.pendingChallenges ++ [data] }

def recordResponse (s : PathState) (p : ReceivePreflight) (data : PathData) :
    Except Error ReceivePreflight :=
  if data ∈ p.receivedResponses then .error .unknownPathResponse
  else if s.outstanding data = false then .error .unknownPathResponse
  else .ok { p with receivedResponses := p.receivedResponses ++ [data] }

end ReceivePreflight

end PathState

end Netz.Quic
