/-
RTT estimation (`quic/rtt.zig`).

The weighted sums are `u64`s, so a call that makes one too large is a panic.
-/
import Netz.Quic.Frame

namespace Netz.Quic.Rtt

/-- The sums that can be too large. -/
inductive Overflow where
  | ackDelay
  | rttVar
  | smoothedRtt
deriving DecidableEq

def sum (overflow : Overflow) (x : Nat) : Except Overflow Nat :=
  if x ≤ maxU64 then .ok x else .error overflow

structure Stats where
  latestRtt : Nat := 0
  smoothedRtt : Nat := 0
  rttVar : Nat := 0
  minRtt : Nat := 0
  maxAckDelay : Nat := 25000000
  hasMeasurement : Bool := false
  firstRttSampleSentTimeNs : Option Nat := none
  resetOnNextSample : Bool := false
deriving DecidableEq

namespace Stats

/-- The sample without the delay of the ACK, where that does not take it below the minimum. -/
def adjustedRtt (stats : Stats) (sendDeltaNs ackDelayNs : Nat) (handshakeConfirmed : Bool) :
    Except Overflow Nat :=
  if handshakeConfirmed ∧ ackDelayNs ≠ 0 ∧ stats.maxAckDelay ≠ 0 then
    let effectiveAckDelay := min ackDelayNs stats.maxAckDelay
    (sum .ackDelay (stats.minRtt + effectiveAckDelay)).map fun least =>
      if least < sendDeltaNs then sendDeltaNs - effectiveAckDelay else sendDeltaNs
  else .ok sendDeltaNs

def updateAt (stats : Stats) (sendDeltaNs ackDelayNs : Nat) (handshakeConfirmed : Bool)
    (sampleSentTimeNs : Option Nat) : Except Overflow Stats :=
  if sendDeltaNs = 0 then .ok stats
  else if stats.hasMeasurement = false ∨ stats.resetOnNextSample then
    .ok { stats with
      latestRtt := sendDeltaNs
      firstRttSampleSentTimeNs := sampleSentTimeNs.or stats.firstRttSampleSentTimeNs
      minRtt := sendDeltaNs
      smoothedRtt := sendDeltaNs
      rttVar := sendDeltaNs / 2
      hasMeasurement := true
      resetOnNextSample := false }
  else do
    let sampled := { stats with
      latestRtt := sendDeltaNs
      firstRttSampleSentTimeNs := stats.firstRttSampleSentTimeNs.or sampleSentTimeNs
      minRtt := min stats.minRtt sendDeltaNs }
    let adjusted ← sampled.adjustedRtt sendDeltaNs ackDelayNs handshakeConfirmed
    let diff :=
      if adjusted < sampled.smoothedRtt then sampled.smoothedRtt - adjusted
      else adjusted - sampled.smoothedRtt
    let rttVar ← sum .rttVar (sampled.rttVar * 3 + diff)
    let smoothedRtt ← sum .smoothedRtt (sampled.smoothedRtt * 7 + adjusted)
    .ok { sampled with rttVar := rttVar / 4, smoothedRtt := smoothedRtt / 8 }

def onPersistentCongestion (stats : Stats) : Stats :=
  { stats with firstRttSampleSentTimeNs := none, resetOnNextSample := true }

/-- `setMaxAckDelay` is the peer's transport parameter, which the field is set to. -/
inductive Call where
  | updateAt (sendDeltaNs ackDelayNs : Nat) (handshakeConfirmed : Bool)
      (sampleSentTimeNs : Option Nat)
  | onPersistentCongestion
  | setMaxAckDelay (maxAckDelay : Nat)

def exec (stats : Stats) : Call → Except Overflow Stats
  | .updateAt sendDeltaNs ackDelayNs handshakeConfirmed sampleSentTimeNs =>
    stats.updateAt sendDeltaNs ackDelayNs handshakeConfirmed sampleSentTimeNs
  | .onPersistentCongestion => .ok stats.onPersistentCongestion
  | .setMaxAckDelay maxAckDelay => .ok { stats with maxAckDelay := maxAckDelay }

end Stats

end Netz.Quic.Rtt
