/-
Congestion control with New Reno (`quic/congestion.zig`).

CUBIC's arithmetic is floating-point, and HyStart++ is off with New Reno: slow start then grows by
the acknowledged bytes.  A `usize` has 64 bits.
-/
import Netz.Quic.Frame

namespace Netz.Quic.Congestion

def saturate (x : Nat) : Nat := min x maxU64

def initialWindow (maxDatagramSize : Nat) : Nat :=
  min (saturate (10 * maxDatagramSize)) (max 14720 (saturate (2 * maxDatagramSize)))

def minimumWindow (maxDatagramSize : Nat) : Nat := saturate (2 * maxDatagramSize)

def betaReduction (window : Nat) : Nat := window * 7 / 10

structure Controller where
  maxDatagramSize : Nat
  congestionWindow : Nat
  slowStartThreshold : Nat := maxU64
  bytesInFlight : Nat := 0
  congestionAvoidanceBytesAcked : Nat := 0
  congestionRecoveryStartTimeNs : Option Nat := none

namespace Controller

def init (maxDatagramSize : Nat) : Controller where
  maxDatagramSize := maxDatagramSize
  congestionWindow := initialWindow maxDatagramSize

def reserve (c : Controller) (bytes : Nat) : Option Controller :=
  if bytes = 0 then some c
  else if c.congestionWindow - c.bytesInFlight < bytes then none
  else some { c with bytesInFlight := c.bytesInFlight + bytes }

def discard (c : Controller) (bytes : Nat) : Controller :=
  { c with bytesInFlight := c.bytesInFlight - bytes }

/-- Whether a packet belongs to the loss episode under way; without a time it does. -/
def recovering (c : Controller) (sentTimeNs : Option Nat) : Bool :=
  match c.congestionRecoveryStartTimeNs, sentTimeNs with
  | none, _ => false
  | some _, none => true
  | some recoveryStart, some sentTime => decide (sentTime ≤ recoveryStart)

def growLoop : Nat → Controller → Option Controller
  | 0, _ => none
  | rounds + 1, c =>
    if c.congestionAvoidanceBytesAcked < c.congestionWindow then some c
    else
      let grown := { c with
        congestionAvoidanceBytesAcked := c.congestionAvoidanceBytesAcked - c.congestionWindow
        congestionWindow := saturate (c.congestionWindow + c.maxDatagramSize) }
      if grown.congestionWindow = maxU64 then some { grown with congestionAvoidanceBytesAcked := 0 }
      else growLoop rounds grown

/-- `none` if the loop makes more rounds than there are bytes. -/
def growNewReno (c : Controller) (bytes : Nat) : Option Controller :=
  let acked := saturate (c.congestionAvoidanceBytesAcked + bytes)
  growLoop (acked + 1) { c with congestionAvoidanceBytesAcked := acked }

def onAckedWithContextAndUtilization (c : Controller) (bytes : Nat) (sentTimeNs : Option Nat)
    (congestionWindowUtilized : Bool) : Option Controller :=
  if bytes = 0 then some c
  else if c.recovering sentTimeNs then some (c.discard bytes)
  else
    let left := { c.discard bytes with congestionRecoveryStartTimeNs := none }
    if !congestionWindowUtilized then some left
    else if left.congestionWindow < left.slowStartThreshold then
      some { left with congestionWindow := saturate (left.congestionWindow + bytes) }
    else left.growNewReno bytes

def reduceForCongestion (c : Controller) (eventTimeNs : Option Nat) : Controller :=
  let reduced := max (betaReduction c.congestionWindow) (minimumWindow c.maxDatagramSize)
  { c with
    congestionWindow := reduced
    slowStartThreshold := reduced
    congestionAvoidanceBytesAcked := 0
    congestionRecoveryStartTimeNs := eventTimeNs }

def onLostAt (c : Controller) (bytes : Nat) (lostSentTimeNs nowNs : Option Nat) : Controller :=
  if bytes = 0 then c
  else if c.recovering lostSentTimeNs then c.discard bytes
  else (c.discard bytes).reduceForCongestion (nowNs.or lostSentTimeNs)

def onExplicitCongestion (c : Controller) (eventTimeNs : Option Nat) : Controller :=
  if c.congestionRecoveryStartTimeNs ≠ none then c
  else c.reduceForCongestion (some (eventTimeNs.getD 0))

def onPersistentCongestion (c : Controller) : Controller :=
  { c with
    congestionWindow := minimumWindow c.maxDatagramSize
    slowStartThreshold := minimumWindow c.maxDatagramSize
    congestionAvoidanceBytesAcked := 0
    congestionRecoveryStartTimeNs := none }

inductive Call where
  | reserve (bytes : Nat)
  | acked (bytes : Nat) (sentTimeNs : Option Nat) (congestionWindowUtilized : Bool)
  | lost (bytes : Nat) (lostSentTimeNs nowNs : Option Nat)
  | explicitCongestion (eventTimeNs : Option Nat)
  | persistentCongestion

def exec (c : Controller) : Call → Option Controller
  | .reserve bytes => some ((c.reserve bytes).getD c)
  | .acked bytes sentTimeNs congestionWindowUtilized =>
    c.onAckedWithContextAndUtilization bytes sentTimeNs congestionWindowUtilized
  | .lost bytes lostSentTimeNs nowNs => some (c.onLostAt bytes lostSentTimeNs nowNs)
  | .explicitCongestion eventTimeNs => some (c.onExplicitCongestion eventTimeNs)
  | .persistentCongestion => some c.onPersistentCongestion

end Controller

end Netz.Quic.Congestion
