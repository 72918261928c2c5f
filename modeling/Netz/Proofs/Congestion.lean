/-
The window of New Reno.

No call takes the window below its minimum, and an ACK makes it no smaller.  A recovery epoch ends
with an ACK of a packet sent after it began, so without times it does not end at all; such an epoch
is begun by an explicit congestion event, which takes the time to be zero.
-/
import Netz.Quic.Congestion

namespace Netz.Quic.Congestion.Controller

structure Inv (maxDatagramSize : Nat) (c : Controller) : Prop where
  size : c.maxDatagramSize = maxDatagramSize
  least : minimumWindow maxDatagramSize ≤ c.congestionWindow
  most : c.congestionWindow ≤ maxU64

/-- What an ACK does to the window, which has to grow where it `must`. -/
structure Grows (must : Prop) (c c' : Controller) : Prop where
  size : c'.maxDatagramSize = c.maxDatagramSize
  le : c.congestionWindow ≤ c'.congestionWindow
  most : c'.congestionWindow ≤ maxU64
  lt : must → c.congestionWindow < maxU64 → c.congestionWindow < c'.congestionWindow

variable {maxDatagramSize bytes : Nat} {c : Controller}

lemma minimumWindow_pos (h : 0 < maxDatagramSize) : 0 < minimumWindow maxDatagramSize := by
  unfold minimumWindow saturate maxU64
  omega

lemma le_saturate (h : c.congestionWindow ≤ maxU64) (grown : Nat) :
    c.congestionWindow ≤ saturate (c.congestionWindow + grown) ∧
      saturate (c.congestionWindow + grown) ≤ maxU64 ∧
      (0 < grown → c.congestionWindow < maxU64 →
        c.congestionWindow < saturate (c.congestionWindow + grown)) := by
  unfold saturate
  omega

/-- Every round takes at least one byte. -/
theorem growLoop_grows (hsize : 0 < c.maxDatagramSize) (hpos : 0 < c.congestionWindow)
    (hmost : c.congestionWindow ≤ maxU64) {rounds : Nat}
    (hrounds : c.congestionAvoidanceBytesAcked < rounds) :
    ∃ c', growLoop rounds c = some c' ∧
      c'.congestionRecoveryStartTimeNs = c.congestionRecoveryStartTimeNs ∧
      Grows (c.congestionWindow ≤ c.congestionAvoidanceBytesAcked) c c' := by
  induction rounds generalizing c with
  | zero => exact absurd hrounds (Nat.not_lt_zero _)
  | succ rounds ih =>
    unfold growLoop
    by_cases hless : c.congestionAvoidanceBytesAcked < c.congestionWindow
    · rw [if_pos hless]
      exact ⟨c, rfl, rfl, rfl, le_rfl, hmost, fun hmust => absurd hmust (not_le.mpr hless)⟩
    rw [if_neg hless]
    dsimp only
    obtain ⟨hle, hcap, hlt⟩ := le_saturate hmost c.maxDatagramSize
    by_cases hfull : saturate (c.congestionWindow + c.maxDatagramSize) = maxU64
    · rw [if_pos hfull]
      exact ⟨_, rfl, rfl, rfl, hle, hcap, fun _ => hlt hsize⟩
    rw [if_neg hfull]
    obtain ⟨c', hrun, hrecovery, hgrown⟩ := ih (c := { c with
      congestionAvoidanceBytesAcked := c.congestionAvoidanceBytesAcked - c.congestionWindow
      congestionWindow := saturate (c.congestionWindow + c.maxDatagramSize) }) hsize
      (hpos.trans_le hle) hcap (by dsimp only; omega)
    exact ⟨c', hrun, hrecovery, hgrown.size, hle.trans hgrown.le, hgrown.most,
      fun _ hroom => Nat.lt_of_lt_of_le (hlt hsize hroom) hgrown.le⟩

lemma Inv.acked (h : Inv maxDatagramSize c) (hsize : 0 < maxDatagramSize) (bytes : Nat)
    (sentTimeNs : Option Nat) (utilized : Bool) :
    ∃ c', c.onAckedWithContextAndUtilization bytes sentTimeNs utilized = some c' ∧
      (c.congestionRecoveryStartTimeNs = none → c'.congestionRecoveryStartTimeNs = none) ∧
      Grows (c.recovering sentTimeNs = false ∧ utilized ∧ c.congestionWindow ≤ bytes) c c' := by
  have hpos := Nat.lt_of_lt_of_le (minimumWindow_pos hsize) h.least
  unfold onAckedWithContextAndUtilization
  by_cases hzero : bytes = 0
  · rw [if_pos hzero]
    exact ⟨c, rfl, id, rfl, le_rfl, h.most, fun hmust => by omega⟩
  rw [if_neg hzero]
  by_cases hrecovering : c.recovering sentTimeNs = true
  · rw [if_pos hrecovering]
    exact ⟨_, rfl, id, rfl, le_rfl, h.most, fun hmust => by simp [hrecovering] at hmust⟩
  rw [if_neg hrecovering]
  dsimp only
  cases utilized with
  | false => exact ⟨_, rfl, fun _ => rfl, rfl, le_rfl, h.most, fun hmust => by simp at hmust⟩
  | true =>
    by_cases hslow : c.congestionWindow < c.slowStartThreshold
    · obtain ⟨hle, hcap, hlt⟩ := le_saturate h.most bytes
      exact ⟨_, if_pos hslow, fun _ => rfl, rfl, hle, hcap, fun _ => hlt (by omega)⟩
    · obtain ⟨c', hrun, hrecovery, hgrown⟩ := growLoop_grows (c := { c.discard bytes with
        congestionRecoveryStartTimeNs := none
        congestionAvoidanceBytesAcked :=
          saturate (c.congestionAvoidanceBytesAcked + bytes) }) (h.size ▸ hsize) hpos h.most
        (Nat.lt_succ_self _)
      refine ⟨c', (if_neg hslow).trans hrun, fun _ => hrecovery, hgrown.size, hgrown.le, hgrown.most,
        fun hmust => hgrown.lt ?_⟩
      have hmost := h.most
      show c.congestionWindow ≤ saturate _
      unfold saturate
      omega

lemma Inv.reduce (h : Inv maxDatagramSize c) (eventTimeNs : Option Nat) :
    Inv maxDatagramSize (c.reduceForCongestion eventTimeNs) := by
  obtain ⟨rfl, hleast, hmost⟩ := h
  refine ⟨rfl, Nat.le_max_right _ _, Nat.max_le.mpr ⟨?_, Nat.min_le_right _ _⟩⟩
  unfold betaReduction
  omega

lemma Inv.init (maxDatagramSize : Nat) : Inv maxDatagramSize (init maxDatagramSize) := by
  refine ⟨rfl, ?_, Nat.le_trans (Nat.min_le_left _ _) (Nat.min_le_right _ _)⟩
  show minimumWindow maxDatagramSize ≤ initialWindow maxDatagramSize
  unfold minimumWindow initialWindow saturate
  omega

/-- **Every call returns, and keeps the window above its minimum.** -/
theorem Inv.exec (h : Inv maxDatagramSize c) (hsize : 0 < maxDatagramSize) (call : Call) :
    ∃ c', c.exec call = some c' ∧ Inv maxDatagramSize c' := by
  cases call with
  | reserve bytes =>
    refine ⟨_, rfl, ?_⟩
    unfold reserve
    split
    · exact h
    · split
      · exact h
      · exact ⟨h.size, h.least, h.most⟩
  | acked bytes sentTimeNs utilized =>
    obtain ⟨c', hrun, -, hgrown⟩ := h.acked hsize bytes sentTimeNs utilized
    exact ⟨c', hrun, hgrown.size.trans h.size, Nat.le_trans h.least hgrown.le, hgrown.most⟩
  | lost bytes lostSentTimeNs nowNs =>
    refine ⟨_, rfl, ?_⟩
    unfold onLostAt
    split
    · exact h
    · split
      · exact ⟨h.size, h.least, h.most⟩
      · exact Inv.reduce (c := c.discard bytes) ⟨h.size, h.least, h.most⟩ _
  | explicitCongestion eventTimeNs =>
    refine ⟨_, rfl, ?_⟩
    unfold onExplicitCongestion
    split
    · exact h
    · exact h.reduce _
  | persistentCongestion =>
    exact ⟨_, rfl, h.size, h.size ▸ le_rfl, Nat.min_le_right _ _⟩

/-- The calls without times. -/
def Call.Untimed : Call → Prop
  | .reserve _ => True
  | .acked _ sentTimeNs _ => sentTimeNs = none
  | .lost _ lostSentTimeNs nowNs => lostSentTimeNs = none ∧ nowNs = none
  | .explicitCongestion eventTimeNs => eventTimeNs = none
  | .persistentCongestion => True

lemma recovery_exec {call : Call} {c' : Controller} (h : Inv maxDatagramSize c)
    (hsize : 0 < maxDatagramSize) (huntimed : call.Untimed)
    (hother : call ≠ .explicitCongestion none) (hnone : c.congestionRecoveryStartTimeNs = none)
    (hrun : c.exec call = some c') : c'.congestionRecoveryStartTimeNs = none := by
  cases call with
  | reserve bytes =>
    cases hrun
    unfold reserve
    split
    · exact hnone
    · split
      · exact hnone
      · exact hnone
  | acked bytes sentTimeNs utilized =>
    obtain ⟨_, hacked, hkeeps, -⟩ := h.acked hsize bytes sentTimeNs utilized
    cases hacked.symm.trans hrun
    exact hkeeps hnone
  | lost bytes lostSentTimeNs nowNs =>
    obtain ⟨rfl, rfl⟩ := huntimed
    cases hrun
    unfold onLostAt
    split
    · exact hnone
    · split
      · exact hnone
      · rfl
  | explicitCongestion eventTimeNs => exact absurd (congrArg _ huntimed) hother
  | persistentCongestion =>
    cases hrun
    rfl

lemma Inv.run (h : Inv maxDatagramSize c) (hsize : 0 < maxDatagramSize) (calls : List Call) :
    ∃ c', calls.foldlM Controller.exec c = some c' ∧ Inv maxDatagramSize c' ∧
      ((∀ call ∈ calls, call.Untimed ∧ call ≠ .explicitCongestion none) →
        c.congestionRecoveryStartTimeNs = none → c'.congestionRecoveryStartTimeNs = none) := by
  induction calls generalizing c with
  | nil => exact ⟨c, rfl, h, fun _ => id⟩
  | cons call rest ih =>
    obtain ⟨next, hnext, hinv⟩ := h.exec hsize call
    obtain ⟨last, hrun, hlast, hnone⟩ := ih hinv
    refine ⟨last, ?_, hlast, fun hall hfirst => ?_⟩
    · rw [List.foldlM_cons, hnext]
      exact hrun
    · obtain ⟨hcall, hrest⟩ := List.forall_mem_cons.mp hall
      exact hnone hrest (recovery_exec h hsize hcall.1 hcall.2 hfirst hnext)

/-- **After every run the window is above its minimum, packets of the loss episode leave it alone,
and no ACK makes it smaller.  Without times, and without explicit congestion, the ACK of a whole
window makes it larger.** -/
theorem newReno_window (hsize : 0 < maxDatagramSize) (calls : List Call) :
    ∃ c, calls.foldlM exec (init maxDatagramSize) = some c ∧
      minimumWindow maxDatagramSize ≤ c.congestionWindow ∧
      (∀ recoveryStart sentTime bytes utilized nowNs,
        c.congestionRecoveryStartTimeNs = some recoveryStart → sentTime ≤ recoveryStart →
        (c.onAckedWithContextAndUtilization bytes (some sentTime) utilized).map
            (·.congestionWindow) = some c.congestionWindow ∧
          (c.onLostAt bytes (some sentTime) nowNs).congestionWindow = c.congestionWindow) ∧
      (∀ bytes sentTimeNs utilized, ∃ c',
        c.onAckedWithContextAndUtilization bytes sentTimeNs utilized = some c' ∧
          c.congestionWindow ≤ c'.congestionWindow) ∧
      ((∀ call ∈ calls, call.Untimed ∧ call ≠ .explicitCongestion none) →
        ∀ bytes, c.congestionWindow ≤ bytes → c.congestionWindow < maxU64 → ∃ c',
          c.onAckedWithContextAndUtilization bytes none true = some c' ∧
            c.congestionWindow < c'.congestionWindow) := by
  obtain ⟨c, hrun, hinv, hnone⟩ := (Inv.init maxDatagramSize).run hsize calls
  refine ⟨c, hrun, hinv.least, fun recoveryStart sentTime bytes utilized nowNs hstart hle => ?_,
    fun bytes sentTimeNs utilized => ?_, fun hall bytes hwhole hroom => ?_⟩
  · have hrecovering : c.recovering (some sentTime) = true := by
      unfold recovering
      rw [hstart]
      exact decide_eq_true hle
    unfold onAckedWithContextAndUtilization onLostAt
    rw [if_pos hrecovering, if_pos hrecovering]
    split
    · exact ⟨rfl, rfl⟩
    · exact ⟨rfl, rfl⟩
  · obtain ⟨c', hacked, -, hgrown⟩ := hinv.acked hsize bytes sentTimeNs utilized
    exact ⟨c', hacked, hgrown.le⟩
  · obtain ⟨c', hacked, -, hgrown⟩ := hinv.acked hsize bytes none true
    refine ⟨c', hacked, hgrown.lt ⟨?_, rfl, hwhole⟩ hroom⟩
    unfold recovering
    rw [hnone hall rfl]

theorem newReno_window_one_loss :
    ∃ c, [Call.reserve 1200, .lost 1200 none none].foldlM exec (init 1200) = some c ∧
      c.congestionWindow = 8400 ∧ ∃ c', c.onAckedWithContextAndUtilization 8400 none true = some c' ∧
        8400 < c'.congestionWindow := by
  obtain ⟨c, hrun, -, -, -, hgrows⟩ :=
    newReno_window (show 0 < 1200 by decide) [Call.reserve 1200, .lost 1200 none none]
  cases hrun
  exact ⟨_, rfl, rfl, hgrows (by simp [Call.Untimed]) 8400 (by decide) (by decide)⟩

/-- An explicit congestion event without a time freezes the window. -/
theorem untimed_congestion_freezes :
    ∃ c, [Call.explicitCongestion none].foldlM exec (init 1200) = some c ∧
      c.congestionWindow = 8400 ∧ c.onAckedWithContextAndUtilization 8400 none true = some c :=
  ⟨_, rfl, rfl, rfl⟩

end Netz.Quic.Congestion.Controller
