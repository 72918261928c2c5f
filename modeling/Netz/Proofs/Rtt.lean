/-
The RTT estimates lie between the samples.

A sample is adjusted to no less than the minimum, so the weighted mean of it and the estimate so far
rounds down to no less than that, and is no more than the larger of the two.
-/
import Netz.Quic.Rtt

namespace Netz.Quic.Rtt.Stats

open Lib List

/-- A call's sample, apart from the delta of zero, which is none, and those before a reset. -/
def sampled (samples : List Nat) : Call → List Nat
  | .updateAt sendDeltaNs .. => if sendDeltaNs = 0 then samples else samples ++ [sendDeltaNs]
  | .onPersistentCongestion => []
  | .setMaxAckDelay _ => samples

def Call.InRange : Call → Prop
  | .updateAt sendDeltaNs .. => sendDeltaNs ≤ 2 ^ 60
  | _ => True

/--
The call takes the delay of the ACK, cut to the largest the peer may take, off its sample, and the
sum that decides how much of it is too large for a `u64`.
-/
def DelayOverflows (stats : Stats) : Call → Prop
  | .updateAt sendDeltaNs ackDelayNs handshakeConfirmed _ =>
    sendDeltaNs ≠ 0 ∧ (stats.hasMeasurement = true ∧ stats.resetOnNextSample = false) ∧
      handshakeConfirmed = true ∧
      maxU64 < min stats.minRtt sendDeltaNs + min ackDelayNs stats.maxAckDelay
  | _ => False

/-- The calls reach one whose delay is too large. -/
def ReachesOverflow (stats : Stats) (calls : List Call) : Prop :=
  ∃ front call rest reached, calls = front ++ call :: rest ∧
    front.foldlM exec stats = .ok reached ∧ reached.DelayOverflows call

/-- What the estimates are to the samples since the last reset. -/
structure Between (samples : List Nat) (stats : Stats) : Prop where
  measured : stats.hasMeasurement = true ∧ stats.resetOnNextSample = false
  least : stats.minRtt ∈ samples ∧ ∀ sample ∈ samples, stats.minRtt ≤ sample
  min_le : stats.minRtt ≤ stats.smoothedRtt
  le_largest : ∃ largest ∈ samples, stats.smoothedRtt ≤ largest

structure Inv (samples : List Nat) (stats : Stats) : Prop where
  fresh : samples = [] → stats.hasMeasurement = false ∨ stats.resetOnNextSample = true
  between : samples ≠ [] → Between samples stats ∧ stats.rttVar ≤ 2 ^ 60
  small : ∀ sample ∈ samples, sample ≤ 2 ^ 60

variable {samples : List Nat} {stats : Stats}

lemma reachesOverflow_cons_iff {call : Call} {rest : List Call} :
    stats.ReachesOverflow (call :: rest) ↔ stats.DelayOverflows call ∨
      ∃ next, stats.exec call = .ok next ∧ next.ReachesOverflow rest := by
  constructor
  · rintro ⟨front, failing, behind, reached, hcalls, hrun, hover⟩
    cases front with
    | nil =>
      cases hcalls
      cases hrun
      exact .inl hover
    | cons first front =>
      cases hcalls
      rw [foldlM_cons] at hrun
      cases hnext : stats.exec call with
      | error e =>
        rw [hnext] at hrun
        cases hrun
      | ok next =>
        rw [hnext] at hrun
        exact .inr ⟨next, rfl, front, failing, behind, reached, rfl, hrun, hover⟩
  · rintro (hover | ⟨next, hnext, front, failing, behind, reached, rfl, hrun, hover⟩)
    · exact ⟨[], call, rest, stats, rfl, rfl, hover⟩
    · refine ⟨call :: front, failing, behind, reached, rfl, ?_, hover⟩
      rw [foldlM_cons, hnext]
      exact hrun

/-! ### One sample -/

lemma adjustedRtt_overflow (stats : Stats) (hsmall : stats.minRtt ≤ 2 ^ 60)
    {sendDeltaNs ackDelayNs : Nat} (hover : maxU64 < stats.minRtt + min ackDelayNs stats.maxAckDelay) :
    stats.adjustedRtt sendDeltaNs ackDelayNs true = .error .ackDelay := by
  have hlarge : 0 < min ackDelayNs stats.maxAckDelay := by
    unfold maxU64 at hover
    omega
  unfold adjustedRtt
  rw [if_pos ⟨rfl, by omega, by omega⟩]
  dsimp only [sum]
  rw [if_neg (by omega)]
  rfl

lemma adjustedRtt_spec (stats : Stats) {sendDeltaNs : Nat} (h : stats.minRtt ≤ sendDeltaNs)
    {ackDelayNs : Nat} {handshakeConfirmed : Bool}
    (hfits : handshakeConfirmed = true → stats.minRtt + min ackDelayNs stats.maxAckDelay ≤ maxU64) :
    ∃ adjusted, stats.adjustedRtt sendDeltaNs ackDelayNs handshakeConfirmed = .ok adjusted ∧
      stats.minRtt ≤ adjusted ∧ adjusted ≤ sendDeltaNs := by
  unfold adjustedRtt
  split
  · rename_i htaken
    dsimp only [sum]
    rw [if_pos (hfits htaken.1)]
    refine ⟨_, rfl, ?_⟩
    dsimp only
    split
    · omega
    · omega
  · exact ⟨_, rfl, h, le_rfl⟩

lemma updateAt_overflow {sendDeltaNs ackDelayNs : Nat} {handshakeConfirmed : Bool}
    {sampleSentTimeNs : Option Nat} (hsmall : sendDeltaNs ≤ 2 ^ 60) (hover : stats.DelayOverflows
      (.updateAt sendDeltaNs ackDelayNs handshakeConfirmed sampleSentTimeNs)) :
    stats.updateAt sendDeltaNs ackDelayNs handshakeConfirmed sampleSentTimeNs =
      .error .ackDelay := by
  obtain ⟨hzero, hmeasured, rfl, hlarge⟩ := hover
  unfold Stats.updateAt
  rw [if_neg hzero, if_neg (by simp [hmeasured])]
  dsimp only
  rw [adjustedRtt_overflow _ (Nat.le_trans (Nat.min_le_right _ _) hsmall) hlarge]
  rfl

lemma Inv.updateAt (h : Inv samples stats) {sendDeltaNs ackDelayNs : Nat}
    {handshakeConfirmed : Bool} {sampleSentTimeNs : Option Nat} (hsmall : sendDeltaNs ≤ 2 ^ 60)
    (hfits : ¬stats.DelayOverflows
      (.updateAt sendDeltaNs ackDelayNs handshakeConfirmed sampleSentTimeNs)) :
    ∃ stats', stats.updateAt sendDeltaNs ackDelayNs handshakeConfirmed sampleSentTimeNs =
        .ok stats' ∧
      Inv (if sendDeltaNs = 0 then samples else samples ++ [sendDeltaNs]) stats' := by
  unfold Stats.updateAt
  by_cases hzero : sendDeltaNs = 0
  · rw [if_pos hzero, if_pos hzero]
    exact ⟨_, rfl, h⟩
  rw [if_neg hzero, if_neg hzero]
  have hall : ∀ sample ∈ samples ++ [sendDeltaNs], sample ≤ 2 ^ 60 := fun sample hsamp => by
    rcases mem_append.mp hsamp with hold | hnew
    · exact h.small sample hold
    · exact mem_singleton.mp hnew ▸ hsmall
  by_cases hempty : samples = []
  · subst hempty
    rw [if_pos (h.fresh rfl)]
    exact ⟨_, rfl, by simp, fun _ =>
      ⟨⟨⟨rfl, rfl⟩, by simp, le_rfl, by simp⟩, by dsimp only; omega⟩, hall⟩
  obtain ⟨⟨hmeasured, hleast, hmin, largest, hmem, hmax⟩, hvar⟩ := h.between hempty
  rw [if_neg (by simp [hmeasured])]
  have hbound := h.small largest hmem
  dsimp only
  obtain ⟨adjusted, hadjusted, hlow, hhigh⟩ := adjustedRtt_spec { stats with
      latestRtt := sendDeltaNs
      firstRttSampleSentTimeNs := stats.firstRttSampleSentTimeNs.or sampleSentTimeNs
      minRtt := min stats.minRtt sendDeltaNs } (Nat.min_le_right _ _)
    (fun hconf => not_lt.mp fun hlarge => hfits ⟨hzero, hmeasured, hconf, hlarge⟩)
  rw [hadjusted]
  simp only at hlow
  have hcap : stats.smoothedRtt * 7 + adjusted ≤ maxU64 := by
    unfold maxU64
    omega
  have hvarCap : stats.rttVar * 3 + (if adjusted < stats.smoothedRtt then stats.smoothedRtt - adjusted
      else adjusted - stats.smoothedRtt) ≤ 2 ^ 62 := by
    split
    · omega
    · omega
  simp only [bind, Except.bind, sum, if_pos hcap,
    if_pos (hvarCap.trans (by decide : 2 ^ 62 ≤ maxU64))]
  refine ⟨_, rfl, by simp, fun _ => ⟨⟨hmeasured, ⟨?_, ?_⟩, ?_, ?_⟩, by dsimp only; omega⟩, hall⟩
  · rcases Nat.le_total stats.minRtt sendDeltaNs with hle | hle
    · exact mem_append_left _ ((Nat.min_eq_left hle).symm ▸ hleast.1)
    · exact mem_append_right _ (mem_singleton.mpr (Nat.min_eq_right hle))
  · intro sample hsamp
    rcases mem_append.mp hsamp with hold | hnew
    · exact Nat.le_trans (Nat.min_le_left _ _) (hleast.2 sample hold)
    · exact mem_singleton.mp hnew ▸ Nat.min_le_right _ _
  · dsimp only
    omega
  · rcases Nat.le_total largest sendDeltaNs with hle | hle
    · exact ⟨sendDeltaNs, by simp, by dsimp only; omega⟩
    · exact ⟨largest, mem_append_left _ hmem, by dsimp only; omega⟩

lemma exec_overflow {call : Call} (hcall : call.InRange) (hover : stats.DelayOverflows call) :
    stats.exec call = .error .ackDelay := by
  cases call with
  | updateAt => exact updateAt_overflow hcall hover
  | onPersistentCongestion | setMaxAckDelay => exact hover.elim

lemma Inv.exec (h : Inv samples stats) {call : Call} (hcall : call.InRange)
    (hfits : ¬stats.DelayOverflows call) :
    ∃ stats', stats.exec call = .ok stats' ∧ Inv (sampled samples call) stats' := by
  cases call with
  | updateAt => exact h.updateAt hcall hfits
  | onPersistentCongestion =>
    exact ⟨_, rfl, fun _ => .inr rfl, fun hne => absurd rfl hne, by simp [sampled]⟩
  | setMaxAckDelay maxAckDelay =>
    exact ⟨_, rfl, h.fresh, fun hne => ⟨⟨(h.between hne).1.measured, (h.between hne).1.least,
      (h.between hne).1.min_le, (h.between hne).1.le_largest⟩, (h.between hne).2⟩, h.small⟩

/-! ### Every run -/

lemma Inv.run (h : Inv samples stats) {calls : List Call} (hcalls : ∀ call ∈ calls, call.InRange) :
    (stats.ReachesOverflow calls ∧ calls.foldlM Stats.exec stats = .error .ackDelay) ∨
      (¬stats.ReachesOverflow calls ∧ ∃ stats', calls.foldlM Stats.exec stats = .ok stats' ∧
        Inv (calls.foldl sampled samples) stats') := by
  induction calls generalizing samples stats with
  | nil => exact .inr ⟨fun hover => by simp [ReachesOverflow] at hover, stats, rfl, h⟩
  | cons call rest ih =>
    obtain ⟨hcall, hrest⟩ := forall_mem_cons.mp hcalls
    rw [foldlM_cons, reachesOverflow_cons_iff]
    by_cases hover : stats.DelayOverflows call
    · exact .inl ⟨.inl hover, by rw [exec_overflow hcall hover]; rfl⟩
    obtain ⟨next, hnext, hinv⟩ := h.exec hcall hover
    rw [hnext]
    rcases ih hinv hrest with ⟨hlater, herror⟩ | ⟨hnever, hok⟩
    · exact .inl ⟨.inr ⟨next, rfl, hlater⟩, herror⟩
    · refine .inr ⟨?_, hok⟩
      rintro (hnow | ⟨_, hsame, hlater⟩)
      · exact hover hnow
      · cases hsame
        exact hnever hlater

/--
**The smoothed estimate lies between the least sample since the last reset, which the minimum is,
and the largest.**  The weighted sums are never too large.  The calls fail just where the delay of
an ACK, added to the minimum, is.
-/
theorem estimates_between (maxAckDelay : Nat) (calls : List Call)
    (hcalls : ∀ call ∈ calls, call.InRange) :
    (∀ overflow, calls.foldlM exec { maxAckDelay := maxAckDelay } = .error overflow ↔
        overflow = .ackDelay ∧ ReachesOverflow { maxAckDelay := maxAckDelay } calls) ∧
      ∀ stats, calls.foldlM exec { maxAckDelay := maxAckDelay } = .ok stats →
        calls.foldl sampled [] ≠ [] → Between (calls.foldl sampled []) stats := by
  have hinit : Inv [] { maxAckDelay := maxAckDelay } :=
    ⟨fun _ => .inl rfl, fun hne => absurd rfl hne, by simp⟩
  rcases hinit.run hcalls with ⟨hover, herror⟩ | ⟨hnever, stats, hrun, hinv⟩
  · rw [herror]
    refine ⟨fun overflow => ⟨fun h => ⟨(Except.error.inj h).symm, hover⟩, fun h => ?_⟩, ?_⟩
    · rw [h.1]
    · intro _ h
      cases h
  · rw [hrun]
    refine ⟨fun overflow => ⟨fun h => ?_, fun h => absurd h.2 hnever⟩, ?_⟩
    · cases h
    · intro stats' h hne
      cases h
      exact (hinv.between hne).1

theorem estimates_between_two :
    ∃ stats, [Call.updateAt 8 0 true none, .updateAt 16 2 true none].foldlM exec
        { maxAckDelay := 25 } = .ok stats ∧ stats.minRtt = 8 ∧ stats.smoothedRtt = 8 ∧
      Between [8, 16] stats := by
  have hbetween := (estimates_between 25 [.updateAt 8 0 true none, .updateAt 16 2 true none]
    (by simp [Call.InRange])).2
  exact ⟨_, rfl, rfl, rfl, hbetween _ rfl (by decide)⟩

/-- A sample of zero is not taken for one. -/
theorem zero_sample_ignored :
    ∃ stats, [Call.updateAt 8 0 true none, .updateAt 0 0 true none].foldlM exec
        { maxAckDelay := 25 } = .ok stats ∧ ¬ stats.minRtt ≤ 0 :=
  ⟨_, rfl, by decide⟩

end Netz.Quic.Rtt.Stats
