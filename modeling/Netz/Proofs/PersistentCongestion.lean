/-
Persistent congestion periods are the longest there are.

The scan keeps the best period so far and the run it is in.  What it relies on is that a run which
reaches the next packet number starts at the packet the builder remembers: an earlier start in the
same run gives a longer period, as packets are sent in the order of their numbers.
-/
import Netz.Quic.SentPackets

namespace Netz.Quic

open List Option

namespace SentPacketTracker

/-- Packets in the order of their numbers and of the times they were sent at. -/
structure InOrder (packets : List SentPacket) : Prop where
  ascending : packets.Pairwise fun a b => a.packetNumber < b.packetNumber
  small : ∀ p ∈ packets, p.packetNumber ≤ maxU64
  times : packets.Pairwise fun a b => ∀ x y, a.sentTimeNs = some x → b.sentTimeNs = some y → x ≤ y

/-- A lost packet that may be part of a period. -/
structure Eligible (first : Nat) (largest : Option Nat) (p : SentPacket) : Prop where
  known : ∀ l, largest = some l → p.packetNumber ≤ l
  lost : p.lost = true
  unacknowledged : p.acknowledged = false
  sent : ∃ time, p.sentTimeNs = some time ∧ first ≤ time

/-- Two ack-eliciting lost packets, and every packet number between them that of a lost one. -/
structure LostPair (packets : List SentPacket) (first : Nat) (largest : Option Nat)
    (s e : SentPacket) : Prop where
  start : s ∈ packets
  stop : e ∈ packets
  order : s.packetNumber < e.packetNumber
  startElicits : s.ackEliciting = true
  stopElicits : e.ackEliciting = true
  between : ∀ n, s.packetNumber ≤ n → n ≤ e.packetNumber →
    ∃ p ∈ packets, p.packetNumber = n ∧ Eligible first largest p

/-- The pair ends past the period reported before. -/
def EndsAfter (after : Option Nat) (e : SentPacket) : Prop :=
  ∀ a, after = some a → a < e.packetNumber

def periodOf (s e : SentPacket) : PersistentCongestionPeriod :=
  ⟨s.packetNumber, e.packetNumber, s.sentTimeNs.getD 0, e.sentTimeNs.getD 0⟩

variable {first : Nat} {largest after : Option Nat} {pre rest : List SentPacket}
  {s e q r : SentPacket} {best : Option PersistentCongestionPeriod}
  {current : Option PersistentCongestionBuilder}

/-! ### What the scan knows -/

/-- The best period is that of a pair, and none of the pairs has a longer one. -/
structure Best (first : Nat) (largest after : Option Nat) (pre : List SentPacket)
    (best : Option PersistentCongestionPeriod) : Prop where
  pair : ∀ p, best = some p →
    ∃ s e, LostPair pre first largest s e ∧ EndsAfter after e ∧ p = periodOf s e
  longest : ∀ s e, LostPair pre first largest s e → EndsAfter after e →
    ∃ p, best = some p ∧ (periodOf s e).durationNs ≤ p.durationNs

/-- An ack-eliciting packet with lost packets from it on to just before `n`. -/
structure Linked (pre : List SentPacket) (first : Nat) (largest : Option Nat) (n : Nat)
    (r : SentPacket) : Prop where
  mem : r ∈ pre
  elicits : r.ackEliciting = true
  lt : r.packetNumber < n
  run : ∀ k, r.packetNumber ≤ k → k < n → ∃ p ∈ pre, p.packetNumber = k ∧ Eligible first largest p

/-- The builder remembers the first packet of the run that reaches the last packet. -/
structure Run (pre : List SentPacket) (first : Nat) (largest : Option Nat)
    (current : Option PersistentCongestionBuilder) : Prop where
  held : ∀ b, current = some b → (∀ p ∈ pre, p.packetNumber ≤ b.previousPacketNumber) ∧
    ∃ s, Linked pre first largest (b.previousPacketNumber + 1) s ∧
      b.period.startPacketNumber = s.packetNumber ∧ s.sentTimeNs = some b.period.startTimeNs
  earliest : ∀ n, (∀ p ∈ pre, p.packetNumber < n) → ∀ r, Linked pre first largest n r →
    ∃ b, current = some b ∧ b.previousPacketNumber + 1 = n ∧
      b.period.startTimeNs ≤ r.sentTimeNs.getD 0

/-! ### One more packet -/

lemma between_append {lo hi : Nat} (hq : hi ≤ q.packetNumber)
    (h : ∀ n, lo ≤ n → n < hi → ∃ p ∈ pre ++ [q], p.packetNumber = n ∧ Eligible first largest p) :
    ∀ n, lo ≤ n → n < hi → ∃ p ∈ pre, p.packetNumber = n ∧ Eligible first largest p := by
  intro n hlo hhi
  obtain ⟨p, hp, hn, hel⟩ := h n hlo hhi
  rcases mem_append.mp hp with hold | hnew
  · exact ⟨p, hold, hn, hel⟩
  · rw [mem_singleton.mp hnew] at hn
    omega

lemma LostPair.append (h : LostPair pre first largest s e) :
    LostPair (pre ++ [q]) first largest s e where
  start := mem_append_left _ h.start
  stop := mem_append_left _ h.stop
  order := h.order
  startElicits := h.startElicits
  stopElicits := h.stopElicits
  between := fun n h₁ h₂ =>
    let ⟨p, hp, hrest⟩ := h.between n h₁ h₂
    ⟨p, mem_append_left _ hp, hrest⟩

/-- A pair that a new packet is part of ends with it. -/
theorem LostPair.of_append (hnew : ∀ p ∈ pre, p.packetNumber < q.packetNumber)
    (h : LostPair (pre ++ [q]) first largest s e) :
    LostPair pre first largest s e ∨ e = q ∧ Linked pre first largest q.packetNumber s := by
  have hmem : ∀ p ∈ pre ++ [q], p ∈ pre ∨ p = q := by simp
  have horder := h.order
  rcases hmem e h.stop with hstop | rfl
  · have hlt := hnew e hstop
    rcases hmem s h.start with hstart | rfl
    · have hbetween : ∀ n, s.packetNumber ≤ n → n < e.packetNumber + 1 →
          ∃ p ∈ pre, p.packetNumber = n ∧ Eligible first largest p :=
        between_append (by omega) (fun n h₁ h₂ => h.between n h₁ (by omega))
      exact .inl ⟨hstart, hstop, horder, h.startElicits, h.stopElicits,
        fun n h₁ h₂ => hbetween n h₁ (by omega)⟩
    · omega
  rcases hmem s h.start with hstart | rfl
  · exact .inr ⟨rfl, hstart, h.startElicits, horder,
      between_append le_rfl (fun n h₁ h₂ => h.between n h₁ (by omega))⟩
  · omega

lemma LostPair.stop_eligible (hpre : (pre ++ [q]).Pairwise fun a b =>
    a.packetNumber < b.packetNumber) (h : LostPair (pre ++ [q]) first largest s q) :
    Eligible first largest q := by
  obtain ⟨p, hp, hn, hel⟩ := h.between q.packetNumber (Nat.le_of_lt h.order) le_rfl
  have hlt := (pairwise_append.mp hpre).2.2
  rcases mem_append.mp hp with hold | hnew
  · have := hlt p hold q (mem_singleton_self q)
    omega
  · rwa [mem_singleton.mp hnew] at hel

/-- A packet that cannot end a pair leaves the best period as it is. -/
theorem Best.skip (h : Best first largest after pre best)
    (hnew : ∀ p ∈ pre, p.packetNumber < q.packetNumber)
    (hno : ∀ s, LostPair (pre ++ [q]) first largest s q → False) :
    Best first largest after (pre ++ [q]) best where
  pair := fun p hp =>
    let ⟨s, e, hpair, hends, hperiod⟩ := h.pair p hp
    ⟨s, e, hpair.append, hends, hperiod⟩
  longest := by
    intro s e hpair hends
    rcases hpair.of_append hnew with hold | ⟨rfl, -⟩
    · exact h.longest s e hold hends
    · exact (hno s hpair).elim

lemma Run.stop (hq : ¬ Eligible first largest q)
    (hpre : (pre ++ [q]).Pairwise fun a b => a.packetNumber < b.packetNumber) :
    Run (pre ++ [q]) first largest none where
  held := nofun
  earliest := by
    intro n hn r hlinked
    have hlt := (pairwise_append.mp hpre).2.2
    have hmem := hn q (by simp)
    obtain ⟨p, hp, hpn, hel⟩ := hlinked.run q.packetNumber (by
      rcases mem_append.mp hlinked.mem with hold | hnew
      · exact Nat.le_of_lt (hlt r hold q (by simp))
      · rw [mem_singleton.mp hnew]) hmem
    rcases mem_append.mp hp with hold | hnew
    · have := hlt p hold q (by simp)
      omega
    · rw [mem_singleton.mp hnew] at hel
      exact absurd hel hq

lemma Linked.append (h : Linked pre first largest q.packetNumber r)
    (hq : Eligible first largest q) : Linked (pre ++ [q]) first largest (q.packetNumber + 1) r where
  mem := mem_append_left _ h.mem
  elicits := h.elicits
  lt := Nat.lt_succ_of_lt h.lt
  run := by
    intro k h₁ h₂
    by_cases hk : k < q.packetNumber
    · obtain ⟨p, hp, hrest⟩ := h.run k h₁ hk
      exact ⟨p, mem_append_left _ hp, hrest⟩
    · exact ⟨q, by simp, by omega, hq⟩

lemma Linked.of_append (hnew : ∀ p ∈ pre, p.packetNumber < q.packetNumber) {n : Nat}
    (hn : q.packetNumber < n) (h : Linked (pre ++ [q]) first largest n r) :
    n = q.packetNumber + 1 ∧ (r = q ∨ Linked pre first largest q.packetNumber r) := by
  have hmem : ∀ p ∈ pre ++ [q], p ∈ pre ∨ p = q := by simp
  have hlast : n = q.packetNumber + 1 := by
    by_contra hne
    have hr : r.packetNumber ≤ q.packetNumber := by
      rcases hmem r h.mem with hold | rfl
      · exact Nat.le_of_lt (hnew r hold)
      · exact le_rfl
    obtain ⟨p, hp, hpn, -⟩ := h.run (q.packetNumber + 1) (by omega) (by omega)
    rcases hmem p hp with hold | rfl
    · have := hnew p hold
      omega
    · omega
  refine ⟨hlast, ?_⟩
  rcases hmem r h.mem with hold | rfl
  · exact .inr ⟨hold, h.elicits, hnew r hold,
      between_append le_rfl (fun k h₁ h₂ => h.run k h₁ (by omega))⟩
  · exact .inl rfl

lemma Run.continue (h : Run pre first largest current)
    (hpre : (pre ++ [q]).Pairwise fun a b => a.packetNumber < b.packetNumber)
    (hq : Eligible first largest q) {b b' : PersistentCongestionBuilder}
    (hb : current = some b) (hnext : b.previousPacketNumber + 1 = q.packetNumber)
    (hstart : b'.period.startPacketNumber = b.period.startPacketNumber)
    (htime : b'.period.startTimeNs = b.period.startTimeNs)
    (hprev : b'.previousPacketNumber = q.packetNumber)
    (hsent : b.period.startTimeNs ≤ q.sentTimeNs.getD 0) :
    Run (pre ++ [q]) first largest (some b') where
  held := by
    intro b₁ hb₁
    obtain rfl := some.inj hb₁
    obtain ⟨hall, s, hs, hnum, hsentTime⟩ := h.held b hb
    rw [hnext] at hs
    rw [hprev]
    refine ⟨fun p hp => ?_, s, hs.append hq, hstart.trans hnum, htime ▸ hsentTime⟩
    rcases mem_append.mp hp with hold | hnew
    · have := hall p hold
      omega
    · rw [mem_singleton.mp hnew]
  earliest := by
    intro n hn r hlinked
    have hlt := fun p hp => (pairwise_append.mp hpre).2.2 p hp q (mem_singleton_self q)
    obtain ⟨rfl, hr⟩ := hlinked.of_append hlt (hn q (by simp))
    refine ⟨b', rfl, by rw [hprev], ?_⟩
    rw [htime]
    rcases hr with rfl | hold
    · exact hsent
    obtain ⟨b₀, hb₀, -, hle⟩ := h.earliest q.packetNumber hlt r hold
    rw [hb, some.injEq] at hb₀
    rwa [hb₀]

/-- A lost packet that no run reaches starts one if it is ack-eliciting. -/
theorem Run.restart
    (hpre : (pre ++ [q]).Pairwise fun a b => a.packetNumber < b.packetNumber)
    (hq : Eligible first largest q) {time : Nat} (htime : q.sentTimeNs = some time)
    (hno : ∀ r, ¬ Linked pre first largest q.packetNumber r) :
    Run (pre ++ [q]) first largest (if q.ackEliciting = true then
      some ⟨⟨q.packetNumber, q.packetNumber, time, time⟩, q.packetNumber⟩ else none) where
  held := by
    intro b hb
    split at hb
    next helicits =>
      cases hb
      refine ⟨fun p hp => ?_, q, ⟨by simp, helicits, Nat.lt_succ_self _, fun k h₁ h₂ =>
        ⟨q, by simp, by dsimp only at h₂; omega, hq⟩⟩, rfl, htime⟩
      rcases mem_append.mp hp with hold | hnew
      · exact Nat.le_of_lt ((pairwise_append.mp hpre).2.2 p hold q (by simp))
      · rw [mem_singleton.mp hnew]
    · cases hb
  earliest := by
    intro n hn r hlinked
    have hlt := fun p hp => (pairwise_append.mp hpre).2.2 p hp q (mem_singleton_self q)
    obtain ⟨rfl, rfl | hold⟩ := hlinked.of_append hlt (hn q (by simp))
    · simp [hlinked.elicits, htime]
    · exact absurd hold (hno r)

lemma Best.consider (h : Best first largest after pre best) (hrun : Run pre first largest current)
    (hpre : (pre ++ [q]).Pairwise fun a b => a.packetNumber < b.packetNumber)
    (hq : Eligible first largest q) (helicits : q.ackEliciting = true)
    {b : PersistentCongestionBuilder} (hb : current = some b)
    (hnext : b.previousPacketNumber + 1 = q.packetNumber) {time : Nat}
    (htime : q.sentTimeNs = some time) :
    Best first largest after (pre ++ [q]) (considerPersistentCongestionPeriod best
      { b.period with endPacketNumber := q.packetNumber, endTimeNs := time } after) := by
  have hlt := fun p hp => (pairwise_append.mp hpre).2.2 p hp q (mem_singleton_self q)
  obtain ⟨-, s, hs, hnum, hsent⟩ := hrun.held b hb
  rw [hnext] at hs
  have hpair : LostPair (pre ++ [q]) first largest s q := by
    have hs' := hs.append hq
    exact ⟨hs'.mem, by simp, hs.lt, hs.elicits, helicits, fun n h₁ h₂ => hs'.run n h₁ (by omega)⟩
  have hperiod : { b.period with endPacketNumber := q.packetNumber, endTimeNs := time }
      = periodOf s q := by simp [periodOf, hnum, hsent, htime]
  have hlongest : ∀ r, Linked pre first largest q.packetNumber r →
      (periodOf r q).durationNs ≤ (periodOf s q).durationNs := by
    intro r hr
    obtain ⟨b₀, hb₀, -, hle⟩ := hrun.earliest q.packetNumber hlt r hr
    rw [hb, some.injEq] at hb₀
    rw [← hb₀] at hle
    simp only [PersistentCongestionPeriod.durationNs, periodOf, hsent, getD_some]
    omega
  rw [hperiod]
  unfold considerPersistentCongestionPeriod
  rw [if_neg (show ¬ (periodOf s q).startPacketNumber = (periodOf s q).endPacketNumber from
    Nat.ne_of_lt hs.lt)]
  have hafter : after.any ((periodOf s q).endPacketNumber ≤ ·) = true ↔ ¬ EndsAfter after q := by
    cases after with
    | none => simp [EndsAfter]
    | some a =>
      rw [any_some, decide_eq_true_iff]
      simp [EndsAfter, periodOf]
  by_cases hends : EndsAfter after q
  · rw [if_neg (by rw [hafter]; exact not_not.mpr hends)]
    have hkeep : ∀ p, (best = some p → (periodOf s q).durationNs ≤ p.durationNs) → best = some p →
        Best first largest after (pre ++ [q]) (some p) := by
      rintro p hle rfl
      refine ⟨?_, fun s' e hpair' hends' => ?_⟩
      · intro p' hp'
        obtain ⟨s', e', hold, hends', hp⟩ := h.pair p' hp'
        exact ⟨s', e', hold.append, hends', hp⟩
      rcases hpair'.of_append hlt with hold | ⟨rfl, hlinked⟩
      · exact h.longest s' e hold hends'
      · exact ⟨p, rfl, (hlongest s' hlinked).trans (hle rfl)⟩
    have htake : (∀ p, best = some p → p.durationNs ≤ (periodOf s q).durationNs) →
        Best first largest after (pre ++ [q]) (some (periodOf s q)) := by
      intro hle
      refine ⟨?_, fun s' e hpair' hends' => ⟨_, rfl, ?_⟩⟩
      · rintro p' hp'
        exact ⟨s, q, hpair, hends, (some.inj hp').symm⟩
      rcases hpair'.of_append hlt with hold | ⟨rfl, hlinked⟩
      · obtain ⟨p, hp, hdur⟩ := h.longest s' e hold hends'
        exact hdur.trans (hle p hp)
      · exact hlongest s' hlinked
    cases best with
    | none => exact htake nofun
    | some p =>
      dsimp only
      split
      next hlonger =>
        refine htake fun p' hp' => ?_
        cases hp'
        omega
      next hshorter => exact hkeep p (fun _ => by omega) rfl
  rw [if_pos (hafter.mpr hends)]
  refine ⟨fun p hp => ?_, fun s' e hpair' hends' => ?_⟩
  · obtain ⟨s', e', hold, hends', hp⟩ := h.pair p hp
    exact ⟨s', e', hold.append, hends', hp⟩
  rcases hpair'.of_append hlt with hold | ⟨rfl, -⟩
  · exact h.longest s' e hold hends'
  · exact absurd hends' hends

/-! ### The scan -/

lemma Best.past {l : Nat} (hbest : Best first (some l) after pre best)
    (h : (pre ++ rest).Pairwise fun a b => a.packetNumber < b.packetNumber)
    (hpast : ∀ p ∈ rest, l < p.packetNumber) : Best first (some l) after (pre ++ rest) best := by
  induction rest generalizing pre with
  | nil => simpa using hbest
  | cons q rest ih =>
    rw [append_cons] at h ⊢
    have hq := (pairwise_append.mp h).1
    refine ih (hbest.skip (fun p hp => (pairwise_append.mp hq).2.2 p hp q (by simp)) ?_) h
      (fun p hp => hpast p (mem_cons_of_mem _ hp))
    intro s hpair
    have hknown := (hpair.stop_eligible hq).known l rfl
    have := hpast q mem_cons_self
    omega

lemma continuedRun_some {n : Nat} {b : PersistentCongestionBuilder}
    (h : continuedRun current n = some b) : current = some b ∧ b.previousPacketNumber + 1 = n := by
  obtain ⟨hcurrent, hpre⟩ := filter_eq_some_iff.mp h
  unfold isImmediatelyBefore at hpre
  split at hpre
  · cases hpre
  · exact ⟨hcurrent, of_decide_eq_true hpre⟩

lemma Run.not_linked (h : Run pre first largest current)
    (hnew : ∀ p ∈ pre, p.packetNumber < q.packetNumber) (hsmall : q.packetNumber ≤ maxU64)
    (hnone : continuedRun current q.packetNumber = none) :
    ¬ Linked pre first largest q.packetNumber r := by
  intro hlinked
  obtain ⟨b, rfl, hnext, -⟩ := h.earliest _ hnew r hlinked
  have hne : b.previousPacketNumber ≠ maxU64 := by omega
  simp [continuedRun, isImmediatelyBefore, hnext, hne] at hnone

lemma scan_best (h : InOrder (pre ++ rest)) (hbest : Best first largest after pre best)
    (hrun : Run pre first largest current) :
    Best first largest after (pre ++ rest)
      (persistentCongestionScan first largest after rest best current) := by
  induction rest generalizing pre best current with
  | nil => simpa [persistentCongestionScan] using hbest
  | cons q rest ih =>
    have hsplit : pre ++ q :: rest = pre ++ [q] ++ rest := append_cons ..
    have hq := (pairwise_append.mp (hsplit ▸ h.ascending)).1
    have hnew := fun p hp => (pairwise_append.mp hq).2.2 p hp q (mem_singleton_self q)
    have hskip : ¬ Eligible first largest q → Best first largest after (pre ++ q :: rest)
          (persistentCongestionScan first largest after rest best none) := by
      intro hno
      rw [hsplit] at h ⊢
      exact ih h (hbest.skip hnew fun s hpair => hno (hpair.stop_eligible hq)) (Run.stop hno hq)
    unfold persistentCongestionScan
    dsimp only
    split
    next hpast =>
      cases largest with
      | none => cases hpast
      | some l =>
        have hl : l < q.packetNumber := by simpa using hpast
        refine hbest.past h.ascending fun p hp => ?_
        rcases mem_cons.mp hp with rfl | hp
        · exact hl
        · exact hl.trans (rel_of_pairwise_cons (pairwise_append.mp h.ascending).2.1 hp)
    next hknown =>
      split
      next hstate => exact hskip fun hel => by simp [hel.lost, hel.unacknowledged] at hstate
      next hstate =>
        split
        next htime => exact hskip fun hel => by simpa [htime] using hel.sent
        next time htime =>
          split
          next hearly =>
            refine hskip fun hel => ?_
            obtain ⟨t, ht, hle⟩ := hel.sent
            rw [htime, some.injEq] at ht
            omega
          next hlate =>
            have hel : Eligible first largest q :=
              ⟨fun l hl => by simpa [hl] using hknown, by simpa using (not_or.mp hstate).2,
                by simpa using (not_or.mp hstate).1, time, htime, not_lt.mp hlate⟩
            have hpair : ∀ s, LostPair (pre ++ [q]) first largest s q →
                q.ackEliciting = true ∧ Linked pre first largest q.packetNumber s := by
              intro s hpair
              refine ⟨hpair.stopElicits, ?_⟩
              rcases hpair.of_append hnew with hold | hlinked
              · exact absurd (hnew q hold.stop) (Nat.lt_irrefl _)
              · exact hlinked.2
            have hstep := h
            rw [hsplit] at hstep ⊢
            split
            next b hcontinued =>
              obtain ⟨hb, hnext⟩ := continuedRun_some hcontinued
              have hsent : b.period.startTimeNs ≤ q.sentTimeNs.getD 0 := by
                obtain ⟨-, s, hs, -, hstime⟩ := hrun.held b hb
                rw [htime]
                exact (pairwise_append.mp h.times).2.2 s hs.mem q (by simp) _ _ hstime htime
              split
              next helicits =>
                exact ih hstep (hbest.consider hrun hq hel helicits hb hnext htime)
                  (hrun.continue hq hel hb hnext rfl rfl rfl hsent)
              next hquiet =>
                exact ih hstep (hbest.skip hnew fun s hp => hquiet (hpair s hp).1)
                  (hrun.continue hq hel hb hnext rfl rfl rfl hsent)
            next hnone =>
              have hno : ∀ r, ¬ Linked pre first largest q.packetNumber r :=
                fun r => hrun.not_linked hnew (h.small q (by simp)) hnone
              have hrestart := Run.restart hq hel htime hno
              split
              next helicits =>
                rw [if_pos helicits] at hrestart
                exact ih hstep (hbest.skip hnew fun s hp => hno s (hpair s hp).2) hrestart
              next hquiet =>
                rw [if_neg hquiet] at hrestart
                exact ih hstep (hbest.skip hnew fun s hp => hno s (hpair s hp).2) hrestart

/-- **The period found is the longest between two ack-eliciting lost packets, sent not before the
first sample, with all packet numbers between them lost; none is found if there is no such pair.** -/
theorem persistentCongestionPeriod_longest (t : SentPacketTracker) (h : InOrder t.packets)
    (first : Nat) (largest after : Option Nat) :
    match t.persistentCongestionPeriod (some first) largest after with
    | none => ∀ s e, LostPair t.packets first largest s e → ¬ EndsAfter after e
    | some p =>
      (∃ s e, LostPair t.packets first largest s e ∧ EndsAfter after e ∧ p = periodOf s e) ∧
      ∀ s e, LostPair t.packets first largest s e → EndsAfter after e →
        (periodOf s e).durationNs ≤ p.durationNs := by
  have hbest : Best first largest after t.packets
      (t.persistentCongestionPeriod (some first) largest after) := by
    unfold persistentCongestionPeriod
    dsimp only
    split
    next hreported =>
      refine ⟨nofun, fun s e hpair hends => ?_⟩
      cases after <;> cases largest <;> simp at hreported
      obtain ⟨p, -, hp, hel⟩ := hpair.between e.packetNumber (Nat.le_of_lt hpair.order) le_rfl
      have := hel.known _ rfl
      have := hends _ rfl
      omega
    next =>
      have hscan := @scan_best first largest after [] t.packets none none h
        ⟨nofun, fun s e hpair => absurd hpair.start not_mem_nil⟩
        ⟨nofun, fun n _ r hr => absurd hr.mem not_mem_nil⟩
      exact hscan
  cases hresult : t.persistentCongestionPeriod (some first) largest after with
  | none =>
    intro s e hpair hends
    obtain ⟨p, hp, -⟩ := hbest.longest s e hpair hends
    rw [hresult] at hp
    cases hp
  | some p =>
    refine ⟨hbest.pair p hresult, fun s e hpair hends => ?_⟩
    obtain ⟨p', hp', hle⟩ := hbest.longest s e hpair hends
    rw [hresult, some.injEq] at hp'
    rwa [hp']

/-- Three lost packets, the one in the middle not ack-eliciting. -/
theorem persistentCongestionPeriod_longest_three :
    (∃ s e, LostPair [⟨1, true, true, false, true, 0, .notEct, some 1000, none, none⟩,
        ⟨2, false, true, false, true, 0, .notEct, some 2000, none, none⟩,
        ⟨3, true, true, false, true, 0, .notEct, some 4000, none, none⟩] 500 none s e ∧
      EndsAfter none e ∧ (⟨1, 3, 1000, 4000⟩ : PersistentCongestionPeriod) = periodOf s e) ∧
    ∀ s e, LostPair [⟨1, true, true, false, true, 0, .notEct, some 1000, none, none⟩,
        ⟨2, false, true, false, true, 0, .notEct, some 2000, none, none⟩,
        ⟨3, true, true, false, true, 0, .notEct, some 4000, none, none⟩] 500 none s e →
      EndsAfter none e → (periodOf s e).durationNs ≤ 3000 :=
  persistentCongestionPeriod_longest
    { packets := [⟨1, true, true, false, true, 0, .notEct, some 1000, none, none⟩,
        ⟨2, false, true, false, true, 0, .notEct, some 2000, none, none⟩,
        ⟨3, true, true, false, true, 0, .notEct, some 4000, none, none⟩] }
    ⟨by simp, by simp [maxU64], by simp⟩ 500 none none

/-- A packet sent at the time of the first sample counts, and a packet number that is not tracked
separates the lost packets on either side of it. -/
theorem persistentCongestionPeriod_bounds :
    persistentCongestionPeriod
        { packets := [{ packetNumber := 0, lost := true, sentTimeNs := some 1000 },
            { packetNumber := 1, lost := true, sentTimeNs := some 2000 }] } (some 1000) none none
        = some ⟨0, 1, 1000, 2000⟩ ∧
      persistentCongestionPeriod
        { packets := [{ packetNumber := 0, lost := true, sentTimeNs := some 1000 },
            { packetNumber := 2, lost := true, sentTimeNs := some 2000 }] } (some 500) none none
        = none := by decide

end SentPacketTracker

end Netz.Quic
