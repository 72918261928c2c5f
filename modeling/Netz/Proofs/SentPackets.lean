/-
What an ACK may name, and what the receive path does to the records of a sent tracker.

The abstract view of a sent tracker is the set of packet numbers it knows to have been sent, `Sent`,
whether their records are kept or retired.  An ACK passes the precheck exactly when every number it
names is in that set.  The count that the precheck compares is a difference of `sentBelow`, the
number of sent packets below a bound.

Marking records acknowledged or lost keeps every packet number in its place, `SameNumbers`, so an
ACK that was validated is still valid when its turn comes.  `Later` is the weaker relation that also
allows records to disappear; it is all that RTT sampling needs.
-/
import Netz.Quic.SentPackets

namespace Netz.Quic.SentPacketTracker

open Lib List Option

/-- The tracker knows that `n` was sent. -/
def Sent (t : SentPacketTracker) (n : Nat) : Prop :=
  t.retiredContains n = true ∨ n ∈ t.packets.map (·.packetNumber)

/-- The bounds of the retired prefix, when there is one. -/
def retired (t : SentPacketTracker) : Option Range :=
  match t.retiredAcknowledgedStart, t.retiredAcknowledgedThrough with
  | some start, some stop => some ⟨start, stop⟩
  | _, _ => none

/-- Records ascend, lie above what is retired, and below the next packet number. -/
structure WF (t : SentPacketTracker) (next : Nat) : Prop where
  sorted : t.packetsSortedAscending = true
  ascending : (t.packets.map (·.packetNumber)).Pairwise (· < ·)
  below : ∀ n ∈ t.packets.map (·.packetNumber), n < next
  both : t.retiredAcknowledgedStart.isSome = t.retiredAcknowledgedThrough.isSome
  nonempty : ∀ r, t.retired = some r → r.start ≤ r.stop ∧ r.stop < next
  above : ∀ r, t.retired = some r → ∀ n ∈ t.packets.map (·.packetNumber), r.stop < n
  small : next ≤ varintMax + 1

lemma init_wf : WF {} 0 :=
  ⟨rfl, by simp, by simp, rfl, by intro r hr; simp [retired] at hr, by simp, by decide⟩

lemma retiredContains_iff (t : SentPacketTracker) (n : Nat) :
    t.retiredContains n = true ↔ ∃ r, t.retired = some r ∧ r.Holds n := by
  unfold retiredContains retired
  cases t.retiredAcknowledgedStart with
  | none => simp
  | some start =>
    cases t.retiredAcknowledgedThrough with
    | none => simp
    | some stop => simp [Range.Holds]

variable {t : SentPacketTracker} {next bound : Nat} {l : List SentPacket} {r : PacketRange}
  {rs : List PacketRange}

lemma Sent.lt {n : Nat} (h : WF t next) (hn : Sent t n) : n < next := by
  rcases hn with hret | hin
  · obtain ⟨r, hr, hholds⟩ := (retiredContains_iff t n).mp hret
    have := (h.nonempty r hr).2
    have := hholds.2
    omega
  · exact h.below n hin

/-! ### Counting the sent numbers below a bound -/

def retiredBelow (t : SentPacketTracker) (bound : Nat) : Nat :=
  match t.retired with
  | some r => min (r.stop + 1) bound - r.start
  | none => 0

def sentBelow (t : SentPacketTracker) (bound : Nat) : Nat :=
  t.packets.countP (fun p => decide (p.packetNumber < bound)) + t.retiredBelow bound

lemma countP_lt_succ (h : (l.map (·.packetNumber)).Pairwise (· < ·)) (b : Nat) :
    l.countP (fun p => decide (p.packetNumber < b + 1))
      = l.countP (fun p => decide (p.packetNumber < b))
        + if b ∈ l.map (·.packetNumber) then 1 else 0 := by
  induction l with
  | nil => simp
  | cons p rest ih =>
    rw [map_cons, pairwise_cons] at h
    obtain ⟨hfirst, hrest⟩ := h
    have hstep := ih hrest
    simp only [countP_cons, map_cons, mem_cons, decide_eq_true_eq]
    by_cases hin : b ∈ rest.map (·.packetNumber)
    · have hlt := hfirst b hin
      rw [if_pos hin] at hstep
      rw [if_pos (by omega : p.packetNumber < b + 1), if_pos hlt, if_pos (.inr hin)]
      omega
    rw [if_neg hin] at hstep
    by_cases heq : b = p.packetNumber
    · rw [if_pos (by omega : p.packetNumber < b + 1), if_neg (by omega), if_pos (.inl heq)]
      omega
    rw [if_neg (by simp [heq, hin] : ¬(b = p.packetNumber ∨ b ∈ rest.map (·.packetNumber)))]
    by_cases hlt : p.packetNumber < b
    · rw [if_pos (by omega : p.packetNumber < b + 1), if_pos hlt]
      omega
    · rw [if_neg (by omega : ¬ p.packetNumber < b + 1), if_neg hlt]
      omega

/-- **The count grows by one exactly at the numbers that were sent.** -/
theorem sentBelow_succ (h : WF t next) (b : Nat) :
    (Sent t b → t.sentBelow (b + 1) = t.sentBelow b + 1) ∧
    (¬ Sent t b → t.sentBelow (b + 1) = t.sentBelow b) := by
  unfold sentBelow Sent
  rw [countP_lt_succ h.ascending, retiredContains_iff]
  unfold retiredBelow
  cases hr : t.retired with
  | none => simp
  | some r =>
    obtain ⟨hle, -⟩ := h.nonempty r hr
    have habove := h.above r hr
    by_cases hin : b ∈ t.packets.map (·.packetNumber)
    · have := habove b hin
      simp only [hin, if_true, or_true, not_true_eq_false, IsEmpty.forall_iff, and_true]
      omega
    · simp only [hin, if_false, or_false, some.injEq, exists_eq_left', Range.Holds]
      omega

lemma sentBelow_add (h : WF t next) (b : Nat) :
    ∀ k, t.sentBelow b ≤ t.sentBelow (b + k) ∧ t.sentBelow (b + k) ≤ t.sentBelow b + k ∧
      (t.sentBelow (b + k) = t.sentBelow b + k ↔ ∀ n, b ≤ n → n < b + k → Sent t n) := by
  intro k
  induction k with
  | zero => simp; intro n h₁ h₂; omega
  | succ k ih =>
    obtain ⟨hmono, hle, hiff⟩ := ih
    obtain ⟨hyes, hno⟩ := sentBelow_succ h (b + k)
    by_cases hs : Sent t (b + k)
    · have heq := hyes hs
      rw [Nat.add_assoc] at heq
      refine ⟨by omega, by omega, ?_⟩
      constructor
      · intro hfull n h₁ h₂
        by_cases hlast : n = b + k
        · rw [hlast]; exact hs
        · exact hiff.mp (by omega) n h₁ (by omega)
      intro hall
      have := hiff.mpr (fun n h₁ h₂ => hall n h₁ (by omega))
      omega
    have heq := hno hs
    rw [Nat.add_assoc] at heq
    refine ⟨by omega, by omega, ?_⟩
    constructor
    · intro hfull; omega
    · intro hall
      exact absurd (hall (b + k) (by omega) (by omega)) hs

lemma sentBelow_mono (h : WF t next) {a b : Nat} (hab : a ≤ b) :
    t.sentBelow a ≤ t.sentBelow b := by
  have := (sentBelow_add h a (b - a)).1
  rwa [show a + (b - a) = b by omega] at this

lemma sentBelow_le (t : SentPacketTracker) (h : WF t next) (b : Nat) :
    t.sentBelow b ≤ t.packets.length + t.retiredAcknowledgedCount := by
  unfold sentBelow retiredBelow retiredAcknowledgedCount
  have hcount := countP_le_length (p := fun p : SentPacket => decide (p.packetNumber < b))
    (l := t.packets)
  cases hs : t.retiredAcknowledgedStart with
  | none => simp [retired, hs]; omega
  | some start =>
    cases he : t.retiredAcknowledgedThrough with
    | none => simp [retired, he]; omega
    | some stop =>
      have := (h.nonempty ⟨start, stop⟩ (by simp [retired, hs, he])).1
      simp only [retired, hs, he] at *
      omega

/-! ### The precheck -/

lemma partitioned_lt (h : (l.map (·.packetNumber)).Pairwise (· < ·)) (b : Nat) :
    Partitioned (fun p : SentPacket => decide (p.packetNumber < b)) l := by
  rw [pairwise_map] at h
  refine h.imp ?_
  intro p q hpq hq
  simp only [decide_eq_true_eq] at hq ⊢
  omega

lemma lowerBound_eq (h : WF t next) (n : Nat) :
    t.lowerBoundPacketIndex n = t.packets.countP (fun p => decide (p.packetNumber < n)) :=
  bisect_eq_countP (partitioned_lt h.ascending n)

lemma upperBound_eq (h : WF t next) (n : Nat) :
    t.upperBoundPacketIndex n = t.packets.countP (fun p => decide (p.packetNumber < n + 1)) := by
  have hsame : (fun p : SentPacket => decide (p.packetNumber ≤ n))
      = fun p => decide (p.packetNumber < n + 1) := by simp only [Nat.lt_succ_iff]
  unfold upperBoundPacketIndex
  rw [hsame]
  exact bisect_eq_countP (partitioned_lt h.ascending (n + 1))

lemma retiredIntersectionLen_eq (_ : WF t next) (hr : r.start ≤ r.stop) :
    t.retiredIntersectionLen r = t.retiredBelow (r.stop + 1) - t.retiredBelow r.start := by
  unfold retiredIntersectionLen retiredBelow
  cases hs : t.retiredAcknowledgedStart with
  | none => simp [retired, hs]
  | some start =>
    cases he : t.retiredAcknowledgedThrough with
    | none => simp [retired, he]
    | some stop =>
      simp only [retired, hs, he] at *
      by_cases hempty : min stop r.stop < max start r.start
      · rw [if_pos hempty]
        omega
      · rw [if_neg hempty]
        omega

lemma foldl_newlyAcked_sent (l : List SentPacket) :
    ∀ c : AckPrecheck, (l.foldl AckPrecheck.observeNewlyAckedPacket c).sentPackets = c.sentPackets := by
  induction l with
  | nil => intro c; rfl
  | cons p rest ih =>
    intro c
    rw [foldl_cons, ih]
    unfold AckPrecheck.observeNewlyAckedPacket
    by_cases hp : p.acknowledged = true
    · rw [if_pos hp]
    · rw [if_neg hp]

lemma precheckRange_sent (h : WF t next) (hr : r.start ≤ r.stop) (c : AckPrecheck) :
    (t.precheckRange c r).sentPackets
      = c.sentPackets + (t.sentBelow (r.stop + 1) - t.sentBelow r.start) := by
  have hmono : ∀ a b, a ≤ b → t.packets.countP (fun p => decide (p.packetNumber < a))
      ≤ t.packets.countP (fun p => decide (p.packetNumber < b)) := by
    intro a b hab
    refine countP_mono_left ?_
    intro p _ hp
    simp only [decide_eq_true_eq] at hp ⊢
    omega
  have hret : t.retiredBelow r.start ≤ t.retiredBelow (r.stop + 1) := by
    unfold retiredBelow
    cases t.retired with
    | none => simp
    | some q => simp only; omega
  have hcount := hmono r.start (r.stop + 1) (by omega)
  unfold precheckRange
  simp only [foldl_newlyAcked_sent]
  rw [retiredIntersectionLen_eq h hr, lowerBound_eq h, upperBound_eq h]
  unfold sentBelow
  omega

/-- The ranges of an ACK descend without touching, all below `bound`. -/
def Chain : Nat → List PacketRange → Prop
  | _, [] => True
  | bound, r :: rest => r.start ≤ r.stop ∧ r.stop < bound ∧ Chain r.start rest

lemma decodeMoreRanges_cons {range : AckRange} {rest : List AckRange} {start : Nat}
    (h : decodeMoreRanges start (range :: rest) = .ok rs) :
    range.gap + 2 ≤ start ∧ range.ackRangeLength ≤ start - (range.gap + 2) ∧ ∃ more,
      decodeMoreRanges (start - (range.gap + 2) - range.ackRangeLength) rest = .ok more ∧
      rs = ⟨start - (range.gap + 2) - range.ackRangeLength, start - (range.gap + 2)⟩ :: more := by
  unfold decodeMoreRanges at h
  cases hgap : checkedAdd range.gap 2 with
  | none => rw [hgap] at h; simp at h
  | some skipped =>
    have hskip : skipped = range.gap + 2 := by
      unfold checkedAdd at hgap
      by_cases hfit : range.gap + 2 ≤ maxU64
      · rw [if_pos hfit, some.injEq] at hgap
        exact hgap.symm
      · simp [hfit] at hgap
    rw [hgap, hskip] at h
    simp only at h
    obtain ⟨hlow, h⟩ := of_guard h nofun
    obtain ⟨hshort, h⟩ := of_guard h nofun
    cases hmore : decodeMoreRanges (start - (range.gap + 2) - range.ackRangeLength) rest with
    | error e => rw [hmore] at h; simp at h
    | ok more =>
      rw [hmore] at h
      exact ⟨not_lt.mp hlow, not_lt.mp hshort, more, rfl, (Except.ok.inj h).symm⟩

lemma decodeMoreRanges_chain : ∀ (ranges : List AckRange) (start : Nat) (rs : List PacketRange),
    decodeMoreRanges start ranges = .ok rs → Chain start rs := by
  intro ranges
  induction ranges with
  | nil =>
    intro start rs h
    cases h
    trivial
  | cons range rest ih =>
    intro start rs h
    obtain ⟨hlow, -, more, hmore, rfl⟩ := decodeMoreRanges_cons h
    refine ⟨Nat.sub_le _ _, ?_, ih _ _ hmore⟩
    show start - (range.gap + 2) < start
    omega

lemma decodeAckRanges_cons {ack : AckFrame} (h : decodeAckRanges ack = .ok rs) :
    ack.firstAckRange ≤ ack.largestAcknowledged ∧ ∃ more,
      decodeMoreRanges (ack.largestAcknowledged - ack.firstAckRange) ack.ranges = .ok more ∧
      rs = ⟨ack.largestAcknowledged - ack.firstAckRange, ack.largestAcknowledged⟩ :: more := by
  unfold decodeAckRanges at h
  obtain ⟨hlow, h⟩ := of_guard h nofun
  cases hmore : decodeMoreRanges (ack.largestAcknowledged - ack.firstAckRange) ack.ranges with
  | error e => rw [hmore] at h; simp at h
  | ok more =>
    rw [hmore] at h
    exact ⟨not_lt.mp hlow, more, rfl, (Except.ok.inj h).symm⟩

lemma decodeAckRanges_chain {ack : AckFrame} (h : decodeAckRanges ack = .ok rs) :
    Chain (ack.largestAcknowledged + 1) rs := by
  obtain ⟨-, more, hmore, rfl⟩ := decodeAckRanges_cons h
  exact ⟨Nat.sub_le _ _, Nat.lt_succ_self _, decodeMoreRanges_chain _ _ _ hmore⟩

/-- The sent numbers the ranges span, range by range. -/
def spanned (t : SentPacketTracker) (rs : List PacketRange) : Nat :=
  (rs.map (fun r => t.sentBelow (r.stop + 1) - t.sentBelow r.start)).sum

lemma foldl_precheckRange_sent (h : WF t next) :
    ∀ (rs : List PacketRange) (bound : Nat) (c : AckPrecheck), Chain bound rs →
      (rs.foldl t.precheckRange c).sentPackets = c.sentPackets + t.spanned rs := by
  intro rs
  induction rs with
  | nil => intro bound c _; simp [spanned]
  | cons r rest ih =>
    intro bound c hchain
    obtain ⟨hr, -, hrest⟩ := hchain
    rw [foldl_cons, ih _ _ hrest, precheckRange_sent h hr]
    simp only [spanned, map_cons, sum_cons]
    omega

lemma totalSpan_some : ∀ (rs : List PacketRange) (start span : Nat),
    totalSpan start rs = some span → span = start + total rs := by
  intro rs
  induction rs with
  | nil => intro start span h; simp only [totalSpan, some.injEq] at h; simp [h]
  | cons r rest ih =>
    intro start span h
    unfold totalSpan checkedAdd at h
    by_cases hfit : start + (r.stop - r.start + 1) ≤ maxU64
    · rw [if_pos hfit] at h
      have := ih _ _ h
      rw [total_cons]
      unfold Range.len
      omega
    · rw [if_neg hfit] at h
      simp at h

lemma totalSpan_of_le : ∀ (rs : List PacketRange) (start : Nat), start + total rs ≤ maxU64 →
    totalSpan start rs = some (start + total rs) := by
  intro rs
  induction rs with
  | nil => intro start _; simp [totalSpan]
  | cons r rest ih =>
    intro start hle
    rw [total_cons] at hle ⊢
    unfold totalSpan checkedAdd
    unfold Range.len at hle ⊢
    rw [if_pos (by omega)]
    simp only
    rw [ih _ (by omega)]
    congr 1
    omega

lemma Chain.bounds (h : WF t next) :
    ∀ {rs : List PacketRange} {bound : Nat}, Chain bound rs →
      total rs ≤ bound ∧ t.spanned rs ≤ t.sentBelow bound := by
  intro rs
  induction rs with
  | nil => intro bound _; simp [spanned]
  | cons r rest ih =>
    intro bound hchain
    obtain ⟨hr, hlt, hrest⟩ := hchain
    obtain ⟨htotal, hspan⟩ := ih hrest
    have hstep := sentBelow_mono h (show r.stop + 1 ≤ bound by omega)
    have hrange := sentBelow_mono h (show r.start ≤ r.stop + 1 by omega)
    rw [total_cons]
    unfold Range.len
    simp only [spanned, map_cons, sum_cons] at hspan ⊢
    exact ⟨by omega, by omega⟩

/-- **The spanned count is the total length exactly when every number named was sent.** -/
theorem Chain.spanned_eq_iff (h : WF t next) :
    ∀ {rs : List PacketRange} {bound : Nat}, Chain bound rs →
      t.spanned rs ≤ total rs ∧ (t.spanned rs = total rs ↔ ∀ n, Covers rs n → Sent t n) := by
  intro rs
  induction rs with
  | nil => intro bound _; simp [spanned]
  | cons r rest ih =>
    intro bound hchain
    obtain ⟨hr, -, hrest⟩ := hchain
    obtain ⟨hle, hiff⟩ := ih hrest
    obtain ⟨hmono, hgrow, hfull⟩ := sentBelow_add h r.start (r.stop + 1 - r.start)
    rw [show r.start + (r.stop + 1 - r.start) = r.stop + 1 by omega] at hmono hgrow hfull
    rw [total_cons]
    unfold Range.len
    simp only [spanned, map_cons, sum_cons] at hle hiff ⊢
    refine ⟨by omega, ?_⟩
    constructor
    · intro heq n hn
      rw [covers_cons] at hn
      rcases hn with hfirst | hlater
      · exact hfull.mp (by omega) n hfirst.1 (by have := hfirst.2; omega)
      · exact hiff.mp (by omega) n hlater
    intro hall
    have h₁ := hfull.mpr (fun n ha hb => hall n (by
      rw [covers_cons]
      exact .inl ⟨ha, by omega⟩))
    have h₂ := hiff.mpr (fun n hn => hall n (by
      rw [covers_cons]
      exact .inr hn))
    omega

lemma findSentPacket_isSome (t : SentPacketTracker) (n : Nat) :
    (t.findSentPacket n).isSome = true ↔ n ∈ t.packets.map (·.packetNumber) := by
  simp [findSentPacket]

lemma Chain.below_next (h : WF t next) (hchain : Chain bound rs)
    (hall : ∀ n, Covers rs n → Sent t n) : Chain next rs := by
  cases rs with
  | nil => trivial
  | cons r rest =>
    obtain ⟨hr, -, hrest⟩ := hchain
    refine ⟨hr, ?_, hrest⟩
    refine (hall r.stop ?_).lt h
    rw [covers_cons]
    exact .inl ⟨hr, le_rfl⟩

lemma precheckSpans_sent (h : WF t next) (hchain : Chain bound rs) (span : Nat) :
    (if t.packetsSortedAscending then rs.foldl t.precheckRange { totalSpan := span }
      else (t.packets.filter (fun p => ackRangesContain rs p.packetNumber)).foldl
        AckPrecheck.observeSentPacket { totalSpan := span }).sentPackets = t.spanned rs := by
  simp [h.sorted, foldl_precheckRange_sent h rs bound _ hchain]

lemma precheckSpans_iff (h : WF t next) (hchain : Chain bound rs) :
    (∃ c, precheckAckRanges.precheckSpans t rs = .ok c) ↔ ∀ n, Covers rs n → Sent t n := by
  obtain ⟨-, hiff⟩ := hchain.spanned_eq_iff h
  unfold precheckAckRanges.precheckSpans
  constructor
  · intro hc
    obtain ⟨c, hc⟩ := hc
    cases hspan : totalSpan 0 rs with
    | none => rw [hspan] at hc; simp at hc
    | some span =>
      have htotal := totalSpan_some rs 0 span hspan
      rw [hspan] at hc
      simp only at hc
      obtain ⟨hshort, hc⟩ := of_guard hc nofun
      rw [precheckSpans_sent h hchain] at hc
      obtain ⟨heq, hc⟩ := of_guard hc nofun
      exact hiff.mp (by omega)
  intro hall
  have hlow := hchain.below_next h hall
  obtain ⟨htotal, hspan⟩ := hlow.bounds h
  have heq := hiff.mpr hall
  have hsmall := h.small
  unfold varintMax at hsmall
  have hmax : next ≤ maxU64 := by unfold maxU64; omega
  have hsum := totalSpan_of_le rs 0 (by omega)
  have hmost := sentBelow_le t h next
  rw [hsum]
  simp only
  rw [if_neg (by unfold saturatingAdd; omega), precheckSpans_sent h hchain, if_neg (by omega)]
  exact ⟨_, rfl⟩

/-- **An ACK passes the precheck exactly when every number it names was sent.** -/
theorem precheckAckRanges_iff (h : WF t next) (hchain : Chain bound rs) :
    (∃ c, t.precheckAckRanges rs = .ok c) ↔ ∀ n, Covers rs n → Sent t n := by
  unfold precheckAckRanges
  match rs with
  | [] => exact precheckSpans_iff h hchain
  | [⟨start, stop⟩] =>
    simp only
    by_cases hone : start = stop
    · rw [if_pos hone]
      subst hone
      have hcov : (∀ n, Covers [⟨start, start⟩] n → Sent t n) ↔ Sent t start := by
        constructor
        · intro hall; exact hall start (by simp [Range.Holds])
        intro hs n hn
        simp only [covers_cons, covers_nil, or_false, Range.Holds] at hn
        rwa [show n = start by omega]
      rw [hcov]
      unfold Sent
      rw [← findSentPacket_isSome]
      cases t.findSentPacket start with
      | some packet => simp
      | none =>
        by_cases hret : t.retiredContains start = true
        · simp [hret]
        · simp [hret]
    · rw [if_neg hone]
      exact precheckSpans_iff h hchain
  | _ :: _ :: _ => exact precheckSpans_iff h hchain

end Netz.Quic.SentPacketTracker

namespace Netz.Quic.SentPacketTracker

open Lib List

/-! ### What keeps the sent numbers -/

/-- `q` is a later record of the packet that `p` describes. -/
structure Aged (p q : SentPacket) : Prop where
  number : q.packetNumber = p.packetNumber
  sentTime : q.sentTimeNs = p.sentTimeNs
  eliciting : q.ackEliciting = p.ackEliciting
  stays : p.acknowledged = true → q.acknowledged = true

lemma Aged.refl (p : SentPacket) : Aged p p := ⟨rfl, rfl, rfl, id⟩

lemma Aged.trans {p q r : SentPacket} (h₁ : Aged p q) (h₂ : Aged q r) : Aged p r :=
  ⟨h₂.number.trans h₁.number, h₂.sentTime.trans h₁.sentTime, h₂.eliciting.trans h₁.eliciting,
    fun h => h₂.stays (h₁.stays h)⟩

/-- Seen from `t'`, nothing below `next` is newer than it was in `t`. -/
structure Later (next : Nat) (t t' : SentPacketTracker) : Prop where
  records : ∀ q ∈ t'.packets, q.packetNumber < next → ∃ p ∈ t.packets, Aged p q
  largest : ∀ n, t.ackDoesNotAdvanceLargest n = true → t'.ackDoesNotAdvanceLargest n = true

namespace Later

lemma refl (next : Nat) (t : SentPacketTracker) : Later next t t :=
  ⟨fun q hq _ => ⟨q, hq, Aged.refl q⟩, fun _ h => h⟩

lemma trans {next : Nat} {t₁ t₂ t₃ : SentPacketTracker} (h₁ : Later next t₁ t₂)
    (h₂ : Later next t₂ t₃) : Later next t₁ t₃ := by
  refine ⟨?_, fun n hn => h₂.largest n (h₁.largest n hn)⟩
  intro r hr hlow
  obtain ⟨q, hq, hqr⟩ := h₂.records r hr hlow
  obtain ⟨p, hp, hpq⟩ := h₁.records q hq (by rw [← hqr.number]; exact hlow)
  exact ⟨p, hp, hpq.trans hqr⟩

lemma of_subset {next : Nat} {t t' : SentPacketTracker} (hsub : ∀ q ∈ t'.packets, q ∈ t.packets)
    (hmax : t'.largestAcknowledged = t.largestAcknowledged) : Later next t t' := by
  refine ⟨fun q hq _ => ⟨q, hsub q hq, Aged.refl q⟩, ?_⟩
  simp [hmax, ackDoesNotAdvanceLargest]

end Later

/-- Two trackers with the same records' numbers and the same retired prefix. -/
structure SameNumbers (t t' : SentPacketTracker) : Prop where
  numbers : t'.packets.map (·.packetNumber) = t.packets.map (·.packetNumber)
  sorted : t'.packetsSortedAscending = t.packetsSortedAscending
  start : t'.retiredAcknowledgedStart = t.retiredAcknowledgedStart
  through : t'.retiredAcknowledgedThrough = t.retiredAcknowledgedThrough
  later : ∀ next, Later next t t'

namespace SameNumbers

lemma refl (t : SentPacketTracker) : SameNumbers t t :=
  ⟨rfl, rfl, rfl, rfl, fun next => Later.refl next t⟩

lemma trans {t₁ t₂ t₃ : SentPacketTracker} (h₁ : SameNumbers t₁ t₂) (h₂ : SameNumbers t₂ t₃) :
    SameNumbers t₁ t₃ :=
  ⟨h₂.numbers.trans h₁.numbers, h₂.sorted.trans h₁.sorted, h₂.start.trans h₁.start,
    h₂.through.trans h₁.through, fun next => (h₁.later next).trans (h₂.later next)⟩

lemma of_packets {t t' : SentPacketTracker} (hp : t'.packets = t.packets)
    (hl : t'.largestAcknowledged = t.largestAcknowledged)
    (hs : t'.packetsSortedAscending = t.packetsSortedAscending)
    (hr : t'.retiredAcknowledgedStart = t.retiredAcknowledgedStart)
    (ht : t'.retiredAcknowledgedThrough = t.retiredAcknowledgedThrough) : SameNumbers t t' :=
  ⟨by rw [hp], hs, hr, ht, fun _ => Later.of_subset (fun q hq => by rw [← hp]; exact hq) hl⟩

lemma of_map {t t' : SentPacketTracker} {f : SentPacket → SentPacket}
    (hp : t'.packets = t.packets.map f) (hf : ∀ p, Aged p (f p))
    (hl : t'.largestAcknowledged = t.largestAcknowledged)
    (hs : t'.packetsSortedAscending = t.packetsSortedAscending)
    (hr : t'.retiredAcknowledgedStart = t.retiredAcknowledgedStart)
    (ht : t'.retiredAcknowledgedThrough = t.retiredAcknowledgedThrough) : SameNumbers t t' := by
  refine ⟨?_, hs, hr, ht, fun _ => ⟨?_, ?_⟩⟩
  · rw [hp, map_map]
    exact map_congr_left (fun p _ => (hf p).number)
  · intro q hq _
    rw [hp] at hq
    obtain ⟨p, hmem, hpq⟩ := mem_map.mp hq
    exact ⟨p, hmem, hpq ▸ hf p⟩
  · simp [hl, ackDoesNotAdvanceLargest]

variable {t t' : SentPacketTracker}

lemma retired (h : SameNumbers t t') : t'.retired = t.retired := by
  unfold SentPacketTracker.retired
  rw [h.start, h.through]

lemma sent (h : SameNumbers t t') (n : Nat) : Sent t' n ↔ Sent t n := by
  unfold Sent
  rw [retiredContains_iff, retiredContains_iff, h.retired, h.numbers]

lemma wf (h : SameNumbers t t') {next : Nat} (hwf : WF t next) : WF t' next :=
  ⟨h.sorted.trans hwf.sorted, by rw [h.numbers]; exact hwf.ascending,
    by rw [h.numbers]; exact hwf.below, by rw [h.start, h.through]; exact hwf.both,
    by rw [h.retired]; exact hwf.nonempty, by rw [h.retired, h.numbers]; exact hwf.above, hwf.small⟩

end SameNumbers

lemma observeAcknowledged_same (t : SentPacketTracker) (n : Nat) :
    SameNumbers t (t.observeAcknowledged n) := by
  unfold observeAcknowledged
  by_cases h : t.largestAcknowledged.all (fun m => decide (m < n)) = true
  · rw [if_pos h]
    refine ⟨rfl, rfl, rfl, rfl, fun _ => ⟨fun q hq _ => ⟨q, hq, Aged.refl q⟩, ?_⟩⟩
    intro k hk
    unfold ackDoesNotAdvanceLargest at hk ⊢
    cases hlast : t.largestAcknowledged with
    | none => rw [hlast] at hk; simp at hk
    | some m =>
      rw [hlast] at h hk
      simp only [Option.all_some, Option.any_some, decide_eq_true_eq] at h hk ⊢
      omega
  · rw [if_neg h]
    exact SameNumbers.refl t

lemma observeAcknowledged_packets (t : SentPacketTracker) (n : Nat) :
    (t.observeAcknowledged n).packets = t.packets := by
  unfold observeAcknowledged
  by_cases h : t.largestAcknowledged.all (fun m => decide (m < n)) = true
  · rw [if_pos h]
  · rw [if_neg h]

lemma map_set_same {l : List SentPacket} {i : Nat} {p q : SentPacket} (hp : l[i]? = some p)
    (hq : q.packetNumber = p.packetNumber) :
    (l.set i q).map (·.packetNumber) = l.map (·.packetNumber) := by
  apply List.ext_getElem?
  intro j
  rw [List.getElem?_map, List.getElem?_map, List.getElem?_set]
  by_cases hij : i = j
  · subst hij
    have hlt := lt_of_getElem? hp
    rw [if_pos hlt, hp]
    simp [hq]
  · rw [if_neg hij]

lemma markPacketAcknowledged_same (t : SentPacketTracker) (r : AckResult) (index : Nat) :
    SameNumbers t (t.markPacketAcknowledged r index).1 := by
  unfold markPacketAcknowledged
  cases hp : t.packets[index]? with
  | none => exact SameNumbers.refl t
  | some packet =>
    simp only
    by_cases hacked : packet.acknowledged = true
    · rw [if_pos hacked]
      exact observeAcknowledged_same t _
    rw [if_neg hacked]
    have hobs := observeAcknowledged_same t packet.packetNumber
    have hget : (t.observeAcknowledged packet.packetNumber).packets[index]? = some packet := by
      rw [observeAcknowledged_packets]
      exact hp
    refine hobs.trans ⟨map_set_same hget rfl, rfl, rfl, rfl, fun _ => ⟨?_, fun _ hn => hn⟩⟩
    intro q hq _
    rcases mem_or_eq_of_mem_set hq with hold | hnew
    · exact ⟨q, hold, Aged.refl q⟩
    refine ⟨packet, mem_of_getElem? hget, ?_⟩
    rw [hnew]
    exact ⟨rfl, rfl, rfl, fun _ => rfl⟩

lemma markIndices_same : ∀ (remaining index : Nat) (t : SentPacketTracker) (r : AckResult),
    SameNumbers t (t.markIndices r remaining index).1 := by
  intro remaining
  induction remaining with
  | zero => intro index t r; exact SameNumbers.refl t
  | succ k ih =>
    intro index t r
    unfold markIndices
    exact (markPacketAcknowledged_same t r index).trans (ih _ _ _)

lemma markSortedRanges_same : ∀ (rs : List PacketRange) (t : SentPacketTracker) (r : AckResult),
    SameNumbers t (t.markSortedRanges r rs).1 := by
  intro rs
  induction rs with
  | nil => intro t r; exact SameNumbers.refl t
  | cons range rest ih =>
    intro t r
    unfold markSortedRanges
    exact (markIndices_same _ _ t r).trans (ih _ _)

lemma advanceFirstUnacknowledged_same (t : SentPacketTracker) :
    SameNumbers t t.advanceFirstUnacknowledged := by
  unfold advanceFirstUnacknowledged
  by_cases h : t.packetsSortedAscending = false
  · rw [if_pos h]
    exact SameNumbers.of_packets rfl rfl rfl rfl rfl
  · rw [if_neg h]
    exact SameNumbers.of_packets rfl rfl rfl rfl rfl

lemma markAcknowledged_same (t : SentPacketTracker) (packetNumber : Nat) :
    SameNumbers t (t.markAcknowledged packetNumber) := by
  unfold markAcknowledged
  cases t.findPacketIndex packetNumber with
  | none => exact SameNumbers.refl t
  | some index =>
    exact (markPacketAcknowledged_same t {} index).trans (advanceFirstUnacknowledged_same _)

lemma markRanges_same {t : SentPacketTracker} (h : t.packetsSortedAscending = true)
    (rs : List PacketRange) : SameNumbers t (t.markRanges rs).1 := by
  have hspans : SameNumbers t (markRanges.markSpans t rs).1 := by
    unfold markRanges.markSpans
    rw [if_pos h]
    exact (markSortedRanges_same rs t {}).trans (advanceFirstUnacknowledged_same _)
  unfold markRanges
  match rs with
  | [] => exact hspans
  | [⟨start, stop⟩] =>
    simp only
    by_cases hone : start = stop
    · rw [if_pos hone]
      cases t.findPacketIndex start with
      | none => exact SameNumbers.refl t
      | some index =>
        exact (markPacketAcknowledged_same t {} index).trans (advanceFirstUnacknowledged_same _)
    · simp [hone, hspans]
  | _ :: _ :: _ => exact hspans

lemma markLost_numbers (gone : SentPacket → Bool) :
    ∀ (l : List SentPacket) (start : Nat) (r : AckResult),
      (markLost gone start l r).1.map (·.packetNumber) = l.map (·.packetNumber) := by
  intro l
  induction l with
  | nil => intro start r; cases start <;> rfl
  | cons p rest ih =>
    intro start r
    cases start with
    | succ k => simp only [markLost, map_cons, ih]
    | zero =>
      unfold markLost
      by_cases h : (gone p && !p.acknowledged && !p.lost && p.inFlight) = true
      · simp [h, ih]
      · simp [h, ih]

lemma markLost_aged (gone : SentPacket → Bool) :
    ∀ (l : List SentPacket) (start : Nat) (r : AckResult),
      ∀ q ∈ (markLost gone start l r).1, ∃ p ∈ l, Aged p q := by
  intro l
  induction l with
  | nil => intro start r q hq; cases start <;> simp [markLost] at hq
  | cons p rest ih =>
    intro start r q hq
    have hlater : ∀ start r, q ∈ (markLost gone start rest r).1 → ∃ p' ∈ p :: rest, Aged p' q := by
      intro start r hin
      obtain ⟨p', hp', haged⟩ := ih start r q hin
      exact ⟨p', mem_cons_of_mem p hp', haged⟩
    cases start with
    | succ k =>
      simp only [markLost, mem_cons] at hq
      rcases hq with hq | hq
      · exact ⟨p, mem_cons_self, by rw [hq]; exact Aged.refl p⟩
      · exact hlater _ _ hq
    | zero =>
      unfold markLost at hq
      by_cases h : (gone p && !p.acknowledged && !p.lost && p.inFlight) = true
      · rw [if_pos h] at hq
        simp only [mem_cons] at hq
        rcases hq with hq | hq
        · exact ⟨p, mem_cons_self, by rw [hq]; exact ⟨rfl, rfl, rfl, id⟩⟩
        · exact hlater _ _ hq
      rw [if_neg h] at hq
      simp only [mem_cons] at hq
      rcases hq with hq | hq
      · exact ⟨p, mem_cons_self, by rw [hq]; exact Aged.refl p⟩
      · exact hlater _ _ hq

lemma markLost_same (t : SentPacketTracker) (gone : SentPacket → Bool) (start : Nat)
    (r : AckResult) : SameNumbers t { t with packets := (markLost gone start t.packets r).1 } :=
  ⟨markLost_numbers gone t.packets start r, rfl, rfl, rfl,
    fun _ => ⟨fun q hq _ => markLost_aged gone t.packets start r q hq, fun _ h => h⟩⟩

lemma detectTimeThresholdLoss_same (t : SentPacketTracker) (now delay largest : Nat) :
    SameNumbers t (t.detectTimeThresholdLoss now delay largest).2 :=
  markLost_same t _ _ _

lemma detectPacketThresholdLoss_same (t : SentPacketTracker) (largest threshold : Nat) :
    SameNumbers t (t.detectPacketThresholdLoss largest threshold).2 := by
  unfold detectPacketThresholdLoss
  by_cases h : threshold = 0 ∨ largest < threshold
  · rw [if_pos h]
    exact SameNumbers.refl t
  · rw [if_neg h]
    exact markLost_same t _ _ _

end Netz.Quic.SentPacketTracker
