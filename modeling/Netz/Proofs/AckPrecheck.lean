/-
What the precheck of an ACK counts, and when its ECN counters pass.

Range by range the precheck counts the records that the ACK would newly acknowledge.  The
ranges of a decoded ACK descend, so no record is counted twice and the counts are those of
the whole ACK.  With them the ECN validation has a reading that mentions no walk.
-/
import Netz.Proofs.AckMarks

namespace Netz.Quic

open Lib List

/-! ### What an ACK frame names, in exact arithmetic -/

/-- How far below the range before it a range reaches. -/
def AckRange.depth (r : AckRange) : Nat := r.gap + 2 + r.ackRangeLength

def rangesFit : Nat → List AckRange → Bool
  | _, [] => true
  | start, r :: rest => decide (r.depth ≤ start) && rangesFit (start - r.depth) rest

def rangesName : Nat → List AckRange → Nat → Bool
  | _, [], _ => false
  | start, r :: rest, n =>
    decide (start - r.depth ≤ n) && decide (n + r.gap + 2 ≤ start) ||
      rangesName (start - r.depth) rest n

/-- The range chain of the frame does not underflow. -/
def AckFrame.fits (ack : AckFrame) : Bool :=
  decide (ack.firstAckRange ≤ ack.largestAcknowledged) &&
    rangesFit (ack.largestAcknowledged - ack.firstAckRange) ack.ranges

/-- The frame acknowledges packet `n`. -/
def AckFrame.names (ack : AckFrame) (n : Nat) : Bool :=
  decide (ack.largestAcknowledged - ack.firstAckRange ≤ n) && decide (n ≤ ack.largestAcknowledged) ||
    rangesName (ack.largestAcknowledged - ack.firstAckRange) ack.ranges n

namespace SentPacketTracker

lemma decodeMoreRanges_names : ∀ (ranges : List AckRange) (start : Nat) (rs : List PacketRange),
    decodeMoreRanges start ranges = .ok rs →
      rangesFit start ranges = true ∧ ∀ n, ackRangesContain rs n = rangesName start ranges n := by
  intro ranges
  induction ranges with
  | nil =>
    intro start rs h
    cases h
    exact ⟨rfl, fun _ => rfl⟩
  | cons range rest ih =>
    intro start rs h
    obtain ⟨hlow, hshort, more, hmore, rfl⟩ := decodeMoreRanges_cons h
    have hdepth : start - (range.gap + 2) - range.ackRangeLength = start - range.depth := by
      unfold AckRange.depth
      omega
    obtain ⟨hfits, hnames⟩ := ih _ _ hmore
    rw [hdepth] at hfits hnames
    refine ⟨?_, fun n => ?_⟩
    · unfold rangesFit
      rw [hfits, Bool.and_true, decide_eq_true_eq]
      unfold AckRange.depth
      omega
    unfold rangesName
    rw [← hnames n]
    unfold ackRangesContain
    rw [any_cons]
    congr 1
    simp only
    rw [hdepth]
    congr 1
    rw [decide_eq_decide]
    omega

lemma decodeMoreRanges_of_fit : ∀ (ranges : List AckRange) (start : Nat), start ≤ maxU64 →
    rangesFit start ranges = true → ∃ rs, decodeMoreRanges start ranges = .ok rs := by
  intro ranges
  induction ranges with
  | nil => intro start _ _; exact ⟨[], rfl⟩
  | cons range rest ih =>
    intro start hstart hfit
    unfold rangesFit AckRange.depth at hfit
    simp only [Bool.and_eq_true, decide_eq_true_eq] at hfit
    obtain ⟨hdepth, hrest⟩ := hfit
    obtain ⟨more, hmore⟩ := ih (start - (range.gap + 2 + range.ackRangeLength)) (by omega) hrest
    unfold decodeMoreRanges checkedAdd
    rw [if_pos (by omega)]
    simp only
    rw [if_neg (by omega), if_neg (by omega), show start - (range.gap + 2) - range.ackRangeLength
        = start - (range.gap + 2 + range.ackRangeLength) by omega, hmore]
    exact ⟨_, rfl⟩

lemma decodeAckRanges_names {ack : AckFrame} {rs : List PacketRange}
    (h : decodeAckRanges ack = .ok rs) :
    ack.fits = true ∧ ∀ n, ackRangesContain rs n = ack.names n := by
  obtain ⟨hlow, more, hmore, rfl⟩ := decodeAckRanges_cons h
  obtain ⟨hfits, hnames⟩ := decodeMoreRanges_names _ _ _ hmore
  refine ⟨?_, fun n => ?_⟩
  · unfold AckFrame.fits
    rw [hfits, Bool.and_true, decide_eq_true_eq]
    exact hlow
  unfold AckFrame.names
  rw [← hnames n]
  rfl

lemma decodeAckRanges_of_fits {ack : AckFrame} (hmax : ack.largestAcknowledged ≤ maxU64)
    (hfits : ack.fits = true) : ∃ rs, decodeAckRanges ack = .ok rs := by
  unfold AckFrame.fits at hfits
  simp only [Bool.and_eq_true, decide_eq_true_eq] at hfits
  obtain ⟨hfirst, hrest⟩ := hfits
  obtain ⟨more, hmore⟩ := decodeMoreRanges_of_fit ack.ranges
    (ack.largestAcknowledged - ack.firstAckRange) (by omega) hrest
  unfold decodeAckRanges
  rw [if_neg (by omega), hmore]
  exact ⟨_, rfl⟩

/-- **The frames whose ranges decode and name only sent packets.** -/
theorem names_iff {t : SentPacketTracker} {next : Nat} (h : WF t next) (ack : AckFrame) :
    Names t ack ↔ ack.fits = true ∧ ∀ n, ack.names n = true → Sent t n := by
  have hcovers : ∀ {rs}, decodeAckRanges ack = .ok rs → ∀ n, Covers rs n ↔ ack.names n = true := by
    intro rs hrs n
    rw [← (decodeAckRanges_names hrs).2 n]
    simp [ackRangesContain, Covers, Range.Holds]
  constructor
  · intro hn
    obtain ⟨rs, hrs, hall⟩ := hn
    exact ⟨(decodeAckRanges_names hrs).1, fun n hname => hall n ((hcovers hrs n).mpr hname)⟩
  intro hn
  obtain ⟨hfits, hall⟩ := hn
  have hmax : ack.largestAcknowledged < next := by
    refine (hall ack.largestAcknowledged ?_).lt h
    unfold AckFrame.names
    simp
  have hsmall := h.small
  unfold varintMax at hsmall
  obtain ⟨rs, hrs⟩ := decodeAckRanges_of_fits (by unfold maxU64; omega) hfits
  exact ⟨rs, hrs, fun n hcov => hall n ((hcovers hrs n).mp hcov)⟩

/-! ### The counts of the precheck -/

/-- A record that an ACK would newly acknowledge, when `q` picks it. -/
def fresh (q : SentPacket → Bool) (p : SentPacket) : Nat :=
  if !p.acknowledged && q p then 1 else 0

lemma fresh_ignoresClosed (q : SentPacket → Bool) : IgnoresClosed (fresh q) := by
  intro p hp
  simp [fresh, hp]

def isEct0 (p : SentPacket) : Bool := decide (p.ecn = .ect0)

def isEct1 (p : SentPacket) : Bool := decide (p.ecn = .ect1)

/-- The counters of `c'` are those of `c` and what `count` adds to each. -/
structure CountedBy (count : (SentPacket → Bool) → Nat) (c c' : AckPrecheck) : Prop where
  packets : c'.newlyAckedPackets = c.newlyAckedPackets + count (fun _ => true)
  ect0 : c'.newlyAckedEct0 = c.newlyAckedEct0 + count isEct0
  ect1 : c'.newlyAckedEct1 = c.newlyAckedEct1 + count isEct1

lemma observeNewlyAckedPacket_counted (c : AckPrecheck) (p : SentPacket) :
    CountedBy (fun q => fresh q p) c (c.observeNewlyAckedPacket p) := by
  unfold AckPrecheck.observeNewlyAckedPacket
  by_cases hacked : p.acknowledged = true
  · rw [if_pos hacked]
    exact ⟨by simp [fresh, hacked], by simp [fresh, hacked], by simp [fresh, hacked]⟩
  rw [if_neg hacked]
  refine ⟨by simp [fresh, hacked], ?_, ?_⟩
  · by_cases hecn : p.ecn = .ect0
    · simp [fresh, hacked, isEct0, hecn]
    · simp [fresh, isEct0, hecn]
  by_cases hecn : p.ecn = .ect1
  · simp [fresh, hacked, isEct1, hecn]
  · simp [fresh, isEct1, hecn]

lemma CountedBy.trans {m n : (SentPacket → Bool) → Nat} {c₁ c₂ c₃ : AckPrecheck}
    (h₁ : CountedBy m c₁ c₂) (h₂ : CountedBy n c₂ c₃) : CountedBy (fun q => m q + n q) c₁ c₃ :=
  ⟨by rw [h₂.packets, h₁.packets]; omega, by rw [h₂.ect0, h₁.ect0]; omega,
    by rw [h₂.ect1, h₁.ect1]; omega⟩

lemma foldl_newlyAcked_counted (l : List SentPacket) : ∀ c : AckPrecheck,
    CountedBy (fun q => (l.map (fresh q)).sum) c
      (l.foldl AckPrecheck.observeNewlyAckedPacket c) := by
  induction l with
  | nil => intro c; exact ⟨rfl, rfl, rfl⟩
  | cons p rest ih =>
    intro c
    rw [foldl_cons]
    have := (observeNewlyAckedPacket_counted c p).trans (ih _)
    simpa only [map_cons, sum_cons] using this

section Ascending

variable {t : SentPacketTracker} {next : Nat}

lemma precheckRange_counted (h : WF t next) (hc : CursorOk t) (r : PacketRange)
    (c : AckPrecheck) :
    CountedBy (fun q => weigh (fresh q) [r] t.packets) c (t.precheckRange c r) := by
  have hfold := foldl_newlyAcked_counted
    (slice t.packets (max (t.lowerBoundPacketIndex r.start) t.firstUnacknowledgedIndex)
      (t.upperBoundPacketIndex r.stop))
    { c with
      sentPackets := c.sentPackets + t.retiredIntersectionLen r
        + (t.upperBoundPacketIndex r.stop - t.lowerBoundPacketIndex r.start) }
  have hsum : (fun q => ((slice t.packets
      (max (t.lowerBoundPacketIndex r.start) t.firstUnacknowledgedIndex)
      (t.upperBoundPacketIndex r.stop)).map (fresh q)).sum)
      = fun q => weigh (fresh q) [r] t.packets := by
    funext q
    exact sum_stretch h hc (fresh_ignoresClosed q) r
  rw [hsum] at hfold
  exact ⟨hfold.packets, hfold.ect0, hfold.ect1⟩

variable {bound : Nat}

lemma Chain.covered_lt : ∀ {rs : List PacketRange}, Chain bound rs →
    ∀ p, covered rs p = true → p.packetNumber < bound := by
  intro rs
  induction rs generalizing bound with
  | nil => intro _ p hp; simp at hp
  | cons r rest ih =>
    intro hchain p hp
    obtain ⟨hr, hlt, hrest⟩ := hchain
    rw [covered_cons, Bool.or_eq_true] at hp
    rcases hp with hfirst | hlater
    · have := (covered_one r p).mp hfirst
      omega
    · have := ih hrest p hlater
      omega

variable {rs : List PacketRange}

/-- The first range of a chain lies above the others. -/
theorem Chain.apart {r : PacketRange}
    (hchain : Chain bound (r :: rs)) (p : SentPacket) (hp : covered [r] p = true) :
    covered rs p = false := by
  obtain ⟨-, -, hrest⟩ := hchain
  rw [Bool.eq_false_iff]
  intro hlater
  have := hrest.covered_lt p hlater
  have := (covered_one r p).mp hp
  omega

lemma foldl_precheckRange_counted (h : WF t next) (hc : CursorOk t) :
    ∀ (rs : List PacketRange) (bound : Nat) (c : AckPrecheck), Chain bound rs →
      CountedBy (fun q => weigh (fresh q) rs t.packets) c (rs.foldl t.precheckRange c) := by
  intro rs
  induction rs with
  | nil =>
    intro bound c _
    exact ⟨by simp [weigh_nil], by simp [weigh_nil], by simp [weigh_nil]⟩
  | cons r rest ih =>
    intro bound c hchain
    have hboth := (precheckRange_counted h hc r c).trans
      (ih r.start (t.precheckRange c r) hchain.2.2)
    have hsplit : (fun q => weigh (fresh q) (r :: rest) t.packets)
        = fun q => weigh (fresh q) [r] t.packets + weigh (fresh q) rest t.packets := by
      funext q
      exact weigh_cons_apart _ (fun p _ => hchain.apart p)
    rw [hsplit]
    exact hboth

lemma precheckSpans_counted (h : WF t next) (hc : CursorOk t)
    (hchain : Chain bound rs) {c : AckPrecheck}
    (hok : precheckAckRanges.precheckSpans t rs = .ok c) :
    CountedBy (fun q => weigh (fresh q) rs t.packets) {} c := by
  unfold precheckAckRanges.precheckSpans at hok
  cases hspan : totalSpan 0 rs with
  | none => rw [hspan] at hok; simp at hok
  | some span =>
    rw [hspan] at hok
    simp only at hok
    obtain ⟨hshort, hok⟩ := of_guard hok nofun
    rw [if_pos h.sorted] at hok
    split at hok
    · simp at hok
    rw [Except.ok.injEq] at hok
    rw [← hok]
    have hfold := foldl_precheckRange_counted h hc rs bound { totalSpan := span } hchain
    exact ⟨hfold.packets, hfold.ect0, hfold.ect1⟩

lemma weigh_single (h : WF t next) (w : SentPacket → Nat) (n : Nat) :
    weigh w [⟨n, n⟩] t.packets = ((t.findSentPacket n).map w).getD 0 := by
  have hasc := h.ascending
  unfold weigh findSentPacket
  generalize t.packets = l at hasc
  induction l with
  | nil => rfl
  | cons p rest ih =>
    rw [map_cons, pairwise_cons] at hasc
    obtain ⟨hfirst, hrest⟩ := hasc
    rw [map_cons, sum_cons, find?_cons]
    have hone : covered [⟨n, n⟩] p = (p.packetNumber == n) := by
      rw [Bool.eq_iff_iff, covered_one]
      simp only [beq_iff_eq]
      omega
    rw [hone]
    by_cases hp : p.packetNumber = n
    · have hzero : (rest.map (fun q => if covered [⟨n, n⟩] q = true then w q else 0)).sum = 0 := by
        rw [sum_eq_zero]
        intro x hx
        obtain ⟨q, hq, rfl⟩ := mem_map.mp hx
        have hlt := hfirst q.packetNumber (mem_map.mpr ⟨q, hq, rfl⟩)
        refine if_neg (fun hcov => ?_)
        have := (covered_one ⟨n, n⟩ q).mp hcov
        simp only at this
        omega
      simp [hp, hzero]
    have hne : (p.packetNumber == n) = false := by simpa using hp
    rw [hne, ih hrest]
    simp

/-- **The precheck counts the records that the ACK newly acknowledges.** -/
theorem precheck_counted (h : WF t next) (hc : CursorOk t)
    (hchain : Chain bound rs) {c : AckPrecheck} (hok : t.precheckAckRanges rs = .ok c) :
    CountedBy (fun q => weigh (fresh q) rs t.packets) {} c := by
  unfold precheckAckRanges at hok
  match rs, hchain with
  | [], hchain => exact precheckSpans_counted h hc hchain hok
  | [⟨start, stop⟩], hchain =>
    simp only at hok
    by_cases hone : start = stop
    · rw [if_pos hone] at hok
      subst hone
      have hweigh : (fun q => weigh (fresh q) [⟨start, start⟩] t.packets)
          = fun q => ((t.findSentPacket start).map (fresh q)).getD 0 := by
        funext q
        exact weigh_single h (fresh q) start
      rw [hweigh]
      cases hfind : t.findSentPacket start with
      | some packet =>
        rw [hfind] at hok
        simp only [Except.ok.injEq] at hok
        rw [← hok]
        have := observeNewlyAckedPacket_counted
          { totalSpan := 1, sentPackets := 0 + 1 } packet
        exact ⟨this.packets, this.ect0, this.ect1⟩
      | none =>
        rw [hfind] at hok
        by_cases hret : t.retiredContains start = true
        · rw [if_pos hret, Except.ok.injEq] at hok
          rw [← hok]
          exact ⟨rfl, rfl, rfl⟩
        · simp [hret] at hok
    · rw [if_neg hone] at hok
      exact precheckSpans_counted h hc hchain hok
  | _ :: _ :: _, hchain => exact precheckSpans_counted h hc hchain hok

end Ascending

/-! ### ECN counters -/

/-- The packets marked `codepoint` that the frame newly acknowledges. -/
def newlyNamed (t : SentPacketTracker) (ack : AckFrame) (codepoint : EcnCodepoint) : Nat :=
  t.packets.countP
    (fun p => ack.names p.packetNumber && !p.acknowledged && decide (p.ecn = codepoint))

/-- Counters that only grow, claim no more marks than were sent, and cover the packets the
frame newly acknowledges. -/
def EcnPlausible (t : SentPacketTracker) (ack : AckFrame) (counts : EcnCounts) : Prop :=
  (t.latestEcnCounts.ect0Count ≤ counts.ect0Count ∧
    t.latestEcnCounts.ect1Count ≤ counts.ect1Count ∧
    t.latestEcnCounts.ecnCeCount ≤ counts.ecnCeCount) ∧
  (counts.ect0Count ≤ t.sentEct0Count ∧ counts.ect1Count ≤ t.sentEct1Count ∧
    counts.ecnCeCount ≤ t.sentEct0Count + t.sentEct1Count) ∧
  t.newlyNamed ack .ect0 ≤ (counts.ect0Count - t.latestEcnCounts.ect0Count)
    + (counts.ecnCeCount - t.latestEcnCounts.ecnCeCount) ∧
  t.newlyNamed ack .ect1 ≤ (counts.ect1Count - t.latestEcnCounts.ect1Count)
    + (counts.ecnCeCount - t.latestEcnCounts.ecnCeCount)

/-- A frame without counters is acceptable; one with counters needs validation to be on, and
plausible counters unless it is older than the newest one that was validated. -/
def EcnAcceptable (t : SentPacketTracker) (ack : AckFrame) : Prop :=
  ∀ counts, ack.ecnCounts = some counts → t.ecnValidationFailed = false ∧
      ((∃ n, t.ecnLargestAcknowledged = some n ∧ ack.largestAcknowledged ≤ n) ∨
        EcnPlausible t ack counts)

lemma weigh_fresh_eq (t : SentPacketTracker) {ack : AckFrame} {rs : List PacketRange}
    (hrs : decodeAckRanges ack = .ok rs) (codepoint : EcnCodepoint) :
    weigh (fresh (fun p => decide (p.ecn = codepoint))) rs t.packets
      = t.newlyNamed ack codepoint := by
  have hnames := (decodeAckRanges_names hrs).2
  unfold weigh newlyNamed
  generalize t.packets = l
  induction l with
  | nil => rfl
  | cons p rest ih =>
    rw [map_cons, sum_cons, countP_cons, ih, Nat.add_comm]
    unfold covered fresh
    rw [hnames p.packetNumber]
    by_cases hname : ack.names p.packetNumber = true
    · simp [hname]
    · simp [hname]

lemma validateAckEcnCounters_iff {t : SentPacketTracker} (counts : EcnCounts)
    (hon : t.ecnValidationFailed = false) (hbooks : t.sentEct0Count + t.sentEct1Count ≤ maxU64) :
    t.validateAckEcnCounters counts = .ok () ↔ (t.latestEcnCounts.ect0Count ≤ counts.ect0Count ∧
        t.latestEcnCounts.ect1Count ≤ counts.ect1Count ∧
        t.latestEcnCounts.ecnCeCount ≤ counts.ecnCeCount) ∧
      (counts.ect0Count ≤ t.sentEct0Count ∧ counts.ect1Count ≤ t.sentEct1Count ∧
        counts.ecnCeCount ≤ t.sentEct0Count + t.sentEct1Count) := by
  unfold validateAckEcnCounters checkedAdd
  rw [if_neg (by simp [hon]), if_pos hbooks]
  by_cases hback : counts.ect0Count < t.latestEcnCounts.ect0Count ∨
      counts.ect1Count < t.latestEcnCounts.ect1Count ∨
      counts.ecnCeCount < t.latestEcnCounts.ecnCeCount
  · rw [if_pos hback]
    simp only [reduceCtorEq, false_iff]
    omega
  rw [if_neg hback]
  simp only
  by_cases h0 : t.sentEct0Count < counts.ect0Count
  · simp [h0, false_iff]
  rw [if_neg h0]
  by_cases h1 : t.sentEct1Count < counts.ect1Count
  · simp [h1, false_iff]
  rw [if_neg h1]
  by_cases hce : t.sentEct0Count + t.sentEct1Count < counts.ecnCeCount
  · simp [hce, false_iff]
  rw [if_neg hce]
  simp only [true_iff]
  omega

/-- **The ECN validation, without its walk.** -/
theorem ecnValidation_iff {t : SentPacketTracker} {next : Nat} (h : WF t next) (hc : CursorOk t)
    (hbooks : t.sentEct0Count + t.sentEct1Count ≤ next) {ack : AckFrame} {rs : List PacketRange}
    (hrs : decodeAckRanges ack = .ok rs) {c : AckPrecheck} (hok : t.precheckAckRanges rs = .ok c) :
    (∃ ecn, t.validateAckEcnFrameDetailedForPrecheck ack c = .ok ecn) ↔ EcnAcceptable t ack := by
  have hcounted := precheck_counted h hc (decodeAckRanges_chain hrs) hok
  have h0 : c.newlyAckedEct0 = t.newlyNamed ack .ect0 := by
    rw [hcounted.ect0]
    exact (Nat.zero_add _).trans (weigh_fresh_eq t hrs .ect0)
  have h1 : c.newlyAckedEct1 = t.newlyNamed ack .ect1 := by
    rw [hcounted.ect1]
    exact (Nat.zero_add _).trans (weigh_fresh_eq t hrs .ect1)
  have hsmall := h.small
  unfold varintMax at hsmall
  unfold validateAckEcnFrameDetailedForPrecheck EcnAcceptable
  cases hcounts : ack.ecnCounts with
  | none => simp
  | some counts =>
    simp only [Option.some.injEq, forall_eq']
    by_cases hfailed : t.ecnValidationFailed = true
    · simp [hfailed]
    rw [if_neg hfailed]
    have hon : t.ecnValidationFailed = false := by simpa using hfailed
    by_cases hold : t.ecnLargestAcknowledged.any
        (fun n => decide (ack.largestAcknowledged ≤ n)) = true
    · rw [if_pos hold]
      have hsome : ∃ n, t.ecnLargestAcknowledged = some n ∧ ack.largestAcknowledged ≤ n := by
        simpa [Option.any_eq_true] using hold
      exact ⟨fun _ => ⟨hon, .inl hsome⟩, fun _ => ⟨_, rfl⟩⟩
    rw [if_neg hold]
    have hnew : ¬ ∃ n, t.ecnLargestAcknowledged = some n ∧ ack.largestAcknowledged ≤ n := by
      simpa [Option.any_eq_true] using hold
    have hvalid := validateAckEcnCounters_iff counts hon
      (show t.sentEct0Count + t.sentEct1Count ≤ maxU64 by unfold maxU64; omega)
    simp only [hon, hnew, false_or, true_and]
    unfold EcnPlausible
    rw [← and_assoc, ← hvalid]
    cases hcheck : t.validateAckEcnCounters counts with
    | error e => simp
    | ok u =>
      obtain ⟨hgrow, hsent⟩ := hvalid.mp hcheck
      simp only [true_and]
      unfold checkedAdd
      rw [if_pos (by unfold maxU64; omega), if_pos (by unfold maxU64; omega)]
      simp only
      by_cases hshort : counts.ect0Count - t.latestEcnCounts.ect0Count
          + (counts.ecnCeCount - t.latestEcnCounts.ecnCeCount) < c.newlyAckedEct0 ∨
          counts.ect1Count - t.latestEcnCounts.ect1Count
          + (counts.ecnCeCount - t.latestEcnCounts.ecnCeCount) < c.newlyAckedEct1
      · rw [if_pos hshort]
        simp only [reduceCtorEq, exists_false, false_iff]
        omega
      rw [if_neg hshort]
      simp only [Except.ok.injEq, exists_eq', true_iff]
      omega

end SentPacketTracker

end Netz.Quic
