/-
Applying an ACK.

Retiring a prefix drops records and keeps the set of sent numbers, so applying an ACK keeps
it, and an ACK that names only sent packets applies; only its ECN counters can still be
refused.
-/
import Netz.Lib.Reader
import Netz.Proofs.SentPackets

namespace Netz.Quic.SentPacketTracker

open Lib List
open Option hiding any_eq_true

/-! ### Retiring a prefix -/

/-- The records a compaction counts carry consecutive numbers. -/
theorem compactCount_spec : ∀ (l : List SentPacket) (remaining expected : Nat),
    (∀ n ∈ l.map (·.packetNumber), n < maxU64) → compactCount remaining expected l ≤ l.length ∧
    ∀ i, i < compactCount remaining expected l →
      (l.map (·.packetNumber))[i]? = some (expected + i) := by
  intro l
  induction l with
  | nil =>
    intro remaining expected _
    cases remaining with
    | zero | succ => simp [compactCount]
  | cons p rest ih =>
    intro remaining expected hsmall
    cases remaining with
    | zero => simp [compactCount]
    | succ k =>
      unfold compactCount
      by_cases hstop : p.acknowledged = false ∨ p.packetNumber ≠ expected
      · simp [hstop]
      rw [if_neg hstop]
      have hp : p.packetNumber = expected := by omega
      have hlt := hsmall p.packetNumber (by simp)
      have hnext : saturatingAdd expected 1 = expected + 1 := by
        unfold saturatingAdd
        omega
      rw [hnext]
      obtain ⟨hlen, hnum⟩ := ih k (expected + 1) (fun n hn => hsmall n (by
        rw [map_cons, mem_cons]
        exact .inr hn))
      refine ⟨by rw [length_cons]; omega, ?_⟩
      intro i hi
      cases i with
      | zero => simp [hp]
      | succ j =>
        rw [map_cons, getElem?_cons_succ, hnum j (by omega)]
        congr 1
        omega

variable {t t' : SentPacketTracker} {next : Nat} {ack : AckFrame} {r : AckResult}

lemma expectedStart_eq (h : WF t next) (first : SentPacket) :
    t.expectedStart first = match t.retired with
      | some r => r.stop + 1
      | none => first.packetNumber := by
  have hboth := h.both
  unfold expectedStart
  cases he : t.retiredAcknowledgedThrough with
  | none => simp [retired, he]
  | some stop =>
    rw [he] at hboth
    obtain ⟨start, hs⟩ := isSome_iff_exists.mp (hboth.trans rfl)
    have hlt : stop < next := (h.nonempty ⟨start, stop⟩ (by simp [retired, hs, he])).2
    have hsmall := h.small
    simp only [retired, hs, he, saturatingAdd]
    unfold varintMax at hsmall
    unfold maxU64
    omega

lemma compactAcknowledgedPrefix_later (t : SentPacketTracker) (next : Nat) :
    Later next t t.compactAcknowledgedPrefix := by
  unfold compactAcknowledgedPrefix
  by_cases hskip : t.packetsSortedAscending = false ∨
      t.firstUnacknowledgedIndex < compactAcknowledgedThreshold
  · rw [if_pos hskip]
    exact Later.refl next t
  rw [if_neg hskip]
  cases hl : t.packets with
  | nil => exact Later.refl next t
  | cons first rest =>
    simp only
    rw [← hl]
    generalize compactCount t.firstUnacknowledgedIndex (t.expectedStart first) t.packets = count
    by_cases hfew : count < compactAcknowledgedThreshold
    · rw [if_pos hfew]
      exact Later.refl next t
    · rw [if_neg hfew]
      exact Later.of_subset (fun q hq => mem_of_mem_drop hq) rfl

/-- What is retired reaches to the number that the first record must have. -/
lemma retiredStart_spec (h : WF t next) {first : SentPacket}
    (hfirst : first.packetNumber = t.expectedStart first) :
    t.retiredAcknowledgedStart.getD first.packetNumber ≤ t.expectedStart first ∧
    ∀ n, (t.retiredAcknowledgedStart.getD first.packetNumber ≤ n ∧ n < t.expectedStart first) ↔
      t.retiredContains n = true := by
  have hexp := expectedStart_eq h first
  have hboth := h.both
  cases hs : t.retiredAcknowledgedStart with
  | none => simp [hs, retired, ← hfirst, retiredContains_iff]
  | some start =>
    rw [hs] at hboth
    obtain ⟨stop, he⟩ := isSome_iff_exists.mp (hboth.symm.trans rfl)
    have hret : t.retired = some ⟨start, stop⟩ := by simp [retired, hs, he]
    have hle := (h.nonempty _ hret).1
    rw [hret] at hexp
    simp only at hexp hle
    refine ⟨by simp only [getD_some]; omega, ?_⟩
    intro n
    rw [retiredContains_iff, hret]
    simp only [getD_some, some.injEq, exists_eq_left', Range.Holds]
    omega

lemma mem_take_run {l : List Nat} {count expected n : Nat}
    (hnum : ∀ i < count, l[i]? = some (expected + i)) :
    n ∈ l.take count ↔ expected ≤ n ∧ n < expected + count := by
  rw [mem_iff_getElem?]
  constructor
  · rintro ⟨i, hn⟩
    rw [getElem?_take] at hn
    by_cases hi : i < count
    · rw [if_pos hi, hnum i hi, some.injEq] at hn
      omega
    · simp [hi] at hn
  intro hc
  refine ⟨n - expected, ?_⟩
  rw [getElem?_take, if_pos (by omega), hnum _ (by omega)]
  congr 1
  omega

/-- **Retiring a prefix forgets no number.** -/
theorem compactAcknowledgedPrefix_wf (h : WF t next) :
    WF t.compactAcknowledgedPrefix next ∧ ∀ n, Sent t.compactAcknowledgedPrefix n ↔ Sent t n := by
  have hsame : WF t next ∧ ∀ n, Sent t n ↔ Sent t n := ⟨h, fun _ => Iff.rfl⟩
  unfold compactAcknowledgedPrefix
  by_cases hskip : t.packetsSortedAscending = false ∨
      t.firstUnacknowledgedIndex < compactAcknowledgedThreshold
  · simp [hskip, hsame]
  rw [if_neg hskip]
  cases hl : t.packets with
  | nil => exact hsame
  | cons first rest =>
    simp only
    rw [← hl]
    generalize hexp : t.expectedStart first = expected
    generalize hcount : compactCount t.firstUnacknowledgedIndex expected t.packets = count
    by_cases hfew : count < compactAcknowledgedThreshold
    · simp [hfew, hsame]
    rw [if_neg hfew]
    have hpos : 0 < count := by
      unfold compactAcknowledgedThreshold at hfew
      omega
    have hbig : ∀ n ∈ t.packets.map (·.packetNumber), n < maxU64 := by
      intro n hn
      have h₁ := h.below n hn
      have h₂ := h.small
      unfold varintMax at h₂
      unfold maxU64
      omega
    obtain ⟨hlen, hnum⟩ := compactCount_spec t.packets t.firstUnacknowledgedIndex expected hbig
    rw [hcount] at hlen hnum
    -- The retired prefix now reaches to the last record that was dropped.
    have hlast : (t.packets[count - 1]?).map (·.packetNumber) = some (expected + (count - 1)) := by
      rw [← getElem?_map]
      exact hnum (count - 1) (by omega)
    have hfirst : first.packetNumber = t.expectedStart first := by
      have := hnum 0 hpos
      rw [hl, map_cons, getElem?_cons_zero, some.injEq] at this
      omega
    have hstart := retiredStart_spec h hfirst
    rw [hexp] at hstart
    have hsplit : t.packets.map (·.packetNumber)
        = (t.packets.take count).map (·.packetNumber)
          ++ (t.packets.drop count).map (·.packetNumber) := by
      rw [← map_append, take_append_drop]
    have htake : ∀ n, n ∈ (t.packets.take count).map (·.packetNumber) ↔
        expected ≤ n ∧ n < expected + count := by
      intro n
      rw [map_take]
      exact mem_take_run hnum
    have hasc := h.ascending
    rw [hsplit, pairwise_append] at hasc
    obtain ⟨-, hdropAsc, hcross⟩ := hasc
    have hlastMem : expected + (count - 1) ∈ (t.packets.take count).map (·.packetNumber) := by
      rw [htake]
      omega
    rw [hlast]
    refine ⟨⟨h.sorted, hdropAsc, ?_, rfl, ?_, ?_, h.small⟩, ?_⟩
    · intro n hn
      exact h.below n (by rw [hsplit]; exact mem_append_right _ hn)
    · intro r hr
      simp only [retired, some.injEq] at hr
      rw [← hr]
      constructor
      · show t.retiredAcknowledgedStart.getD first.packetNumber ≤ expected + (count - 1)
        omega
      · exact h.below _ (by rw [hsplit]; exact mem_append_left _ hlastMem)
    · intro r hr n hn
      simp only [retired, some.injEq] at hr
      rw [← hr]
      exact hcross _ hlastMem n hn
    intro n
    unfold Sent
    rw [hsplit, mem_append, htake, ← hstart.2]
    have hnew : retiredContains
        { t with
          retiredAcknowledgedStart := some (t.retiredAcknowledgedStart.getD first.packetNumber)
          retiredAcknowledgedThrough := some (expected + (count - 1))
          packets := t.packets.drop count
          firstUnacknowledgedIndex := t.firstUnacknowledgedIndex - count } n = true ↔
        t.retiredAcknowledgedStart.getD first.packetNumber ≤ n ∧ n ≤ expected + (count - 1) := by
      simp [retiredContains]
    rw [hnew]
    constructor
    · intro hor
      rcases hor with hret | hdrop
      · omega
      · exact .inr (.inr hdrop)
    intro hor
    rcases hor with hret | hmid | hdrop
    · exact .inl (by omega)
    · exact .inl (by omega)
    · exact .inr hdrop

/-! ### Applying an ACK and sending a packet -/

/-- Every number an ACK names was sent. -/
def Names (t : SentPacketTracker) (ack : AckFrame) : Prop :=
  ∃ rs, decodeAckRanges ack = .ok rs ∧ ∀ n, Covers rs n → Sent t n

lemma Names.mono (h : Names t ack) (hsub : ∀ n, Sent t n → Sent t' n) : Names t' ack := by
  obtain ⟨rs, hrs, hall⟩ := h
  exact ⟨rs, hrs, fun n hn => hsub n (hall n hn)⟩

lemma Names.plain (h : Names t ack) :
    Names t { ack with ecnCounts := none } := h

lemma names_of_validate (h : WF t next) (hok : t.validateAckCoversSentPackets ack = .ok ()) :
    Names t ack := by
  unfold validateAckCoversSentPackets at hok
  obtain ⟨-, hok⟩ := of_guard hok nofun
  cases hrs : decodeAckRanges ack with
  | error e => rw [hrs] at hok; simp at hok
  | ok rs =>
    rw [hrs] at hok
    simp only at hok
    refine ⟨rs, hrs, ?_⟩
    cases hc : t.precheckAckRanges rs with
    | error e => rw [hc] at hok; simp at hok
    | ok c => exact (precheckAckRanges_iff h (decodeAckRanges_chain hrs)).mp ⟨c, hc⟩

lemma Names.largest_sent (hn : Names t ack) : Sent t ack.largestAcknowledged := by
  obtain ⟨rs, hrs, hall⟩ := hn
  obtain ⟨-, more, -, rfl⟩ := decodeAckRanges_cons hrs
  exact hall _ ⟨_, mem_cons_self, Nat.sub_le _ _, le_rfl⟩

lemma Names.largest_lt (h : WF t next) (hn : Names t ack) : ack.largestAcknowledged < next :=
  hn.largest_sent.lt h

lemma Names.precheck (h : WF t next) (hn : Names t ack) :
    ¬ (t.packets = [] ∧ t.retiredAcknowledgedThrough = none) ∧
    ∃ rs c, decodeAckRanges ack = .ok rs ∧ t.precheckAckRanges rs = .ok c := by
  refine ⟨fun hempty => ?_, ?_⟩
  · rcases hn.largest_sent with hret | hin
    · obtain ⟨q, hq, -⟩ := (retiredContains_iff t _).mp hret
      simp [hempty.2, retired] at hq
    · simp [hempty.1] at hin
  · obtain ⟨rs, hrs, hall⟩ := hn
    obtain ⟨c, hc⟩ := (precheckAckRanges_iff h (decodeAckRanges_chain hrs)).mpr hall
    exact ⟨rs, c, hrs, hc⟩

/-- What an accepted ACK notes of its counters. -/
def noted (t : SentPacketTracker) (ack : AckFrame) (ecn : EcnAckValidation) (acked : AckResult) :
    AckResult × SentPacketTracker :=
  match ack.ecnCounts with
  | some counts =>
    if ecn.updateCounts then
      ({ acked with ecnCeDelta := ecn.ceDelta },
        { t with latestEcnCounts := counts, ecnLargestAcknowledged := some ack.largestAcknowledged })
    else (acked, t)
  | none =>
    if (acked.ect0Packets ≠ 0 ∨ acked.ect1Packets ≠ 0) ∧
        t.ackDoesNotAdvanceEcnLargest ack.largestAcknowledged = false then
      (acked, { t with ecnValidationFailed := true })
    else (acked, t)

lemma noted_same (ecn : EcnAckValidation) (acked : AckResult) :
    SameNumbers t (t.noted ack ecn acked).2 := by
  unfold noted
  split
  · split <;> exact SameNumbers.of_packets rfl rfl rfl rfl rfl
  · split <;> exact SameNumbers.of_packets rfl rfl rfl rfl rfl

lemma applyAckDetailed_eq (t : SentPacketTracker) (ack : AckFrame) : t.applyAckDetailed ack =
    if t.packets = [] ∧ t.retiredAcknowledgedThrough = none then .error .invalidAckFrame
    else do
      let rs ← decodeAckRanges ack
      let c ← t.precheckAckRanges rs
      let ecn ← t.validateAckEcnFrameDetailedForPrecheck ack c
      let marked := if c.newlyAckedPackets ≠ 0 then t.markRanges rs else (t, {})
      let noted := marked.1.noted ack ecn marked.2
      return (noted.1, noted.2.compactAcknowledgedPrefix) := by
  unfold applyAckDetailed noted
  split
  · rfl
  cases decodeAckRanges ack with
  | error e => rfl
  | ok rs =>
    dsimp only [bind, Except.bind]
    cases t.precheckAckRanges rs with
    | error e => rfl
    | ok c =>
      dsimp only
      cases t.validateAckEcnFrameDetailedForPrecheck ack c with
      | error e => rfl
      | ok ecn =>
        generalize (if c.newlyAckedPackets ≠ 0 then t.markRanges rs else (t, {})) = marked
        dsimp only
        cases ack.ecnCounts with
        | some counts => cases ecn.updateCounts <;> rfl
        | none =>
          dsimp only
          split <;> rfl

/-- The state an accepted ACK leaves, before the prefix is compacted. -/
theorem applyAckDetailed_cases (hsorted : t.packetsSortedAscending = true)
    (hok : t.applyAckDetailed ack = .ok (r, t')) :
    ∃ t₁, SameNumbers t t₁ ∧ t' = t₁.compactAcknowledgedPrefix := by
  rw [applyAckDetailed_eq] at hok
  obtain ⟨-, hok⟩ := of_guard hok nofun
  obtain ⟨rs, -, hok⟩ := bind_eq_ok hok
  obtain ⟨c, -, hok⟩ := bind_eq_ok hok
  obtain ⟨ecn, -, hok⟩ := bind_eq_ok hok
  cases hok
  refine ⟨_, SameNumbers.trans ?_ (noted_same ecn _), rfl⟩
  by_cases hnew : c.newlyAckedPackets ≠ 0
  · rw [if_pos hnew]
    exact markRanges_same hsorted rs
  · rw [if_neg hnew]
    exact SameNumbers.refl t

lemma applyAckDetailed_wf (h : WF t next) (hok : t.applyAckDetailed ack = .ok (r, t')) :
    WF t' next ∧ (∀ n, Sent t' n ↔ Sent t n) ∧ ∀ bound, Later bound t t' := by
  obtain ⟨t₁, hsame, ht'⟩ := applyAckDetailed_cases h.sorted hok
  obtain ⟨hwf, hsent⟩ := compactAcknowledgedPrefix_wf (hsame.wf h)
  rw [ht']
  exact ⟨hwf, fun n => (hsent n).trans (hsame.sent n),
    fun bound => (hsame.later bound).trans (compactAcknowledgedPrefix_later t₁ bound)⟩

lemma validateAckEcnFrame_error {c : AckPrecheck} {e : Error}
    (h : t.validateAckEcnFrameDetailedForPrecheck ack c = .error e) :
    ack.ecnCounts ≠ none ∧ e = .invalidAckFrame := by
  unfold validateAckEcnFrameDetailedForPrecheck validateAckEcnCounters at h
  cases hcounts : ack.ecnCounts with
  | none => rw [hcounts] at h; simp at h
  | some counts =>
    rw [hcounts] at h
    refine ⟨by simp, ?_⟩
    simp only at h
    split at h
    · simpa using h.symm
    split at h
    · simp at h
    split at h
    · grind
    split at h
    · split at h
      · simpa using h.symm
      · simp at h
    · simpa using h.symm

/-- An ACK that names only sent packets fails at most on its ECN counters. -/
theorem Names.applyAckDetailed (h : WF t next) (hn : Names t ack) :
    (∃ r t', t.applyAckDetailed ack = .ok (r, t')) ∨
    (ack.ecnCounts ≠ none ∧ t.validateAckEcnFrameWouldFail ack = true ∧
      t.applyAckDetailed ack = .error .invalidAckFrame) := by
  obtain ⟨hne, rs, c, hrs, hc⟩ := hn.precheck h
  unfold validateAckEcnFrameWouldFail
  rw [applyAckDetailed_eq, if_neg hne, hrs]
  dsimp only [bind, Except.bind]
  rw [hc]
  dsimp only
  cases hecn : t.validateAckEcnFrameDetailedForPrecheck ack c with
  | error e =>
    obtain ⟨hcounts, he⟩ := validateAckEcnFrame_error hecn
    rw [he]
    exact .inr ⟨hcounts, rfl, rfl⟩
  | ok ecn => exact .inl ⟨_, _, rfl⟩

lemma Names.applyAckDetailed_plain (h : WF t next) (hn : Names t ack)
    (hplain : ack.ecnCounts = none) : ∃ r t', t.applyAckDetailed ack = .ok (r, t') := by
  rcases hn.applyAckDetailed h with hok | hfail
  · exact hok
  · exact absurd hplain hfail.1

lemma sentNext_wf (h : WF t next) (hnext : next ≤ varintMax) (packet : SentPacket)
    (hp : packet.packetNumber = next) :
    ∃ t', t.sentInFlightAtWithMetadata packet = .ok t' ∧ WF t' (next + 1) ∧
      (∀ n, Sent t n → Sent t' n) ∧ ∀ bound, bound ≤ next → Later bound t t' := by
  have hmono : t.packets.getLast?.all (fun p => decide (p.packetNumber < packet.packetNumber))
      = true := by
    cases hlast : t.packets.getLast? with
    | none => rfl
    | some p =>
      have := h.below p.packetNumber (mem_map.mpr ⟨p, mem_of_getLast? hlast, rfl⟩)
      simp only [all_some, decide_eq_true_eq]
      omega
  unfold sentInFlightAtWithMetadata
  rw [if_neg (by rw [hmono]; simp)]
  refine ⟨_, rfl, ⟨?_, ?_, ?_, h.both, ?_, ?_, by unfold varintMax at *; omega⟩, ?_, ?_⟩
  · simp [h.sorted, hmono]
  · simp only [map_append, map_cons, map_nil, pairwise_append]
    refine ⟨h.ascending, pairwise_singleton _ _, ?_⟩
    intro a ha b hb
    rw [mem_singleton] at hb
    have := h.below a ha
    omega
  · intro n hn
    simp only [map_append, map_cons, map_nil, mem_append,
      mem_singleton] at hn
    rcases hn with hold | hnew
    · have := h.below n hold
      omega
    · omega
  · intro r hr
    have := h.nonempty r hr
    omega
  · intro r hr n hn
    simp only [map_append, map_cons, map_nil, mem_append,
      mem_singleton] at hn
    rcases hn with hold | hnew
    · exact h.above r hr n hold
    · have := (h.nonempty r hr).2
      omega
  · intro n hn
    rcases hn with hret | hin
    · exact .inl hret
    refine .inr ?_
    simp only [map_append]
    exact mem_append_left _ hin
  intro bound hbound
  refine ⟨?_, fun _ hn => hn⟩
  intro q hq hlow
  rw [mem_append, mem_singleton] at hq
  rcases hq with hold | hnew
  · exact ⟨q, hold, Aged.refl q⟩
  rw [hnew] at hlow
  simp only at hlow
  omega

lemma WF.skip (h : WF t next) (hnext : next ≤ varintMax) : WF t (next + 1) :=
  ⟨h.sorted, h.ascending, fun n hn => Nat.lt_succ_of_lt (h.below n hn), h.both,
    fun r hr => ⟨(h.nonempty r hr).1, Nat.lt_succ_of_lt (h.nonempty r hr).2⟩, h.above, by omega⟩

/-! ### RTT samples -/

lemma findSentPacket_of_mem (h : WF t next) {p : SentPacket} (hp : p ∈ t.packets) :
    t.findSentPacket p.packetNumber = some p := by
  obtain ⟨q, hq⟩ := isSome_iff_exists.mp
    ((findSentPacket_isSome t p.packetNumber).mpr (mem_map.mpr ⟨p, hp, rfl⟩))
  have hnum : q.packetNumber = p.packetNumber := by simpa using find?_some hq
  rw [hq, inj_on_of_nodup_map (h.ascending.imp (fun hab => Nat.ne_of_lt hab))
    (mem_of_find?_eq_some hq) hp hnum]

lemma Later.rangeContains (h : Later next t t') {r : PacketRange} (hr : r.stop < next)
    (hnew : t'.rangeContainsNewAckEliciting r = true) :
    t.rangeContainsNewAckEliciting r = true := by
  unfold rangeContainsNewAckEliciting at hnew ⊢
  rw [any_eq_true] at hnew ⊢
  obtain ⟨q, hq, hin⟩ := hnew
  simp only [Bool.and_eq_true, decide_eq_true_eq] at hin
  obtain ⟨⟨⟨hlo, hhi⟩, hopen⟩, helic⟩ := hin
  obtain ⟨p, hp, haged⟩ := h.records q hq (by omega)
  refine ⟨p, hp, ?_⟩
  have hpopen : p.acknowledged = false := by
    cases hack : p.acknowledged with
    | false => rfl
    | true => rw [haged.stays hack] at hopen; simp at hopen
  rw [← haged.number, ← haged.eliciting, hpopen]
  simp [hlo, hhi, helic]

lemma Later.moreRangesContain (h : Later next t t') :
    ∀ (ranges : List AckRange) (start : Nat), start < next →
      t'.moreRangesContainNewAckEliciting start ranges = true →
      t.moreRangesContainNewAckEliciting start ranges = true := by
  intro ranges
  induction ranges with
  | nil => intro start _ hnew; simp [moreRangesContainNewAckEliciting] at hnew
  | cons range rest ih =>
    intro start hstart hnew
    unfold moreRangesContainNewAckEliciting at hnew ⊢
    cases hskip : checkedAdd range.gap 2 with
    | none => rw [hskip] at hnew; simp at hnew
    | some skipped =>
      rw [hskip] at hnew
      simp only at hnew ⊢
      by_cases h₁ : start < skipped
      · rw [if_pos h₁] at hnew; simp at hnew
      rw [if_neg h₁] at hnew ⊢
      by_cases h₂ : start - skipped < range.ackRangeLength
      · rw [if_pos h₂] at hnew; simp at hnew
      rw [if_neg h₂] at hnew ⊢
      rw [Bool.or_eq_true] at hnew ⊢
      rcases hnew with hhere | hrest
      · exact .inl (h.rangeContains (by simp only; omega) hhere)
      · exact .inr (ih _ (by omega) hrest)

/-- **An ACK that takes an RTT sample would have taken one earlier.** -/
theorem Later.sampled (h : Later next t t') (hwf : WF t next)
    (hlow : ack.largestAcknowledged < next) (hsamp : t'.sampledSentTime ack ≠ none) :
    t.sampledSentTime ack ≠ none := by
  unfold sampledSentTime at hsamp ⊢
  by_cases hold : t'.ackDoesNotAdvanceLargest ack.largestAcknowledged = true
  · rw [if_pos hold] at hsamp; simp at hsamp
  rw [if_neg hold] at hsamp
  rw [if_neg (fun hc => hold (h.largest _ hc))]
  cases hfind : t'.findSentPacket ack.largestAcknowledged with
  | none => rw [hfind] at hsamp; simp at hsamp
  | some q =>
    rw [hfind] at hsamp
    simp only at hsamp
    have hnum : q.packetNumber = ack.largestAcknowledged := by simpa using find?_some hfind
    obtain ⟨p, hp, haged⟩ := h.records q (mem_of_find?_eq_some hfind) (by omega)
    have hpfind := findSentPacket_of_mem hwf hp
    rw [← haged.number, hnum] at hpfind
    rw [hpfind]
    simp only
    by_cases hacked : q.acknowledged = true
    · rw [if_pos hacked] at hsamp; simp at hsamp
    rw [if_neg hacked] at hsamp
    rw [if_neg (fun hc => hacked (haged.stays hc))]
    by_cases hnone : t'.ackContainsNewAckEliciting ack = false
    · rw [if_pos hnone] at hsamp; simp at hsamp
    rw [if_neg hnone] at hsamp
    have hmem : t.ackContainsNewAckEliciting ack = true := by
      rw [Bool.not_eq_false] at hnone
      unfold ackContainsNewAckEliciting at hnone ⊢
      by_cases hbad : ack.largestAcknowledged < ack.firstAckRange
      · rw [if_pos hbad] at hnone; simp at hnone
      rw [if_neg hbad] at hnone ⊢
      rw [Bool.or_eq_true] at hnone ⊢
      rcases hnone with hfirst | hmore
      · exact .inl (h.rangeContains hlow hfirst)
      · exact .inr (h.moreRangesContain _ _ (by omega) hmore)
    simp [← haged.sentTime, hmem, hsamp]

end Netz.Quic.SentPacketTracker
