/-
The caches of the sent tracker over whole runs.

Each operation of the cached tracker does to its records what the plain tracker does, and
repairs the caches.  `Inv` is what they share: the records are well formed, the cursor and the
hash map are right, and the cached index is the newest.
-/
import Netz.Proofs.SentLookups

namespace Netz.Quic.IndexedTracker

open Lib SentPacketTracker List

/-- With the bound on the ECN counters where they are `counted`. -/
structure Inv (counted : Prop) (t : IndexedTracker) (next : Nat) : Prop where
  wf : t.toSentPacketTracker.WF next
  cursor : t.toSentPacketTracker.CursorOk
  indexed : Indexes t.packets t.packetIndex
  newest : Newest t.packets t.packets.length t.latestAckElicitingInFlightIndex
  marks : counted → t.sentEct0Count + t.sentEct1Count ≤ next

variable {counted : Prop} {t : IndexedTracker} {next : Nat}

lemma inv_init : Inv counted {} 0 :=
  ⟨init_wf, ⟨le_rfl, fun i p hi => by simp at hi⟩,
    fun n i hi => by simp at hi, fun j hj => by simp at hj, fun _ => le_rfl⟩

/-- Records change in place: the numbers stay, and with them the hash map. -/
theorem Inv.inPlace (h : Inv counted t next) {t' : IndexedTracker}
    (hsame : SentPacketTracker.SameNumbers t.toSentPacketTracker t'.toSentPacketTracker)
    (hcur : t'.toSentPacketTracker.CursorOk) (hidx : t'.packetIndex = t.packetIndex)
    (hnewest : Newest t'.packets t'.packets.length t'.latestAckElicitingInFlightIndex)
    (h0 : t'.sentEct0Count = t.sentEct0Count) (h1 : t'.sentEct1Count = t.sentEct1Count) :
    Inv counted t' next := by
  refine ⟨hsame.wf h.wf, hcur, ?_, hnewest, by rw [h0, h1]; exact h.marks⟩
  intro n i hi
  rw [hidx] at hi
  rw [hsame.numbers]
  exact h.indexed n i hi

/-! ### Marking ranges -/

@[simp] lemma mark_tracker (latest : Option Nat) (m : Marking) (index : Nat) :
    (m.mark latest index).tracker = (m.tracker.markPacketAcknowledged m.result index).1 := rfl

lemma markIndices_eq (latest : Option Nat) : ∀ (remaining index : Nat) (m : Marking),
    (m.markIndices latest remaining index).tracker
      = (m.tracker.markIndices m.result remaining index).1 ∧
    (m.markIndices latest remaining index).result
      = (m.tracker.markIndices m.result remaining index).2 := by
  intro remaining
  induction remaining with
  | zero => intro index m; exact ⟨rfl, rfl⟩
  | succ k ih =>
    intro index m
    exact ih (index + 1) (m.mark latest index)

lemma markSortedRanges_eq (latest : Option Nat) : ∀ (rs : List PacketRange) (m : Marking),
    (m.markSortedRanges latest rs).tracker = (m.tracker.markSortedRanges m.result rs).1 ∧
    (m.markSortedRanges latest rs).result = (m.tracker.markSortedRanges m.result rs).2 := by
  intro rs
  induction rs with
  | nil => intro m; exact ⟨rfl, rfl⟩
  | cons range rest ih =>
    intro m
    unfold Marking.markSortedRanges markSortedRanges
    simp only
    obtain ⟨h₁, h₂⟩ := markIndices_eq latest
      (m.tracker.upperBoundPacketIndex range.stop
        - max (m.tracker.lowerBoundPacketIndex range.start) m.tracker.firstUnacknowledgedIndex)
      (max (m.tracker.lowerBoundPacketIndex range.start) m.tracker.firstUnacknowledgedIndex) m
    rw [← h₁, ← h₂]
    exact ih _

/-- As long as the flag is down, the cached record is as it was. -/
def Untouched (latest : Option Nat) (packets : List SentPacket) (m : Marking) : Prop :=
  m.cachedLatestAcked = false → ∀ i, latest = some i → m.tracker.packets[i]? = packets[i]?

variable {packets : List SentPacket} {latest : Option Nat}

lemma Untouched.mark {m : Marking} (h : Untouched latest packets m) (index : Nat) :
    Untouched latest packets (m.mark latest index) := by
  intro hflag i hi
  have hparts : m.cachedLatestAcked = false ∧
      isCachedLatest m.tracker.packets latest index = false := by
    simpa [Marking.mark] using hflag
  obtain ⟨hpre, hnow⟩ := hparts
  rw [mark_tracker, markPacketAcknowledged_getElem?, ← h hpre i hi]
  cases hp : m.tracker.packets[i]? with
  | none => rfl
  | some p =>
    simp only [Option.map_some, Option.some.injEq]
    by_cases heq : i = index
    · rw [if_pos heq]
      apply close_of_acknowledged
      unfold isCachedLatest at hnow
      rw [← heq, hi] at hnow
      simpa [hp] using hnow
    · rw [if_neg heq]

lemma Untouched.markIndices :
    ∀ (remaining index : Nat) (m : Marking), Untouched latest packets m →
      Untouched latest packets (m.markIndices latest remaining index) := by
  intro remaining
  induction remaining with
  | zero => intro index m h; exact h
  | succ k ih =>
    intro index m h
    exact ih (index + 1) _ (h.mark index)

lemma Untouched.markSortedRanges :
    ∀ (rs : List PacketRange) (m : Marking), Untouched latest packets m →
      Untouched latest packets (m.markSortedRanges latest rs) := by
  intro rs
  induction rs with
  | nil => intro m h; exact h
  | cons range rest ih =>
    intro m h
    exact ih _ (h.markIndices _ _ _)

@[simp] lemma advanceFirst_tracker (t : IndexedTracker) :
    t.advanceFirst.toSentPacketTracker = t.toSentPacketTracker.advanceFirstUnacknowledged := by
  rw [advanceFirstUnacknowledged_eq]
  rfl

lemma finishMarking_tracker (t : IndexedTracker) (m : Marking) :
    (t.finishMarking m).2.toSentPacketTracker = m.tracker.advanceFirstUnacknowledged := by
  unfold finishMarking
  simp only [advanceFirst_tracker]
  split
  · rfl
  · rfl

lemma timeAt_map_close (rs : List PacketRange) (packets : List SentPacket) (j : Nat) :
    timeAt (packets.map (closeCovered rs)) j = none ∨
      timeAt (packets.map (closeCovered rs)) j = timeAt packets j := by
  unfold timeAt
  rw [getElem?_map]
  cases hp : packets[j]? with
  | none => exact .inl rfl
  | some p =>
    simp only [Option.bind_some]
    unfold closeCovered
    by_cases hcov : covered rs p = true
    · simp [hcov, SentPacket.ackElicitingInFlightSentTime, close]
    · simp [hcov]

/-- The repair after a marking whose flag tells the truth. -/
theorem Inv.finishMarking (h : Inv counted t next) (rs : List PacketRange) {m : Marking}
    (hflag : Untouched t.latestAckElicitingInFlightIndex t.packets m)
    (hsame : SentPacketTracker.SameNumbers t.toSentPacketTracker m.tracker)
    (hmarked : SentPacketTracker.Marked t.toSentPacketTracker m.tracker)
    (hpkts : m.tracker.packets = t.packets.map (closeCovered rs)) :
    Inv counted (t.finishMarking m).2 next := by
  have hranges := SentPacketTracker.MarkedRanges.advance h.cursor hmarked hpkts
  have htracker := finishMarking_tracker t m
  have hcursor₁ : m.tracker.CursorOk := h.cursor.map_close hpkts (by rw [hmarked])
  have hsorted : m.tracker.packetsSortedAscending = true := by
    rw [hmarked]
    exact h.wf.sorted
  refine h.inPlace ?_ ?_ ?_ ?_ ?_ ?_
  · rw [htracker]
    exact hsame.trans (advanceFirstUnacknowledged_same m.tracker)
  · rw [htracker]
    exact hranges.cursor
  · unfold IndexedTracker.finishMarking
    split
    · rfl
    · rfl
  · unfold IndexedTracker.finishMarking
    simp only
    by_cases hcached : m.cachedLatestAcked = true
    · rw [if_pos hcached]
      exact Newest.recompute (t := { t with toSentPacketTracker := m.tracker }) hsorted hcursor₁
    rw [if_neg hcached]
    have hlen : m.tracker.packets.length = t.packets.length := by
      rw [hpkts, length_map]
    show Newest m.tracker.packets m.tracker.packets.length t.latestAckElicitingInFlightIndex
    rw [hlen]
    refine h.newest.shrink ?_ ?_
    · intro i hi
      unfold timeAt
      rw [hflag (by simpa using hcached) i hi]
    intro j
    rw [hpkts]
    exact timeAt_map_close rs t.packets j
  · have := congrArg sentEct0Count (htracker.trans hranges.rest)
    exact this
  · have := congrArg sentEct1Count (htracker.trans hranges.rest)
    exact this

lemma markRanges_spans (h : Inv counted t next) (rs : List PacketRange) :
    let r := t.finishMarking
      (if t.packetsSortedAscending then
        Marking.markSortedRanges t.latestAckElicitingInFlightIndex
          { tracker := t.toSentPacketTracker } rs
      else Marking.markNamed t.latestAckElicitingInFlightIndex rs
        { tracker := t.toSentPacketTracker } t.packets.length 0)
    (r.2.toSentPacketTracker, r.1)
      = markRanges.markSpans t.toSentPacketTracker rs ∧ Inv counted r.2 next := by
  intro r
  have hr : r = t.finishMarking (Marking.markSortedRanges t.latestAckElicitingInFlightIndex
      { tracker := t.toSentPacketTracker } rs) := by
    show t.finishMarking _ = _
    rw [if_pos h.wf.sorted]
  obtain ⟨htracker, hres⟩ := markSortedRanges_eq t.latestAckElicitingInFlightIndex rs
    { tracker := t.toSentPacketTracker }
  obtain ⟨hm, hp, -⟩ := markSortedRanges_spec rs t.toSentPacketTracker {}
    h.wf h.cursor
  have hsame := markSortedRanges_same rs t.toSentPacketTracker {}
  rw [hr]
  constructor
  · unfold markRanges.markSpans
    rw [if_pos h.wf.sorted]
    refine Prod.ext ?_ hres
    rw [finishMarking_tracker, htracker]
  refine h.finishMarking rs ?_ ?_ ?_ ?_
  · exact Untouched.markSortedRanges rs _ (fun _ _ _ => rfl)
  · rw [htracker]
    exact hsame
  · rw [htracker]
    exact hm
  · rw [htracker]
    exact hp

/-- **Marking is the plain tracker's marking, and repairs the caches.** -/
theorem markRanges_spec (h : Inv counted t next) (rs : List PacketRange) :
    ((t.markRanges rs).2.toSentPacketTracker, (t.markRanges rs).1)
      = t.toSentPacketTracker.markRanges rs ∧ Inv counted (t.markRanges rs).2 next := by
  have hspans := markRanges_spans h rs
  unfold markRanges SentPacketTracker.markRanges
  match rs, hspans with
  | [], hspans => exact hspans
  | [⟨first, last⟩], hspans =>
    simp only
    by_cases hone : first = last
    · rw [if_pos hone, if_pos hone, findPacketIndex_eq h.wf h.indexed]
      cases hi : t.toSentPacketTracker.findPacketIndex first with
      | none => exact ⟨rfl, h⟩
      | some i =>
        refine ⟨Prod.ext ?_ rfl, ?_⟩
        · simp [finishMarking_tracker]
        refine h.finishMarking [⟨first, first⟩] ?_ ?_ ?_ ?_
        · have hstart : Untouched t.latestAckElicitingInFlightIndex t.packets
              { tracker := t.toSentPacketTracker } := fun _ _ _ => rfl
          exact hstart.mark i
        · exact markPacketAcknowledged_same _ _ _
        · exact markPacketAcknowledged_marked _ _ _
        · exact markOne_packets h.wf hi {}
    · simp [hone, hspans]
  | _ :: _ :: _, hspans => exact hspans

/-! ### Retiring a prefix -/

lemma compactCount_le : ∀ (l : List SentPacket) (remaining expected : Nat),
    compactCount remaining expected l ≤ remaining ∧
      compactCount remaining expected l ≤ l.length := by
  intro l
  induction l with
  | nil =>
    intro remaining expected
    cases remaining with
    | zero | succ => simp [compactCount]
  | cons p rest ih =>
    intro remaining expected
    cases remaining with
    | zero => simp [compactCount]
    | succ k =>
      unfold compactCount
      by_cases hstop : p.acknowledged = false ∨ p.packetNumber ≠ expected
      · simp [hstop]
      rw [if_neg hstop]
      have := ih k (saturatingAdd expected 1)
      simp only [length_cons]
      omega

lemma compactAcknowledgedPrefix_tracker (t : IndexedTracker) :
    t.compactAcknowledgedPrefix.toSentPacketTracker
      = t.toSentPacketTracker.compactAcknowledgedPrefix := by
  unfold compactAcknowledgedPrefix
  by_cases hskip : t.packetsSortedAscending = false ∨
      t.firstUnacknowledgedIndex < compactAcknowledgedThreshold
  · simp [hskip, SentPacketTracker.compactAcknowledgedPrefix]
  rw [if_neg hskip]
  cases hl : t.packets with
  | nil => simp [hl, SentPacketTracker.compactAcknowledgedPrefix]
  | cons first rest =>
    simp only
    rw [← hl]
    by_cases hfew : compactCount t.firstUnacknowledgedIndex
        (t.expectedStart first) t.packets < compactAcknowledgedThreshold
    · rw [if_pos hfew]
      unfold SentPacketTracker.compactAcknowledgedPrefix
      rw [hl]
      simp [← hl, hfew]
    · rw [if_neg hfew]
      rfl

/-- What a compaction drops is acknowledged, and lies below the cursor. -/
theorem compactAcknowledgedPrefix_cases (t : IndexedTracker) :
    t.compactAcknowledgedPrefix = t ∨
    ∃ count, count ≤ t.firstUnacknowledgedIndex ∧ count ≤ t.packets.length ∧
      t.compactAcknowledgedPrefix.packets = t.packets.drop count ∧
      t.compactAcknowledgedPrefix.firstUnacknowledgedIndex = t.firstUnacknowledgedIndex - count ∧
      t.compactAcknowledgedPrefix.latestAckElicitingInFlightIndex
        = t.latestAckElicitingInFlightIndex.bind
            (fun i => if i < count then none else some (i - count)) ∧
      t.compactAcknowledgedPrefix.sentEct0Count = t.sentEct0Count ∧
      t.compactAcknowledgedPrefix.sentEct1Count = t.sentEct1Count ∧
      ∃ dropped : IndexedTracker, dropped.packets = t.packets.drop count ∧
        dropped.packetIndex = (t.packets.take count).foldl
          (fun index (p : SentPacket) => Function.update index p.packetNumber none) t.packetIndex ∧
        t.compactAcknowledgedPrefix.packetIndex = (dropped.refreshPacketIndexFrom 0).packetIndex := by
  have htracker := compactAcknowledgedPrefix_tracker t
  unfold compactAcknowledgedPrefix at htracker ⊢
  by_cases hskip : t.packetsSortedAscending = false ∨
      t.firstUnacknowledgedIndex < compactAcknowledgedThreshold
  · simp [hskip]
  rw [if_neg hskip] at htracker ⊢
  cases hl : t.packets with
  | nil => exact .inl rfl
  | cons first rest =>
    simp only
    rw [← hl]
    by_cases hfew : compactCount t.firstUnacknowledgedIndex
        (t.expectedStart first) t.packets < compactAcknowledgedThreshold
    · simp [hfew]
    rw [if_neg hfew]
    obtain ⟨hcur, hlen⟩ := compactCount_le t.packets t.firstUnacknowledgedIndex
      (t.expectedStart first)
    have hplain : t.toSentPacketTracker.compactAcknowledgedPrefix.packets
          = t.packets.drop (compactCount t.firstUnacknowledgedIndex
            (t.expectedStart first) t.packets) ∧
        t.toSentPacketTracker.compactAcknowledgedPrefix.firstUnacknowledgedIndex
          = t.firstUnacknowledgedIndex - compactCount
              t.firstUnacknowledgedIndex (t.expectedStart first) t.packets ∧
        t.toSentPacketTracker.compactAcknowledgedPrefix.sentEct0Count = t.sentEct0Count ∧
        t.toSentPacketTracker.compactAcknowledgedPrefix.sentEct1Count = t.sentEct1Count := by
      unfold SentPacketTracker.compactAcknowledgedPrefix
      rw [if_neg hskip, hl]
      simp [← hl, hfew]
    obtain ⟨hp, hf, h0, h1⟩ := hplain
    exact .inr ⟨_, hcur, hlen, hp, hf, rfl, h0, h1, _, hp, rfl, rfl⟩

lemma foldl_update_none : ∀ (l : List SentPacket) (index : Nat → Option Nat) (n i : Nat),
    l.foldl (fun index (p : SentPacket) => Function.update index p.packetNumber none) index n
      = some i → index n = some i ∧ n ∉ l.map (·.packetNumber) := by
  intro l
  induction l with
  | nil => intro index n i h; exact ⟨h, by simp⟩
  | cons p rest ih =>
    intro index n i h
    rw [foldl_cons] at h
    obtain ⟨hkept, hrest⟩ := ih _ n i h
    by_cases hn : n = p.packetNumber
    · simp [hn] at hkept
    rw [Function.update_of_ne hn] at hkept
    refine ⟨hkept, ?_⟩
    simp only [map_cons, mem_cons, not_or]
    exact ⟨hn, hrest⟩

lemma Inv.compact (h : Inv counted t next) : Inv counted t.compactAcknowledgedPrefix next := by
  rcases compactAcknowledgedPrefix_cases t with hsame | hdrop
  · rw [hsame]
    exact h
  obtain ⟨count, hcur, hlen, hp, hf, hlast, h0, h1, dropped, hdp, hdi, hdr⟩ := hdrop
  refine ⟨?_, ?_, ?_, ?_, ?_⟩
  · rw [compactAcknowledgedPrefix_tracker]
    exact (compactAcknowledgedPrefix_wf h.wf).1
  · constructor
    · show t.compactAcknowledgedPrefix.firstUnacknowledgedIndex
        ≤ t.compactAcknowledgedPrefix.packets.length
      have := h.cursor.le
      rw [hp, length_drop]
      omega
    intro i p hi hget
    have hget' : t.compactAcknowledgedPrefix.packets[i]? = some p := hget
    rw [hp, getElem?_drop] at hget'
    exact h.cursor.acknowledged (count + i) p (by omega) hget'
  · rw [hp, ← hdp, hdr]
    refine Indexes.refresh (t := dropped) ?_
    intro n i hi
    rw [hdi] at hi
    obtain ⟨hkept, hout⟩ := foldl_update_none _ _ n i hi
    have hold := h.indexed n i hkept
    have hback : count ≤ i := by
      by_contra hlt
      apply hout
      rw [map_take]
      exact mem_of_getElem? (i := i) (by
        rw [getElem?_take_of_lt (by omega)]
        exact hold)
    refine .inr ⟨i - count, Nat.zero_le _, ?_⟩
    rw [hdp, map_drop, getElem?_drop, show count + (i - count) = i by omega]
    exact hold
  · rw [hp, hlast]
    refine h.newest.drop hlen ?_
    intro j hj
    unfold timeAt
    cases hget : t.packets[j]? with
    | none => rfl
    | some p =>
      have hacked := h.cursor.acknowledged j p (by omega) hget
      simp [SentPacket.ackElicitingInFlightSentTime, hacked]
  · rw [h0, h1]
    exact h.marks

end Netz.Quic.IndexedTracker
