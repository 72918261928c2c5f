/-
What an ACK does to the records.

The walk over a decoded ACK goes range by range and index by index, and skips the prefix that
the cursor says is acknowledged.  Its effect is a map: every record whose number the ranges
cover is acknowledged and no other record changes.  The bytes it reports are those of the
covered records that were still outstanding, and the precheck counts the covered records that
were not acknowledged.  All of it rests on `CursorOk`, that nothing below the cursor is
unacknowledged.
-/
import Netz.Proofs.AckApply
import Netz.Quic.SentCaches

namespace Netz.Quic.SentPacketTracker

open Lib List
open Option hiding map_map

/-! ### Covered records -/

/-- The record of a packet that has arrived. -/
def close (p : SentPacket) : SentPacket := { p with acknowledged := true }

/-- The ranges cover the record's number. -/
def covered (rs : List PacketRange) (p : SentPacket) : Bool := ackRangesContain rs p.packetNumber

def closeCovered (rs : List PacketRange) (p : SentPacket) : SentPacket :=
  if covered rs p then close p else p

@[simp] lemma covered_nil (p : SentPacket) : covered [] p = false := rfl

lemma covered_cons (r : PacketRange) (rs : List PacketRange) (p : SentPacket) :
    covered (r :: rs) p = (covered [r] p || covered rs p) := by simp [covered, ackRangesContain]

lemma covered_one (r : PacketRange) (p : SentPacket) :
    covered [r] p = true ↔ r.start ≤ p.packetNumber ∧ p.packetNumber ≤ r.stop := by
  simp [covered, ackRangesContain]

lemma closeCovered_nil : closeCovered [] = id := by
  funext p
  simp [closeCovered]

@[simp] lemma close_close (p : SentPacket) : close (close p) = close p := rfl

@[simp] lemma close_packetNumber (p : SentPacket) : (close p).packetNumber = p.packetNumber := rfl

lemma close_of_acknowledged {p : SentPacket} (h : p.acknowledged = true) : close p = p := by
  unfold close
  rw [← h]

lemma closeCovered_packetNumber (rs : List PacketRange) (p : SentPacket) :
    (closeCovered rs p).packetNumber = p.packetNumber := by
  unfold closeCovered
  by_cases h : covered rs p = true
  · rw [if_pos h, close_packetNumber]
  · rw [if_neg h]

lemma closeCovered_cons (r : PacketRange) (rs : List PacketRange) (p : SentPacket) :
    closeCovered rs (closeCovered [r] p) = closeCovered (r :: rs) p := by
  by_cases hr : covered [r] p = true
  · have hfirst : closeCovered [r] p = close p := by unfold closeCovered; rw [if_pos hr]
    rw [hfirst]
    unfold closeCovered
    rw [covered_cons, hr, Bool.true_or, if_pos rfl, close_close, ite_self]
  · simp [hr, covered_cons, closeCovered]

/-- Nothing below the cursor waits for an acknowledgement. -/
structure CursorOk (t : SentPacketTracker) : Prop where
  le : t.firstUnacknowledgedIndex ≤ t.packets.length
  acknowledged : ∀ i p, i < t.firstUnacknowledgedIndex → t.packets[i]? = some p →
    p.acknowledged = true

lemma CursorOk.of_mem_take {t : SentPacketTracker} (hc : CursorOk t) {count : Nat}
    (hcount : count ≤ t.firstUnacknowledgedIndex) {p : SentPacket} (hp : p ∈ t.packets.take count) :
    p.acknowledged = true := by
  obtain ⟨i, hi, hget⟩ := mem_take_iff_getElem.mp hp
  refine hc.acknowledged i p (by omega) ?_
  rw [getElem?_eq_getElem (by omega), hget]

/-- Only records and the largest acknowledged number differ. -/
def Marked (t t' : SentPacketTracker) : Prop :=
  t' = { t with packets := t'.packets, largestAcknowledged := t'.largestAcknowledged }

namespace Marked

lemma refl (t : SentPacketTracker) : Marked t t := rfl

lemma trans {t₁ t₂ t₃ : SentPacketTracker} (h₁ : Marked t₁ t₂) (h₂ : Marked t₂ t₃) :
    Marked t₁ t₃ := by
  unfold Marked at *
  rw [h₂, h₁]

end Marked

lemma observeAcknowledged_marked (t : SentPacketTracker) (n : Nat) :
    Marked t (t.observeAcknowledged n) := by
  unfold observeAcknowledged
  by_cases h : t.largestAcknowledged.all (fun m => decide (m < n)) = true
  · rw [if_pos h]
    rfl
  · rw [if_neg h]
    rfl

/-! ### Marking a stretch of records -/

lemma markPacketAcknowledged_marked (t : SentPacketTracker) (r : AckResult) (index : Nat) :
    Marked t (t.markPacketAcknowledged r index).1 := by
  unfold markPacketAcknowledged
  cases hp : t.packets[index]? with
  | none => exact Marked.refl t
  | some packet =>
    simp only
    have hobs := observeAcknowledged_marked t packet.packetNumber
    by_cases hacked : packet.acknowledged = true
    · simp [hacked, hobs]
    rw [if_neg hacked]
    refine hobs.trans ?_
    rfl

lemma markPacketAcknowledged_getElem? (t : SentPacketTracker) (r : AckResult) (index j : Nat) :
    (t.markPacketAcknowledged r index).1.packets[j]?
      = t.packets[j]?.map (fun p => if j = index then close p else p) := by
  unfold markPacketAcknowledged
  cases hp : t.packets[index]? with
  | none =>
    by_cases hj : j = index
    · rw [hj, hp]
      rfl
    · simp [hj]
  | some packet =>
    simp only
    by_cases hacked : packet.acknowledged = true
    · rw [if_pos hacked, observeAcknowledged_packets]
      by_cases hj : j = index
      · simp [hj, hp, close_of_acknowledged hacked]
      · simp [hj]
    rw [if_neg hacked, observeAcknowledged_packets, List.getElem?_set]
    have hlt := lt_of_getElem? hp
    by_cases hj : index = j
    · subst hj
      rw [if_pos hlt, hp]
      simp [close]
    · rw [if_neg hj]
      simp [show ¬ j = index by omega]

lemma markPacketAcknowledged_result (t : SentPacketTracker) (r : AckResult) (index : Nat) :
    (t.markPacketAcknowledged r index).2
      = (t.packets[index]?.toList.filter (!·.acknowledged)).foldl AckResult.acked r := by
  unfold markPacketAcknowledged
  cases hp : t.packets[index]? with
  | none => rfl
  | some packet =>
    by_cases hacked : packet.acknowledged = true
    · simp [hacked]
    · simp [hacked]

lemma markIndices_marked : ∀ (remaining index : Nat) (t : SentPacketTracker) (r : AckResult),
    Marked t (t.markIndices r remaining index).1 := by
  intro remaining
  induction remaining with
  | zero => intro index t r; exact Marked.refl t
  | succ k ih =>
    intro index t r
    unfold markIndices
    exact (markPacketAcknowledged_marked t r index).trans (ih _ _ _)

lemma markIndices_getElem? : ∀ (remaining index : Nat) (t : SentPacketTracker) (r : AckResult)
    (j : Nat), (t.markIndices r remaining index).1.packets[j]?
      = t.packets[j]?.map (fun p => if index ≤ j ∧ j < index + remaining then close p else p) := by
  intro remaining
  induction remaining with
  | zero =>
    intro index t r j
    simp [markIndices, show ¬ (index ≤ j ∧ j < index) by omega]
  | succ k ih =>
    intro index t r j
    unfold markIndices
    rw [ih, markPacketAcknowledged_getElem?, Option.map_map]
    congr 1
    funext p
    simp only [Function.comp_apply]
    by_cases hj : j = index
    · simp [hj]
    by_cases hin : index + 1 ≤ j ∧ j < index + 1 + k
    · rw [if_pos hin, if_neg hj, if_pos (by omega)]
    · rw [if_neg hin, if_neg hj, if_neg (by omega)]

lemma markIndices_result : ∀ (remaining index : Nat) (t : SentPacketTracker) (r : AckResult),
    (t.markIndices r remaining index).2
      = (((t.packets.drop index).take remaining).filter (!·.acknowledged)).foldl
          AckResult.acked r := by
  intro remaining
  induction remaining with
  | zero => intro index t r; simp [markIndices]
  | succ k ih =>
    intro index t r
    unfold markIndices
    have hdrop : (t.markPacketAcknowledged r index).1.packets.drop (index + 1)
        = t.packets.drop (index + 1) := by
      apply List.ext_getElem?
      intro j
      rw [List.getElem?_drop, List.getElem?_drop, markPacketAcknowledged_getElem?]
      simp [show ¬ index + 1 + j = index by omega]
    rw [ih, hdrop, markPacketAcknowledged_result]
    cases hp : t.packets[index]? with
    | none =>
      have hlen := List.getElem?_eq_none_iff.mp hp
      rw [List.drop_eq_nil_of_le (by omega), List.drop_eq_nil_of_le hlen]
      simp
    | some p =>
      obtain ⟨hlt, hget⟩ := List.getElem_of_getElem? hp
      rw [List.drop_eq_getElem_cons hlt, hget]
      by_cases hacked : p.acknowledged = true
      · simp [hacked]
      · simp [hacked]

/-! ### Marking ranges -/

section Ascending

variable {t : SentPacketTracker} {next : Nat}

variable {j i n : Nat} {p : SentPacket} {w : SentPacket → Nat} {rs : List PacketRange}
  {l : List SentPacket}

/-- In ascending records an index is below a bound exactly when its number is. -/
theorem index_lt_iff (h : WF t next) (hp : t.packets[j]? = some p) (bound : Nat) :
    j < t.packets.countP (fun q => decide (q.packetNumber < bound)) ↔ p.packetNumber < bound := by
  obtain ⟨hfront, hback⟩ := (partitioned_lt h.ascending bound).boundary
  constructor
  · intro hlt
    simpa using hfront j p hp hlt
  intro hnum
  by_contra hge
  have := hback j p hp (by omega)
  simp only [decide_eq_false_iff_not] at this
  exact this hnum

lemma stretch_iff (h : WF t next) (hc : CursorOk t) (r : PacketRange)
    (hp : t.packets[j]? = some p) (hnew : p.acknowledged = false) :
    (max (t.lowerBoundPacketIndex r.start) t.firstUnacknowledgedIndex ≤ j ∧
      j < t.upperBoundPacketIndex r.stop) ↔ covered [r] p = true := by
  have hlow := index_lt_iff h hp r.start
  have hhigh := index_lt_iff h hp (r.stop + 1)
  have hcur : t.firstUnacknowledgedIndex ≤ j := by
    by_contra hlt
    rw [hc.acknowledged j p (by omega) hp] at hnew
    simp at hnew
  rw [lowerBound_eq h, upperBound_eq h, covered_one]
  omega

lemma markStretch_packets (h : WF t next) (hc : CursorOk t) (range : PacketRange)
    (r : AckResult) :
    (t.markIndices r (t.upperBoundPacketIndex range.stop
        - max (t.lowerBoundPacketIndex range.start) t.firstUnacknowledgedIndex)
      (max (t.lowerBoundPacketIndex range.start) t.firstUnacknowledgedIndex)).1.packets
      = t.packets.map (closeCovered [range]) := by
  apply ext_getElem?
  intro j
  rw [markIndices_getElem?, getElem?_map]
  cases hp : t.packets[j]? with
  | none => rfl
  | some p =>
    simp only [map_some]
    unfold closeCovered
    by_cases hacked : p.acknowledged = true
    · rw [close_of_acknowledged hacked, ite_self, ite_self]
    have hiff := stretch_iff h hc range hp (by simpa using hacked)
    by_cases hcov : covered [range] p = true
    · have := hiff.mpr hcov
      rw [if_pos hcov, if_pos (by omega)]
    · have : ¬ _ := fun hin => hcov (hiff.mp hin)
      rw [if_neg hcov, if_neg (by omega)]

/-- What the ranges cover, weighed by `w`. -/
def weigh (w : SentPacket → Nat) (rs : List PacketRange) (l : List SentPacket) : Nat :=
  (l.map (fun p => if covered rs p then w p else 0)).sum

/-- A weight that acknowledged records do not have. -/
def IgnoresClosed (w : SentPacket → Nat) : Prop := ∀ p, p.acknowledged = true → w p = 0

lemma sum_stretch (h : WF t next) (hc : CursorOk t) (hw : IgnoresClosed w) (r : PacketRange) :
    ((slice t.packets (max (t.lowerBoundPacketIndex r.start) t.firstUnacknowledgedIndex)
      (t.upperBoundPacketIndex r.stop)).map w).sum = weigh w [r] t.packets := by
  apply sum_slice
  intro j p hp
  by_cases hacked : p.acknowledged = true
  · rw [hw p hacked, ite_self, ite_self]
  have hiff := stretch_iff h hc r hp (by simpa using hacked)
  by_cases hcov : covered [r] p = true
  · rw [if_pos hcov, if_pos (hiff.mpr hcov)]
  · rw [if_neg hcov, if_neg (fun hin => hcov (hiff.mp hin))]

lemma weigh_nil (w : SentPacket → Nat) (l : List SentPacket) : weigh w [] l = 0 := by simp [weigh]

/-- After the first range is closed, only what the others cover beside it still weighs. -/
theorem weigh_cons_closed (hw : IgnoresClosed w) (r : PacketRange) (rs : List PacketRange)
    (l : List SentPacket) :
    weigh w (r :: rs) l = weigh w [r] l + weigh w rs (l.map (closeCovered [r])) := by
  unfold weigh
  rw [map_map, ← sum_map_add]
  congr 1
  refine map_congr_left ?_
  intro p _
  rw [covered_cons]
  unfold closeCovered
  by_cases hr : covered [r] p = true
  · have hzero : w (close p) = 0 := hw _ rfl
    simp [hr, hzero]
  · simp [hr]

/-- Ranges that do not meet weigh separately. -/
theorem weigh_cons_apart (w : SentPacket → Nat) {r : PacketRange}
    (hapart : ∀ p ∈ l, covered [r] p = true → covered rs p = false) :
    weigh w (r :: rs) l = weigh w [r] l + weigh w rs l := by
  unfold weigh
  rw [← sum_map_add]
  congr 1
  refine map_congr_left ?_
  intro p hp
  rw [covered_cons]
  by_cases hr : covered [r] p = true
  · simp [hapart p hp hr]
  · simp [hr]

/-- The bytes of a record that is still in flight. -/
def outstandingBytes (p : SentPacket) : Nat := if p.outstanding then p.bytes else 0

lemma outstandingBytes_ignoresClosed : IgnoresClosed outstandingBytes := by
  intro p hp
  simp [outstandingBytes, SentPacket.outstanding, hp]

lemma acked_bytes (r : AckResult) (p : SentPacket) :
    (r.acked p).bytes = r.bytes + if p.inFlight && !p.lost then p.bytes else 0 := by
  have hobs : ({ r with packets := r.packets + 1 }.observe p).bytes = r.bytes := by
    unfold AckResult.observe
    split
    · rfl
    · rfl
  unfold AckResult.acked
  simp only [hobs]
  by_cases hp : (p.inFlight && !p.lost) = true
  · rw [if_pos hp, if_pos hp]
  · simp [hp]

lemma foldl_acked_bytes (l : List SentPacket) : ∀ r : AckResult,
    ((l.filter (!·.acknowledged)).foldl AckResult.acked r).bytes
      = r.bytes + (l.map outstandingBytes).sum := by
  induction l with
  | nil => intro r; simp
  | cons p rest ih =>
    intro r
    rw [map_cons, sum_cons]
    by_cases hacked : p.acknowledged = true
    · simp [ih, outstandingBytes_ignoresClosed p hacked, hacked]
    rw [filter_cons_of_pos (by simpa using hacked), foldl_cons, ih, acked_bytes]
    have hsame : outstandingBytes p = if p.inFlight && !p.lost then p.bytes else 0 := by
      simp [hacked, outstandingBytes, SentPacket.outstanding]
    omega

lemma CursorOk.map_close (hc : CursorOk t) {t' : SentPacketTracker}
    (hp : t'.packets = t.packets.map (closeCovered rs))
    (hcur : t'.firstUnacknowledgedIndex = t.firstUnacknowledgedIndex) : CursorOk t' := by
  constructor
  · rw [hcur, hp, length_map]
    exact hc.le
  intro i q hi hq
  rw [hp, getElem?_map] at hq
  rw [hcur] at hi
  cases hold : t.packets[i]? with
  | none => rw [hold] at hq; simp at hq
  | some p =>
    rw [hold, map_some, some.injEq] at hq
    have hacked := hc.acknowledged i p hi hold
    simp [← hq, close_of_acknowledged hacked, hacked, closeCovered]

/-- **Marking the ranges of an ACK closes the covered records and reports their bytes.** -/
theorem markSortedRanges_spec : ∀ (rs : List PacketRange) (t : SentPacketTracker) (r : AckResult),
    WF t next → CursorOk t → Marked t (t.markSortedRanges r rs).1 ∧
    (t.markSortedRanges r rs).1.packets = t.packets.map (closeCovered rs) ∧
    (t.markSortedRanges r rs).2.bytes = r.bytes + weigh outstandingBytes rs t.packets := by
  intro rs
  induction rs with
  | nil =>
    intro t r _ _
    refine ⟨Marked.refl t, ?_, ?_⟩
    · simp [markSortedRanges, closeCovered_nil]
    · simp [markSortedRanges, weigh_nil]
  | cons range rest ih =>
    intro t r h hc
    unfold markSortedRanges
    simp only
    have hpkts := markStretch_packets h hc range r
    have hres := markIndices_result
      (t.upperBoundPacketIndex range.stop
        - max (t.lowerBoundPacketIndex range.start) t.firstUnacknowledgedIndex)
      (max (t.lowerBoundPacketIndex range.start) t.firstUnacknowledgedIndex) t r
    have hmarked := markIndices_marked
      (t.upperBoundPacketIndex range.stop
        - max (t.lowerBoundPacketIndex range.start) t.firstUnacknowledgedIndex)
      (max (t.lowerBoundPacketIndex range.start) t.firstUnacknowledgedIndex) t r
    have hsame := markIndices_same
      (t.upperBoundPacketIndex range.stop
        - max (t.lowerBoundPacketIndex range.start) t.firstUnacknowledgedIndex)
      (max (t.lowerBoundPacketIndex range.start) t.firstUnacknowledgedIndex) t r
    generalize t.markIndices r
      (t.upperBoundPacketIndex range.stop
        - max (t.lowerBoundPacketIndex range.start) t.firstUnacknowledgedIndex)
      (max (t.lowerBoundPacketIndex range.start) t.firstUnacknowledgedIndex) = marked
      at hpkts hres hmarked hsame ⊢
    obtain ⟨t₁, r₁⟩ := marked
    simp only at hpkts hres hmarked hsame ⊢
    have hcur : t₁.firstUnacknowledgedIndex = t.firstUnacknowledgedIndex := by rw [hmarked]
    obtain ⟨ih₁, ih₂, ih₃⟩ := ih t₁ r₁ (hsame.wf h) (hc.map_close hpkts hcur)
    refine ⟨hmarked.trans ih₁, ?_, ?_⟩
    · rw [ih₂, hpkts, map_map]
      refine map_congr_left ?_
      intro p _
      exact closeCovered_cons range rest p
    rw [ih₃, hpkts, hres, foldl_acked_bytes, ← drop_take,
      weigh_cons_closed outstandingBytes_ignoresClosed]
    have := sum_stretch h hc outstandingBytes_ignoresClosed range
    unfold slice at this
    omega

lemma getElem?_leading {start : Nat} (hlow : start ≤ i)
    (hhigh : i < start + leadingTrue ((l.drop start).map (·.acknowledged))) (hp : l[i]? = some p) :
    p.acknowledged = true := by
  have hset := getElem?_of_lt_leadingTrue ((l.drop start).map (·.acknowledged)) (i - start)
    (by omega)
  rw [getElem?_map, getElem?_drop, show start + (i - start) = i by omega, hp] at hset
  simpa using hset

lemma leadingTrue_le (l : List Bool) : leadingTrue l ≤ l.length := by
  induction l with
  | nil => simp [leadingTrue]
  | cons b rest ih =>
    cases b with
    | false => simp [leadingTrue]
    | true => simp only [leadingTrue, length_cons]; omega

lemma CursorOk.advance (hc : CursorOk t) : CursorOk t.advanceFirstUnacknowledged := by
  unfold advanceFirstUnacknowledged
  by_cases hsorted : t.packetsSortedAscending = false
  · rw [if_pos hsorted]
    exact ⟨Nat.zero_le _, fun i p hi => by simp at hi⟩
  rw [if_neg hsorted]
  constructor
  · have := leadingTrue_le ((t.packets.drop t.firstUnacknowledgedIndex).map (·.acknowledged))
    simp only [length_map, length_drop] at this
    have := hc.le
    show t.firstUnacknowledgedIndex
      + leadingTrue ((t.packets.drop t.firstUnacknowledgedIndex).map (·.acknowledged))
        ≤ t.packets.length
    omega
  intro i p hi hp
  by_cases hlow : i < t.firstUnacknowledgedIndex
  · exact hc.acknowledged i p hlow hp
  · exact getElem?_leading (by omega) hi hp

lemma findPacketIndex_eq_some (h : WF t next) :
    t.findPacketIndex n = some i ↔ (t.packets.map (·.packetNumber))[i]? = some n := by
  unfold findPacketIndex
  rw [List.findIdx?_eq_some_iff_getElem, List.getElem?_map]
  constructor
  · intro hfound
    obtain ⟨hlt, hnum, -⟩ := hfound
    rw [List.getElem?_eq_getElem hlt]
    simpa using hnum
  intro hget
  cases hp : t.packets[i]? with
  | none => rw [hp] at hget; simp at hget
  | some p =>
    obtain ⟨hlt, heq⟩ := List.getElem_of_getElem? hp
    rw [hp, map_some, some.injEq] at hget
    refine ⟨hlt, by simpa [heq] using hget, ?_⟩
    intro j hj
    have hasc := h.ascending
    rw [List.pairwise_map, List.pairwise_iff_getElem] at hasc
    have := hasc j i (by omega) hlt hj
    simp only [beq_iff_eq]
    rw [heq] at this
    omega

lemma covered_single_iff (h : WF t next) (hi : t.findPacketIndex n = some i)
    (hp : t.packets[j]? = some p) : covered [⟨n, n⟩] p = true ↔ j = i := by
  have hnum := (findPacketIndex_eq_some h).mp hi
  rw [covered_one]
  constructor
  · intro hcov
    have hj : t.findPacketIndex n = some j := by
      rw [findPacketIndex_eq_some h, getElem?_map, hp]
      simp only [map_some, some.injEq] at hcov ⊢
      omega
    rw [hi, some.injEq] at hj
    exact hj.symm
  intro hji
  subst hji
  rw [getElem?_map, hp, map_some, some.injEq] at hnum
  simp only
  omega

lemma not_covered_of_lookup (hi : t.findPacketIndex n = none) (hp : p ∈ t.packets) :
    covered [⟨n, n⟩] p = false := by
  unfold findPacketIndex at hi
  rw [findIdx?_eq_none_iff] at hi
  have hne := hi p hp
  rw [Bool.eq_false_iff]
  intro hcov
  rw [covered_one] at hcov
  simp only [beq_eq_false_iff_ne] at hne hcov
  omega

lemma markOne_packets (h : WF t next) (hi : t.findPacketIndex n = some i) (r : AckResult) :
    (t.markPacketAcknowledged r i).1.packets = t.packets.map (closeCovered [⟨n, n⟩]) := by
  apply ext_getElem?
  intro j
  rw [markPacketAcknowledged_getElem?, getElem?_map]
  cases hp : t.packets[j]? with
  | none => rfl
  | some p =>
    have hiff := covered_single_iff h hi hp
    simp only [map_some]
    unfold closeCovered
    by_cases hj : j = i
    · rw [if_pos hj, if_pos (hiff.mpr hj)]
    · rw [if_neg hj, if_neg (fun hcov => hj (hiff.mp hcov))]

lemma markOne_bytes (h : WF t next) (hi : t.findPacketIndex n = some i) (r : AckResult) :
    (t.markPacketAcknowledged r i).2.bytes
      = r.bytes + weigh outstandingBytes [⟨n, n⟩] t.packets := by
  rw [markPacketAcknowledged_result, foldl_acked_bytes]
  congr 1
  unfold weigh
  have hslice : t.packets[i]?.toList = slice t.packets i (i + 1) := by
    have hnum := (findPacketIndex_eq_some h).mp hi
    rw [getElem?_map] at hnum
    cases hp : t.packets[i]? with
    | none => rw [hp] at hnum; simp at hnum
    | some p =>
      apply ext_getElem?
      intro j
      rw [getElem?_slice]
      cases j with
      | zero => simp [hp]
      | succ k => simp
  rw [hslice]
  apply sum_slice
  intro j p hp
  have hiff := covered_single_iff h hi hp
  by_cases hj : j = i
  · rw [if_pos (hiff.mpr hj), if_pos (by omega)]
  · rw [if_neg (fun hcov => hj (hiff.mp hcov)), if_neg (by omega)]

end Ascending

/-- Records, cursor and books after the ranges of an ACK have been marked. -/
structure MarkedRanges (t t' : SentPacketTracker) (rs : List PacketRange) : Prop where
  packets : t'.packets = t.packets.map (closeCovered rs)
  cursor : CursorOk t'
  rest : t' = { t with
    packets := t'.packets
    largestAcknowledged := t'.largestAcknowledged
    firstUnacknowledgedIndex := t'.firstUnacknowledgedIndex }

lemma advanceFirstUnacknowledged_eq (t : SentPacketTracker) :
    t.advanceFirstUnacknowledged = { t with
      firstUnacknowledgedIndex := t.advanceFirstUnacknowledged.firstUnacknowledgedIndex } := by
  unfold advanceFirstUnacknowledged
  split
  · rfl
  · rfl

lemma MarkedRanges.advance {t t₁ : SentPacketTracker} {rs : List PacketRange} (hc : CursorOk t)
    (hm : Marked t t₁) (hp : t₁.packets = t.packets.map (closeCovered rs)) :
    MarkedRanges t t₁.advanceFirstUnacknowledged rs := by
  have hcur : t₁.firstUnacknowledgedIndex = t.firstUnacknowledgedIndex := by rw [hm]
  have hadv := advanceFirstUnacknowledged_eq t₁
  refine ⟨?_, (hc.map_close hp hcur).advance, ?_⟩
  · rw [hadv]
    exact hp
  · rw [hadv, hm]

lemma markSpans_spec {t : SentPacketTracker} {next : Nat} (h : WF t next) (hc : CursorOk t)
    (rs : List PacketRange) :
    MarkedRanges t (markRanges.markSpans t rs).1 rs ∧
      (markRanges.markSpans t rs).2.bytes = weigh outstandingBytes rs t.packets := by
  unfold markRanges.markSpans
  rw [if_pos h.sorted]
  obtain ⟨hm, hp, hb⟩ := markSortedRanges_spec rs t {} h hc
  generalize t.markSortedRanges {} rs = marked at hm hp hb
  exact ⟨MarkedRanges.advance hc hm hp, hb.trans (Nat.zero_add _)⟩

/-- **An ACK closes exactly the covered records and reports exactly their outstanding bytes.** -/
theorem markRanges_spec {t : SentPacketTracker} {next : Nat} (h : WF t next) (hc : CursorOk t)
    (rs : List PacketRange) :
    MarkedRanges t (t.markRanges rs).1 rs ∧
      (t.markRanges rs).2.bytes = weigh outstandingBytes rs t.packets := by
  unfold markRanges
  match rs with
  | [] => exact markSpans_spec h hc []
  | [⟨start, stop⟩] =>
    simp only
    by_cases hone : start = stop
    · rw [if_pos hone]
      subst hone
      cases hi : t.findPacketIndex start with
      | none =>
        have hout := fun p hp => not_covered_of_lookup (p := p) hi hp
        refine ⟨⟨?_, hc, rfl⟩, ?_⟩
        · exact (map_id _).symm.trans
            (map_congr_left (fun p hp => by simp [closeCovered, hout p hp]))
        unfold weigh
        rw [map_congr_left (fun p hp => if_neg (by simp [hout p hp]))]
        simp
      | some i =>
        simp only
        have hm := markPacketAcknowledged_marked t {} i
        have hp := markOne_packets h hi {}
        have hb := markOne_bytes h hi {}
        generalize t.markPacketAcknowledged {} i = marked at hm hp hb
        exact ⟨MarkedRanges.advance hc hm hp, hb.trans (Nat.zero_add _)⟩
    · rw [if_neg hone]
      exact markSpans_spec h hc _
  | _ :: _ :: _ => exact markSpans_spec h hc _

end Netz.Quic.SentPacketTracker
