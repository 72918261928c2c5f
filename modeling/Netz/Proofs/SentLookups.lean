/-
The lookup structures of the sent tracker, each against the search it saves.

`Indexes` says that what the hash map holds is right; it need not hold everything, because a
number it misses is searched for.  `Newest` says that the cached index is the first of the
records with the latest send time among those the probe timeout counts from.  Both are about
the list of records alone; what the operations do to that list comes later.
-/
import Netz.Proofs.AckPrecheck

namespace Netz.Quic.IndexedTracker

open Lib List Option

/-- Every entry of the hash map points at the record of its number. -/
def Indexes (packets : List SentPacket) (index : Nat → Option Nat) : Prop :=
  ∀ n i, index n = some i → (packets.map (·.packetNumber))[i]? = some n

/-! ### Searching by number -/

/-- The search loop keeps the number inside its interval. -/
theorem findSortedLoop_spec {n : Nat} {l : List SentPacket}
    (hasc : (l.map (·.packetNumber)).Pairwise (· < ·)) :
    ∀ (fuel low high : Nat), high - low ≤ fuel → high ≤ l.length →
      (∀ i, findSortedLoop n l fuel low high = some i → (l.map (·.packetNumber))[i]? = some n) ∧
      (findSortedLoop n l fuel low high = none →
        ∀ i, low ≤ i → i < high → (l.map (·.packetNumber))[i]? ≠ some n) := by
  intro fuel
  induction fuel with
  | zero =>
    intro low high hfuel _
    refine ⟨fun i hi => by simp [findSortedLoop] at hi, ?_⟩
    omega
  | succ k ih =>
    intro low high hfuel hlen
    unfold findSortedLoop
    by_cases hlt : low < high
    · rw [if_pos hlt]
      simp only
      have hmid : low + (high - low) / 2 < l.length := by omega
      rw [List.getElem?_eq_getElem hmid]
      simp only
      have hget : (l.map (·.packetNumber))[low + (high - low) / 2]?
          = some l[low + (high - low) / 2].packetNumber := by
        rw [List.getElem?_map, List.getElem?_eq_getElem hmid]
        rfl
      -- Ascending numbers put the other half out of the question.
      have horder : ∀ i m, (l.map (·.packetNumber))[i]? = some m →
          (i < low + (high - low) / 2 → m < l[low + (high - low) / 2].packetNumber) ∧
          (low + (high - low) / 2 < i → l[low + (high - low) / 2].packetNumber < m) := by
        intro i m hi
        obtain ⟨hilt, hieq⟩ := List.getElem_of_getElem? hi
        obtain ⟨hmlt, hmeq⟩ := List.getElem_of_getElem? hget
        have hpair := List.pairwise_iff_getElem.mp hasc
        refine ⟨fun hpre => ?_, fun hafter => ?_⟩
        · have := hpair _ _ hilt hmlt hpre
          omega
        · have := hpair _ _ hmlt hilt hafter
          omega
      by_cases heq : l[low + (high - low) / 2].packetNumber = n
      · rw [if_pos heq]
        refine ⟨?_, by simp⟩
        intro i hi
        rw [some.injEq] at hi
        rw [← hi, hget, heq]
      rw [if_neg heq]
      by_cases hbelow : l[low + (high - low) / 2].packetNumber < n
      · rw [if_pos hbelow]
        obtain ⟨hfound, hnone⟩ := ih (low + (high - low) / 2 + 1) high (by omega) hlen
        refine ⟨hfound, ?_⟩
        intro hno i hi₁ hi₂ hn
        by_cases hside : low + (high - low) / 2 + 1 ≤ i
        · exact hnone hno i hside hi₂ hn
        by_cases hsame : i = low + (high - low) / 2
        · simp [hsame, hget, heq] at hn
        · have := (horder i n hn).1 (by omega)
          omega
      rw [if_neg hbelow]
      obtain ⟨hfound, hnone⟩ := ih low (low + (high - low) / 2) (by omega) (by omega)
      refine ⟨hfound, ?_⟩
      intro hno i hi₁ hi₂ hn
      by_cases hside : i < low + (high - low) / 2
      · exact hnone hno i hi₁ hside hn
      by_cases hsame : i = low + (high - low) / 2
      · simp [hsame, hget, heq] at hn
      · have := (horder i n hn).2 (by omega)
        omega
    rw [if_neg hlt]
    refine ⟨by simp, ?_⟩
    omega

variable {t : IndexedTracker} {next bound : Nat} {packets : List SentPacket} {latest : Option Nat}

/-- **The fast lookup answers as the scan does.** -/
theorem findPacketIndex_eq (h : t.toSentPacketTracker.WF next)
    (hidx : Indexes t.packets t.packetIndex) (n : Nat) :
    t.findPacketIndex n = t.toSentPacketTracker.findPacketIndex n := by
  have hfound : ∀ i, (t.packets.map (·.packetNumber))[i]? = some n →
      t.toSentPacketTracker.findPacketIndex n = some i := by
    intro i hi
    exact (SentPacketTracker.findPacketIndex_eq_some h).mpr hi
  unfold findPacketIndex
  cases hlast : t.packets.getLast? with
  | none =>
    have hnil := List.getLast?_eq_none_iff.mp hlast
    simp [hnil, SentPacketTracker.findPacketIndex]
  | some tail =>
    simp only
    by_cases htail : tail.packetNumber = n
    · rw [if_pos htail, hfound (t.packets.length - 1)]
      rw [List.getElem?_map, ← List.getLast?_eq_getElem?, hlast, ← htail]
      rfl
    rw [if_neg htail]
    cases hmap : t.packetIndex n with
    | some i => simp [hfound i (hidx n i hmap)]
    | none =>
      rw [if_pos h.sorted]
      unfold findSortedPacketIndex
      obtain ⟨hsome, hnone⟩ := findSortedLoop_spec (n := n) h.ascending t.packets.length 0
        t.packets.length (by omega) le_rfl
      cases hloop : findSortedLoop n t.packets t.packets.length 0 t.packets.length with
      | some i => rw [hfound i (hsome i hloop)]
      | none =>
        cases hscan : t.toSentPacketTracker.findPacketIndex n with
        | none => rfl
        | some i =>
          have hi := (SentPacketTracker.findPacketIndex_eq_some h).mp hscan
          have hlt := lt_of_getElem? hi
          rw [List.length_map] at hlt
          exact absurd hi (hnone hloop i (by omega) hlt)

lemma findSentPacket_eq (h : t.toSentPacketTracker.WF next)
    (hidx : Indexes t.packets t.packetIndex) (n : Nat) :
    t.findSentPacket n = t.toSentPacketTracker.findSentPacket n := by
  unfold findSentPacket SentPacketTracker.findSentPacket
  rw [findPacketIndex_eq h hidx]
  unfold SentPacketTracker.findPacketIndex
  rw [find?_eq_bind_findIdx?_getElem?]
  cases t.packets.findIdx? (fun p => p.packetNumber == n) with
  | none | some => rfl

/-! ### Refreshing the hash map -/

/-- Entries that survive a refresh point at a number beyond its reach, the others are right. -/
theorem refresh_spec (packets : List SentPacket) :
    ∀ (count start : Nat) (index : Nat → Option Nat) (n i : Nat),
      (range' start count).foldl (fun index j =>
          match packets[j]? with
          | none => index
          | some p =>
            if (index p.packetNumber).isSome then Function.update index p.packetNumber (some j)
            else index) index n = some i → (packets.map (·.packetNumber))[i]? = some n ∨
      (index n = some i ∧ ∀ j, start ≤ j → j < start + count →
        (packets.map (·.packetNumber))[j]? ≠ some n) := by
  intro count
  induction count with
  | zero =>
    intro start index n i h
    exact .inr ⟨h, fun j hlow hhigh => by omega⟩
  | succ k ih =>
    intro start index n i h
    rw [range'_succ, foldl_cons] at h
    rcases ih (start + 1) _ n i h with hright | ⟨hkept, hlater⟩
    · exact .inl hright
    have hrest : ∀ j, start ≤ j → j < start + (k + 1) →
        (packets.map (·.packetNumber))[start]? ≠ some n →
        (packets.map (·.packetNumber))[j]? ≠ some n := by
      intro j hlow hhigh hfirst
      by_cases hj : j = start
      · rw [hj]
        exact hfirst
      · exact hlater j (by omega) (by omega)
    cases hp : packets[start]? with
    | none =>
      rw [hp] at hkept
      refine .inr ⟨hkept, fun j hlow hhigh => hrest j hlow hhigh ?_⟩
      rw [getElem?_map, hp]
      simp
    | some p =>
      rw [hp] at hkept
      simp only at hkept
      by_cases hn : p.packetNumber = n
      · by_cases hknown : (index p.packetNumber).isSome = true
        · rw [if_pos hknown, hn, Function.update_self, some.injEq] at hkept
          simp [← hkept, hp, hn]
        · rw [if_neg hknown] at hkept
          simp [hn, hkept] at hknown
      have hsame : index n = some i := by
        by_cases hknown : (index p.packetNumber).isSome = true
        · rw [if_pos hknown, Function.update_of_ne (Ne.symm hn)] at hkept
          exact hkept
        · rw [if_neg hknown] at hkept
          exact hkept
      refine .inr ⟨hsame, fun j hlow hhigh => hrest j hlow hhigh ?_⟩
      rw [getElem?_map, hp, map_some, Ne, some.injEq]
      exact hn

/-- After a refresh the map is right when every entry was right below `start`, or names a
record at or above it. -/
theorem Indexes.refresh {start : Nat} (h : ∀ n i, t.packetIndex n = some i →
      (t.packets.map (·.packetNumber))[i]? = some n ∨
      ∃ j, start ≤ j ∧ (t.packets.map (·.packetNumber))[j]? = some n) :
    Indexes (t.refreshPacketIndexFrom start).packets (t.refreshPacketIndexFrom start).packetIndex := by
  intro n i hi
  rcases refresh_spec t.packets _ start t.packetIndex n i hi with hright | ⟨hkept, hnone⟩
  · exact hright
  rcases h n i hkept with hright | ⟨j, hlow, hj⟩
  · exact hright
  have hlt := lt_of_getElem? hj
  rw [List.length_map] at hlt
  exact absurd hj (hnone j hlow (by omega))

/-! ### The newest ack-eliciting packet in flight -/

/-- `latest` is the first index below `bound` with the latest send time, when there is one. -/
def Newest (packets : List SentPacket) (bound : Nat) : Option Nat → Prop
  | none => ∀ j, j < bound → timeAt packets j = none
  | some i => i < bound ∧ ∃ time, timeAt packets i = some time ∧
      ∀ j other, j < bound → timeAt packets j = some other → other ≤ time ∧ (j < i → other < time)

lemma timeAt_lt {i time : Nat} (h : timeAt packets i = some time) : i < packets.length := by
  unfold timeAt at h
  cases hp : packets[i]? with
  | none => rw [hp] at h; simp at h
  | some p => exact lt_of_getElem? hp

lemma Newest.consider (h : Newest packets bound latest) :
    Newest packets (bound + 1) (consider packets latest bound) := by
  unfold IndexedTracker.consider
  cases hnew : timeAt packets bound with
  | none =>
    cases latest with
    | none =>
      intro j hj
      by_cases heq : j = bound
      · rw [heq, hnew]
      · exact h j (by omega)
    | some i =>
      obtain ⟨hi, time, htime, hall⟩ := h
      refine ⟨by omega, time, htime, ?_⟩
      intro j other hj hother
      by_cases heq : j = bound
      · simp [heq, hnew] at hother
      · exact hall j other (by omega) hother
  | some sentTime =>
    cases latest with
    | none =>
      refine ⟨by omega, sentTime, hnew, ?_⟩
      intro j other hj hother
      by_cases heq : j = bound
      · rw [heq, hnew, some.injEq] at hother
        omega
      · rw [h j (by omega)] at hother
        simp at hother
    | some i =>
      obtain ⟨hi, time, htime, hall⟩ := h
      simp only
      rw [htime]
      simp only
      by_cases hlater : time < sentTime
      · rw [if_pos hlater]
        refine ⟨by omega, sentTime, hnew, ?_⟩
        intro j other hj hother
        by_cases heq : j = bound
        · rw [heq, hnew, some.injEq] at hother
          omega
        · have := (hall j other (by omega) hother).1
          omega
      rw [if_neg hlater]
      refine ⟨by omega, time, htime, ?_⟩
      intro j other hj hother
      by_cases heq : j = bound
      · rw [heq, hnew, some.injEq] at hother
        omega
      · exact hall j other (by omega) hother

lemma Newest.scan :
    ∀ (count start : Nat) (latest : Option Nat), Newest packets start latest →
      Newest packets (start + count)
        ((range' start count).foldl (IndexedTracker.consider packets) latest) := by
  intro count
  induction count with
  | zero => intro start latest h; exact h
  | succ k ih =>
    intro start latest h
    rw [range'_succ, show start + (k + 1) = start + 1 + k by omega]
    exact ih (start + 1) _ h.consider

/-- Below the cursor no record counts, so a scan from the cursor sees all that do. -/
theorem Newest.recompute (hsorted : t.packetsSortedAscending = true)
    (hc : t.toSentPacketTracker.CursorOk) :
    Newest t.recomputeLatest.packets t.recomputeLatest.packets.length
      t.recomputeLatest.latestAckElicitingInFlightIndex := by
  have hstart : t.toSentPacketTracker.scanStart = t.firstUnacknowledgedIndex := by
    simp [hsorted, SentPacketTracker.scanStart]
  have hbase : Newest t.packets t.toSentPacketTracker.scanStart none := by
    intro j hj
    rw [hstart] at hj
    unfold timeAt
    cases hp : t.packets[j]? with
    | none => rfl
    | some p =>
      have hacked := hc.acknowledged j p hj hp
      simp [SentPacket.ackElicitingInFlightSentTime, hacked]
  have hle := hc.le
  have hscan := Newest.scan (t.packets.length - t.toSentPacketTracker.scanStart) _ none hbase
  rw [show t.toSentPacketTracker.scanStart
    + (t.packets.length - t.toSentPacketTracker.scanStart) = t.packets.length by omega] at hscan
  exact hscan

/-- Records that stop counting do not matter, as long as the cached one still counts. -/
theorem Newest.shrink {packets' : List SentPacket} (h : Newest packets bound latest)
    (hkeep : ∀ i, latest = some i → timeAt packets' i = timeAt packets i)
    (hless : ∀ j, timeAt packets' j = none ∨ timeAt packets' j = timeAt packets j) :
    Newest packets' bound latest := by
  cases latest with
  | none =>
    intro j hj
    rcases hless j with hnone | hsame
    · exact hnone
    · rw [hsame]
      exact h j hj
  | some i =>
    obtain ⟨hi, time, htime, hall⟩ := h
    refine ⟨hi, time, (hkeep i rfl).trans htime, ?_⟩
    intro j other hj hother
    rcases hless j with hnone | hsame
    · simp [hnone] at hother
    · rw [hsame] at hother
      exact hall j other hj hother

lemma Newest.append (h : Newest packets packets.length latest) (p : SentPacket) :
    Newest (packets ++ [p]) (packets.length + 1)
      (IndexedTracker.consider (packets ++ [p]) latest packets.length) := by
  have hsame : ∀ j, j < packets.length → timeAt (packets ++ [p]) j = timeAt packets j := by
    intro j hj
    unfold timeAt
    rw [getElem?_append_left hj]
  refine Newest.consider ?_
  cases latest with
  | none =>
    intro j hj
    rw [hsame j hj]
    exact h j hj
  | some i =>
    obtain ⟨hi, time, htime, hall⟩ := h
    refine ⟨hi, time, (hsame i hi).trans htime, ?_⟩
    intro j other hj hother
    rw [hsame j hj] at hother
    exact hall j other hj hother

lemma Newest.eraseIdx {index : Nat} (h : Newest packets packets.length latest)
    (hidx : index < packets.length) (hother : latest ≠ some index) :
    Newest (packets.eraseIdx index) (packets.eraseIdx index).length
      (if latest.any (fun i => decide (index < i)) then latest.map (· - 1) else latest) := by
  have hlen : (packets.eraseIdx index).length = packets.length - 1 :=
    length_eraseIdx_of_lt hidx
  have htime : ∀ j, timeAt (packets.eraseIdx index) j
      = if j < index then timeAt packets j else timeAt packets (j + 1) := by
    intro j
    unfold timeAt
    rw [getElem?_eraseIdx]
    by_cases hj : j < index
    · rw [if_pos hj, if_pos hj]
    · rw [if_neg hj, if_neg hj]
  cases latest with
  | none =>
    intro j hj
    rw [htime]
    by_cases hj' : j < index
    · rw [if_pos hj']
      exact h j (by omega)
    · rw [if_neg hj']
      exact h (j + 1) (by omega)
  | some i =>
    obtain ⟨hi, time, hti, hall⟩ := h
    have hne : i ≠ index := fun heq => hother (by rw [heq])
    simp only [any_some, decide_eq_true_eq, map_some]
    by_cases hside : index < i
    · rw [if_pos hside]
      refine ⟨by omega, time, ?_, ?_⟩
      · rw [htime, if_neg (by omega), show i - 1 + 1 = i by omega]
        exact hti
      intro j other hj hother
      rw [htime] at hother
      by_cases hj' : j < index
      · rw [if_pos hj'] at hother
        obtain ⟨hle, hlt⟩ := hall j other (by omega) hother
        exact ⟨hle, fun _ => hlt (by omega)⟩
      rw [if_neg hj'] at hother
      obtain ⟨hle, hlt⟩ := hall (j + 1) other (by omega) hother
      exact ⟨hle, fun _ => hlt (by omega)⟩
    rw [if_neg hside]
    refine ⟨by omega, time, ?_, ?_⟩
    · rw [htime, if_pos (by omega)]
      exact hti
    intro j other hj hother
    rw [htime] at hother
    by_cases hj' : j < index
    · rw [if_pos hj'] at hother
      exact hall j other (by omega) hother
    rw [if_neg hj'] at hother
    obtain ⟨hle, hlt⟩ := hall (j + 1) other (by omega) hother
    exact ⟨hle, fun _ => by omega⟩

lemma Newest.drop {count : Nat} (h : Newest packets packets.length latest)
    (hcount : count ≤ packets.length) (hfront : ∀ j, j < count → timeAt packets j = none) :
    Newest (packets.drop count) (packets.drop count).length
      (latest.bind (fun i => if i < count then none else some (i - count))) := by
  have htime : ∀ j, timeAt (packets.drop count) j = timeAt packets (count + j) := by simp [timeAt]
  rw [length_drop]
  cases latest with
  | none =>
    intro j hj
    rw [htime]
    exact h (count + j) (by omega)
  | some i =>
    obtain ⟨hi, time, hti, hall⟩ := h
    have hback : ¬ i < count := by
      intro hlt
      simp [hfront i hlt] at hti
    simp only [bind_some]
    rw [if_neg hback]
    refine ⟨by omega, time, ?_, ?_⟩
    · rw [htime, show count + (i - count) = i by omega]
      exact hti
    intro j other hj hother
    rw [htime] at hother
    obtain ⟨hle, hlt⟩ := hall (count + j) other (by omega) hother
    exact ⟨hle, fun hj' => hlt (by omega)⟩

end Netz.Quic.IndexedTracker
