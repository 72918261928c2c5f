/-
Sending, forgetting and marking single packets on the cached tracker.

A send appends a record, a forget takes one out, and both keep the invariant of the caches.
-/
import Netz.Proofs.SentDetection

namespace Netz.Quic.IndexedTracker

open Lib SentPacketTracker List Function

variable {counted : Prop} {t : IndexedTracker} {next : Nat}

/-! ### Sending, forgetting and marking one packet -/

lemma WF.mono {t : SentPacketTracker} {next m : Nat} (h : t.WF next) (hle : next ≤ m)
    (hm : m ≤ varintMax + 1) : t.WF m :=
  ⟨h.sorted, h.ascending, fun n hn => Nat.lt_of_lt_of_le (h.below n hn) hle, h.both,
    fun r hr => ⟨(h.nonempty r hr).1, Nat.lt_of_lt_of_le (h.nonempty r hr).2 hle⟩, h.above, hm⟩

lemma WF.sublist {t t' : SentPacketTracker} {next : Nat} (h : t.WF next)
    (hp : (t'.packets.map (·.packetNumber)).Sublist (t.packets.map (·.packetNumber)))
    (hs : t'.packetsSortedAscending = t.packetsSortedAscending)
    (hr : t'.retiredAcknowledgedStart = t.retiredAcknowledgedStart)
    (ht : t'.retiredAcknowledgedThrough = t.retiredAcknowledgedThrough) : t'.WF next := by
  have hret : t'.retired = t.retired := by
    unfold retired
    rw [hr, ht]
  exact ⟨hs.trans h.sorted, h.ascending.sublist hp, fun n hn => h.below n (hp.subset hn),
    by rw [hr, ht]; exact h.both, by rw [hret]; exact h.nonempty,
    by rw [hret]; exact fun r hr n hn => h.above r hr n (hp.subset hn), h.small⟩

lemma Inv.monotonicAppend (h : Inv counted t next) {n : Nat} (hn : next ≤ n) :
    t.packets.getLast?.all (fun p => decide (p.packetNumber < n)) = true := by
  cases hlast : t.packets.getLast? with
  | none => rfl
  | some p =>
    have := h.wf.below p.packetNumber (mem_map.mpr ⟨p, mem_of_getLast? hlast, rfl⟩)
    simp only [Option.all_some, decide_eq_true_eq]
    omega

/-- **A packet with a new number is recorded and is sent from then on.** -/
theorem sent_spec (h : Inv counted t next) {sending : Sending} (indexed : Bool)
    (hnew : next ≤ sending.packetNumber) (hsmall : sending.packetNumber ≤ varintMax) :
    (t.sent sending indexed).1 = .ok () ∧
    (t.sent sending indexed).2.packets = t.packets ++ [sending.packet] ∧
    (∀ n, (t.sent sending indexed).2.toSentPacketTracker.Sent n ↔
      t.toSentPacketTracker.Sent n ∨ n = sending.packetNumber) ∧
    Inv counted (t.sent sending indexed).2 (sending.packetNumber + 1) := by
  have hmono := h.monotonicAppend hnew
  have hwf := WF.mono h.wf hnew (by omega)
  obtain ⟨t', hok, hwf', -, -⟩ := sentNext_wf hwf hsmall sending.packet rfl
  have hrecord : { sending.packet with
      bytes := if sending.packet.inFlight then sending.packet.bytes else 0 } = sending.packet := by
    unfold Sending.packet
    by_cases hin : sending.inFlight = true
    · simp [hin]
    · simp [hin]
  have hplain : (t.sent sending indexed).2.toSentPacketTracker = t' := by
    unfold sentInFlightAtWithMetadata at hok
    have hmono' : t.packets.getLast?.all
        (fun p => decide (p.packetNumber < sending.packet.packetNumber)) = true := hmono
    rw [if_neg (by rw [hmono']; simp), hrecord, Except.ok.injEq] at hok
    unfold sent
    rw [if_neg (by rw [hmono]; simp)]
    exact hok
  have hpkts : (t.sent sending indexed).2.packets = t.packets ++ [sending.packet] := by
    simp [hmono, sent]
  refine ⟨?_, hpkts, ?_, ?_, ?_, ?_, ?_, ?_⟩
  · simp [hmono, sent]
  · intro n
    unfold SentPacketTracker.Sent
    have hret : (t.sent sending indexed).2.toSentPacketTracker.retiredContains n
        = t.toSentPacketTracker.retiredContains n := by
      unfold sent
      rw [if_neg (by rw [hmono]; simp)]
      rfl
    have hnum : (t.sent sending indexed).2.toSentPacketTracker.packets
        = t.packets ++ [sending.packet] := hpkts
    rw [hret, hnum, List.map_append, List.mem_append]
    simp only [List.map_cons, List.map_nil, List.mem_singleton]
    exact or_assoc.symm
  · rw [hplain]
    exact hwf'
  · unfold sent
    rw [if_neg (by rw [hmono]; simp)]
    constructor
    · have := h.cursor.le
      simp only [List.length_append]
      omega
    intro i p hi hp
    have hlt : i < t.packets.length := hi.trans_le h.cursor.le
    have hp' : (t.packets ++ [sending.packet])[i]? = some p := hp
    rw [List.getElem?_append_left hlt] at hp'
    exact h.cursor.acknowledged i p hi hp'
  · unfold sent
    rw [if_neg (by rw [hmono]; simp)]
    intro n i hi
    have hstill : ∀ {j m : Nat}, (t.packets.map (·.packetNumber))[j]? = some m →
        ((t.packets ++ [sending.packet]).map (·.packetNumber))[j]? = some m := by
      intro j m hj
      have hlt := lt_of_getElem? hj
      rw [List.map_append, List.getElem?_append_left hlt]
      exact hj
    by_cases hroom : indexed = true
    · simp only [hroom, if_true] at hi
      by_cases hn : n = sending.packetNumber
      · rw [hn, update_self, Option.some.injEq] at hi
        rw [← hi, hn, List.getElem?_map, List.getElem?_append_right le_rfl]
        simp [Sending.packet]
      · rw [update_of_ne hn] at hi
        exact hstill (h.indexed n i hi)
    · simp only [hroom] at hi
      exact hstill (h.indexed n i hi)
  · unfold sent
    rw [if_neg (by rw [hmono]; simp)]
    simp only [List.length_append]
    exact h.newest.append sending.packet
  intro hcounted
  have hmarks := h.marks hcounted
  unfold sent
  rw [if_neg (by rw [hmono]; simp)]
  simp only
  by_cases h0 : sending.ecn = .ect0
  · rw [if_pos h0, if_neg (by rw [h0]; simp)]
    omega
  rw [if_neg h0]
  by_cases h1 : sending.ecn = .ect1
  · rw [if_pos h1]
    omega
  · rw [if_neg h1]
    omega

lemma closeCovered_aged (rs : List PacketRange) (p : SentPacket) :
    SentPacketTracker.Aged p (closeCovered rs p) := by
  unfold closeCovered
  split
  · exact ⟨rfl, rfl, rfl, fun _ => rfl⟩
  · exact SentPacketTracker.Aged.refl p

/-- Records are closed, the caches repaired, and the cursor moved on. -/
theorem Inv.closed (h : Inv counted t next) {marked : IndexedTracker} (rs : List PacketRange)
    (n : Nat)
    (hp : marked.packets = t.packets.map (closeCovered rs))
    (hrest : marked.toSentPacketTracker = { t.toSentPacketTracker with packets := marked.packets })
    (hidx : marked.packetIndex = t.packetIndex)
    (hnewest : Newest marked.packets marked.packets.length
      marked.latestAckElicitingInFlightIndex) :
    SentPacketTracker.SameNumbers t.toSentPacketTracker
      (marked.toSentPacketTracker.observeAcknowledged n).advanceFirstUnacknowledged ∧
    Inv counted { marked with
      toSentPacketTracker :=
        (marked.toSentPacketTracker.observeAcknowledged n).advanceFirstUnacknowledged } next := by
  have hm : SentPacketTracker.Marked t.toSentPacketTracker
      (marked.toSentPacketTracker.observeAcknowledged n) := by
    refine SentPacketTracker.Marked.trans ?_
      (observeAcknowledged_marked marked.toSentPacketTracker n)
    unfold SentPacketTracker.Marked
    rw [hrest]
  have hpkts : (marked.toSentPacketTracker.observeAcknowledged n).packets
      = t.packets.map (closeCovered rs) :=
    (observeAcknowledged_packets _ n).trans hp
  have hranges := SentPacketTracker.MarkedRanges.advance h.cursor hm hpkts
  have hfirst : SentPacketTracker.SameNumbers t.toSentPacketTracker marked.toSentPacketTracker :=
    SentPacketTracker.SameNumbers.of_map hp (closeCovered_aged rs) (by rw [hrest]) (by rw [hrest])
      (by rw [hrest]) (by rw [hrest])
  have hsame := (hfirst.trans (observeAcknowledged_same _ n)).trans
    (advanceFirstUnacknowledged_same _)
  refine ⟨hsame, h.inPlace hsame hranges.cursor hidx ?_ ?_ ?_⟩
  · simp [hranges.packets, ← hp, hnewest]
  · have hcount := congrArg sentEct0Count hranges.rest
    exact hcount
  · have hcount := congrArg sentEct1Count hranges.rest
    exact hcount

lemma markAcknowledged_spec (h : Inv counted t next) (n : Nat) :
    SentPacketTracker.SameNumbers t.toSentPacketTracker
      (t.markAcknowledged n).2.toSentPacketTracker ∧ Inv counted (t.markAcknowledged n).2 next := by
  have hsame : SentPacketTracker.SameNumbers t.toSentPacketTracker t.toSentPacketTracker ∧
      Inv counted t next := ⟨SentPacketTracker.SameNumbers.refl _, h⟩
  unfold markAcknowledged
  rw [findPacketIndex_eq h.wf h.indexed]
  cases hi : t.toSentPacketTracker.findPacketIndex n with
  | none => exact hsame
  | some i =>
    simp only
    cases hp : t.packets[i]? with
    | none => exact hsame
    | some p =>
      simp only
      -- Seen from the records this is the ACK of one packet.
      have hone := markOne_packets h.wf hi {}
      unfold markPacketAcknowledged at hone
      rw [hp] at hone
      simp only at hone
      by_cases hacked : p.acknowledged = true
      · rw [if_pos hacked, observeAcknowledged_packets] at hone
        rw [if_pos hacked]
        exact h.closed [⟨n, n⟩] n hone rfl rfl h.newest
      rw [if_neg hacked, observeAcknowledged_packets] at hone
      simp only at hone
      rw [if_neg hacked]
      have hcur : ({ t with
          packets := t.packets.set i { p with acknowledged := true } } :
          IndexedTracker).toSentPacketTracker.CursorOk :=
        h.cursor.map_close hone rfl
      by_cases hlast : t.latestAckElicitingInFlightIndex = some i
      · rw [if_pos hlast]
        exact h.closed [⟨n, n⟩] n hone rfl rfl (Newest.recompute h.wf.sorted hcur)
      rw [if_neg hlast]
      refine h.closed [⟨n, n⟩] n hone rfl rfl ?_
      simp only [length_set]
      refine h.newest.shrink ?_ ?_
      · intro j hj
        have hne : i ≠ j := fun heq => hlast (by rw [hj, heq])
        simp [getElem?_set_ne hne, timeAt]
      intro j
      rw [hone]
      exact timeAt_map_close [⟨n, n⟩] t.packets j

lemma Inv.advanceFirst (h : Inv counted t next) : Inv counted t.advanceFirst next := by
  have htracker := advanceFirst_tracker t
  refine h.inPlace ?_ ?_ rfl h.newest rfl rfl
  · rw [htracker]
    exact advanceFirstUnacknowledged_same _
  · rw [htracker]
    exact h.cursor.advance

/-- One record is taken out: everything but the caches. -/
structure Erased (t t' : IndexedTracker) (index : Nat) : Prop where
  packets : t'.packets = t.packets.eraseIdx index
  sorted : t'.packetsSortedAscending = t.packetsSortedAscending
  start : t'.retiredAcknowledgedStart = t.retiredAcknowledgedStart
  through : t'.retiredAcknowledgedThrough = t.retiredAcknowledgedThrough
  cursor : t'.toSentPacketTracker.CursorOk
  ect0 : t'.sentEct0Count = t.sentEct0Count
  ect1 : t'.sentEct1Count = t.sentEct1Count

namespace Erased

variable {t' : IndexedTracker} {index : Nat}

lemma numbers (h : Erased t t' index) :
    t'.packets.map (·.packetNumber) = (t.packets.map (·.packetNumber)).eraseIdx index := by
  rw [h.packets, eraseIdx_map]

lemma wf (h : Erased t t' index) (hwf : t.toSentPacketTracker.WF next) :
    t'.toSentPacketTracker.WF next := by
  refine WF.sublist hwf ?_ h.sorted h.start h.through
  rw [h.numbers]
  exact eraseIdx_sublist _ _

lemma sent (h : Erased t t' index) (hwf : t.toSentPacketTracker.WF next) {n : Nat}
    (hn : (t.packets.map (·.packetNumber))[index]? = some n) (m : Nat) :
    t'.toSentPacketTracker.Sent m ↔ t.toSentPacketTracker.Sent m ∧ m ≠ n := by
  have hret : t'.toSentPacketTracker.retired = t.toSentPacketTracker.retired := by
    unfold retired
    rw [h.start, h.through]
  have hnodup : (t.packets.map (·.packetNumber)).Nodup :=
    hwf.ascending.imp (fun hlt => Nat.ne_of_lt hlt)
  unfold SentPacketTracker.Sent
  rw [retiredContains_iff, retiredContains_iff, hret, h.numbers]
  constructor
  · intro hs
    rcases hs with ⟨r, hr, hholds⟩ | hin
    · refine ⟨.inl ⟨r, hr, hholds⟩, ?_⟩
      intro heq
      have := hwf.above r hr n (List.mem_of_getElem? hn)
      have := hholds.2
      omega
    obtain ⟨j, hj, hget⟩ := List.mem_eraseIdx_iff_getElem?.mp hin
    refine ⟨.inr (List.mem_of_getElem? hget), ?_⟩
    intro heq
    rw [heq] at hget
    obtain ⟨hlt₁, heq₁⟩ := List.getElem_of_getElem? hget
    obtain ⟨hlt₂, heq₂⟩ := List.getElem_of_getElem? hn
    exact hj ((List.Nodup.getElem_inj_iff hnodup).mp (heq₁.trans heq₂.symm))
  intro hs
  obtain ⟨hs, hne⟩ := hs
  rcases hs with hret | hin
  · exact .inl hret
  obtain ⟨j, hj⟩ := List.mem_iff_getElem?.mp hin
  refine .inr (List.mem_eraseIdx_iff_getElem?.mpr ⟨j, ?_, hj⟩)
  intro heq
  rw [heq, hn, Option.some.injEq] at hj
  exact hne hj.symm

end Erased

lemma getElem?_eraseIdx_of_ne {l : List Nat} {index i n m : Nat} (hidx : l[index]? = some n)
    (hi : l[i]? = some m) (hne : m ≠ n) :
    (i < index ∧ (l.eraseIdx index)[i]? = some m) ∨
    (index < i ∧ (l.eraseIdx index)[i - 1]? = some m) := by
  have hi' : i ≠ index := by
    intro heq
    rw [heq, hidx, Option.some.injEq] at hi
    exact hne hi.symm
  by_cases hlt : i < index
  · simp [getElem?_eraseIdx, hlt, hi]
  refine .inr ⟨by omega, ?_⟩
  rw [getElem?_eraseIdx, if_neg (by omega), show i - 1 + 1 = i by omega]
  exact hi

variable {t' : IndexedTracker} {index : Nat}

lemma Erased.refresh (h : Erased t t' index) (start : Nat) :
    Erased t (t'.refreshPacketIndexFrom start) index :=
  ⟨h.packets, h.sorted, h.start, h.through, h.cursor, h.ect0, h.ect1⟩

lemma Erased.recompute (h : Erased t t' index) : Erased t t'.recomputeLatest index :=
  ⟨h.packets, h.sorted, h.start, h.through, h.cursor, h.ect0, h.ect1⟩

lemma Erased.advanceFirst (h : Erased t t' index) : Erased t t'.advanceFirst index := by
  refine ⟨h.packets, h.sorted, h.start, h.through, ?_, h.ect0, h.ect1⟩
  rw [advanceFirst_tracker]
  exact h.cursor.advance

lemma Erased.inv (h : Erased t t' index) (hinv : Inv counted t next)
    (hidx : Indexes t'.packets t'.packetIndex)
    (hnewest : Newest t'.packets t'.packets.length t'.latestAckElicitingInFlightIndex) :
    Inv counted t' next :=
  ⟨h.wf hinv.wf, h.cursor, hidx, hnewest, by rw [h.ect0, h.ect1]; exact hinv.marks⟩

lemma forgetTail_inv (h : Inv counted t next) {n : Nat}
    (hn : (t.packets.map (·.packetNumber))[t.packets.length - 1]? = some n) :
    let popped : IndexedTracker :=
      { t with
        packets := t.packets.dropLast
        packetIndex := update t.packetIndex n none
        firstUnacknowledgedIndex := min t.firstUnacknowledgedIndex (t.packets.length - 1) }
    let t' := if t.latestAckElicitingInFlightIndex = some (t.packets.length - 1)
      then popped.recomputeLatest else popped
    Erased t t' (t.packets.length - 1) ∧ Inv counted t' next := by
  intro popped t'
  have hdrop : t.packets.dropLast = t.packets.eraseIdx (t.packets.length - 1) :=
    List.eraseIdx_length_sub_one.symm
  have hpos : t.packets.length - 1 < t.packets.length := by
    have hlt := lt_of_getElem? hn
    simpa using hlt
  have herased : Erased t popped (t.packets.length - 1) := by
    refine ⟨hdrop, rfl, rfl, rfl, ⟨?_, ?_⟩, rfl, rfl⟩
    · show min t.firstUnacknowledgedIndex (t.packets.length - 1) ≤ t.packets.dropLast.length
      simp
    intro i p hi hp
    have hi' : i < min t.firstUnacknowledgedIndex (t.packets.length - 1) := hi
    have hp' : t.packets.dropLast[i]? = some p := hp
    rw [List.getElem?_dropLast, if_pos (by omega)] at hp'
    exact h.cursor.acknowledged i p (by omega) hp'
  have hidx : Indexes popped.packets popped.packetIndex := by
    intro m i hi
    have hi' : update t.packetIndex n none m = some i := hi
    by_cases hm : m = n
    · simp [hm] at hi'
    rw [update_of_ne hm] at hi'
    have hold := h.indexed m i hi'
    rw [herased.numbers]
    rcases getElem?_eraseIdx_of_ne hn hold hm with ⟨-, hget⟩ | ⟨hlt, -⟩
    · exact hget
    have hbound := lt_of_getElem? hold
    rw [List.length_map] at hbound
    omega
  by_cases hlast : t.latestAckElicitingInFlightIndex = some (t.packets.length - 1)
  · have ht' : t' = popped.recomputeLatest := if_pos hlast
    rw [ht']
    exact ⟨herased.recompute, herased.recompute.inv h hidx
      (Newest.recompute h.wf.sorted herased.cursor)⟩
  have ht' : t' = popped := if_neg hlast
  rw [ht']
  refine ⟨herased, herased.inv h hidx ?_⟩
  have hnew := h.newest.eraseIdx hpos hlast
  have hsame : (if t.latestAckElicitingInFlightIndex.any
        (fun i => decide (t.packets.length - 1 < i))
      then t.latestAckElicitingInFlightIndex.map (· - 1)
      else t.latestAckElicitingInFlightIndex) = t.latestAckElicitingInFlightIndex := by
    cases hi : t.latestAckElicitingInFlightIndex with
    | none => rfl
    | some i =>
      have hbound := h.newest
      rw [hi] at hbound
      have := hbound.1
      rw [if_neg (by simp; omega)]
  rw [hsame, ← hdrop] at hnew
  exact hnew

/-- Only the records and the cursor move. -/
lemma erased_removed (h : Inv counted t next) {index : Nat} (hlt : index < t.packets.length)
    (places : Nat → Option Nat) : Erased t
      { t with
        packets := t.packets.eraseIdx index
        packetIndex := places
        firstUnacknowledgedIndex :=
          if index < t.firstUnacknowledgedIndex then t.firstUnacknowledgedIndex - 1
          else t.firstUnacknowledgedIndex } index := by
  have hlen : (t.packets.eraseIdx index).length = t.packets.length - 1 :=
    List.length_eraseIdx_of_lt hlt
  have hle := h.cursor.le
  refine ⟨rfl, rfl, rfl, rfl, ⟨?_, ?_⟩, rfl, rfl⟩
  · show (if index < t.firstUnacknowledgedIndex then t.firstUnacknowledgedIndex - 1
      else t.firstUnacknowledgedIndex) ≤ (t.packets.eraseIdx index).length
    split
    · omega
    · omega
  intro i p hi hp
  have hi' : i < if index < t.firstUnacknowledgedIndex then t.firstUnacknowledgedIndex - 1
    else t.firstUnacknowledgedIndex := hi
  have hp' : (t.packets.eraseIdx index)[i]? = some p := hp
  rw [List.getElem?_eraseIdx] at hp'
  by_cases hside : i < index
  · rw [if_pos hside] at hp'
    refine h.cursor.acknowledged i p ?_ hp'
    split at hi'
    · omega
    · omega
  rw [if_neg hside] at hp'
  refine h.cursor.acknowledged (i + 1) p ?_ hp'
  split at hi'
  · omega
  · omega

/-- A record is taken out of the middle, the later ones close up, and the caches follow. -/
theorem forgetMiddle_inv (h : Inv counted t next) {n index : Nat}
    (hn : (t.packets.map (·.packetNumber))[index]? = some n) : let removed : IndexedTracker :=
      { t with
        packets := t.packets.eraseIdx index
        packetIndex := update t.packetIndex n none
        firstUnacknowledgedIndex :=
          if index < t.firstUnacknowledgedIndex then t.firstUnacknowledgedIndex - 1
          else t.firstUnacknowledgedIndex }
    let refreshed :=
      if index < removed.packets.length then removed.refreshPacketIndexFrom index else removed
    let repaired :=
      if t.latestAckElicitingInFlightIndex = some index then refreshed.recomputeLatest
      else if t.latestAckElicitingInFlightIndex.any (fun i => decide (index < i)) then
        { refreshed with
          latestAckElicitingInFlightIndex := t.latestAckElicitingInFlightIndex.map (· - 1) }
      else refreshed
    Erased t repaired.advanceFirst index ∧ Inv counted repaired.advanceFirst next := by
  intro removed refreshed repaired
  have hlt : index < t.packets.length := by
    have hlt := lt_of_getElem? hn
    simpa using hlt
  have hremoved : Erased t removed index := erased_removed h hlt _
  have hrefreshed : Erased t refreshed index ∧ Indexes refreshed.packets refreshed.packetIndex := by
    have hplaces : ∀ m i, removed.packetIndex m = some i →
        (i < index ∧ (removed.packets.map (·.packetNumber))[i]? = some m) ∨
        (index < i ∧ (removed.packets.map (·.packetNumber))[i - 1]? = some m) := by
      intro m i hi
      have hi' : update t.packetIndex n none m = some i := hi
      by_cases hm : m = n
      · simp [hm] at hi'
      rw [update_of_ne hm] at hi'
      rw [hremoved.numbers]
      exact getElem?_eraseIdx_of_ne hn (h.indexed m i hi') hm
    by_cases hroom : index < removed.packets.length
    · have hr : refreshed = removed.refreshPacketIndexFrom index := if_pos hroom
      rw [hr]
      refine ⟨hremoved.refresh index, Indexes.refresh ?_⟩
      intro m i hi
      rcases hplaces m i hi with ⟨-, hget⟩ | ⟨hside, hget⟩
      · exact .inl hget
      · exact .inr ⟨i - 1, by omega, hget⟩
    have hr : refreshed = removed := if_neg hroom
    rw [hr]
    refine ⟨hremoved, ?_⟩
    intro m i hi
    rcases hplaces m i hi with ⟨-, hget⟩ | ⟨hside, hget⟩
    · exact hget
    have hbound := lt_of_getElem? hget
    rw [List.length_map] at hbound
    omega
  obtain ⟨herased, hidx⟩ := hrefreshed
  have hsorted : refreshed.packetsSortedAscending = true := herased.sorted.trans h.wf.sorted
  have hlast : refreshed.latestAckElicitingInFlightIndex = t.latestAckElicitingInFlightIndex := by
    show (if index < removed.packets.length then removed.refreshPacketIndexFrom index
      else removed).latestAckElicitingInFlightIndex = _
    split
    · rfl
    · rfl
  have hrepaired : Erased t repaired index ∧ Inv counted repaired next := by
    by_cases hcached : t.latestAckElicitingInFlightIndex = some index
    · have hr : repaired = refreshed.recomputeLatest := if_pos hcached
      rw [hr]
      exact ⟨herased.recompute, herased.recompute.inv h hidx
        (Newest.recompute hsorted herased.cursor)⟩
    have hnew := h.newest.eraseIdx hlt hcached
    rw [← herased.packets] at hnew
    by_cases hside : t.latestAckElicitingInFlightIndex.any (fun i => decide (index < i)) = true
    · have hr : repaired = { refreshed with
          latestAckElicitingInFlightIndex :=
            t.latestAckElicitingInFlightIndex.map (· - 1) } :=
        (if_neg hcached).trans (if_pos hside)
      rw [if_pos hside] at hnew
      rw [hr]
      have hshift : Erased t { refreshed with
          latestAckElicitingInFlightIndex :=
            t.latestAckElicitingInFlightIndex.map (· - 1) } index :=
        ⟨herased.packets, herased.sorted, herased.start, herased.through, herased.cursor,
          herased.ect0, herased.ect1⟩
      exact ⟨hshift, hshift.inv h hidx hnew⟩
    have hr : repaired = refreshed := (if_neg hcached).trans (if_neg hside)
    rw [if_neg hside, ← hlast] at hnew
    rw [hr]
    exact ⟨herased, herased.inv h hidx hnew⟩
  exact ⟨hrepaired.1.advanceFirst, hrepaired.2.advanceFirst⟩

/-- **Forgetting takes out the record of the number, or finds none and does nothing.** -/
theorem forget_spec (h : Inv counted t next) (n : Nat) :
    t.forget n = (false, t) ∨
    ((t.forget n).1 = true ∧ Inv counted (t.forget n).2 next ∧
      ∃ index, (t.packets.map (·.packetNumber))[index]? = some n ∧
        Erased t (t.forget n).2 index) := by
  unfold forget
  cases hlast : t.packets.getLast? with
  | none => exact .inl rfl
  | some tail =>
    simp only
    by_cases htail : tail.packetNumber = n
    · rw [if_pos htail]
      have hn : (t.packets.map (·.packetNumber))[t.packets.length - 1]? = some n := by
        rw [getElem?_map, ← getLast?_eq_getElem?, hlast, ← htail]
        rfl
      obtain ⟨herased, hinv⟩ := forgetTail_inv h hn
      exact .inr ⟨rfl, hinv, _, hn, herased⟩
    rw [if_neg htail, findPacketIndex_eq h.wf h.indexed]
    cases hi : t.toSentPacketTracker.findPacketIndex n with
    | none => exact .inl rfl
    | some index =>
      have hn := (findPacketIndex_eq_some h.wf).mp hi
      obtain ⟨herased, hinv⟩ := forgetMiddle_inv h hn
      exact .inr ⟨rfl, hinv, index, hn, herased⟩

end Netz.Quic.IndexedTracker
