/-
The sent tracker without its ECN counters.

A packet that could not be sent is forgotten, but the ECN counters keep what they counted for
it, so a connection that reuses the number has counted more marks than it has used numbers.
`Kept` is the invariant of the caches with the counters left out; every operation of the
tracker keeps it, whatever was sent before.
-/
import Netz.Proofs.SentEdits

namespace Netz.Quic

open SentPacketTracker IndexedTracker List

namespace IndexedTracker

open Lib

variable {t : IndexedTracker} {next : Nat}

/-- The cursor stands at a record that is not acknowledged, or behind the last one. -/
def Rests (packets : List SentPacket) (cursor : Nat) : Prop :=
  ∀ p, packets[cursor]? = some p → p.acknowledged = false

/-- The invariant of the caches, whatever the ECN counters say. -/
structure Kept (t : IndexedTracker) (next : Nat) : Prop extends Inv False t next where
  rests : Rests t.packets t.firstUnacknowledgedIndex

lemma kept_init : Kept {} 0 := ⟨inv_init, fun p hp => by cases hp⟩

/-! ### The cursor -/

lemma rests_advanced {t : SentPacketTracker}
    (hsorted : t.advanceFirstUnacknowledged.packetsSortedAscending = true) :
    Rests t.advanceFirstUnacknowledged.packets
      t.advanceFirstUnacknowledged.firstUnacknowledgedIndex := by
  unfold advanceFirstUnacknowledged at hsorted ⊢
  split at hsorted
  · rename_i hfalse
    simp [hfalse] at hsorted
  rename_i hnot
  rw [if_neg hnot]
  intro p hp
  have hstop := getElem?_leadingTrue
    ((t.packets.drop t.firstUnacknowledgedIndex).map (·.acknowledged))
  rw [getElem?_map, getElem?_drop, hp] at hstop
  simpa using hstop

lemma rests_advanceFirst {t : IndexedTracker} (hsorted : t.packetsSortedAscending = true) :
    Rests t.advanceFirst.packets t.advanceFirst.firstUnacknowledgedIndex := by
  intro p hp
  unfold advanceFirst advanceFirstUnacknowledged at hp
  rw [if_neg (by rw [hsorted]; simp)] at hp
  have hstop := getElem?_leadingTrue
    ((t.packets.drop t.firstUnacknowledgedIndex).map (·.acknowledged))
  rw [getElem?_map, getElem?_drop, hp] at hstop
  simpa using hstop

lemma Rests.append (h : Rests t.packets t.firstUnacknowledgedIndex)
    (hle : t.firstUnacknowledgedIndex ≤ t.packets.length) {p : SentPacket}
    (hp : p.acknowledged = false) : Rests (t.packets ++ [p]) t.firstUnacknowledgedIndex := by
  intro q hq
  by_cases hlt : t.firstUnacknowledgedIndex < t.packets.length
  · rw [getElem?_append_left hlt] at hq
    exact h q hq
  rw [getElem?_append_right (by omega), getElem?_singleton] at hq
  split at hq
  · cases hq
    exact hp
  · cases hq

lemma forget_rests (h : Rests t.packets t.firstUnacknowledgedIndex) {n : Nat}
    (hsorted : (t.forget n).2.packetsSortedAscending = true) :
    Rests (t.forget n).2.packets (t.forget n).2.firstUnacknowledgedIndex := by
  unfold forget at hsorted ⊢
  cases hlast : t.packets.getLast? with
  | none => exact h
  | some tail =>
    rw [hlast] at hsorted
    dsimp only at hsorted ⊢
    by_cases htail : tail.packetNumber = n
    · rw [if_pos htail]
      have hpopped : Rests t.packets.dropLast
          (min t.firstUnacknowledgedIndex (t.packets.length - 1)) := by
        intro p hp
        have hlt := lt_of_getElem? hp
        rw [length_dropLast] at hlt
        rw [Nat.min_eq_left (by omega), dropLast_eq_take, getElem?_take,
          if_pos (by omega)] at hp
        exact h p hp
      split <;> exact hpopped
    rw [if_neg htail] at hsorted ⊢
    cases hfind : t.findPacketIndex n with
    | none => exact h
    | some index =>
      rw [hfind] at hsorted
      exact rests_advanceFirst hsorted

lemma markRanges_cases (t : IndexedTracker) (rs : List PacketRange) :
    (t.markRanges rs).2 = t ∨ ∃ m, (t.markRanges rs).2 = (t.finishMarking m).2 := by
  unfold markRanges
  dsimp only
  split
  · split
    · split
      · exact .inl rfl
      · exact .inr ⟨_, rfl⟩
    · exact .inr ⟨_, rfl⟩
  · exact .inr ⟨_, rfl⟩

lemma markRanges_rests (h : Rests t.packets t.firstUnacknowledgedIndex) {rs : List PacketRange}
    (hsorted : (t.markRanges rs).2.packetsSortedAscending = true) :
    Rests (t.markRanges rs).2.packets (t.markRanges rs).2.firstUnacknowledgedIndex := by
  rcases markRanges_cases t rs with hsame | ⟨m, hmarked⟩
  · rw [hsame]
    exact h
  · rw [hmarked] at hsorted ⊢
    exact rests_advanceFirst hsorted

lemma markAcknowledged_rests (h : Rests t.packets t.firstUnacknowledgedIndex) {n : Nat}
    (hsorted : (t.markAcknowledged n).2.packetsSortedAscending = true) :
    Rests (t.markAcknowledged n).2.packets (t.markAcknowledged n).2.firstUnacknowledgedIndex := by
  unfold markAcknowledged at hsorted ⊢
  split at hsorted
  · exact h
  split at hsorted
  · exact h
  · exact rests_advanced hsorted

lemma compactPrefix_rests {t : SentPacketTracker} (h : Rests t.packets t.firstUnacknowledgedIndex) :
    Rests t.compactAcknowledgedPrefix.packets
      t.compactAcknowledgedPrefix.firstUnacknowledgedIndex := by
  unfold SentPacketTracker.compactAcknowledgedPrefix
  split
  · exact h
  split
  · exact h
  rename_i first rest hpkts
  dsimp only
  split
  · exact h
  intro p hp
  have hle := compactCount_le t.packets t.firstUnacknowledgedIndex (t.expectedStart first)
  rw [getElem?_drop, Nat.add_sub_cancel' hle.1] at hp
  exact h p hp

lemma compact_rests (h : Rests t.packets t.firstUnacknowledgedIndex) :
    Rests t.compactAcknowledgedPrefix.packets
      t.compactAcknowledgedPrefix.firstUnacknowledgedIndex := by
  unfold compactAcknowledgedPrefix
  split
  · exact h
  split
  · exact h
  dsimp only
  split
  · exact h
  · exact compactPrefix_rests h

/-! ### The invariant -/

lemma Kept.bound (h : Kept t next) {m : Nat} (hsmall : m ≤ varintMax + 1)
    (hnums : ∀ n ∈ t.packets.map (·.packetNumber), n < m)
    (hret : ∀ r ∈ t.toSentPacketTracker.retired, r.stop < m) : Kept t m :=
  ⟨⟨⟨h.wf.sorted, h.wf.ascending, hnums, h.wf.both,
      fun r hr => ⟨(h.wf.nonempty r hr).1, hret r hr⟩, h.wf.above, hsmall⟩,
    h.cursor, h.indexed, h.newest, False.elim⟩, h.rests⟩

lemma Kept.sent (h : Kept t next) (sending : Sending) (indexed : Bool)
    (hnew : next ≤ sending.packetNumber) (hsmall : sending.packetNumber ≤ varintMax) :
    (t.sent sending indexed).1 = .ok () ∧
      (t.sent sending indexed).2.packets = t.packets ++ [sending.packet] ∧
      Kept (t.sent sending indexed).2 (sending.packetNumber + 1) := by
  obtain ⟨hok, hpkts, -, hinv⟩ := sent_spec h.toInv indexed hnew hsmall
  refine ⟨hok, hpkts, hinv, ?_⟩
  have hcur : (t.sent sending indexed).2.firstUnacknowledgedIndex = t.firstUnacknowledgedIndex := by
    unfold IndexedTracker.sent
    dsimp only
    split <;> rfl
  rw [hpkts, hcur]
  exact h.rests.append h.cursor.le rfl

lemma Kept.forget_missing (h : Kept t next) {n : Nat} (hfalse : (t.forget n).1 = false) :
    n ∉ t.packets.map (·.packetNumber) := by
  intro hmem
  obtain ⟨i, hi⟩ := mem_iff_getElem?.mp hmem
  have hfind : t.findPacketIndex n = some i :=
    (findPacketIndex_eq h.wf h.indexed n).trans
      ((findPacketIndex_eq_some h.wf).mpr hi)
  unfold forget at hfalse
  cases hlast : t.packets.getLast? with
  | none => simp [getLast?_eq_none_iff.mp hlast] at hmem
  | some tail =>
    rw [hlast] at hfalse
    dsimp only at hfalse
    split at hfalse
    · cases hfalse
    · simp [hfind] at hfalse

lemma Kept.forget (h : Kept t next) (n : Nat) :
    t.forget n = (false, t) ∨
    ((t.forget n).1 = true ∧ Kept (t.forget n).2 next ∧
      ∃ index, (t.packets.map (·.packetNumber))[index]? = some n ∧
        Erased t (t.forget n).2 index) := by
  rcases forget_spec h.toInv n with hnone | ⟨hfound, hinv, hidx⟩
  · exact .inl hnone
  · exact .inr ⟨hfound, ⟨hinv, forget_rests h.rests hinv.wf.sorted⟩, hidx⟩

lemma forget_rest (t : IndexedTracker) (n : Nat) :
    ∃ packets first index latest, (t.forget n).2 = { t with
        packets := packets
        firstUnacknowledgedIndex := first
        packetIndex := index
        latestAckElicitingInFlightIndex := latest } := by
  unfold forget
  cases t.packets.getLast? with
  | none => exact ⟨_, _, _, _, rfl⟩
  | some tail =>
    dsimp only
    split
    · split <;> exact ⟨_, _, _, _, rfl⟩
    cases t.findPacketIndex n with
    | none => exact ⟨_, _, _, _, rfl⟩
    | some index =>
      dsimp only
      unfold advanceFirst
      split <;> split <;> (try split) <;> exact ⟨_, _, _, _, rfl⟩

lemma Kept.markRanges (h : Kept t next) (rs : List PacketRange) : Kept (t.markRanges rs).2 next := by
  have hspec := (markRanges_spec h.toInv rs).2
  exact ⟨hspec, markRanges_rests h.rests hspec.wf.sorted⟩

lemma Kept.noted (h : Kept t next) (ack : AckFrame) (ecn : SentPacketTracker.EcnAckValidation)
    (acked : AckResult) : Kept (t.noteEcn ack ecn acked).2.compactAcknowledgedPrefix next := by
  refine ⟨(h.toInv.noteEcn ack ecn acked).compact, compact_rests ?_⟩
  obtain ⟨-, _, _, _, hrest⟩ := noteEcn_effect t ack ecn acked
  rw [hrest]
  exact h.rests

lemma Kept.applyAckDetailed (h : Kept t next) (ack : AckFrame) :
    Kept (t.applyAckDetailed ack).2 next := by
  unfold IndexedTracker.applyAckDetailed
  split
  · exact h
  split
  · exact h
  split
  · exact h
  split
  · exact h
  dsimp only
  split
  · exact (h.markRanges _).noted _ _ _
  · exact h.noted _ _ _

lemma Kept.detectLoss (h : Kept t next) {beyond : SentPacket → Bool} (due : SentPacket → Bool)
    (hord : Ordered beyond t.packets) : Kept (t.detectLoss beyond due).2 next := by
  obtain ⟨hgiven, -, -, hspec⟩ := detectLoss_spec h.toInv due hord
  refine ⟨hspec, ?_⟩
  have hcur : (t.detectLoss beyond due).2.firstUnacknowledgedIndex
      = t.firstUnacknowledgedIndex := by
    unfold IndexedTracker.detectLoss
    split
    · rfl
    · dsimp only
      split <;> rfl
  intro p hp
  rw [hgiven, hcur, getElem?_map] at hp
  obtain ⟨q, hq, rfl⟩ := Option.map_eq_some_iff.mp hp
  have hrest := h.rests q hq
  unfold giveUp
  split <;> exact hrest

lemma Kept.step (h : Kept t next) (op : Op) (hop : op.sends = none) : Kept (step t op).2 next := by
  cases op with
  | sent sending indexed => cases hop
  | forget n =>
    show Kept (t.forget n).2 next
    rcases h.forget n with hnone | ⟨-, hkept, -⟩
    · rw [hnone]
      exact h
    · exact hkept
  | markAcknowledged n =>
    have hspec := (markAcknowledged_spec h.toInv n).2
    exact ⟨hspec, markAcknowledged_rests h.rests hspec.wf.sorted⟩
  | ack frame => exact h.applyAckDetailed frame
  | packetThresholdLoss largest threshold =>
    show Kept (t.detectPacketThresholdLoss largest threshold).2 next
    unfold detectPacketThresholdLoss
    split
    · exact h
    · exact h.detectLoss _ (ordered_above h.toInv _)
  | timeThresholdLoss nowNs lossDelayNs largest => exact h.detectLoss _ (ordered_time h.toInv largest)

end IndexedTracker

end Netz.Quic
