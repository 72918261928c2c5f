/-
The retransmission queue refines the queue of groups the connection is modelled with.

`view` forgets the indexes, the counters and the order of the copies' storage.  What the
connection asks of the queue, it then answers from the groups alone: the duplicate test
through the packet index is membership in a group, the group test is a search of the list,
and the lazy walk over an ACK agrees with the ranges decoded first.
-/
import Netz.Proofs.RecoveryQueue

open Netz.Lib Netz.Quic.Recovery.PendingDatagram List

namespace Netz.Quic.Recovery

open SentPacketTracker

/-- The group an entry stands for. -/
def PendingDatagram.view (entry : PendingDatagram) : Quic.PendingDatagram :=
  ⟨entry.groupId, entry.packetNumbers⟩

namespace Queue

variable {q : Queue}

def view (q : Queue) : RecoveryQueue := ⟨q.pending.map PendingDatagram.view, q.nextGroupId⟩

lemma view_pending_any (q : Queue) (f : Quic.PendingDatagram → Bool) :
    q.view.pending.any f = q.pending.any (fun entry => f entry.view) := by
  rw [view, any_map]
  rfl

lemma Sound.known_iff (h : Sound q) (packetNumber : Nat) :
    (q.packetIndex.get packetNumber).isSome
      = q.view.pending.any (fun g => packetNumber ∈ g.packetNumbers) := by
  rw [view_pending_any, Bool.eq_iff_iff, any_eq_true]
  cases hget : q.packetIndex.get packetNumber with
  | none =>
    refine iff_of_false (by simp) ?_
    rintro ⟨entry, hmem, hp⟩
    exact h.packets.get_eq_none.mp hget entry hmem (of_decide_eq_true hp)
  | some i =>
    obtain ⟨entry, hi, hp⟩ := h.owner hget
    exact iff_of_true rfl ⟨entry, mem_of_getElem? hi, decide_eq_true hp⟩

lemma Sound.view_trackSent (h : Sound q) (packetNumber : Nat) {payload : Bytes}
    (hpay : payload.length ≠ 0) :
    q.view.trackSent packetNumber = (q.trackSent packetNumber payload).1.map fun id =>
        (id, (q.trackSent packetNumber payload).2.view) := by
  have hknown := h.known_iff packetNumber
  unfold Queue.trackSent RecoveryQueue.trackSent
  rw [if_neg hpay, ← hknown]
  by_cases hdup : (q.packetIndex.get packetNumber).isSome = true
  · rw [if_pos hdup, if_pos hdup]
    rfl
  rw [if_neg hdup, if_neg hdup]
  have hnext : q.view.nextGroupId = q.nextGroupId := rfl
  rw [hnext]
  cases checkedAdd q.nextGroupId 1 with
  | none => rfl
  | some next => simp [Except.map, view, addEntryStats, PendingDatagram.view, packetNumbers]

lemma Sound.view_containsGroupId (h : Sound q) (groupId : Nat) :
    q.view.containsGroupId groupId = q.containsGroupId groupId := by
  unfold RecoveryQueue.containsGroupId Queue.containsGroupId
  rw [view_pending_any, Bool.eq_iff_iff, any_eq_true]
  cases hget : q.groupIndex.get groupId with
  | none =>
    refine iff_of_false ?_ (by simp)
    rintro ⟨entry, hmem, hg⟩
    refine h.groups.get_eq_none.mp hget entry hmem ?_
    rw [groupKey, mem_singleton]
    exact (beq_iff_eq.mp hg).symm
  | some i =>
    obtain ⟨entry, hi, hg⟩ := (h.groups groupId i).mp hget
    rw [groupKey, mem_singleton] at hg
    exact iff_of_true ⟨entry, mem_of_getElem? hi, beq_iff_eq.mpr hg.symm⟩ rfl

/-! ### The ranges of an ACK -/

/-- The checks made while walking the chain are those of decoding it. -/
theorem decodeMoreRanges_cases (ranges : List AckRange) : ∀ start : Nat,
    (rangeChainValid start ranges = false ∧
      decodeMoreRanges start ranges = .error .invalidAckFrame) ∨
    (rangeChainValid start ranges = true ∧
      ∃ decoded, decodeMoreRanges start ranges = .ok decoded ∧
        ∀ entry, entryAckedBelow entry start ranges =
          entry.packetNumbers.any (ackRangesContain decoded)) := by
  induction ranges with
  | nil =>
    intro start
    refine .inr ⟨rfl, [], rfl, fun entry => ?_⟩
    simp [entryAckedBelow, ackRangesContain]
  | cons range rest ih =>
    intro start
    unfold rangeChainValid decodeMoreRanges
    cases hskip : checkedAdd range.gap 2 with
    | none => exact .inl ⟨rfl, rfl⟩
    | some skipped =>
      have hsum : skipped = range.gap + 2 := by
        unfold checkedAdd at hskip
        split at hskip
        · exact (Option.some.inj hskip).symm
        · simp at hskip
      dsimp only
      by_cases hlow : start < skipped
      · simp [hlow]
      rw [if_neg hlow, if_neg hlow]
      by_cases hshort : start - skipped < range.ackRangeLength
      · simp [hshort]
      rw [if_neg hshort, if_neg hshort]
      rcases ih (start - skipped - range.ackRangeLength) with
        ⟨hbad, herr⟩ | ⟨hgood, decoded, hok, hacked⟩
      · simp [hbad, herr]
      rw [hgood, hok]
      refine .inr ⟨rfl, _, rfl, fun entry => ?_⟩
      rw [entryAckedBelow, ← hsum, hacked entry]
      unfold containsRange ackRangesContain
      rw [Bool.eq_iff_iff]
      simp only [any_cons, any_eq_true, Bool.if_true_left]
      grind

/-- **Applying an ACK to the queue is applying it to its groups.** -/
theorem view_applyAck (q : Queue) (ack : AckFrame) :
    q.view.applyAck ack = (q.applyAck ack).1.map fun _ => (q.applyAck ack).2.view := by
  unfold RecoveryQueue.applyAck Queue.applyAck decodeAckRanges
  by_cases hfirst : ack.largestAcknowledged < ack.firstAckRange
  · rw [if_pos hfirst, if_pos hfirst]
    rfl
  rw [if_neg hfirst, if_neg hfirst]
  rcases decodeMoreRanges_cases ack.ranges (ack.largestAcknowledged - ack.firstAckRange) with
    ⟨hbad, herr⟩ | ⟨hgood, decoded, hok, hacked⟩
  · rw [hbad, herr]
    rfl
  rw [hgood, hok]
  have hent : ∀ entry : PendingDatagram, entryAcked entry ack =
      entry.packetNumbers.any (ackRangesContain
        (⟨ack.largestAcknowledged - ack.firstAckRange, ack.largestAcknowledged⟩ :: decoded)) := by
    intro entry
    unfold entryAcked
    dsimp only
    rw [hacked entry]
    unfold containsRange ackRangesContain
    rw [Bool.eq_iff_iff]
    simp only [any_cons, any_eq_true, Bool.if_true_left]
    grind
  have hkept : ∀ l : List PendingDatagram, (l.map PendingDatagram.view).filter (fun g =>
        !g.packetNumbers.any (ackRangesContain
          (⟨ack.largestAcknowledged - ack.firstAckRange, ack.largestAcknowledged⟩
            :: decoded))) =
        (l.filter (fun entry => !entryAcked entry ack)).map PendingDatagram.view := by
    intro l
    rw [filter_map]
    congr 1
    apply filter_congr
    intro entry _
    rw [hent entry]
    rfl
  simp only [Except.map]
  unfold retainUnacknowledgedAck
  by_cases hnone : (q.pending.filter (fun entry => entryAcked entry ack)).length = 0
  · rw [if_pos hnone]
    have hall : q.pending.filter (fun entry => !entryAcked entry ack) = q.pending := by
      apply filter_eq_self.mpr
      intro entry hmem
      have hnot := filter_eq_nil_iff.mp (length_eq_zero_iff.mp hnone) entry hmem
      simpa using hnot
    simp [hkept, hall, view]
  · simp [hnone, removeStats_fold, hkept, view, rebuildIndexesAssumeCapacity]

end Queue

end Netz.Quic.Recovery

/-! ### When the newest packet number of an entry is the largest it still carries

The copies of an entry are a list from which one in the middle is removed by moving the last
into its place, while the newest number is only refreshed when the last one itself is
removed.  So the list order and the numeric order drift apart, and forgetting can leave a
newest number that is not the largest, or not carried at all.  `Clear` is exactly when a
call does not do this. -/

open Netz.Lib Netz.Quic.Recovery.PendingDatagram

namespace Netz.Quic.Recovery

namespace PendingDatagram

variable {entry new : PendingDatagram} {p : Nat}

/-- The newest packet number is the largest one the entry carries. -/
def NewestIsLargest (entry : PendingDatagram) : Prop :=
  entry.newestPacketNumber ∈ entry.packetNumbers ∧
    ∀ copy ∈ entry.packetNumbers, copy ≤ entry.newestPacketNumber

instance (entry : PendingDatagram) : Decidable (NewestIsLargest entry) :=
  inferInstanceAs (Decidable (_ ∧ _))

/-- The copy listed before the last one, or the original when there is none. -/
def runnerUp (entry : PendingDatagram) : Nat :=
  match entry.retransmissionPacketNumbers.dropLast.getLast? with
  | some copy => copy
  | none => entry.originalPacketNumber.getD entry.newestPacketNumber

/-- An entry that keeps its newest number while it loses another. -/
theorem newest_kept_iff (h : NewestIsLargest entry)
    (hperm : entry.packetNumbers.Perm (p :: new.packetNumbers)) (hnodup : entry.packetNumbers.Nodup)
    (hsame : new.newestPacketNumber = entry.newestPacketNumber) :
    NewestIsLargest new ↔ entry.newestPacketNumber ≠ p := by
  have hcons := nodup_cons.mp (hperm.nodup_iff.mp hnodup)
  constructor
  · rintro ⟨hmem, -⟩ heq
    rw [hsame, heq] at hmem
    exact hcons.1 hmem
  intro hne
  rw [NewestIsLargest, hsame]
  refine ⟨?_, fun copy hcopy => h.2 copy (hperm.symm.subset (mem_cons_of_mem p hcopy))⟩
  rcases mem_cons.mp (hperm.subset h.1) with heq | hmem
  · exact absurd heq hne
  · exact hmem

/-- An entry whose newest number becomes one of those it keeps. -/
theorem newest_moved_iff (hperm : entry.packetNumbers.Perm (p :: new.packetNumbers))
    (hnodup : entry.packetNumbers.Nodup) (hmem : new.newestPacketNumber ∈ new.packetNumbers) :
    NewestIsLargest new ↔
      ∀ copy ∈ entry.packetNumbers, copy ≠ p → copy ≤ new.newestPacketNumber := by
  have hcons := nodup_cons.mp (hperm.nodup_iff.mp hnodup)
  constructor
  · rintro ⟨-, hmax⟩ copy hcopy hne
    rcases mem_cons.mp (hperm.subset hcopy) with heq | hkept
    · exact absurd heq hne
    · exact hmax copy hkept
  intro hall
  refine ⟨hmem, fun copy hcopy => ?_⟩
  refine hall copy (hperm.symm.subset (mem_cons_of_mem p hcopy)) ?_
  intro heq
  exact hcons.1 (heq ▸ hcopy)

lemma forget_last {i : Nat} (hi : entry.retransmissionPacketNumbers[i]? = some p)
    (hlast : i = entry.retransmissionPacketNumbers.length - 1) (hmany : entry.packetCount ≠ 1) :
    (entry.forgetRetransmission i).newestPacketNumber = entry.runnerUp ∧
      (entry.forgetRetransmission i).newestPacketNumber
        ∈ (entry.forgetRetransmission i).packetNumbers := by
  have hlt := lt_of_getElem? hi
  have hforget : entry.forgetRetransmission i = ({ entry with retransmissionPacketNumbers :=
          entry.retransmissionPacketNumbers.dropLast } : PendingDatagram).refreshNewestPacketNumber := by
    simp [hlast, forgetRetransmission]
  rw [hforget]
  unfold refreshNewestPacketNumber runnerUp packetNumbers
  cases hpre : entry.retransmissionPacketNumbers.dropLast.getLast? with
  | some copy => exact ⟨rfl, List.mem_append_right _ (List.mem_of_getLast? hpre)⟩
  | none =>
    have hnil := List.getLast?_eq_none_iff.mp hpre
    have hlen : entry.retransmissionPacketNumbers.length = 1 := by
      have hdrop := congrArg List.length hnil
      rw [List.length_dropLast] at hdrop
      simp only [List.length_nil] at hdrop
      omega
    cases horig : entry.originalPacketNumber with
    | none => simp [packetCount, horig, hlen] at hmany
    | some packetNumber => exact ⟨rfl, by simp⟩

lemma forget_middle {i : Nat} (hlast : i ≠ entry.retransmissionPacketNumbers.length - 1) :
    (entry.forgetRetransmission i).newestPacketNumber = entry.newestPacketNumber := by
  unfold forgetRetransmission
  rw [if_neg hlast]
  split <;> rfl

end PendingDatagram

namespace Queue

variable {q : Queue}

/-- Every entry names its largest packet number as the newest. -/
def Newest (q : Queue) : Prop := ∀ entry ∈ q.pending, NewestIsLargest entry

instance (q : Queue) : Decidable (Newest q) :=
  inferInstanceAs (Decidable (∀ entry ∈ q.pending, NewestIsLargest entry))

/-- A call that leaves every newest number the largest: a new copy is larger than the others,
a forgotten last copy leaves the one listed before it as the largest, and a copy forgotten
from elsewhere is not the newest. -/
def Clear (q : Queue) : Op → Prop
  | .recordRetransmission groupIndex packetNumber =>
    ∀ entry, q.pending[groupIndex]? = some entry → q.packetIndex.get packetNumber = none →
      ∀ copy ∈ entry.packetNumbers, copy < packetNumber
  | .forgetPacketNumber packetNumber =>
    ∀ index entry, q.packetIndex.get packetNumber = some index →
      q.pending[index]? = some entry → entry.packetCount ≠ 1 →
      if entry.retransmissionPacketNumbers.getLast? = some packetNumber then
        ∀ copy ∈ entry.packetNumbers, copy ≠ packetNumber → copy ≤ entry.runnerUp
      else entry.newestPacketNumber ≠ packetNumber
  | _ => True

lemma newest_set_iff (hn : Newest q) {q' : Queue} {i : Nat} {old new : PendingDatagram}
    (hi : q.pending[i]? = some old) (hpend : q'.pending = q.pending.set i new) :
    Newest q' ↔ NewestIsLargest new := by
  have hlt : i < q.pending.length := lt_of_getElem? hi
  rw [Newest, hpend]
  constructor
  · intro hall
    exact hall new (mem_set hlt new)
  intro hnew entry hmem
  rcases mem_set_cases hmem with hold | heq
  · exact hn entry hold
  · rw [heq]
    exact hnew

lemma Newest.sublist (hn : Newest q) {q' : Queue} (hsub : q'.pending.Sublist q.pending) :
    Newest q' := fun entry hmem => hn entry (hsub.subset hmem)

lemma removeGroupOrdered_sublist (q : Queue) (i : Nat) (entry : PendingDatagram) :
    (q.removeGroupOrdered i entry).pending.Sublist q.pending := by
  have hpend : (q.removeGroupOrdered i entry).pending = q.pending.eraseIdx i := by
    unfold removeGroupOrdered
    dsimp only
    split <;> rfl
  rw [hpend]
  exact eraseIdx_sublist _ _

/-! ### One call -/

lemma newest_track (hn : Newest q) (packetNumber : Nat) (payload : Bytes) :
    Newest (q.trackSent packetNumber payload).2 := by
  unfold Queue.trackSent
  split
  · exact hn
  split
  · exact hn
  split
  · exact hn
  intro entry hmem
  rcases mem_append.mp hmem with hold | hlast
  · exact hn entry hold
  · rw [mem_singleton.mp hlast]
    exact ⟨mem_singleton_self _, fun copy hcopy => Nat.le_of_eq (mem_singleton.mp hcopy)⟩

lemma newest_record_iff (hs : Sound q) (hn : Newest q) (groupIndex packetNumber : Nat) :
    Newest (q.recordRetransmission groupIndex packetNumber).2 ↔
      Clear q (.recordRetransmission groupIndex packetNumber) := by
  unfold Queue.recordRetransmission
  cases hi : q.pending[groupIndex]? with
  | none => exact iff_of_true hn (fun entry hent => by simp [hi] at hent)
  | some old =>
    dsimp only
    by_cases hknown : (q.packetIndex.get packetNumber).isSome = true
    · rw [if_pos hknown]
      refine iff_of_true hn (fun entry _ hnone => ?_)
      simp [hnone] at hknown
    rw [if_neg hknown]
    have hnew : q.packetIndex.get packetNumber = none := by simpa using hknown
    have hfresh := hs.packets.get_eq_none.mp hnew old (mem_of_getElem? hi)
    rw [newest_set_iff hn hi rfl]
    have hnums : ({ old with
        retransmissionPacketNumbers := old.retransmissionPacketNumbers ++ [packetNumber]
        newestPacketNumber := packetNumber } : PendingDatagram).packetNumbers
          = old.packetNumbers ++ [packetNumber] := by
      rw [packetNumbers, packetNumbers, append_assoc]
    rw [NewestIsLargest, hnums]
    constructor
    · rintro ⟨-, hmax⟩ entry hent _ copy hcopy
      rw [hi, Option.some.injEq] at hent
      rw [← hent] at hcopy
      have hle := hmax copy (mem_append_left _ hcopy)
      exact Nat.lt_of_le_of_ne hle (fun heq => hfresh (heq ▸ hcopy))
    intro hclear
    refine ⟨by simp, fun copy hcopy => ?_⟩
    rcases mem_append.mp hcopy with hold | hlast
    · exact Nat.le_of_lt (hclear old hi hnew copy hold)
    · exact Nat.le_of_eq (mem_singleton.mp hlast)

/-- A number found once sits at the end of the list exactly when it is the last element. -/
theorem last_iff {l : List Nat} {i p : Nat} (hnodup : l.Nodup) (hi : l[i]? = some p) :
    i = l.length - 1 ↔ l.getLast? = some p := by
  rw [List.getLast?_eq_getElem?]
  constructor
  · intro heq
    rw [← heq]
    exact hi
  intro hlast
  obtain ⟨hlt, hat⟩ := List.getElem_of_getElem? hi
  obtain ⟨hlt', hat'⟩ := List.getElem_of_getElem? hlast
  exact (List.Nodup.getElem_inj_iff hnodup).mp (hat.trans hat'.symm)

lemma newest_forget_iff (hs : Sound q) (hn : Newest q) (p : Nat) :
    Newest (q.forgetPacketNumber p).2 ↔ Clear q (.forgetPacketNumber p) := by
  have hforgets := hs.forgets p
  generalize q.forgetPacketNumber p = outcome at hforgets ⊢
  obtain ⟨found, q'⟩ := outcome
  cases hforgets with
  | unknown hget => exact iff_of_true hn (fun index entry h => by simp [hget] at h)
  | group i entry hget hi hone =>
    refine iff_of_true (hn.sublist (removeGroupOrdered_sublist q i entry)) ?_
    intro index other hidx hother hmany
    rw [hget, Option.some.injEq] at hidx
    rw [← hidx, hi, Option.some.injEq] at hother
    rw [← hother] at hmany
    exact absurd hone hmany
  | copy i old new hget hi hmany hperm hnew _ hpend hsound =>
    have hmem := mem_of_getElem? hi
    have hnodup : old.packetNumbers.Nodup := (nodup_flatMap.mp hs.distinct).1 old hmem
    have hclear : Clear q (.forgetPacketNumber p) ↔
        if old.retransmissionPacketNumbers.getLast? = some p then
          ∀ copy ∈ old.packetNumbers, copy ≠ p → copy ≤ old.runnerUp
        else old.newestPacketNumber ≠ p := by
      constructor
      · intro h
        exact h i old hget hi hmany
      intro h index entry hidx hent _
      rw [hget, Option.some.injEq] at hidx
      rw [← hidx, hi, Option.some.injEq] at hent
      rw [← hent]
      exact h
    rw [newest_set_iff hn hi hpend, hclear]
    have hretrans : old.retransmissionPacketNumbers.Nodup :=
      hnodup.sublist (sublist_append_right _ _)
    rcases hnew with ⟨horig, hnew⟩ | ⟨copy, hat, hnew⟩
    · have hnot : ¬ old.retransmissionPacketNumbers.getLast? = some p := by
        intro hlast
        rw [packetNumbers, horig] at hnodup
        exact (nodup_cons.mp hnodup).1 (mem_of_getLast? hlast)
      rw [if_neg hnot]
      exact newest_kept_iff (hn old hmem) hperm hnodup (by rw [hnew])
    by_cases hlast : copy = old.retransmissionPacketNumbers.length - 1
    · obtain ⟨hmoved, hcarried⟩ := forget_last hat hlast hmany
      rw [← hnew] at hmoved hcarried
      rw [if_pos ((last_iff hretrans hat).mp hlast), ← hmoved]
      exact newest_moved_iff hperm hnodup hcarried
    · rw [if_neg (fun h => hlast ((last_iff hretrans hat).mpr h))]
      exact newest_kept_iff (hn old hmem) hperm hnodup (by rw [hnew]; exact forget_middle hlast)

/-- **A call keeps every newest number the largest exactly when it is clear.** -/
theorem newest_step_iff (hs : Sound q) (hn : Newest q) (op : Op) :
    Newest (q.step op).2 ↔ Clear q op := by
  cases op with
  | trackSent packetNumber payload => exact iff_of_true (newest_track hn packetNumber payload) trivial
  | recordRetransmission groupIndex packetNumber =>
    exact newest_record_iff hs hn groupIndex packetNumber
  | forgetPacketNumber packetNumber => exact newest_forget_iff hs hn packetNumber
  | acknowledgePacketNumber packetNumber =>
    refine iff_of_true ?_ trivial
    show Newest (q.acknowledgePacketNumber packetNumber).2
    unfold Queue.acknowledgePacketNumber
    split
    · exact hn
    split
    · exact hn
    · exact hn.sublist (removeGroupOrdered_sublist _ _ _)
  | applyAck ack =>
    refine iff_of_true ?_ trivial
    show Newest (q.applyAck ack).2
    rcases applyAck_pending q ack with hsame | hkept
    · rw [hsame]
      exact hn
    rw [hkept]
    unfold retainUnacknowledgedAck
    dsimp only
    rw [removeStats_fold]
    have hsub : (q.pending.filter (fun entry => !entryAcked entry ack)).Sublist q.pending :=
      filter_sublist
    split
    · exact hn
    · exact hn.sublist hsub

/-! ### Over a run -/

lemma newest_run_iff (ops : List Op) : ∀ {q : Queue}, Sound q → Newest q →
    ((∀ e ∈ trace step q ops, Newest e.post) ↔ ∀ e ∈ trace step q ops, Clear e.pre e.input) := by
  induction ops with
  | nil => intro q _ _; simp
  | cons op rest ih =>
    intro q hs hn
    have hfirst := newest_step_iff hs hn op
    rw [trace_cons, forall_mem_cons, forall_mem_cons]
    constructor
    · rintro ⟨hpost, hrest⟩
      exact ⟨hfirst.mp hpost, (ih (hs.step op) hpost).mp hrest⟩
    rintro ⟨hclear, hrest⟩
    have hpost := hfirst.mpr hclear
    exact ⟨hpost, (ih (hs.step op) hpost).mpr hrest⟩

/-- **After every run the indexes read exactly the copies carried and the counters are the sums
over the entries; the newest numbers are the largest all along exactly when every call was
clear.** -/
theorem queue_consistent_and_newest_iff (ops : List Op) :
    (∀ p i, (exec step {} ops).packetIndex.get p = some i ↔
        ∃ entry, (exec step {} ops).pending[i]? = some entry ∧ p ∈ entry.packetNumbers) ∧
      (∀ g i, (exec step {} ops).groupIndex.get g = some i ↔
        ∃ entry, (exec step {} ops).pending[i]? = some entry ∧ entry.groupId = g) ∧
      (exec step {} ops).packetNumberCopies = ((exec step {} ops).pending.map (·.packetCount)).sum ∧
      (exec step {} ops).retransmissionCopies
        = ((exec step {} ops).pending.map (·.retransmissionPacketNumbers.length)).sum ∧
      (exec step {} ops).payloadBytes = ((exec step {} ops).pending.map (·.payload.length)).sum ∧
      ((∀ e ∈ trace step {} ops, Newest e.post) ↔
        ∀ e ∈ trace step {} ops, Clear e.pre e.input) := by
  have h := reachable_sound ops
  refine ⟨h.packets, ?_, h.copies, h.retransmissions, h.bytes,
    newest_run_iff ops initial_sound (by intro entry hmem; simp at hmem)⟩
  intro g i
  rw [h.groups g i]
  simp only [groupKey, mem_singleton, eq_comm]

/-- Four copies of one payload, of which the second and then the newest are forgotten. -/
def forgetting : List Op :=
  [.trackSent 1 [7], .recordRetransmission 0 2, .recordRetransmission 0 3,
    .recordRetransmission 0 4, .forgetPacketNumber 2, .forgetPacketNumber 4]

theorem forgotten_number_stays_newest :
    (exec step {} forgetting).pending.map
        (fun entry => (entry.packetNumbers, entry.newestPacketNumber)) = [([1, 3], 4)] ∧
      ¬ Newest (exec step {} forgetting) := by decide

end Queue

end Netz.Quic.Recovery
