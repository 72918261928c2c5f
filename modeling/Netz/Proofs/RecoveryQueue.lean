/-
The indexes and counters of the retransmission queue.

`Sound` says what the queue keeps besides its entries: every packet number is carried once,
both indexes read a number or a group as the position of its entry, and the counters are the
sums over the entries.  Every call keeps it, whatever the order of the calls: a forgotten
copy is one packet number less in one entry, and an acknowledged group is erased with the
later ones moved up.
-/
import Mathlib.Data.List.Perm.Lattice
import Netz.Lib.Machine
import Netz.Quic.RecoveryQueue

open Netz.Lib Netz.Quic.Recovery.PendingDatagram List

namespace Netz.Quic.Recovery

namespace PendingDatagram

variable {entry : PendingDatagram}

lemma packetCount_eq (entry : PendingDatagram) :
    entry.packetCount = entry.packetNumbers.length := by
  unfold packetCount packetNumbers
  rw [length_append]
  cases entry.originalPacketNumber with
  | none | some => rfl

@[simp] lemma refresh_frame (entry : PendingDatagram) :
    entry.refreshNewestPacketNumber.groupId = entry.groupId ∧
      entry.refreshNewestPacketNumber.payload = entry.payload ∧
      entry.refreshNewestPacketNumber.retransmissionPacketNumbers
        = entry.retransmissionPacketNumbers ∧
      entry.refreshNewestPacketNumber.originalPacketNumber = entry.originalPacketNumber := by
  unfold refreshNewestPacketNumber
  split
  · exact ⟨rfl, rfl, rfl, rfl⟩
  · split <;> exact ⟨rfl, rfl, rfl, rfl⟩

end PendingDatagram

lemma swapRemove_perm {l : List Nat} {i p last : Nat} (hi : l[i]? = some p)
    (hlast : l.getLast? = some last) (hne : i ≠ l.length - 1) :
    l.Perm (p :: l.dropLast.set i last) := by
  have hlen : i < l.length := lt_of_getElem? hi
  have hget : l.dropLast[i]? = some p := by
    rw [getElem?_dropLast, if_pos (by omega)]
    exact hi
  have hset := filterMap_set_perm hget last some
  rw [filterMap_some, filterMap_some] at hset
  have hsplit : l = l.dropLast ++ [last] := (dropLast_append_getLast? last hlast).symm
  have hrotate : l.Perm (last :: l.dropLast) := by
    conv_lhs => rw [hsplit]
    exact perm_append_singleton last l.dropLast
  exact hrotate.trans hset.symm

namespace PendingDatagram

variable {entry : PendingDatagram}

lemma forgetRetransmission_frame (entry : PendingDatagram) (i : Nat) :
    (entry.forgetRetransmission i).groupId = entry.groupId ∧
      (entry.forgetRetransmission i).payload = entry.payload ∧
      (entry.forgetRetransmission i).originalPacketNumber = entry.originalPacketNumber := by
  unfold forgetRetransmission
  dsimp only
  split
  · simp
  · split <;> exact ⟨rfl, rfl, rfl⟩

lemma retransmissions_perm {i p : Nat} (hi : entry.retransmissionPacketNumbers[i]? = some p) :
    entry.retransmissionPacketNumbers.Perm
      (p :: (entry.forgetRetransmission i).retransmissionPacketNumbers) := by
  have hlt := lt_of_getElem? hi
  unfold forgetRetransmission
  by_cases hend : i = entry.retransmissionPacketNumbers.length - 1
  · rw [if_pos hend, (refresh_frame _).2.2.1]
    have hlast : entry.retransmissionPacketNumbers.getLast? = some p := by
      rw [List.getLast?_eq_getElem?, ← hend]
      exact hi
    have hsplit := List.dropLast_append_getLast? p hlast
    conv_lhs => rw [← hsplit]
    exact List.perm_append_singleton p _
  rw [if_neg hend]
  cases hlast : entry.retransmissionPacketNumbers.getLast? with
  | none => simp [List.getLast?_eq_none_iff.mp hlast] at hlt
  | some last => exact swapRemove_perm hi hlast hend

lemma packetNumbers_perm {i p : Nat} (hi : entry.retransmissionPacketNumbers[i]? = some p) :
    entry.packetNumbers.Perm (p :: (entry.forgetRetransmission i).packetNumbers) := by
  have hperm := retransmissions_perm hi
  have horig := (forgetRetransmission_frame entry i).2.2
  unfold packetNumbers
  rw [horig]
  refine (hperm.append_left _).trans ?_
  exact perm_middle

end PendingDatagram

/-! ### What the queue keeps -/

namespace Queue

def groupKey (entry : PendingDatagram) : List Nat := [entry.groupId]

structure Sound (q : Queue) : Prop where
  packets : Positions packetNumbers q.pending q.packetIndex
  groups : Positions groupKey q.pending q.groupIndex
  distinct : (q.pending.flatMap packetNumbers).Nodup
  groupIds : (q.pending.flatMap groupKey).Nodup
  fresh : ∀ entry ∈ q.pending, entry.groupId < q.nextGroupId
  live : ∀ entry ∈ q.pending, entry.packetNumbers ≠ []
  copies : q.packetNumberCopies = (q.pending.map (·.packetCount)).sum
  retransmissions :
    q.retransmissionCopies = (q.pending.map (·.retransmissionPacketNumbers.length)).sum
  bytes : q.payloadBytes = (q.pending.map (·.payload.length)).sum

lemma initial_sound : Sound {} where
  packets := Positions.empty
  groups := Positions.empty
  distinct := nodup_nil
  groupIds := nodup_nil
  fresh := by simp
  live := by simp
  copies := rfl
  retransmissions := rfl
  bytes := rfl

variable {q : Queue}

variable {p i : Nat} {l : List PendingDatagram} {old new : PendingDatagram} {t : Table Nat Nat}

lemma Sound.owner (h : Sound q) (hget : q.packetIndex.get p = some i) :
    ∃ entry, q.pending[i]? = some entry ∧ p ∈ entry.packetNumbers := (h.packets p i).mp hget

/-! ### Sums over the entries -/

lemma set_perm (hi : l[i]? = some old) (new : PendingDatagram) :
    (old :: l.set i new).Perm (new :: l) := by
  have hperm := filterMap_set_perm hi new some
  rw [filterMap_some, filterMap_some] at hperm
  exact hperm

lemma erase_perm (hi : l[i]? = some old) : (old :: l.eraseIdx i).Perm l := by
  obtain ⟨hlt, hold⟩ := List.getElem_of_getElem? hi
  rw [← hold]
  exact List.getElem_cons_eraseIdx_perm hlt

lemma sum_set (f : PendingDatagram → Nat) (hi : l[i]? = some old) (new : PendingDatagram) :
    f old + ((l.set i new).map f).sum = f new + (l.map f).sum := by
  have hsum := ((set_perm hi new).map f).sum_eq
  simpa using hsum

lemma sum_erase (f : PendingDatagram → Nat) (hi : l[i]? = some old) :
    f old + ((l.eraseIdx i).map f).sum = (l.map f).sum := by
  have hsum := ((erase_perm hi).map f).sum_eq
  simpa using hsum

lemma sum_filter (f : PendingDatagram → Nat) (p : PendingDatagram → Bool)
    (l : List PendingDatagram) :
    ((l.filter p).map f).sum + ((l.filter (fun entry => !p entry)).map f).sum = (l.map f).sum := by
  have hsum := ((filter_append_perm p l).map f).sum_eq
  simpa using hsum

/-! ### Sending and resending -/

lemma Sound.trackSent (h : Sound q) (packetNumber : Nat) (payload : Bytes) :
    Sound (q.trackSent packetNumber payload).2 := by
  unfold Queue.trackSent
  by_cases hempty : payload.length = 0
  · simp [hempty, h]
  rw [if_neg hempty]
  by_cases hknown : (q.packetIndex.get packetNumber).isSome = true
  · simp [hknown, h]
  rw [if_neg hknown]
  have hnew : q.packetIndex.get packetNumber = none := by
    simpa using hknown
  cases hnext : checkedAdd q.nextGroupId 1 with
  | none => exact h
  | some next =>
    have hsucc : next = q.nextGroupId + 1 := by
      unfold checkedAdd at hnext
      split at hnext
      · exact (Option.some.inj hnext).symm
      · simp at hnext
    have hgroup : q.groupIndex.get q.nextGroupId = none := by
      rw [h.groups.get_eq_none]
      intro entry hmem hk
      have hlt := h.fresh entry hmem
      rw [groupKey, mem_singleton] at hk
      omega
    unfold addEntryStats
    refine ⟨h.packets.append rfl hnew, h.groups.append rfl hgroup, ?_, ?_, ?_, ?_, ?_, ?_, ?_⟩
    · dsimp only
      rw [flatMap_append]
      refine nodup_append.mpr ⟨h.distinct, nodup_singleton _, ?_⟩
      intro a ha b hb hab
      have hb' : b = packetNumber := mem_singleton.mp hb
      obtain ⟨entry, hmem, hk⟩ := mem_flatMap.mp ha
      refine h.packets.get_eq_none.mp hnew entry hmem ?_
      simp [← hb', ← hab, hk]
    · dsimp only
      rw [flatMap_append]
      refine nodup_append.mpr ⟨h.groupIds, nodup_singleton _, ?_⟩
      intro a ha b hb hab
      have hb' : b = q.nextGroupId := mem_singleton.mp hb
      obtain ⟨entry, hmem, hk⟩ := mem_flatMap.mp ha
      refine h.groups.get_eq_none.mp hgroup entry hmem ?_
      simp [← hb', ← hab, hk]
    · intro entry hmem
      rcases mem_append.mp hmem with hold | hlast
      · have hlt := h.fresh entry hold
        dsimp only
        omega
      rw [mem_singleton.mp hlast]
      dsimp only
      omega
    · intro entry hmem
      rcases mem_append.mp hmem with hold | hlast
      · exact h.live entry hold
      · simp [mem_singleton.mp hlast, packetNumbers]
    · simp [h.copies]
    · simp [h.retransmissions]
    · simp [h.bytes]

lemma flatMap_insert (hi : l[i]? = some old)
    (hperm : new.packetNumbers.Perm (p :: old.packetNumbers)) :
    ((l.set i new).flatMap packetNumbers).Perm (p :: l.flatMap packetNumbers) := by
  have hflat := (set_perm hi new).flatMap_right packetNumbers
  have hstep : (old.packetNumbers ++ (l.set i new).flatMap packetNumbers).Perm
      (old.packetNumbers ++ (p :: l.flatMap packetNumbers)) :=
    hflat.trans ((hperm.append_right _).trans perm_middle.symm)
  exact (perm_append_left_iff _).mp hstep

lemma flatMap_remove (hi : l[i]? = some old)
    (hperm : old.packetNumbers.Perm (p :: new.packetNumbers)) :
    (l.flatMap packetNumbers).Perm (p :: (l.set i new).flatMap packetNumbers) := by
  have hflat := (set_perm hi new).flatMap_right packetNumbers
  have hstep : (new.packetNumbers ++ l.flatMap packetNumbers).Perm
      (new.packetNumbers ++ (p :: (l.set i new).flatMap packetNumbers)) :=
    hflat.symm.trans ((hperm.append_right _).trans perm_middle.symm)
  exact (perm_append_left_iff _).mp hstep

lemma flatMap_groupKey_set (hi : l[i]? = some old) (hgroup : new.groupId = old.groupId) :
    ((l.set i new).flatMap groupKey).Perm (l.flatMap groupKey) := by
  have hflat := (set_perm hi new).flatMap_right groupKey
  have hsame : groupKey new = groupKey old := by rw [groupKey, groupKey, hgroup]
  rw [flatMap_cons, flatMap_cons, hsame] at hflat
  exact (perm_append_left_iff _).mp hflat

lemma groups_set (h : Positions groupKey l t) (hi : l[i]? = some old)
    (hgroup : new.groupId = old.groupId) : Positions groupKey (l.set i new) t := by
  have hlt : i < l.length := lt_of_getElem? hi
  have hsame : groupKey new = groupKey old := by rw [groupKey, groupKey, hgroup]
  intro k n
  rw [h k n, getElem?_set]
  by_cases hn : i = n
  · subst hn
    rw [if_pos hlt, hi]
    simp [hsame]
  · rw [if_neg hn]

variable {entry : PendingDatagram}

lemma mem_set_cases (hmem : entry ∈ l.set i new) :
    entry ∈ l ∨ entry = new := mem_or_eq_of_mem_set hmem

lemma Sound.recordRetransmission (h : Sound q) (groupIndex packetNumber : Nat) :
    Sound (q.recordRetransmission groupIndex packetNumber).2 := by
  unfold Queue.recordRetransmission
  cases hi : q.pending[groupIndex]? with
  | none => exact h
  | some old =>
    dsimp only
    by_cases hknown : (q.packetIndex.get packetNumber).isSome = true
    · simp [hknown, h]
    rw [if_neg hknown]
    have hnew : q.packetIndex.get packetNumber = none := by simpa using hknown
    obtain ⟨new, hdef⟩ : ∃ new : PendingDatagram, new = { old with
          retransmissionPacketNumbers := old.retransmissionPacketNumbers ++ [packetNumber]
          newestPacketNumber := packetNumber } := ⟨_, rfl⟩
    rw [← hdef]
    have hnums : new.packetNumbers = old.packetNumbers ++ [packetNumber] := by
      rw [hdef, packetNumbers, packetNumbers, append_assoc]
    have hperm : new.packetNumbers.Perm (packetNumber :: old.packetNumbers) := by simp [hnums]
    have hgroup : new.groupId = old.groupId := by rw [hdef]
    have hcount : new.packetCount = old.packetCount + 1 := by simp [packetCount_eq, hnums]
    have hretrans : new.retransmissionPacketNumbers.length
        = old.retransmissionPacketNumbers.length + 1 := by
      rw [hdef]
      simp
    have hpay : new.payload = old.payload := by rw [hdef]
    refine ⟨h.packets.insertKey hi ?_ hnew, groups_set h.groups hi hgroup, ?_,
      (flatMap_groupKey_set hi hgroup).nodup_iff.mpr h.groupIds, ?_, ?_, ?_, ?_, ?_⟩
    · simp [hnums]
    · rw [(flatMap_insert hi hperm).nodup_iff, nodup_cons]
      refine ⟨fun hmem => ?_, h.distinct⟩
      obtain ⟨entry, hent, hk⟩ := mem_flatMap.mp hmem
      exact h.packets.get_eq_none.mp hnew entry hent hk
    · intro entry hmem
      rcases mem_set_cases hmem with hold | heq
      · exact h.fresh entry hold
      · rw [heq, hgroup]
        exact h.fresh old (mem_of_getElem? hi)
    · intro entry hmem
      rcases mem_set_cases hmem with hold | heq
      · exact h.live entry hold
      · simp [heq, hnums]
    · have hsum := sum_set (·.packetCount) hi new
      have hpre := h.copies
      dsimp only
      omega
    · have hsum := sum_set (·.retransmissionPacketNumbers.length) hi new
      have hpre := h.retransmissions
      dsimp only
      omega
    have hsum := sum_set (·.payload.length) hi new
    have hpre := h.bytes
    rw [hpay] at hsum
    dsimp only
    omega

/-! ### Dropping a group -/

lemma refreshFrom_end {keys : PendingDatagram → List Nat} (hi : l.length ≤ i) :
    refreshFrom keys l t i = t := by
  have hnone : l.length - i = 0 := by omega
  rw [refreshFrom, hnone]
  rfl

lemma Sound.removeGroupOrdered (h : Sound q)
    (hi : q.pending[i]? = some entry) : Sound (q.removeGroupOrdered i entry) := by
  have hsub : (q.pending.eraseIdx i).Sublist q.pending := eraseIdx_sublist _ _
  have hres : q.removeGroupOrdered i entry =
      { pending := q.pending.eraseIdx i
        groupIndex := refreshFrom groupKey (q.pending.eraseIdx i)
          (q.groupIndex.removeKeys (groupKey entry)) i
        packetIndex := refreshFrom packetNumbers (q.pending.eraseIdx i)
          (q.packetIndex.removeKeys entry.packetNumbers) i
        packetNumberCopies := q.packetNumberCopies - entry.packetCount
        retransmissionCopies :=
          q.retransmissionCopies - entry.retransmissionPacketNumbers.length
        payloadBytes := q.payloadBytes - entry.payload.length
        nextGroupId := q.nextGroupId } := by
    unfold Queue.removeGroupOrdered removeEntryIndexes removeEntryStats refreshIndexesFrom
    by_cases hlt : i < (q.pending.eraseIdx i).length
    · rw [if_pos hlt]
      rfl
    · rw [if_neg hlt, refreshFrom_end (not_lt.mp hlt), refreshFrom_end (not_lt.mp hlt)]
      rfl
  rw [hres]
  refine ⟨h.packets.erase hi, h.groups.erase hi, h.distinct.sublist (hsub.flatMap _),
    h.groupIds.sublist (hsub.flatMap _), fun e he => h.fresh e (hsub.subset he),
    fun e he => h.live e (hsub.subset he), ?_, ?_, ?_⟩
  · have hsum := sum_erase (·.packetCount) hi
    have hpre := h.copies
    dsimp only
    omega
  · have hsum := sum_erase (·.retransmissionPacketNumbers.length) hi
    have hpre := h.retransmissions
    dsimp only
    omega
  have hsum := sum_erase (·.payload.length) hi
  have hpre := h.bytes
  dsimp only
  omega

lemma Sound.acknowledgePacketNumber (h : Sound q) (packetNumber : Nat) :
    Sound (q.acknowledgePacketNumber packetNumber).2 := by
  unfold Queue.acknowledgePacketNumber
  cases hget : q.packetIndex.get packetNumber with
  | none => exact h
  | some i =>
    dsimp only
    cases hi : q.pending[i]? with
    | none => exact h
    | some entry => exact h.removeGroupOrdered hi

/-! ### Forgetting one copy -/

lemma Sound.forgetCopy (h : Sound q) (hi : q.pending[i]? = some old)
    (hperm : old.packetNumbers.Perm (p :: new.packetNumbers)) (hlive : new.packetNumbers ≠ [])
    (hgroup : new.groupId = old.groupId) (hpay : new.payload = old.payload)
    {retransmissions : Nat} (hretrans : retransmissions + old.retransmissionPacketNumbers.length
      = q.retransmissionCopies + new.retransmissionPacketNumbers.length) :
    Sound { q with
      pending := q.pending.set i new
      packetIndex := q.packetIndex.remove p
      packetNumberCopies := q.packetNumberCopies - 1
      retransmissionCopies := retransmissions } := by
  have hmem := mem_of_getElem? hi
  have hself : old.packetNumbers.Nodup := (nodup_flatMap.mp h.distinct).1 old hmem
  have hcons : (p :: new.packetNumbers).Nodup := hperm.nodup_iff.mp hself
  have hflat := flatMap_remove hi hperm
  have hall : (p :: (q.pending.set i new).flatMap packetNumbers).Nodup :=
    hflat.nodup_iff.mp h.distinct
  have hcount : old.packetCount = new.packetCount + 1 := by
    rw [packetCount_eq, packetCount_eq, hperm.length_eq, length_cons]
  refine ⟨h.packets.removeKey hi (hperm.symm.subset mem_cons_self) ?_,
    groups_set h.groups hi hgroup, (nodup_cons.mp hall).2,
    (flatMap_groupKey_set hi hgroup).nodup_iff.mpr h.groupIds, ?_, ?_, ?_, ?_, ?_⟩
  · intro j
    rw [hperm.mem_iff, mem_cons]
    constructor
    · intro hj
      exact ⟨.inr hj, fun heq => (nodup_cons.mp hcons).1 (heq ▸ hj)⟩
    rintro ⟨heq | hj, hne⟩
    · exact absurd heq hne
    · exact hj
  · intro entry hent
    rcases mem_set_cases hent with hold | heq
    · exact h.fresh entry hold
    · rw [heq, hgroup]
      exact h.fresh old hmem
  · intro entry hent
    rcases mem_set_cases hent with hold | heq
    · exact h.live entry hold
    · rw [heq]
      exact hlive
  · have hsum := sum_set (·.packetCount) hi new
    have hpre := h.copies
    dsimp only
    omega
  · have hsum := sum_set (·.retransmissionPacketNumbers.length) hi new
    have hpre := h.retransmissions
    dsimp only
    omega
  have hsum := sum_set (·.payload.length) hi new
  have hpre := h.bytes
  rw [hpay] at hsum
  dsimp only
  omega

/-- What forgetting a packet number can do to the queue. -/
inductive Forgets (q : Queue) (p : Nat) : Bool → Queue → Prop
  | unknown (hget : q.packetIndex.get p = none) : Forgets q p false q
  | group (i : Nat) (entry : PendingDatagram) (hget : q.packetIndex.get p = some i)
      (hi : q.pending[i]? = some entry) (hone : entry.packetCount = 1) :
      Forgets q p true (q.removeGroupOrdered i entry)
  | copy (i : Nat) (old new : PendingDatagram) (hget : q.packetIndex.get p = some i)
      (hi : q.pending[i]? = some old) (hmany : old.packetCount ≠ 1)
      (hperm : old.packetNumbers.Perm (p :: new.packetNumbers))
      (hnew : (old.originalPacketNumber = some p ∧ new = { old with originalPacketNumber := none }) ∨
        ∃ copy, old.retransmissionPacketNumbers[copy]? = some p ∧
          new = old.forgetRetransmission copy)
      (q' : Queue) (hpending : q'.pending = q.pending.set i new) (hsound : Sound q') :
      Forgets q p true q'

/-- **A tracked packet number is always found in its entry, so the unreachable branch is.** -/
theorem Sound.forgets (h : Sound q) (p : Nat) :
    Forgets q p (q.forgetPacketNumber p).1 (q.forgetPacketNumber p).2 := by
  unfold Queue.forgetPacketNumber
  cases hget : q.packetIndex.get p with
  | none => exact .unknown hget
  | some i =>
    obtain ⟨entry, hi, hp⟩ := h.owner hget
    dsimp only
    rw [hi]
    dsimp only
    by_cases hone : entry.packetCount = 1
    · rw [if_pos hone]
      exact .group i entry hget hi hone
    rw [if_neg hone]
    have hmany : ∀ new : PendingDatagram, entry.packetNumbers.Perm (p :: new.packetNumbers) →
        new.packetNumbers ≠ [] := by
      intro new hperm hnil
      simp [hnil, packetCount_eq, hperm.length_eq] at hone
    by_cases horig : entry.originalPacketNumber = some p
    · rw [if_pos horig]
      have hperm : entry.packetNumbers.Perm
          (p :: { entry with originalPacketNumber := none }.packetNumbers) := by
        simp [packetNumbers, horig]
      exact .copy i entry _ hget hi hone hperm (.inl ⟨horig, rfl⟩) _ rfl
        (h.forgetCopy hi hperm (hmany _ hperm) rfl rfl rfl)
    rw [if_neg horig]
    have hretrans : p ∈ entry.retransmissionPacketNumbers := by
      rcases mem_append.mp hp with hfirst | hlater
      · exact absurd (Option.mem_toList.mp hfirst) horig
      · exact hlater
    cases hcopy : entry.retransmissionPacketNumbers.findIdx? (· == p) with
    | none =>
      have hno := findIdx?_eq_none_iff.mp hcopy p hretrans
      simp at hno
    | some copy =>
      obtain ⟨hlt, hfound, -⟩ := findIdx?_eq_some_iff_getElem.mp hcopy
      have hat : entry.retransmissionPacketNumbers[copy]? = some p := by
        rw [getElem?_eq_getElem hlt]
        exact congrArg some (beq_iff_eq.mp hfound)
      have hperm := packetNumbers_perm hat
      obtain ⟨hgroup, hpay, -⟩ := forgetRetransmission_frame entry copy
      have hlen := (retransmissions_perm hat).length_eq
      rw [length_cons] at hlen
      have hcov : entry.retransmissionPacketNumbers.length
          ≤ q.retransmissionCopies := by
        simp [h.retransmissions, ← sum_erase (·.retransmissionPacketNumbers.length) hi]
      exact .copy i entry _ hget hi hone hperm (.inr ⟨copy, hat, rfl⟩) _ rfl
        (h.forgetCopy hi hperm (hmany _ hperm) hgroup hpay (by omega))

lemma Sound.forgetPacketNumber (h : Sound q) (p : Nat) : Sound (q.forgetPacketNumber p).2 := by
  have hforgets := h.forgets p
  generalize q.forgetPacketNumber p = outcome at hforgets ⊢
  obtain ⟨found, q'⟩ := outcome
  cases hforgets with
  | unknown hget => exact h
  | group i entry hget hi hone => exact h.removeGroupOrdered hi
  | copy i old new hget hi hmany hperm hnew _ hpend hsound => exact hsound

/-! ### Acknowledging by ranges -/

lemma removeStats_fold (l : List PendingDatagram) (q : Queue) :
    l.foldl removeEntryStats q = { q with
        packetNumberCopies := q.packetNumberCopies - (l.map (·.packetCount)).sum
        retransmissionCopies :=
          q.retransmissionCopies - (l.map (·.retransmissionPacketNumbers.length)).sum
        payloadBytes := q.payloadBytes - (l.map (·.payload.length)).sum } := by
  induction l generalizing q with
  | nil => rfl
  | cons entry rest ih => simp [ih, Nat.sub_sub, removeEntryStats]

lemma Sound.retain (h : Sound q) (ack : AckFrame) : Sound (q.retainUnacknowledgedAck ack).2 := by
  unfold retainUnacknowledgedAck
  by_cases hnone : (q.pending.filter (fun entry => entryAcked entry ack)).length = 0
  · simp [hnone, h]
  rw [if_neg hnone, removeStats_fold]
  have hsub : (q.pending.filter (fun entry => !entryAcked entry ack)).Sublist q.pending :=
    filter_sublist
  unfold rebuildIndexesAssumeCapacity
  have hdist := h.distinct.sublist (hsub.flatMap packetNumbers)
  have hgroups := h.groupIds.sublist (hsub.flatMap groupKey)
  refine ⟨positions_rebuild hdist, positions_rebuild hgroups, hdist, hgroups,
    fun e he => h.fresh e (hsub.subset he), fun e he => h.live e (hsub.subset he), ?_, ?_, ?_⟩
  · have hsum := sum_filter (·.packetCount) (fun entry => entryAcked entry ack) q.pending
    have hpre := h.copies
    dsimp only
    omega
  · have hsum := sum_filter (·.retransmissionPacketNumbers.length)
      (fun entry => entryAcked entry ack) q.pending
    have hpre := h.retransmissions
    dsimp only
    omega
  have hsum := sum_filter (·.payload.length) (fun entry => entryAcked entry ack) q.pending
  have hpre := h.bytes
  dsimp only
  omega

lemma applyAck_pending (q : Queue) (ack : AckFrame) :
    (q.applyAck ack).2 = q ∨ (q.applyAck ack).2 = (q.retainUnacknowledgedAck ack).2 := by
  unfold Queue.applyAck
  split
  · exact .inl rfl
  split
  · exact .inl rfl
  · exact .inr rfl

lemma Sound.applyAck (h : Sound q) (ack : AckFrame) : Sound (q.applyAck ack).2 := by
  rcases applyAck_pending q ack with hsame | hkept
  · rw [hsame]
    exact h
  · rw [hkept]
    exact h.retain ack

/-- **Every call keeps the indexes and the counters.** -/
theorem Sound.step (h : Sound q) (op : Op) : Sound (q.step op).2 := by
  cases op with
  | trackSent packetNumber payload => exact h.trackSent packetNumber payload
  | recordRetransmission groupIndex packetNumber =>
    exact h.recordRetransmission groupIndex packetNumber
  | forgetPacketNumber packetNumber => exact h.forgetPacketNumber packetNumber
  | acknowledgePacketNumber packetNumber => exact h.acknowledgePacketNumber packetNumber
  | applyAck ack => exact h.applyAck ack

lemma reachable_sound (ops : List Op) : Sound (exec step {} ops) :=
  exec_induction step Sound initial_sound (fun _ op h => h.step op) ops

/-! ### What an ACK removes

The intervals of an ACK are written over the integers, where every step down the chain has a value;
the ACK is well formed when none of them begins below zero.  The source takes the steps in `u64` and
checks each before it does. -/

/-- The intervals below one that begins at `start`. -/
def intervalsBelow : Int → List AckRange → List (Int × Int)
  | _, [] => []
  | start, range :: rest =>
    let stop := start - range.gap - 2
    (stop - range.ackRangeLength, stop) :: intervalsBelow (stop - range.ackRangeLength) rest

def ackIntervals (ack : AckFrame) : List (Int × Int) :=
  ((ack.largestAcknowledged : Int) - ack.firstAckRange, (ack.largestAcknowledged : Int)) ::
    intervalsBelow (ack.largestAcknowledged - ack.firstAckRange) ack.ranges

def WellFormedAck (ack : AckFrame) : Prop := ∀ interval ∈ ackIntervals ack, 0 ≤ interval.1

/-- One of the copies of the entry lies in one of the intervals. -/
def Acknowledged (intervals : List (Int × Int)) (entry : PendingDatagram) : Prop :=
  ∃ packetNumber ∈ entry.packetNumbers, ∃ interval ∈ intervals,
    interval.1 ≤ packetNumber ∧ (packetNumber : Int) ≤ interval.2

instance (intervals : List (Int × Int)) (entry : PendingDatagram) :
    Decidable (Acknowledged intervals entry) := inferInstanceAs (Decidable (∃ _ ∈ _, _))

lemma acknowledged_cons {interval : Int × Int} {intervals : List (Int × Int)}
    {start stop : Nat} (hstart : interval.1 = start) (hstop : interval.2 = stop) :
    Acknowledged (interval :: intervals) entry ↔
      entry.containsRange start stop = true ∨ Acknowledged intervals entry := by
  unfold Acknowledged containsRange
  simp only [mem_cons, exists_eq_or_imp, any_eq_true, hstart, hstop, Int.ofNat_le]
  grind

/-- The checks along the chain are those of the intervals, and the walk finds what they hold. -/
theorem chain_iff (ranges : List AckRange) (entry : PendingDatagram) : ∀ start ≤ maxU64,
    (rangeChainValid start ranges = true ↔
      ∀ interval ∈ intervalsBelow start ranges, 0 ≤ interval.1) ∧
    (rangeChainValid start ranges = true → (entryAckedBelow entry start ranges = true ↔
        Acknowledged (intervalsBelow start ranges) entry)) := by
  induction ranges with
  | nil => intro start _; simp [rangeChainValid, intervalsBelow, entryAckedBelow, Acknowledged]
  | cons range rest ih =>
    intro start hstart
    simp only [intervalsBelow, entryAckedBelow, forall_mem_cons]
    by_cases hlow : start < range.gap + 2 + range.ackRangeLength
    · -- The chain ends below zero, wherever the source notices.
      have hbad : ¬(0 : Int) ≤ (start : Int) - range.gap - 2 - range.ackRangeLength := by omega
      have hchecked : rangeChainValid start (range :: rest) = false := by
        unfold rangeChainValid checkedAdd
        grind
      rw [hchecked]
      exact ⟨⟨nofun, fun h => absurd h.1 hbad⟩, nofun⟩
    have hnext : (start : Int) - range.gap - 2 - range.ackRangeLength =
        (start - (range.gap + 2) - range.ackRangeLength : Nat) := by omega
    have hstop : (start : Int) - range.gap - 2 = (start - (range.gap + 2) : Nat) := by omega
    obtain ⟨hvalid, hacked⟩ := ih (start - (range.gap + 2) - range.ackRangeLength) (by omega)
    have hchecked : rangeChainValid start (range :: rest) =
        rangeChainValid (start - (range.gap + 2) - range.ackRangeLength) rest := by
      simp only [rangeChainValid, checkedAdd]
      rw [if_pos (by omega)]
      dsimp only
      rw [if_neg (by omega), if_neg (by omega)]
    rw [hchecked, acknowledged_cons hnext hstop, hvalid, hnext]
    refine ⟨by simp, fun hrest => ?_⟩
    rw [← hacked (hvalid.mpr hrest)]
    simp

lemma entryAcked_iff {ack : AckFrame} (hmax : ack.largestAcknowledged ≤ maxU64) :
    (WellFormedAck ack ↔ ¬ack.largestAcknowledged < ack.firstAckRange ∧
      rangeChainValid (ack.largestAcknowledged - ack.firstAckRange) ack.ranges = true) ∧
    (WellFormedAck ack → ∀ entry,
      entryAcked entry ack = true ↔ Acknowledged (ackIntervals ack) entry) := by
  unfold WellFormedAck ackIntervals
  by_cases hfirst : ack.largestAcknowledged < ack.firstAckRange
  · refine ⟨⟨fun h => ?_, fun h => absurd hfirst h.1⟩, fun h => ?_⟩
    all_goals
      have hzero := h _ mem_cons_self
      omega
  have hstart : (ack.largestAcknowledged : Int) - ack.firstAckRange =
      (ack.largestAcknowledged - ack.firstAckRange : Nat) := by omega
  rw [hstart]
  refine ⟨?_, fun h entry => ?_⟩
  · have hvalid := (chain_iff ack.ranges ⟨0, none, [], 0, []⟩
      (ack.largestAcknowledged - ack.firstAckRange) (by omega)).1
    rw [hvalid]
    simp [hfirst]
  obtain ⟨hvalid, hacked⟩ := chain_iff ack.ranges entry
    (ack.largestAcknowledged - ack.firstAckRange) (by omega)
  rw [acknowledged_cons rfl rfl, ← hacked (hvalid.mpr fun i hi =>
    h i (mem_cons_of_mem _ hi))]
  simp [entryAcked]

/--
**An ACK removes what it acknowledges.**  In every queue, the entries go of which a copy lies in an
interval of the ACK, the others stay as they are and in their order, and an ACK whose intervals
reach below zero is refused with nothing changed.
-/
theorem applyAck_removes_acknowledged (q : Queue) (ack : AckFrame)
    (hlargest : ack.largestAcknowledged ≤ maxU64) :
    (WellFormedAck ack →
      (q.applyAck ack).1 = .ok (q.pending.countP (Acknowledged (ackIntervals ack) ·)) ∧
      (q.applyAck ack).2.pending = q.pending.filter (¬Acknowledged (ackIntervals ack) ·)) ∧
    (¬WellFormedAck ack → q.applyAck ack = (.error .invalidAckFrame, q)) := by
  obtain ⟨hwell, hentry⟩ := entryAcked_iff hlargest
  refine ⟨fun h => ?_, fun h => ?_⟩
  · obtain ⟨hfirst, hchain⟩ := hwell.mp h
    have hacked : ∀ entry, entryAcked entry ack = decide (Acknowledged (ackIntervals ack) entry) :=
      fun entry => Bool.eq_iff_iff.mpr (by simp [hentry h entry])
    have hcount : (q.pending.filter (fun entry => entryAcked entry ack)).length =
        q.pending.countP (Acknowledged (ackIntervals ack) ·) := by
      simp only [hacked, countP_eq_length_filter]
    have hkept : q.pending.filter (fun entry => !entryAcked entry ack) =
        q.pending.filter (¬Acknowledged (ackIntervals ack) ·) := by simp [hacked]
    unfold Queue.applyAck retainUnacknowledgedAck
    rw [if_neg hfirst, if_neg (by simp [hchain])]
    by_cases hnone : (q.pending.filter (fun entry => entryAcked entry ack)).length = 0
    · rw [if_pos hnone, ← hcount, hnone, ← hkept]
      refine ⟨rfl, (filter_eq_self.mpr fun entry hmem => ?_).symm⟩
      simpa using filter_eq_nil_iff.mp (length_eq_zero_iff.mp hnone) entry hmem
    · rw [if_neg hnone, ← hcount, ← hkept, removeStats_fold]
      exact ⟨rfl, rfl⟩
  rw [hwell] at h
  unfold Queue.applyAck
  by_cases hfirst : ack.largestAcknowledged < ack.firstAckRange
  · rw [if_pos hfirst]
  · rw [if_neg hfirst, if_pos (by simpa [hfirst] using h)]

/-- A copy sent again as 7 is acknowledged, and 4 lies in the gap. -/
theorem applyAck_removes_acknowledged_copy :
    ((exec step {} [.trackSent 1 [0], .trackSent 4 [1], .recordRetransmission 0 7]).applyAck
      { largestAcknowledged := 8, ackDelay := 0, firstAckRange := 1,
        ranges := [{ gap := 2, ackRangeLength := 1 }] }).2.pending.map (·.groupId) = [1] := by
  rw [((applyAck_removes_acknowledged _ _ (by decide)).1 (by unfold WellFormedAck; decide)).2]
  decide

end Queue

end Netz.Quic.Recovery
