/-
Forgetting the last packets of a batch, seen from the retransmission queue.

Each ack-eliciting packet of a batch gets a group of its own at the end of the queue.  The
groups of the packets that did not leave are taken out again, and what is left are the groups
of those that left, with the ids they had from the start.  The indexes and the counters follow
from the groups (`Sound.agree`).
-/
import Netz.Proofs.RecoveryRefine
import Netz.Proofs.SendTracked

namespace Netz.Quic.Recovery.Queue

open Lib List IndexedTracker
open Recovery.PendingDatagram

variable {q q' q'' : Queue}

/-- The queues hold the same groups under the same indexes and counters; only the next group
id may differ. -/
structure Agree (q q' : Queue) : Prop where
  pending : q'.pending = q.pending
  groups : ∀ id, q'.groupIndex.get id = q.groupIndex.get id
  packets : ∀ n, q'.packetIndex.get n = q.packetIndex.get n
  copies : q'.packetNumberCopies = q.packetNumberCopies
  retransmissions : q'.retransmissionCopies = q.retransmissionCopies
  bytes : q'.payloadBytes = q.payloadBytes

/-- **Queues with the same groups agree.** -/
theorem Sound.agree (h : Sound q) (h' : Sound q') (hpend : q'.pending = q.pending) : Agree q q' := by
  have hgroups := h'.groups
  have hpkts := h'.packets
  rw [hpend] at hgroups hpkts
  refine ⟨hpend, fun id => ?_, fun n => ?_, ?_, ?_, ?_⟩
  · refine Option.ext (fun i => ?_)
    rw [hgroups id i, h.groups id i]
  · refine Option.ext (fun i => ?_)
    rw [hpkts n i, h.packets n i]
  · rw [h'.copies, hpend, h.copies]
  · rw [h'.retransmissions, hpend, h.retransmissions]
  · rw [h'.bytes, hpend, h.bytes]

/-! ### Groups of their own -/

/-- The groups that packets get in order, the first with the id `id`. -/
def groupsFrom : Nat → List (Nat × Bytes) → List PendingDatagram
  | _, [] => []
  | id, (packetNumber, payload) :: rest =>
    { groupId := id
      originalPacketNumber := some packetNumber
      newestPacketNumber := packetNumber
      payload := payload } :: groupsFrom (id + 1) rest

lemma groupsFrom_append (id : Nat) (xs ys : List (Nat × Bytes)) :
    groupsFrom id (xs ++ ys) = groupsFrom id xs ++ groupsFrom (id + xs.length) ys := by
  induction xs generalizing id with
  | nil => rfl
  | cons x rest ih =>
    show _ :: groupsFrom (id + 1) (rest ++ ys) = _ :: (_ ++ _)
    rw [ih (id + 1), length_cons, Nat.add_assoc, Nat.add_comm 1]

lemma groupsFrom_numbers (id : Nat) (xs : List (Nat × Bytes)) :
    (groupsFrom id xs).flatMap packetNumbers = xs.map (·.1) := by
  induction xs generalizing id with
  | nil => rfl
  | cons x rest ih =>
    show _ :: (groupsFrom (id + 1) rest).flatMap packetNumbers = _
    rw [ih]
    rfl

/-- `q'` has a group for each of the packets behind those of `q`. -/
structure Grown (q q' : Queue) (packets : List (Nat × Bytes)) : Prop where
  sound : Sound q'
  pending : q'.pending = q.pending ++ groupsFrom q.nextGroupId packets
  next : q'.nextGroupId = q.nextGroupId + packets.length

lemma Sound.grown (h : Sound q) : Grown q q [] := ⟨h, (append_nil _).symm, rfl⟩

lemma Grown.trans {xs ys : List (Nat × Bytes)} (h : Grown q q' xs) (h' : Grown q' q'' ys) :
    Grown q q'' (xs ++ ys) := by
  refine ⟨h'.sound, ?_, ?_⟩
  · rw [h'.pending, h.pending, h.next, groupsFrom_append, append_assoc]
  · rw [h'.next, h.next, length_append, Nat.add_assoc]

lemma Sound.trackSent_grown (h : Sound q) {n : Nat} {payload : Bytes} {id : Nat}
    (hok : q.trackSent n payload = (.ok id, q')) : Grown q q' [(n, payload)] := by
  rcases trackSent_cases q n payload with ⟨e, herr⟩ | ⟨-, -, -, -, hpend, hnext⟩
  · simp [herr] at hok
  have hsound := h.trackSent n payload
  rw [hok] at hpend hnext hsound
  exact ⟨hsound, hpend, hnext⟩

lemma trackSent_of (q : Queue) {n : Nat} {payload : Bytes} (hpay : payload ≠ [])
    (hnew : q.packetIndex.get n = none) (hroom : q.nextGroupId + 1 ≤ maxU64) :
    ∃ q', q.trackSent n payload = (.ok q.nextGroupId, q') := by
  unfold trackSent
  rw [if_neg (by rw [length_eq_zero_iff]; exact hpay), hnew,
    checkedAdd_eq_some.mpr ⟨rfl, hroom⟩]
  exact ⟨_, rfl⟩

/-! ### Taking them out -/

lemma Sound.forget_group (h : Sound q) {before after : List PendingDatagram}
    {entry : PendingDatagram} {n : Nat} (hpend : q.pending = before ++ entry :: after)
    (hent : entry.packetNumbers = [n]) :
    Sound (q.forgetPacketNumber n).2 ∧ (q.forgetPacketNumber n).2.pending = before ++ after ∧
      (q.forgetPacketNumber n).2.nextGroupId = q.nextGroupId := by
  have hplace : q.pending[before.length]? = some entry := by
    rw [hpend, getElem?_append_right le_rfl, Nat.sub_self]
    rfl
  have hget : q.packetIndex.get n = some before.length :=
    (h.packets n before.length).mpr ⟨entry, hplace, by rw [hent]; exact mem_singleton_self n⟩
  have hone : entry.packetCount = 1 := by
    rw [packetCount_eq, hent]
    rfl
  have hforget : q.forgetPacketNumber n = (true, q.removeGroupOrdered before.length entry) := by
    simp [hget, hplace, hone, Queue.forgetPacketNumber]
  rw [hforget]
  refine ⟨h.removeGroupOrdered hplace, ?_, ?_⟩
  · show (q.removeGroupOrdered before.length entry).pending = _
    rw [removeGroupOrdered_pending, hpend, eraseIdx_append_of_length_le le_rfl,
      Nat.sub_self]
    rfl
  show (q.removeGroupOrdered before.length entry).nextGroupId = _
  unfold Queue.removeGroupOrdered
  dsimp only
  split <;> rfl

lemma Sound.forget_unknown (h : Sound q) {n : Nat} (hn : n ∉ q.numbers) :
    (q.forgetPacketNumber n).2 = q := by
  unfold Queue.forgetPacketNumber
  rw [h.unknown hn]

/-- The ack-eliciting of some packets, with what each carries. -/
def eliciting (packets : List (SentPacket × Bytes)) : List (Nat × Bytes) :=
  (packets.filter (·.1.ackEliciting)).map (fun p => (p.1.packetNumber, p.2))

lemma eliciting_append (xs ys : List (SentPacket × Bytes)) :
    eliciting (xs ++ ys) = eliciting xs ++ eliciting ys := by
  unfold eliciting
  rw [filter_append, map_append]

/-- **Forgetting packets leaves the groups before theirs.** -/
theorem Sound.forgetAll {packets : List (SentPacket × Bytes)} {front : List PendingDatagram}
    {id : Nat} (h : Sound q) (hpend : q.pending = front ++ groupsFrom id (eliciting packets))
    (hout : ∀ p ∈ packets, p.1.ackEliciting = false → p.1.packetNumber ∉ q.numbers) :
    Sound ((packets.map (·.1.packetNumber)).foldl (fun q n => (q.forgetPacketNumber n).2) q) ∧
    ((packets.map (·.1.packetNumber)).foldl (fun q n => (q.forgetPacketNumber n).2) q).pending = front ∧
    ((packets.map (·.1.packetNumber)).foldl
      (fun q n => (q.forgetPacketNumber n).2) q).nextGroupId = q.nextGroupId := by
  induction packets generalizing q id with
  | nil => exact ⟨h, hpend.trans (append_nil _), rfl⟩
  | cons p rest ih =>
    rw [map_cons, foldl_cons]
    by_cases hack : p.1.ackEliciting = true
    · have helicit : eliciting (p :: rest) = (p.1.packetNumber, p.2) :: eliciting rest := by
        unfold eliciting
        rw [filter_cons_of_pos (by exact hack)]
        rfl
      rw [helicit] at hpend
      obtain ⟨hsound, hless, hnext⟩ := h.forget_group hpend rfl
      have hnums : ∀ n ∈ (q.forgetPacketNumber p.1.packetNumber).2.numbers, n ∈ q.numbers := by
        intro n hn
        exact ((h.forget_numbers p.1.packetNumber n).mp hn).1
      obtain ⟨hdone, hfront, hsame⟩ := ih hsound hless
        (fun r hr hplain hn => hout r (mem_cons_of_mem _ hr) hplain (hnums _ hn))
      exact ⟨hdone, hfront, hsame.trans hnext⟩
    have hplain : p.1.ackEliciting = false := by simpa using hack
    have helicit : eliciting (p :: rest) = eliciting rest := by
      unfold eliciting
      rw [filter_cons_of_neg (by exact hack)]
    rw [helicit] at hpend
    rw [h.forget_unknown (hout p (mem_cons_self ..) hplain)]
    exact ih h hpend (fun r hr hr' => hout r (mem_cons_of_mem _ hr) hr')

/-! ### The groups alone -/

/-- What the connection asks of the queue is answered, and changed, as by its groups alone. -/
structure RefinesGroups (q : Queue) : Prop where
  trackSent : ∀ n payload, payload.length ≠ 0 → q.view.trackSent n
    = (q.trackSent n payload).1.map fun id => (id, (q.trackSent n payload).2.view)
  containsGroupId : ∀ id, q.view.containsGroupId id = q.containsGroupId id
  applyAck : ∀ ack, q.view.applyAck ack = (q.applyAck ack).1.map fun _ => (q.applyAck ack).2.view
  forgetNewest : ∀ n payload id q', q.trackSent n payload = (.ok id, q') →
    (q'.forgetPacketNumber n).2.view = q'.view.forgetNewest

lemma Sound.view_forgetNewest (h : Sound q) {n id : Nat} {payload : Bytes}
    (hok : q.trackSent n payload = (.ok id, q')) :
    (q'.forgetPacketNumber n).2.view = q'.view.forgetNewest := by
  obtain ⟨hsound, hpend, -⟩ := h.trackSent_grown hok
  obtain ⟨-, hless, hnext⟩ := hsound.forget_group hpend rfl
  rw [view, hless, hnext, view, RecoveryQueue.forgetNewest, hpend]
  simp [groupsFrom]

/-- **After every run of calls the queue refines the queue of its groups.** -/
theorem refines_groups (ops : List Op) : RefinesGroups (exec step {} ops) := by
  have h := reachable_sound ops
  exact ⟨fun n _ hpay => h.view_trackSent n hpay, h.view_containsGroupId, view_applyAck _,
    fun _ _ _ _ hok => h.view_forgetNewest hok⟩

end Netz.Quic.Recovery.Queue

/-! ### Forgetting the last records of a batch

A batch records all its packets before the socket sees any of them, and forgets those that
the socket did not take.  The caches of the tracker follow from the records (`Kept.unique`),
so forgetting a record gives the tracker that never had it, and a batch of which a prefix
left gives the tracker that recorded that prefix alone. -/

namespace Netz.Quic.IndexedTracker

open Lib List

variable {t t' t'' : IndexedTracker} {next : Nat}

/-! ### What the records determine -/

/-- The trackers differ in the records and the caches alone. -/
def Alike (t t' : IndexedTracker) : Prop :=
  ∃ packets sorted first index latest, t' = { t with
      packets := packets
      packetsSortedAscending := sorted
      firstUnacknowledgedIndex := first
      packetIndex := index
      latestAckElicitingInFlightIndex := latest }

lemma Alike.refl (t : IndexedTracker) : Alike t t := ⟨_, _, _, _, _, rfl⟩

lemma Alike.trans (h : Alike t t') (h' : Alike t' t'') : Alike t t'' := by
  obtain ⟨packets, sorted, first, index, latest, rfl⟩ := h
  obtain ⟨packets', sorted', first', index', latest', rfl⟩ := h'
  exact ⟨_, _, _, _, _, rfl⟩

lemma Alike.symm (h : Alike t t') : Alike t' t := by
  obtain ⟨packets, sorted, first, index, latest, rfl⟩ := h
  exact ⟨_, _, _, _, _, rfl⟩

lemma Kept.cursor_le (h : Kept t next) (h' : Kept t' next) (hpkts : t'.packets = t.packets) :
    t'.firstUnacknowledgedIndex ≤ t.firstUnacknowledgedIndex := by
  by_contra hlt
  have hlen : t.firstUnacknowledgedIndex < t'.packets.length := by
    have hle : t'.firstUnacknowledgedIndex ≤ t'.packets.length := h'.cursor.le
    omega
  obtain ⟨p, hget⟩ : ∃ p, t'.packets[t.firstUnacknowledgedIndex]? = some p :=
    ⟨_, getElem?_eq_getElem hlen⟩
  have hacked := h'.cursor.acknowledged _ p (not_le.mp hlt) hget
  rw [hpkts] at hget
  simp [h.rests p hget] at hacked

lemma Newest.unique {packets : List SentPacket} {bound : Nat} {latest latest' : Option Nat}
    (h : Newest packets bound latest) (h' : Newest packets bound latest') : latest = latest' := by
  cases latest with
  | none =>
    cases latest' with
    | none => rfl
    | some i =>
      obtain ⟨hi, time, htime, -⟩ := h'
      simp [h i hi] at htime
  | some i =>
    obtain ⟨hi, time, htime, hall⟩ := h
    cases latest' with
    | none => simp [h' i hi] at htime
    | some i' =>
      obtain ⟨hi', time', htime', hall'⟩ := h'
      have hfirst := hall i' time' hi' htime'
      have hsecond := hall' i time hi htime
      congr 1
      omega

/-- What the hash map holds for a number follows from whether it holds the number. -/
theorem Kept.index_unique (h : Kept t next) (h' : Kept t' next) (hpkts : t'.packets = t.packets)
    (hknown : ∀ m, (t'.packetIndex m).isSome = (t.packetIndex m).isSome) :
    t'.packetIndex = t.packetIndex := by
  have hnodup : (t.packets.map (·.packetNumber)).Nodup :=
    h.wf.ascending.imp (fun hlt => Nat.ne_of_lt hlt)
  funext m
  have hm := hknown m
  cases hold : t.packetIndex m with
  | none =>
    rw [hold] at hm
    exact Option.isNone_iff_eq_none.mp (by simpa using hm)
  | some i =>
    rw [hold] at hm
    obtain ⟨j, hj⟩ := Option.isSome_iff_exists.mp hm
    have hplace := h.indexed m i hold
    have hplace' : (t'.packets.map (·.packetNumber))[j]? = some m := h'.indexed m j hj
    rw [hpkts] at hplace'
    obtain ⟨hlt₁, heq₁⟩ := List.getElem_of_getElem? hplace
    obtain ⟨hlt₂, heq₂⟩ := List.getElem_of_getElem? hplace'
    rw [hj, (List.Nodup.getElem_inj_iff hnodup).mp (heq₂.trans heq₁.symm)]

/-- **The records, and the numbers the hash map holds, determine the caches.** -/
theorem Kept.unique (h : Kept t next) (h' : Kept t' next) (halike : Alike t t')
    (hpkts : t'.packets = t.packets)
    (hknown : ∀ m, (t'.packetIndex m).isSome = (t.packetIndex m).isSome) : t' = t := by
  have hidx := h.index_unique h' hpkts hknown
  have hcur := Nat.le_antisymm (h.cursor_le h' hpkts) (h'.cursor_le h hpkts.symm)
  have hlast : t'.latestAckElicitingInFlightIndex = t.latestAckElicitingInFlightIndex := by
    have hnewest : Newest t'.packets t'.packets.length t'.latestAckElicitingInFlightIndex := h'.newest
    rw [hpkts] at hnewest
    exact Newest.unique hnewest h.newest
  have hsorted : t'.packetsSortedAscending = t.packetsSortedAscending := h'.wf.sorted.trans h.wf.sorted.symm
  obtain ⟨packets, sorted, first, index, latest, rfl⟩ := halike
  dsimp only at hpkts hcur hidx hlast hsorted
  rw [hpkts, hcur, hidx, hlast, hsorted]

/-! ### Recording packets -/

/-- Record the packets in order; `room` says for which numbers the hash map has room. -/
def sentAll (room : Nat → Bool) (t : IndexedTracker) (sendings : List Sending) : IndexedTracker :=
  sendings.foldl (fun t sending => (t.sent sending (room sending.packetNumber)).2) t

lemma sentAll_append (room : Nat → Bool) (t : IndexedTracker) (xs ys : List Sending) :
    sentAll room t (xs ++ ys) = sentAll room (sentAll room t xs) ys := by
  unfold sentAll
  rw [foldl_append]

/-- Packets with new numbers in order, none of them marked for ECN. -/
structure Fresh (next : Nat) (sendings : List Sending) : Prop where
  ascending : (sendings.map (·.packetNumber)).Pairwise (· < ·)
  new : ∀ s ∈ sendings, next ≤ s.packetNumber
  small : ∀ s ∈ sendings, s.packetNumber ≤ varintMax
  plain : ∀ s ∈ sendings, s.ecn = .notEct

variable {xs ys : List Sending}

lemma Fresh.sublist (h : Fresh next ys) (hsub : xs.Sublist ys) : Fresh next xs :=
  ⟨h.ascending.sublist (hsub.map _), fun s hs => h.new s (hsub.subset hs),
    fun s hs => h.small s (hsub.subset hs), fun s hs => h.plain s (hsub.subset hs)⟩

lemma Fresh.tail {s : Sending} {rest : List Sending} (h : Fresh next (s :: rest)) :
    Fresh (s.packetNumber + 1) rest := by
  have hsplit := h.ascending
  rw [map_cons, pairwise_cons] at hsplit
  have hrest := h.sublist (sublist_cons_self s rest)
  exact ⟨hrest.ascending, fun r hr => hsplit.1 _ (mem_map_of_mem hr), hrest.small, hrest.plain⟩

/-- One more record: what the hash map holds, and what does not change. -/
theorem sent_alike {sending : Sending} (indexed : Bool) (hplain : sending.ecn = .notEct) :
    Alike t (t.sent sending indexed).2 := by
  unfold sent
  dsimp only
  rw [hplain]
  split <;> exact ⟨_, _, _, _, _, rfl⟩

/-- What recording new packets does to a tracker. -/
structure Appended (room : Nat → Bool) (t t' : IndexedTracker) (sendings : List Sending) : Prop where
  kept : Kept t' (varintMax + 1)
  packets : t'.packets = t.packets ++ sendings.map Sending.packet
  alike : Alike t t'
  known : ∀ m, (t'.packetIndex m).isSome = true ↔
    (t.packetIndex m).isSome = true ∨ ∃ s ∈ sendings, s.packetNumber = m ∧ room m = true

lemma sent_known (h : Kept t next) {sending : Sending} (indexed : Bool)
    (hnew : next ≤ sending.packetNumber) (hsmall : sending.packetNumber ≤ varintMax) (m : Nat) :
    ((t.sent sending indexed).2.packetIndex m).isSome = true ↔
      (t.packetIndex m).isSome = true ∨ (sending.packetNumber = m ∧ indexed = true) := by
  obtain ⟨hok, -, -⟩ := h.sent sending indexed hnew hsmall
  unfold sent at hok ⊢
  dsimp only at hok ⊢
  split at hok
  · cases hok
  rename_i hfresh
  rw [if_neg hfresh]
  cases indexed with
  | false => simp
  | true =>
    by_cases hm : m = sending.packetNumber
    · simp [hm]
    · simp [Function.update_of_ne hm, Ne.symm hm]

lemma Kept.appended (h : Kept t next) (room : Nat → Bool) {sendings : List Sending}
    (hfresh : Fresh next sendings) : Appended room t (sentAll room t sendings) sendings := by
  induction sendings generalizing t next with
  | nil =>
    refine ⟨?_, (append_nil _).symm, Alike.refl t, fun m => by simp [sentAll]⟩
    exact h.bound le_rfl (fun n hn => Nat.lt_of_lt_of_le (h.wf.below n hn) h.wf.small)
      (fun r hr => Nat.lt_of_lt_of_le (h.wf.nonempty r hr).2 h.wf.small)
  | cons s rest ih =>
    have hnew := hfresh.new s (mem_cons_self ..)
    have hsmall := hfresh.small s (mem_cons_self ..)
    obtain ⟨-, hpkts, hkept⟩ := h.sent s (room s.packetNumber) hnew hsmall
    have hrest := ih hkept hfresh.tail
    have hfirst := sent_alike (t := t) (room s.packetNumber) (hfresh.plain s (mem_cons_self ..))
    refine ⟨hrest.kept, ?_, hfirst.trans hrest.alike, fun m => ?_⟩
    · refine hrest.packets.trans ?_
      rw [hpkts, append_assoc]
      rfl
    refine (hrest.known m).trans ?_
    rw [sent_known h _ hnew hsmall m]
    constructor
    · rintro ((hold | ⟨hs, hroom⟩) | ⟨r, hr, hrm, hroom⟩)
      · exact .inl hold
      · exact .inr ⟨s, mem_cons_self .., hs, by rw [← hs]; exact hroom⟩
      · exact .inr ⟨r, mem_cons_of_mem _ hr, hrm, hroom⟩
    rintro (hold | ⟨r, hr, hrm, hroom⟩)
    · exact .inl (.inl hold)
    rcases mem_cons.mp hr with rfl | hr
    · exact .inl (.inr ⟨hrm, by rw [hrm]; exact hroom⟩)
    · exact .inr ⟨r, hr, hrm, hroom⟩

/-! ### Forgetting them -/

lemma refresh_known (t : IndexedTracker) (start m : Nat) :
    ((t.refreshPacketIndexFrom start).packetIndex m).isSome = (t.packetIndex m).isSome := by
  unfold refreshPacketIndexFrom
  generalize range' start (t.packets.length - start) = places
  generalize t.packetIndex = index
  induction places generalizing index with
  | nil => rfl
  | cons i rest ih =>
    rw [foldl_cons, ih]
    cases t.packets[i]? with
    | none => rfl
    | some p =>
      dsimp only
      by_cases hsome : (index p.packetNumber).isSome = true
      · rw [if_pos hsome]
        by_cases hm : m = p.packetNumber
        · simp [hm, hsome]
        · rw [Function.update_of_ne hm]
      · rw [if_neg hsome]

lemma Kept.forget_known (h : Kept t next) (n m : Nat) :
    ((t.forget n).2.packetIndex m).isSome = true ↔ (t.packetIndex m).isSome = true ∧ m ≠ n := by
  have hupdated : ∀ index : Nat → Option Nat, ((Function.update index n none) m).isSome = true ↔
      (index m).isSome = true ∧ m ≠ n := by
    intro index
    by_cases hm : m = n
    · rw [hm]
      simp
    · rw [Function.update_of_ne hm]
      simp [hm]
  rcases h.forget n with hnone | ⟨hfound, -, -⟩
  · have hmissing := h.forget_missing (congrArg Prod.fst hnone)
    rw [hnone]
    refine ⟨fun hsome => ⟨hsome, fun hm => ?_⟩, fun hboth => hboth.1⟩
    obtain ⟨i, hi⟩ := Option.isSome_iff_exists.mp hsome
    exact hmissing (hm ▸ mem_of_getElem? (h.indexed m i hi))
  unfold IndexedTracker.forget at hfound ⊢
  cases hlast : t.packets.getLast? with
  | none => simp [hlast] at hfound
  | some tail =>
    rw [hlast] at hfound
    dsimp only at hfound ⊢
    by_cases htail : tail.packetNumber = n
    · rw [if_pos htail]
      split <;> exact hupdated t.packetIndex
    rw [if_neg htail] at hfound ⊢
    cases hfind : t.findPacketIndex n with
    | none => simp [hfind] at hfound
    | some index =>
      simp only [advanceFirst, recomputeLatest, apply_ite packetIndex, ite_self]
      split
      · simp [refresh_known, hupdated]
      · exact hupdated t.packetIndex

lemma forget_alike (t : IndexedTracker) (n : Nat) : Alike t (t.forget n).2 := by
  obtain ⟨packets, first, index, latest, hrest⟩ := forget_rest t n
  exact ⟨packets, _, first, index, latest, hrest⟩

/-- **A forgotten record leaves the tracker that never had it.** -/
theorem Kept.forget_sentAll (h : Kept t next) (room : Nat → Bool)
    {y : Sending} (hfresh : Fresh next (xs ++ y :: ys)) :
    ((sentAll room t (xs ++ y :: ys)).forget y.packetNumber).2 = sentAll room t (xs ++ ys) := by
  have hsub : (xs ++ ys).Sublist (xs ++ y :: ys) :=
    (List.sublist_cons_self y ys).append_left xs
  have hall := h.appended room hfresh
  have hless := h.appended room (hfresh.sublist hsub)
  have hkept := hall.kept
  have hnodup : ((sentAll room t (xs ++ y :: ys)).packets.map (·.packetNumber)).Nodup :=
    hkept.wf.ascending.imp (fun hlt => Nat.ne_of_lt hlt)
  have hplace : ((sentAll room t (xs ++ y :: ys)).packets.map (·.packetNumber))[t.packets.length
      + xs.length]? = some y.packetNumber := by simp [hall.packets, Sending.packet]
  rcases hkept.forget y.packetNumber with hnone | ⟨-, hgone, index, hidx, herased⟩
  · exact absurd (List.mem_of_getElem? hplace) (hkept.forget_missing (congrArg Prod.fst hnone))
  have hsame : index = t.packets.length + xs.length := by
    obtain ⟨hlt₁, heq₁⟩ := List.getElem_of_getElem? hplace
    obtain ⟨hlt₂, heq₂⟩ := List.getElem_of_getElem? hidx
    exact (List.Nodup.getElem_inj_iff hnodup).mp (heq₂.trans heq₁.symm)
  refine hless.kept.unique hgone ?_ ?_ ?_
  · exact (hless.alike.symm.trans hall.alike).trans (forget_alike _ _)
  · have hpkts : ((sentAll room t (xs ++ y :: ys)).forget y.packetNumber).2.packets
        = (sentAll room t (xs ++ y :: ys)).packets.eraseIdx index := herased.packets
    rw [hpkts, hall.packets, hless.packets, hsame, List.eraseIdx_append_of_length_le (by simp)]
    rw [Nat.add_sub_cancel_left, List.map_append, List.eraseIdx_append_of_length_le (by simp)]
    simp
  intro m
  have hdist : ∀ s ∈ xs ++ ys, s.packetNumber ≠ y.packetNumber := by
    have hnums : ((xs ++ y :: ys).map (·.packetNumber)).Nodup :=
      hfresh.ascending.imp (fun hlt => Nat.ne_of_lt hlt)
    intro s hs heq
    have hperm : (xs ++ y :: ys).Perm (y :: (xs ++ ys)) := List.perm_middle
    have hout := (hperm.map (·.packetNumber)).nodup_iff.mp hnums
    rw [List.map_cons, List.nodup_cons] at hout
    exact hout.1 (heq ▸ List.mem_map_of_mem hs)
  have hunknown : (t.packetIndex y.packetNumber).isSome = false := by
    cases hsome : t.packetIndex y.packetNumber with
    | none => rfl
    | some i =>
      have hmem := List.mem_of_getElem? (h.indexed _ _ hsome)
      have hlt := h.wf.below _ hmem
      have hge := hfresh.new y (by simp)
      omega
  rw [Bool.eq_iff_iff, hkept.forget_known, hall.known, hless.known]
  constructor
  · rintro ⟨hold | ⟨s, hs, hsm, hroom⟩, hne⟩
    · exact .inl hold
    refine .inr ⟨s, ?_, hsm, hroom⟩
    rcases List.mem_append.mp hs with hs | hs
    · exact List.mem_append_left _ hs
    rcases List.mem_cons.mp hs with rfl | hs
    · exact absurd hsm.symm hne
    · exact List.mem_append_right _ hs
  rintro (hold | ⟨s, hs, hsm, hroom⟩)
  · refine ⟨.inl hold, fun hm => ?_⟩
    simp [hm, hunknown] at hold
  refine ⟨.inr ⟨s, hsub.subset hs, hsm, hroom⟩, ?_⟩
  rw [← hsm]
  exact hdist s hs

/-- **Forgetting the packets that did not leave, in order.** -/
theorem Kept.forgetAll_sentAll (h : Kept t next) (room : Nat → Bool)
    (hfresh : Fresh next (xs ++ ys)) :
    (ys.map (·.packetNumber)).foldl (fun t n => (t.forget n).2) (sentAll room t (xs ++ ys))
      = sentAll room t xs := by
  induction ys with
  | nil => rw [append_nil]; rfl
  | cons y ys ih =>
    rw [map_cons, foldl_cons, h.forget_sentAll room hfresh]
    exact ih (hfresh.sublist ((sublist_cons_self y ys).append_left xs))

end Netz.Quic.IndexedTracker
