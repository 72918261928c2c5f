/-
The parts of a session and what keeps them in order.

A session is three things at once: a queue behind a cursor, a window of inflight slots with
an index over their packet identifiers, and the books of what became of every message.
`QueueOk`, `WindowOk` and `BooksOk` say each is in order, `Inv` that all are, and the lemmas
here follow the session's own operations through all three.
-/
import Netz.Lib.CyclicSearch
import Netz.Lib.Ledger
import Netz.Mqtt.SessionStore

namespace Netz.Mqtt

open Lib List

namespace Session

/-- The queued messages, oldest first. -/
def waiting (session : Session) : List OwnedPublish := session.queued.reduceOption

/-- The packet identifier in every inflight slot. -/
def packetIds (session : Session) : List (Option Nat) :=
  session.inflight.map (Option.map (·.packetId))

/-- The message in every inflight slot. -/
def messages (session : Session) : List (Option OwnedPublish) :=
  session.inflight.map (Option.map (·.publish))

structure QueueOk (session : Session) : Prop where
  head : session.queuedHead ≤ session.queued.length
  front : (session.queued.take session.queuedHead).reduceOption = []
  count : session.queuedCount = session.waiting.length
  quality : ∀ publish ∈ session.waiting, publish.qos ≠ .atMostOnce

structure WindowOk (session : Session) : Prop where
  index : SlotIndex session.packetIds session.packetIndex
  count : session.inflightCount = session.packetIds.reduceOption.length
  bounded : ∀ packetId ∈ session.packetIds.reduceOption, 1 ≤ packetId ∧ packetId ≤ maxU16
  next : 1 ≤ session.nextPacketId ∧ session.nextPacketId ≤ maxU16

structure BooksOk (session : Session) : Prop where
  serials :
    session.history.accepted.map (·.serial) = range session.history.accepted.length
  balanced :
    Balanced Fate.expired session.waiting session.messages.reduceOption session.history.accepted
      session.history.departed session.history.finished

structure Inv (session : Session) : Prop where
  queue : QueueOk session
  window : WindowOk session
  books : BooksOk session

lemma inv_new (generation routeId : Nat) (clientId : Bytes) (expiryInterval : Nat)
    (allocationBytes : Nat) :
    Inv
      { generation := generation, routeId := routeId, clientId := clientId, connected := true,
        expiryInterval := expiryInterval, expiresAtNs := none,
        allocationBytes := allocationBytes } where
  queue := ⟨Nat.le_refl 0, rfl, rfl, by intro publish h; simp [waiting] at h⟩
  window := ⟨SlotIndex.empty, rfl, by intro id h; simp [packetIds] at h,
    (by decide : 1 ≤ 1 ∧ 1 ≤ maxU16)⟩
  books := ⟨rfl, Balanced.empty⟩

/-! ### The queue -/

variable {session session' : Session} {index packetId attempts : Nat} {inflight : Inflight}
  {held : Held}

lemma QueueOk.rest (h : QueueOk session) :
    (session.queued.drop session.queuedHead).reduceOption = session.waiting := by
  have hsplit : session.waiting = (session.queued.take session.queuedHead).reduceOption
      ++ (session.queued.drop session.queuedHead).reduceOption := by
    rw [← reduceOption_append, take_append_drop]
    rfl
  rw [hsplit, h.front, nil_append]

lemma waiting_of_count (h : QueueOk session) (hzero : session.queuedCount = 0) :
    session.waiting = [] :=
  length_eq_zero_iff.mp (by rw [← h.count, hzero])

@[simp] lemma compactQueue_waiting (h : QueueOk session) :
    session.compactQueue.waiting = session.waiting := by
  rw [← h.rest]
  simp [waiting, compactQueue, reduceOption]

lemma reduceOption_takeWhile_isNone {α : Type} (l : List (Option α)) :
    (l.takeWhile Option.isNone).reduceOption = [] := by
  induction l with
  | nil => rfl
  | cons slot rest ih =>
    cases slot with
    | none => simpa using ih
    | some a => rfl

lemma advanceQueueHead_waiting (h : QueueOk session) :
    session.advanceQueueHead.waiting = session.waiting := by
  unfold advanceQueueHead
  by_cases hzero : session.queuedCount = 0
  · rw [if_pos hzero, waiting_of_count h hzero]
    rfl
  · rw [if_neg hzero]
    rfl

lemma QueueOk.advance (h : QueueOk session) : QueueOk session.advanceQueueHead := by
  have hwaiting := advanceQueueHead_waiting h
  have htake := takeWhile_prefix (l := session.queued.drop session.queuedHead)
    Option.isNone
  refine ⟨?_, ?_, ?_, by rw [hwaiting]; exact h.quality⟩
  · have hlen := htake.length_le
    rw [length_drop] at hlen
    have := h.head
    unfold advanceQueueHead
    split
    · exact Nat.le_refl 0
    · simp only
      omega
  · unfold advanceQueueHead
    by_cases hzero : session.queuedCount = 0
    · rw [if_pos hzero]
      rfl
    rw [if_neg hzero, take_add, reduceOption_append, h.front, ← prefix_iff_eq_take.mp htake]
    exact reduceOption_takeWhile_isNone _
  rw [hwaiting, ← h.count]
  unfold advanceQueueHead
  split <;> rfl

lemma makeQueueRoom_waiting (h : QueueOk session) (maxQueued : Nat) :
    (session.makeQueueRoom maxQueued).waiting = session.waiting := by
  unfold makeQueueRoom
  by_cases hzero : session.queuedCount = 0
  · rw [if_pos hzero, waiting_of_count h hzero]
    rfl
  rw [if_neg hzero]
  by_cases hfull : maxQueued ≤ session.queued.length
  · rw [if_pos hfull]
    exact compactQueue_waiting h
  · rw [if_neg hfull]

lemma QueueOk.makeRoom (h : QueueOk session) (maxQueued : Nat) :
    QueueOk (session.makeQueueRoom maxQueued) := by
  have hwaiting := makeQueueRoom_waiting h maxQueued
  refine ⟨?_, ?_, ?_, by rw [hwaiting]; exact h.quality⟩
  · unfold makeQueueRoom compactQueue
    split
    · exact Nat.le_refl 0
    split
    · exact Nat.zero_le _
    · exact h.head
  · unfold makeQueueRoom compactQueue
    split
    · rfl
    split
    · rfl
    · exact h.front
  rw [hwaiting, ← h.count]
  unfold makeQueueRoom compactQueue
  split
  · rfl
  · split <;> rfl

/-- The fields of the window and the books are those of another session. -/
structure SameWindow (session session' : Session) : Prop where
  inflight : session'.inflight = session.inflight
  inflightCount : session'.inflightCount = session.inflightCount
  packetIndex : session'.packetIndex = session.packetIndex
  nextPacketId : session'.nextPacketId = session.nextPacketId
  history : session'.history = session.history

lemma SameWindow.advance (session : Session) : SameWindow session session.advanceQueueHead := by
  unfold advanceQueueHead
  split <;> exact ⟨rfl, rfl, rfl, rfl, rfl⟩

lemma SameWindow.makeRoom (session : Session) (maxQueued : Nat) :
    SameWindow session (session.makeQueueRoom maxQueued) := by
  unfold makeQueueRoom compactQueue
  split
  · exact ⟨rfl, rfl, rfl, rfl, rfl⟩
  · split <;> exact ⟨rfl, rfl, rfl, rfl, rfl⟩

lemma Inv.requeue (h : Inv session) (hsame : SameWindow session session')
    (hqueue : QueueOk session') (hwaiting : session'.waiting = session.waiting) : Inv session' where
  queue := hqueue
  window := by
    obtain ⟨hidx, hcount, hbnd, hnext⟩ := h.window
    refine ⟨?_, ?_, ?_, ?_⟩
    · simpa only [packetIds, hsame.inflight, hsame.packetIndex] using hidx
    · simpa only [packetIds, hsame.inflight, hsame.inflightCount] using hcount
    · simpa only [packetIds, hsame.inflight] using hbnd
    · simpa only [hsame.nextPacketId] using hnext
  books := by
    obtain ⟨hserials, hbal⟩ := h.books
    refine ⟨by rw [hsame.history]; exact hserials, ?_⟩
    simpa only [messages, hsame.inflight, hsame.history, hwaiting] using hbal

lemma Inv.advance (h : Inv session) : Inv session.advanceQueueHead :=
  h.requeue (SameWindow.advance session) h.queue.advance (advanceQueueHead_waiting h.queue)

lemma Inv.makeRoom (h : Inv session) (maxQueued : Nat) : Inv (session.makeQueueRoom maxQueued) :=
  h.requeue (SameWindow.makeRoom session maxQueued) (h.queue.makeRoom maxQueued)
    (makeQueueRoom_waiting h.queue maxQueued)

lemma Inv.append (h : Inv session) {publish : OwnedPublish}
    (hserial : publish.serial = session.history.accepted.length)
    (hqos : publish.qos ≠ .atMostOnce) : Inv (session.appendQueued publish) := by
  have hwaiting : (session.appendQueued publish).waiting = session.waiting ++ [publish] := by
    simp [waiting, appendQueued, reduceOption_append]
  refine ⟨⟨?_, ?_, ?_, ?_⟩, ⟨h.window.index, h.window.count, h.window.bounded, h.window.next⟩,
    ⟨?_, ?_⟩⟩
  · have := h.queue.head
    simp only [appendQueued, length_append]
    omega
  · simp only [appendQueued]
    rw [take_append_of_le_length h.queue.head]
    exact h.queue.front
  · rw [hwaiting, length_append, ← h.queue.count]
    rfl
  · intro p hp
    rw [hwaiting, mem_append, mem_singleton] at hp
    rcases hp with hold | rfl
    · exact h.queue.quality p hold
    · exact hqos
  · simp only [appendQueued, map_append, length_append, h.books.serials, map_cons,
      map_nil, hserial, length_singleton]
    rw [range_succ]
  · rw [hwaiting]
    exact h.books.balanced.accept publish

/-! ### The window -/

/-- Slots may be rewritten as long as they keep their messages and identifiers. -/
theorem Inv.rewrite (h : Inv session) {slots : List (Option Inflight)} {resent : List Nat}
    (hids : slots.map (Option.map (·.packetId)) = session.packetIds)
    (hmsgs : slots.map (Option.map (·.publish)) = session.messages) :
    Inv
      { session with
        inflight := slots
        history := { session.history with resent := resent } } := by
  obtain ⟨hidx, hcount, hbnd, hnext⟩ := h.window
  refine ⟨⟨h.queue.head, h.queue.front, h.queue.count, h.queue.quality⟩, ⟨?_, ?_, ?_, hnext⟩,
    ⟨h.books.serials, ?_⟩⟩
  · simpa only [packetIds, hids] using hidx
  · simpa only [packetIds, hids] using hcount
  · simpa only [packetIds, hids] using hbnd
  · simp only [messages, hmsgs]
    exact h.books.balanced

lemma packetIds_getElem? (h : session.inflight[index]? = some (some inflight)) :
    session.packetIds[index]? = some (some inflight.packetId) := by simp [packetIds, h]

lemma messages_getElem? (h : session.inflight[index]? = some (some inflight)) :
    session.messages[index]? = some (some inflight.publish) := by simp [messages, h]

lemma Inv.remove {held : Held} (h : Inv held.session) {index : Nat} {inflight : Inflight}
    (hslot : held.session.inflight[index]? = some (some inflight)) (fate : Fate) :
    Inv (held.removeInflight index inflight fate).session := by
  have hids : (held.removeInflight index inflight fate).session.packetIds
      = held.session.packetIds.set index none := by simp [packetIds, Held.removeInflight]
  have hmsgs : (held.removeInflight index inflight fate).session.messages
      = held.session.messages.set index none := by simp [messages, Held.removeInflight]
  have hpermIds := reduceOption_set_none_perm (packetIds_getElem? hslot)
  have hpermMessages := reduceOption_set_none_perm (messages_getElem? hslot)
  refine ⟨⟨h.queue.head, h.queue.front, h.queue.count, h.queue.quality⟩,
    ⟨?_, ?_, ?_, h.window.next⟩, ⟨h.books.serials, ?_⟩⟩
  · rw [hids]
    exact h.window.index.clear (packetIds_getElem? hslot)
  · rw [hids]
    have hlen := hpermIds.length_eq
    have hcount := h.window.count
    rw [length_cons] at hlen
    simp only [Held.removeInflight]
    omega
  · intro packetId hmem
    rw [hids] at hmem
    exact h.window.bounded packetId ((reduceOption_set_none_sublist _ _).subset hmem)
  · rw [hmsgs]
    exact (h.books.balanced.reorder hpermMessages.symm).finish fate

/-! ### Expiry -/

lemma pruneQueued_waiting (h : QueueOk held.session) (nowNs : Int) :
    (held.pruneQueued nowNs).session.waiting
      = held.session.waiting.filter (fun publish => !Held.hasExpired nowNs publish) := by
  have hfilter : ∀ l : List (Option OwnedPublish),
      (l.map (Option.filter fun publish => !Held.hasExpired nowNs publish)).reduceOption
        = l.reduceOption.filter fun publish => !Held.hasExpired nowNs publish := by
    intro l
    induction l with
    | nil => rfl
    | cons slot rest ih =>
      cases slot with
      | none => simpa using ih
      | some publish =>
        by_cases hp : Held.hasExpired nowNs publish = true
        · simpa [Option.filter, hp] using ih
        · simpa [Option.filter, hp] using ih
  unfold waiting Held.pruneQueued
  rw [reduceOption_append, h.front, hfilter, h.rest]
  rfl

lemma Inv.pruneQueued (h : Inv held.session) (nowNs : Int) :
    Inv (held.pruneQueued nowNs).session := by
  have hwaiting := pruneQueued_waiting h.queue nowNs
  refine ⟨⟨?_, ?_, ?_, ?_⟩, ⟨h.window.index, h.window.count, h.window.bounded, h.window.next⟩,
    ⟨h.books.serials, ?_⟩⟩
  · have := h.queue.head
    simp only [Held.pruneQueued, length_append, length_take]
    omega
  · have hlen : held.session.queuedHead
        = (held.session.queued.take held.session.queuedHead).length := by
      rw [length_take, Nat.min_eq_left h.queue.head]
    simp only [Held.pruneQueued]
    rw [take_append_of_le_length hlen.le,
      take_of_length_le (Nat.le_of_eq hlen.symm)]
    exact h.queue.front
  · have hsplit := (filter_append_perm (Held.hasExpired nowNs) held.session.waiting).length_eq
    rw [length_append] at hsplit
    have hcount := h.queue.count
    rw [hwaiting]
    simp only [Held.pruneQueued, h.queue.rest]
    omega
  · intro publish hmem
    rw [hwaiting] at hmem
    exact h.queue.quality publish (mem_filter.mp hmem).1
  rw [hwaiting]
  simp only [Held.pruneQueued, h.queue.rest]
  exact h.books.balanced.lapse (Held.hasExpired nowNs)

lemma Inv.pruneSlot (h : Inv held.session) (nowNs : Int) (index : Nat) :
    Inv (Held.pruneSlot nowNs held index).session := by
  unfold Held.pruneSlot
  split
  · next inflight hslot =>
      split
      · exact h
      · exact h.remove hslot .expired
  · exact h

lemma Inv.pruneExpired {held : Held} (h : Inv held.session) (nowNs : Int) :
    Inv (held.pruneExpiredPublishes nowNs).session := by
  have hfold : ∀ (indices : List Nat) (held : Held), Inv held.session →
      Inv (indices.foldl (Held.pruneSlot nowNs) held).session := by
    intro indices
    induction indices with
    | nil => intro held h; exact h
    | cons index rest ih =>
      intro held h
      exact ih _ (h.pruneSlot nowNs index)
  exact hfold _ _ (h.pruneQueued nowNs).advance

/-! ### Packet identifiers -/

/-- Inside its range the identifier counts on cyclically. -/
theorem followingPacketId_eq (h : 1 ≤ packetId ∧ packetId ≤ maxU16) :
    followingPacketId packetId = following maxU16 packetId := by
  unfold followingPacketId following maxU16 at *
  split <;> omega

lemma reservePacketIdLoop_eq
    (hnext : 1 ≤ session.nextPacketId ∧ session.nextPacketId ≤ maxU16) :
    reservePacketIdLoop attempts session =
      let found := findFree maxU16 (fun id => (session.packetIndex.get id).isSome) attempts
        session.nextPacketId
      (found.1, { session with nextPacketId := found.2 }) := by
  induction attempts generalizing session with
  | zero => rfl
  | succ attempts ih =>
    unfold reservePacketIdLoop findFree
    simp only [followingPacketId_eq hnext]
    by_cases hused : (session.packetIndex.get session.nextPacketId).isSome = true
    · simp only [hused]
      exact ih (following_bounded hnext)
    · simp only [hused, Bool.false_eq_true, if_false]

/-- **A window with room has a free packet identifier.** -/
theorem WindowOk.reserve (h : WindowOk session) (hroom : session.inflightCount < maxU16) :
    ∃ packetId next, session.reservePacketId
        = (some packetId, { session with nextPacketId := next }) ∧
      (1 ≤ packetId ∧ packetId ≤ maxU16) ∧ session.packetIndex.get packetId = none ∧
      (1 ≤ next ∧ next ≤ maxU16) := by
  have hcard : session.packetIndex.keys.toFinset.card < maxU16 := by
    have hle := toFinset_card_le session.packetIndex.keys
    rw [h.index.keys.length_eq, ← h.count] at hle
    omega
  obtain ⟨packetId, hfound⟩ := findFree_room h.next
    (fun id hused => mem_toFinset.mpr (Table.get_isSome_iff.mp hused)) hcard
  obtain ⟨hbound, hfree⟩ := findFree_some h.next hfound
  have hloop : session.reservePacketId = _ := reservePacketIdLoop_eq h.next
  dsimp only at hloop
  rw [hfound] at hloop
  exact ⟨packetId, _, hloop, hbound, by simpa using hfree, findFree_bounded h.next⟩

end Session

end Netz.Mqtt
