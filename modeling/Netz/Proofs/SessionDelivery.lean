/-
Draining a session.

`drainInto` prunes what has expired, sends again what is marked, and moves messages from the
queue into the window.  Each part keeps the session in order, and the move never runs out of
packet identifiers: the call checks the room it needs before it takes the first message.
-/
import Netz.Proofs.Session

namespace Netz.Mqtt

open Lib List

namespace Session

/-! ### One message -/

/-- The session after `inflight` has moved from slot `index` of the queue into the window. -/
def moved (session : Session) (index next : Nat) (inflight : Inflight) : Session :=
  addInflight
    { session with
      queued := session.queued.set index none
      queuedCount := session.queuedCount - 1
      nextPacketId := next }
    inflight

/-- What a message looks like when it enters the window. -/
structure Fresh (session : Session) (publish : OwnedPublish) (inflight : Inflight) : Prop where
  publish : inflight.publish = publish
  unused : session.packetIndex.get inflight.packetId = none
  bounded : 1 ≤ inflight.packetId ∧ inflight.packetId ≤ maxU16
  sent : inflight.needsSend = false
  unreleased : inflight.state ≠ .awaitPubcomp
  first : inflight.retransmission = false

variable {session : Session} {index next : Nat} {publish : OwnedPublish} {inflight : Inflight}
  {loop : DrainLoop} {held : Held}

/-- **While there is room a message moves, under an identifier nothing else uses.** -/
theorem moveQueued_ok (h : Inv session) (hslot : session.queued[index]? = some (some publish))
    (hroom : session.inflightCount < maxU16) (nowNs : Int) :
    ∃ inflight next, Fresh session publish inflight ∧ (1 ≤ next ∧ next ≤ maxU16) ∧
      session.moveQueued nowNs index publish = (.ok (.publish (publishTransmission inflight nowNs)),
            session.moved index next inflight) := by
  have htaken : WindowOk
      { session with
        queued := session.queued.set index none
        queuedCount := session.queuedCount - 1 } :=
    ⟨h.window.index, h.window.count, h.window.bounded, h.window.next⟩
  obtain ⟨packetId, next, hres, hbound, hfree, hnext⟩ := htaken.reserve hroom
  have hmem : publish ∈ session.waiting :=
    reduceOption_mem_iff.mpr (mem_of_getElem? hslot)
  have hstate : ∃ state, initialState publish.qos = some state ∧ state ≠ .awaitPubcomp := by
    cases hqos : publish.qos with
    | atMostOnce => exact absurd hqos (h.queue.quality publish hmem)
    | atLeastOnce | exactlyOnce => exact ⟨_, rfl, by decide⟩
  obtain ⟨state, hinit, hunreleased⟩ := hstate
  refine ⟨⟨publish, packetId, state, false, false⟩, next, ⟨rfl, hfree, hbound, rfl, hunreleased, rfl⟩,
    hnext, ?_⟩
  unfold moveQueued
  simp only [hres, hinit]
  rfl

lemma Inv.move (h : Inv session) (hslot : session.queued[index]? = some (some publish))
    (hpassed : (session.queued.take index).reduceOption = [])
    (hfresh : Fresh session publish inflight) (hnext : 1 ≤ next ∧ next ≤ maxU16) :
    Inv (session.moved index next inflight) := by
  obtain ⟨rfl, hunused, hbound, -, -, -⟩ := hfresh
  have hwaiting : session.waiting
      = inflight.publish :: (session.moved index next inflight).waiting :=
    reduceOption_set_none_first hslot hpassed
  have hids : (session.moved index next inflight).packetIds
      = insertSlot inflight.packetId session.packetIds :=
    map_insertSlot Inflight.packetId inflight session.inflight
  have hmsgs : (session.moved index next inflight).messages
      = insertSlot inflight.publish session.messages :=
    map_insertSlot Inflight.publish inflight session.inflight
  have hperm := reduceOption_insertSlot_perm inflight.packetId session.packetIds
  refine ⟨⟨?_, ?_, ?_, ?_⟩, ⟨?_, ?_, ?_, hnext⟩, ⟨h.books.serials, ?_⟩⟩
  · simpa [moved, addInflight] using h.queue.head
  · have hsub := reduceOption_set_none_sublist (session.queued.take session.queuedHead) index
    rw [h.queue.front, sublist_nil] at hsub
    simp [moved, addInflight, take_set, hsub]
  · have hcount := h.queue.count
    rw [hwaiting, length_cons] at hcount
    simp only [moved, addInflight] at hcount ⊢
    omega
  · intro p hp
    exact h.queue.quality p (by rw [hwaiting]; exact mem_cons_of_mem _ hp)
  · rw [hids]
    have hplace : vacantSlot session.inflight = vacantSlot session.packetIds :=
      (vacantSlot_map Inflight.packetId session.inflight).symm
    simp only [moved, addInflight, appendOrReuseAssumeCapacity, hplace]
    exact h.window.index.insert hunused
  · rw [hids, hperm.length_eq, length_cons, ← h.window.count]
    rfl
  · intro packetId hmem
    rw [hids, hperm.mem_iff, mem_cons] at hmem
    rcases hmem with rfl | hold
    · exact hbound
    · exact h.window.bounded packetId hold
  rw [hmsgs]
  have hbal := h.books.balanced
  rw [hwaiting] at hbal
  exact hbal.depart.reorder (reduceOption_insertSlot_perm _ _)

/-! ### The loop over the queue -/

/-- What the loop keeps: the session in order, nothing left behind the index, and room for
everything still to be moved. -/
structure LoopOk (loop : DrainLoop) : Prop where
  inv : Inv loop.session
  index : loop.queueIndex ≤ loop.session.queued.length
  passed : (loop.session.queued.take loop.queueIndex).reduceOption = []
  room : loop.session.inflightCount + loop.available ≤ maxU16

/-- A condition that holds of the loop and survives every slot holds at its end, which is
reached without an error. -/
theorem drainLoop_induction (nowNs : Int) (P : DrainLoop → Prop)
    (hskip : ∀ loop, P loop → loop.session.queued[loop.queueIndex]? = some none →
      P { loop with queueIndex := loop.queueIndex + 1 })
    (hmove : ∀ loop publish, P loop → loop.available ≠ 0 →
      loop.session.queued[loop.queueIndex]? = some (some publish) → ∃ transmission session,
        loop.session.moveQueued nowNs loop.queueIndex publish = (.ok transmission, session) ∧
        P { session := session, out := loop.out ++ [transmission],
            available := loop.available - 1, queueIndex := loop.queueIndex + 1 }) :
    ∀ slots loop, P loop → ∃ loop', drainLoop nowNs slots loop = (none, loop') ∧ P loop' := by
  intro slots
  induction slots with
  | zero => intro loop hP; exact ⟨loop, rfl, hP⟩
  | succ slots ih =>
    intro loop hP
    unfold drainLoop
    by_cases hdone : loop.available = 0
    · rw [if_pos hdone]
      exact ⟨loop, rfl, hP⟩
    rw [if_neg hdone]
    cases hslot : loop.session.queued[loop.queueIndex]? with
    | none => exact ⟨loop, rfl, hP⟩
    | some slot =>
      cases slot with
      | none => exact ih _ (hskip loop hP hslot)
      | some publish =>
        obtain ⟨transmission, session, hmoved, hnext⟩ := hmove loop publish hP hdone hslot
        simp only [hmoved]
        exact ih _ hnext

lemma LoopOk.skip (h : LoopOk loop) (hslot : loop.session.queued[loop.queueIndex]? = some none) :
    LoopOk { loop with queueIndex := loop.queueIndex + 1 } where
  inv := h.inv
  index := lt_of_getElem? hslot
  passed := by simp [take_add_one, hslot, reduceOption_append, h.passed]
  room := h.room

lemma LoopOk.move (h : LoopOk loop) (havailable : loop.available ≠ 0)
    (hslot : loop.session.queued[loop.queueIndex]? = some (some publish))
    (hfresh : Fresh loop.session publish inflight) (hnext : 1 ≤ next ∧ next ≤ maxU16)
    (out : List Transmission) :
    LoopOk
      { session := loop.session.moved loop.queueIndex next inflight, out := out,
        available := loop.available - 1, queueIndex := loop.queueIndex + 1 } where
  inv := h.inv.move hslot h.passed hfresh hnext
  index := by
    have := lt_of_getElem? hslot
    simpa [moved, addInflight] using Nat.succ_le_of_lt this
  passed := by
    have hlt := lt_of_getElem? hslot
    simp only [moved, addInflight]
    rw [List.take_add_one, List.take_set,
      List.set_eq_of_length_le (by rw [List.length_take]; omega), List.getElem?_set_self hlt,
      List.reduceOption_append, h.passed]
    rfl
  room := by
    have := h.room
    simp only [moved, addInflight]
    omega

/-- **Draining the queue succeeds and keeps the session in order.** -/
theorem Inv.drainQueue (h : Inv session) (nowNs : Int) (out : List Transmission) {available : Nat}
    (hroom : session.inflightCount + available ≤ maxU16) :
    (∃ more, (session.drainQueue nowNs out available).1 = .ok more) ∧
      Inv (session.drainQueue nowNs out available).2 := by
  obtain ⟨loop, hloop, hok⟩ := drainLoop_induction nowNs LoopOk
    (fun loop hok hslot => hok.skip hslot) (fun loop publish hok havailable hslot => by
      have hlt : loop.session.inflightCount < maxU16 := by
        have := hok.room
        omega
      obtain ⟨inflight, next, hfresh, hnext, hmoved⟩ := moveQueued_ok hok.inv hslot hlt nowNs
      exact ⟨_, _, hmoved, hok.move havailable hslot hfresh hnext _⟩)
    session.queued.length
    { session := session, out := out, available := available, queueIndex := session.queuedHead }
    ⟨h, h.queue.head, h.queue.front, hroom⟩
  unfold Session.drainQueue
  rw [hloop]
  refine ⟨⟨_, rfl⟩, Inv.advance (Inv.requeue hok.inv ⟨rfl, rfl, rfl, rfl, rfl⟩ ?_ rfl)⟩
  exact ⟨hok.index, hok.passed, hok.inv.queue.count, hok.inv.queue.quality⟩

/-! ### Sending again -/

/-- The first loop of `drainInto` clears `needsSend` in some slots and touches nothing else. -/
theorem resendLoop_map {β : Type} (f : Inflight → β)
    (hf : ∀ inflight, f { inflight with needsSend := false } = f inflight) (nowNs : Int)
    (receiveMaximum capacity : Nat) :
    ∀ (slots : List (Option Inflight)) (out : List Transmission) (used : Nat),
      (resendLoop nowNs receiveMaximum capacity slots out used).slots.map (Option.map f)
        = slots.map (Option.map f) := by
  intro slots
  induction slots with
  | nil => intro out used; rfl
  | cons slot rest ih =>
    intro out used
    cases slot with
    | none =>
      unfold resendLoop
      split
      · rfl
      · simp only [map_cons, ih]
    | some inflight =>
      unfold resendLoop
      simp only
      split
      · rfl
      split
      · simp only [map_cons, ih]
      · simp only [map_cons, ih, Option.map_some, hf]

lemma Inv.afterResend (h : Inv session) (nowNs : Int) (receiveMaximum capacity : Nat) :
    Inv (session.afterResend (session.resend nowNs receiveMaximum capacity)) :=
  h.rewrite (resendLoop_map Inflight.packetId (fun _ => rfl) _ _ _ _ _ _)
    (resendLoop_map Inflight.publish (fun _ => rfl) _ _ _ _ _ _)

lemma Inv.noteResent (h : Inv session) (out : List Transmission) : Inv (session.noteResent out) :=
  h.rewrite rfl rfl

/-- **Draining keeps a session in order**, whether it succeeds or not. -/
theorem Inv.drainInto (h : Inv held.session) (maxInflightPerSession : Nat) (nowNs : Int)
    (receiveMaximum capacity : Nat) (memory : Bool) :
    Inv (held.drainInto maxInflightPerSession nowNs receiveMaximum capacity memory).2.session := by
  have hkept := (h.pruneExpired nowNs).afterResend nowNs receiveMaximum capacity
  have hresent := hkept.noteResent
    ((held.pruneExpiredPublishes nowNs).session.resend nowNs receiveMaximum capacity).out
  unfold Held.drainInto
  simp only
  split
  · exact hresent
  split
  · exact hresent
  split
  · exact hkept
  next hfull =>
    split
    · exact hkept
    · have hlim := Nat.min_le_right maxInflightPerSession maxU16
      exact (hresent.drainQueue nowNs _ (by simp only [Session.noteResent]; omega)).2

/-! ### Acknowledgements -/

lemma Inv.setInflight (h : Inv session) {inflight' : Inflight}
    (hslot : session.inflight[index]? = some (some inflight))
    (hid : inflight'.packetId = inflight.packetId)
    (hpublish : inflight'.publish = inflight.publish) :
    Inv (session.setInflight index inflight') := by
  have hkeep : ∀ {β : Type} (f : Inflight → β), f inflight' = f inflight →
      (session.inflight.set index (some inflight')).map (Option.map f)
        = session.inflight.map (Option.map f) := by
    intro β f hf
    apply List.ext_getElem?
    intro i
    rw [List.map_set, List.getElem?_set, List.getElem?_map]
    by_cases hi : index = i
    · subst hi
      obtain ⟨hlt, hvalue⟩ := List.getElem_of_getElem? hslot
      simp [hlt, hvalue, hf]
    · simp [hi]
  exact h.rewrite (hkeep Inflight.packetId hid) (hkeep Inflight.publish hpublish)

lemma Inv.retryUnsentPublish (h : Inv held.session) (packetId : Nat) :
    Inv (held.retryUnsentPublish packetId).2.session := by
  unfold Held.retryUnsentPublish
  simp only
  split
  · exact h
  split
  · next index _ inflight hslot =>
      split
      · exact h
      · exact h.setInflight hslot rfl rfl
  · exact h

lemma Inv.handleAck (h : Inv held.session) (packetType : PacketType) (packetId reasonCode : Nat) :
    Inv (held.handleAck packetType packetId reasonCode).2.session := by
  unfold Held.handleAck
  split
  · exact h
  split
  · next index _ inflight hslot =>
      unfold Held.acknowledge
      split
      · split
        · exact h.remove hslot .acknowledged
        · exact h
      · split
        · split
          · exact h.remove hslot .refused
          · exact h.setInflight hslot rfl rfl
        · exact h
      · split
        · exact h.remove hslot .acknowledged
        · exact h
      · exact h
  · exact h

lemma Inv.dropOversizedPublish (h : Inv held.session) (packetId : Nat) :
    Inv (held.dropOversizedPublish packetId).2.session := by
  unfold Held.dropOversizedPublish
  split
  · exact h
  split
  · next index _ inflight hslot =>
      split
      · exact h
      · exact h.remove hslot .oversized
  · exact h

lemma Inv.markInflight (h : Inv session) : Inv session.markInflight :=
  h.rewrite (by simp [packetIds, Function.comp_def, markForRetransmission])
    (by simp [messages, Function.comp_def, markForRetransmission])

end Session

end Netz.Mqtt
