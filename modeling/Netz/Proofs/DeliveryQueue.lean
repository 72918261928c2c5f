/-
The live delivery queue is a FIFO, as long as one place is left for what the writer holds.

`Fifo` says what the queue is for: deliveries enter at the back, the writer takes them off the
front and may put back the one it took.  Its ledger keeps what entered and what left.  The
compactions do not show in it.  A `pushFront` finds a place exactly when fewer deliveries are
live than the queue has capacity for: what entered between the pop and the push may have taken
the last place.
-/
import Netz.Mqtt.DeliveryQueue

namespace Netz.Mqtt

open List

/-! ### Single operations -/

namespace DeliveryQueue

variable {α : Type} {queue : DeliveryQueue α}

lemma length_live (queue : DeliveryQueue α) : queue.live.length = queue.queuedCount := by
  unfold live queuedCount
  rw [length_drop]

lemma popDelivery_nil (h : queue.live = []) : queue.popDelivery = none := by
  have hlen := congrArg length h
  rw [length_live, length_nil] at hlen
  unfold queuedCount at hlen
  unfold popDelivery
  rw [dif_neg (by omega)]

lemma popDelivery_cons {delivery : α} {rest : List α} (h : queue.live = delivery :: rest) :
    ∃ after, queue.popDelivery = some (delivery, after) ∧ after.live = rest ∧
      after.capacity = queue.capacity := by
  have hlen := congrArg length h
  rw [length_live, length_cons] at hlen
  unfold queuedCount at hlen
  have hlt : queue.head < queue.items.length := by omega
  unfold live at h
  rw [drop_eq_getElem_cons hlt] at h
  obtain ⟨hfirst, hrest⟩ := cons.inj h
  unfold popDelivery
  rw [dif_pos hlt, hfirst]
  dsimp only
  split
  · exact ⟨_, rfl, hrest, rfl⟩
  · exact ⟨_, rfl, hrest, rfl⟩

/-- **A popped delivery finds a place again exactly when one is free.** -/
theorem pushFront_ok (delivery : α) (h : queue.live.length < queue.capacity) :
    ∃ after, queue.pushFront delivery = some after ∧ after.live = delivery :: queue.live ∧
      after.capacity = queue.capacity := by
  have hheaded := queue.headed
  unfold pushFront
  by_cases hhead : queue.head ≠ 0
  · rw [if_pos hhead]
    refine ⟨_, rfl, ?_, rfl⟩
    unfold live
    have hlt : queue.head - 1 < (queue.items.set (queue.head - 1) delivery).length := by
      rw [length_set]
      omega
    rw [drop_eq_getElem_cons hlt, getElem_set_self, drop_set_of_lt (by omega),
      show queue.head - 1 + 1 = queue.head by omega]
  have hzero : queue.head = 0 := not_not.mp hhead
  rw [length_live] at h
  unfold queuedCount at h
  rw [dif_pos (by omega)]
  simp [hzero, live]

lemma pushFront_full (delivery : α) (h : queue.capacity ≤ queue.live.length) :
    queue.pushFront delivery = none := by
  have hstored := queue.stored
  have hheaded := queue.headed
  rw [length_live] at h
  unfold queuedCount at h
  unfold pushFront
  by_cases hhead : queue.head ≠ 0
  · omega
  · rw [if_neg hhead, dif_neg (by omega)]

lemma appendAssumeCapacity_ok (delivery : α) (h : queue.items.length < queue.capacity) :
    ∃ after, queue.appendAssumeCapacity delivery = some after ∧
      after.live = queue.live ++ [delivery] ∧ after.capacity = queue.capacity := by
  unfold appendAssumeCapacity
  rw [dif_pos h]
  refine ⟨_, rfl, ?_, rfl⟩
  unfold live
  exact drop_append_of_le_length queue.headed

lemma appendDeliveryAssumeCapacity_ok (delivery : α) (h : queue.live.length < queue.capacity) :
    ∃ after, queue.appendDeliveryAssumeCapacity delivery = some after ∧
      after.live = queue.live ++ [delivery] ∧ after.capacity = queue.capacity := by
  have hstored := queue.stored
  unfold appendDeliveryAssumeCapacity
  by_cases hfull : queue.items.length = queue.capacity ∧ queue.head ≠ 0
  · rw [if_pos hfull]
    exact @appendAssumeCapacity_ok α queue.compact delivery h
  rw [if_neg hfull]
  rw [length_live] at h
  unfold queuedCount at h
  exact appendAssumeCapacity_ok delivery (by omega)

end DeliveryQueue

/-! ### What the queue is for -/

/-- Deliveries in line, the one the writer holds, and the ledger. -/
structure Fifo (α : Type) where
  live : List α := []
  popped : Option α := none
  entered : List α := []
  left : List α := []

namespace Fifo

variable {κ α : Type} [DecidableEq κ] {key : α → κ}

/-- A match joins a delivery of its publication, or enters at the back. -/
def place (fifo : Fifo α) (placing : Placing κ α key) : Fifo α :=
  match mergeFirst key placing.publication placing.merge fifo.live with
  | some merged => { fifo with live := merged }
  | none =>
    { fifo with live := fifo.live ++ [placing.fresh], entered := fifo.entered ++ [placing.fresh] }

def step (limit : Nat) (fifo : Fifo α) : LiveSlot.Op κ α key → Fifo α
  | .route matched => (matched.take (limit - fifo.live.length)).foldl place fifo
  | .replay delivery =>
    if limit ≤ fifo.live.length then fifo
    else { fifo with live := fifo.live ++ [delivery], entered := fifo.entered ++ [delivery] }
  | .pop =>
    match fifo.popped, fifo.live with
    | none, delivery :: rest => { fifo with live := rest, popped := some delivery }
    | _, _ => fifo
  | .pushBack =>
    match fifo.popped with
    | none => fifo
    | some delivery => { fifo with live := delivery :: fifo.live, popped := none }
  | .settle => { fifo with popped := none, left := fifo.left ++ fifo.popped.toList }

def run (limit : Nat) (fifo : Fifo α) (ops : List (LiveSlot.Op κ α key)) : Fifo α :=
  ops.foldl (step limit) fifo

/-- What entered has left, is held by the writer, or is in line, in this order. -/
def Ledger (key : α → κ) (fifo : Fifo α) : Prop :=
  fifo.entered.map key = (fifo.left ++ fifo.popped.toList ++ fifo.live).map key

lemma map_mergeFirst {publication : κ} {merge : α → α} {deliveries merged : List α}
    (hkey : ∀ delivery, key (merge delivery) = key delivery)
    (h : mergeFirst key publication merge deliveries = some merged) :
    merged.map key = deliveries.map key := by
  induction deliveries generalizing merged with
  | nil => cases h
  | cons delivery rest ih =>
    unfold mergeFirst at h
    by_cases hfirst : key delivery = publication
    · rw [if_pos hfirst] at h
      cases h
      rw [map_cons, map_cons, hkey]
    rw [if_neg hfirst, Option.map_eq_some_iff] at h
    obtain ⟨later, hlater, rfl⟩ := h
    rw [map_cons, map_cons, ih hlater]

variable {fifo : Fifo α} {limit : Nat}

lemma Ledger.place (h : fifo.Ledger key) (placing : Placing κ α key) :
    (fifo.place placing).Ledger key := by
  unfold Ledger at h ⊢
  unfold Fifo.place
  split
  · rename_i merged hmerged
    rw [map_append, map_mergeFirst placing.merge_key hmerged, ← map_append, h]
  · dsimp only
    rw [map_append, h, ← map_append, append_assoc]

lemma Ledger.places (h : fifo.Ledger key) (plan : List (Placing κ α key)) :
    (plan.foldl Fifo.place fifo).Ledger key := by
  induction plan generalizing fifo with
  | nil => exact h
  | cons placing rest ih => exact ih (h.place placing)

lemma Ledger.step (h : fifo.Ledger key) (limit : Nat) (op : LiveSlot.Op κ α key) :
    (fifo.step limit op).Ledger key := by
  cases op with
  | route matched => exact h.places _
  | replay delivery =>
    unfold Fifo.step
    dsimp only
    split
    · exact h
    · unfold Ledger at h ⊢
      rw [map_append, h, ← map_append, append_assoc]
  | pop =>
    unfold Fifo.step
    dsimp only
    split
    · rename_i delivery rest hpopped hlive
      unfold Ledger at h ⊢
      rw [h, hpopped, hlive]
      simp
    · exact h
  | pushBack =>
    unfold Fifo.step
    dsimp only
    split
    · exact h
    rename_i delivery hpopped
    unfold Ledger at h ⊢
    rw [h, hpopped]
    simp
  | settle =>
    unfold Ledger at h ⊢
    simp [h, Fifo.step]

/-- **Nothing is lost, handed out twice or reordered.** -/
theorem Ledger.run (h : fifo.Ledger key) (limit : Nat) (ops : List (LiveSlot.Op κ α key)) :
    (fifo.run limit ops).Ledger key := by
  induction ops generalizing fifo with
  | nil => exact h
  | cons op rest ih => exact ih (h.step limit op)

/-- There is a place for a delivery that is put back. -/
def ClearStep (capacity : Nat) (fifo : Fifo α) : LiveSlot.Op κ α key → Prop
  | .pushBack => fifo.popped.isSome → fifo.live.length < capacity
  | _ => True

def Clear (limit capacity : Nat) (fifo : Fifo α) : List (LiveSlot.Op κ α key) → Prop
  | [] => True
  | op :: rest => fifo.ClearStep capacity op ∧ (fifo.step limit op).Clear limit capacity rest

/-! ### Room -/

/-- The deliveries in line, and the one that may come back. -/
def inHand (fifo : Fifo α) : Nat := fifo.live.length + fifo.popped.toList.length

lemma length_place_le (fifo : Fifo α) (placing : Placing κ α key) :
    (fifo.place placing).live.length ≤ fifo.live.length + 1 ∧
      (fifo.place placing).popped = fifo.popped := by
  unfold place
  split
  · rename_i merged hmerged
    simp [length_mergeFirst hmerged]
  · simp

lemma length_places_le (fifo : Fifo α) (plan : List (Placing κ α key)) :
    (plan.foldl place fifo).live.length ≤ fifo.live.length + plan.length ∧
      (plan.foldl place fifo).popped = fifo.popped := by
  induction plan generalizing fifo with
  | nil => exact ⟨Nat.le_refl _, rfl⟩
  | cons placing rest ih =>
    obtain ⟨hlen, hpopped⟩ := ih (fifo.place placing)
    obtain ⟨hplace, hheld⟩ := fifo.length_place_le placing
    rw [foldl_cons, length_cons]
    exact ⟨by omega, hpopped.trans hheld⟩

lemma length_popped_le (fifo : Fifo α) : fifo.popped.toList.length ≤ 1 := by
  cases fifo.popped with
  | none => exact Nat.zero_le 1
  | some delivery => exact Nat.le_refl 1

/-- **One more than the limit is all there ever is**, counting what the writer holds. -/
theorem inHand_step (h : fifo.inHand ≤ limit + 1) (op : LiveSlot.Op κ α key) :
    (fifo.step limit op).inHand ≤ limit + 1 := by
  have hpopped := fifo.length_popped_le
  unfold inHand at h ⊢
  cases op with
  | route matched =>
    unfold step
    dsimp only
    obtain ⟨hlen, hheld⟩ := fifo.length_places_le (matched.take (limit - fifo.live.length))
    rw [length_take] at hlen
    rw [hheld]
    omega
  | replay delivery =>
    unfold step
    dsimp only
    split
    · exact h
    dsimp only
    rw [length_append, length_singleton]
    omega
  | pop =>
    unfold step
    dsimp only
    split
    · rename_i delivery rest hnone hlive
      rw [hlive, hnone] at h
      exact h
    · exact h
  | pushBack =>
    unfold step
    dsimp only
    split
    · exact h
    rename_i delivery hsome
    rw [hsome] at h
    exact h
  | settle =>
    unfold step
    dsimp only
    have hzero : (none : Option α).toList.length = 0 := rfl
    omega

lemma inHand_run (h : fifo.inHand ≤ limit + 1) (ops : List (LiveSlot.Op κ α key)) :
    (fifo.run limit ops).inHand ≤ limit + 1 := by
  induction ops generalizing fifo with
  | nil => exact h
  | cons op rest ih => exact ih (inHand_step h op)

lemma clear_of_inHand {capacity : Nat} (hroom : limit < capacity) (h : fifo.inHand ≤ limit + 1)
    (ops : List (LiveSlot.Op κ α key)) : fifo.Clear limit capacity ops := by
  induction ops generalizing fifo with
  | nil => trivial
  | cons op rest ih =>
    refine ⟨?_, ih (inHand_step h op)⟩
    cases op with
    | pushBack =>
      intro hsome
      obtain ⟨delivery, hpopped⟩ := Option.isSome_iff_exists.mp hsome
      unfold inHand at h
      rw [hpopped] at h
      have hone : (some delivery : Option α).toList.length = 1 := rfl
      omega
    | route | replay | pop | settle => trivial

end Fifo

/-! ### The slot refines it -/

namespace LiveSlot

variable {κ α : Type} [DecidableEq κ] {key : α → κ}

/-- The slot holds what the FIFO holds; no place is reserved between two operations. -/
structure Refines (capacity : Nat) (slot : LiveSlot α) (fifo : Fifo α) : Prop where
  live : slot.queue.live = fifo.live
  popped : slot.popped = fifo.popped
  capacity_eq : slot.queue.capacity = capacity

omit [DecidableEq κ] in
/-- The first pass takes as many matches as there are places. -/
theorem reservePlaces_eq (limit : Nat) (slot : LiveSlot α) (matched : List (Placing κ α key)) :
    let places := limit - (slot.queue.queuedCount + slot.routeReservations)
    slot.reservePlaces limit matched = (matched.take places,
      { slot with routeReservations := slot.routeReservations + (matched.take places).length }) := by
  induction matched generalizing slot with
  | nil =>
    unfold reservePlaces
    simp
  | cons placing rest ih =>
    unfold reservePlaces
    by_cases hfull : limit ≤ slot.queue.queuedCount + slot.routeReservations
    · simp [hfull, ih, Nat.sub_eq_zero_of_le hfull]
    rw [if_neg hfull, ih]
    obtain ⟨places, hplaces⟩ : ∃ places,
        limit - (slot.queue.queuedCount + slot.routeReservations) = places + 1 :=
      ⟨limit - (slot.queue.queuedCount + slot.routeReservations) - 1, by omega⟩
    have hnext : limit - (slot.queue.queuedCount + (slot.routeReservations + 1)) = places := by
      omega
    dsimp only
    rw [hplaces, hnext, take_succ_cons, length_cons]
    congr 2
    omega

variable {capacity limit : Nat} {slot : LiveSlot α} {fifo : Fifo α}

lemma mergeQueued_eq (h : slot.Refines capacity fifo) (placing : Placing κ α key) :
    (∀ merged, mergeFirst key placing.publication placing.merge fifo.live = some merged →
      ∃ after, slot.mergeQueued placing = some after ∧
        after.Refines capacity { fifo with live := merged } ∧
        after.routeReservations = slot.routeReservations) ∧
    (mergeFirst key placing.publication placing.merge fifo.live = none →
      slot.mergeQueued placing = none) := by
  rw [← h.live]
  unfold mergeQueued
  refine ⟨fun merged hmerged => ?_, fun hnone => ?_⟩
  · split
    · rename_i hnone
      simp [hmerged] at hnone
    rename_i found hfound
    rw [hmerged] at hfound
    cases hfound
    refine ⟨_, rfl, ⟨?_, h.popped, h.capacity_eq⟩, rfl⟩
    unfold DeliveryQueue.live
    rw [drop_left' (by rw [length_take]; exact Nat.min_eq_left slot.queue.headed)]
  split
  · rfl
  · rename_i found hfound
    simp [hnone] at hfound

lemma enqueueMatch_ok (h : slot.Refines capacity fifo) (placing : Placing κ α key)
    (hroom : fifo.live.length < capacity) :
    ∃ after, slot.enqueueMatch placing = some after ∧
      after.Refines capacity (fifo.place placing) ∧
      after.routeReservations = slot.routeReservations := by
  unfold enqueueMatch Fifo.place
  obtain ⟨hmerge, hfresh⟩ := mergeQueued_eq h placing
  cases hfirst : mergeFirst key placing.publication placing.merge fifo.live with
  | some merged =>
    obtain ⟨after, hafter, hrefines, hreserved⟩ := hmerge merged hfirst
    rw [hafter]
    exact ⟨after, rfl, hrefines, hreserved⟩
  | none =>
    rw [hfresh hfirst]
    obtain ⟨queue, hqueue, hlive, hcap⟩ := slot.queue.appendDeliveryAssumeCapacity_ok
      placing.fresh (by rw [h.live, h.capacity_eq]; exact hroom)
    rw [hqueue]
    refine ⟨_, rfl, ⟨?_, h.popped, hcap.trans h.capacity_eq⟩, rfl⟩
    rw [← h.live]
    exact hlive

lemma enqueueMatches_ok (h : slot.Refines capacity fifo) (plan : List (Placing κ α key))
    (hroom : fifo.live.length + plan.length ≤ capacity) :
    ∃ after, slot.enqueueMatches plan = some after ∧
      after.Refines capacity (plan.foldl Fifo.place fifo) ∧
      after.routeReservations = slot.routeReservations := by
  induction plan generalizing slot fifo with
  | nil => exact ⟨slot, rfl, h, rfl⟩
  | cons placing rest ih =>
    rw [length_cons] at hroom
    obtain ⟨placed, hplaced, hrefines, hreserved⟩ := enqueueMatch_ok h placing (by omega)
    have hlen := (fifo.length_place_le placing).1
    obtain ⟨after, hafter, hlast, hkept⟩ := ih hrefines (by omega)
    refine ⟨after, ?_, hlast, hkept.trans hreserved⟩
    simp [hplaced, hafter, enqueueMatches]

/-- **A step of the slot is a step of the FIFO**, and fails exactly where no place is left. -/
theorem step_refines (hlim : limit ≤ capacity) (h : slot.Refines capacity fifo)
    (hreserved : slot.routeReservations = 0) (op : LiveSlot.Op κ α key) :
    (fifo.ClearStep capacity op → ∃ after, slot.step limit op = some after ∧
      after.Refines capacity (fifo.step limit op) ∧ after.routeReservations = 0) ∧
    (¬ fifo.ClearStep capacity op → slot.step limit op = none) := by
  have hcount : slot.queue.queuedCount = fifo.live.length := by
    rw [← h.live, DeliveryQueue.length_live]
  cases op with
  | route matched =>
    refine ⟨fun _ => ?_, fun hnot => absurd trivial hnot⟩
    have hplan := reservePlaces_eq limit slot matched
    rw [hcount, hreserved] at hplan
    dsimp only at hplan
    rw [Nat.add_zero, Nat.zero_add] at hplan
    have hrefines : ({ slot with routeReservations :=
        (matched.take (limit - fifo.live.length)).length } : LiveSlot α).Refines capacity fifo :=
      ⟨h.live, h.popped, h.capacity_eq⟩
    by_cases hfull : limit ≤ fifo.live.length
    · rw [Nat.sub_eq_zero_of_le hfull] at hplan
      refine ⟨{ slot with routeReservations := 0 }, ?_, ?_, rfl⟩
      · show (slot.enqueueLive limit matched) = _
        unfold enqueueLive
        rw [hplan]
        rfl
      show Refines capacity _ ((matched.take (limit - fifo.live.length)).foldl Fifo.place fifo)
      rw [Nat.sub_eq_zero_of_le hfull]
      exact ⟨h.live, h.popped, h.capacity_eq⟩
    obtain ⟨after, hafter, hlast, hkept⟩ := enqueueMatches_ok hrefines
      (matched.take (limit - fifo.live.length)) (by rw [length_take]; omega)
    refine ⟨{ after with routeReservations := 0 }, ?_, ⟨hlast.live, hlast.popped,
      hlast.capacity_eq⟩, rfl⟩
    show slot.enqueueLive limit matched = _
    unfold enqueueLive
    rw [hplan]
    dsimp only
    rw [hafter]
    simp [hkept]
  | replay delivery =>
    refine ⟨fun _ => ?_, fun hnot => absurd trivial hnot⟩
    unfold step enqueueRetained Fifo.step
    dsimp only
    rw [hcount]
    by_cases hfull : limit ≤ fifo.live.length
    · rw [if_pos hfull, if_pos hfull]
      exact ⟨slot, rfl, h, hreserved⟩
    rw [if_neg hfull, if_neg hfull]
    obtain ⟨queue, hqueue, hlive, hcap⟩ := slot.queue.appendDeliveryAssumeCapacity_ok
      delivery (by rw [h.live, h.capacity_eq]; omega)
    rw [hqueue]
    refine ⟨_, rfl, ⟨?_, h.popped, hcap.trans h.capacity_eq⟩, hreserved⟩
    rw [← h.live]
    exact hlive
  | pop =>
    refine ⟨fun _ => ⟨slot.pop, rfl, ?_⟩, fun hnot => absurd trivial hnot⟩
    unfold pop Fifo.step
    rw [h.popped]
    cases hheld : fifo.popped with
    | some held => exact ⟨h, hreserved⟩
    | none =>
      cases hlive : fifo.live with
      | nil =>
        rw [DeliveryQueue.popDelivery_nil (h.live.trans hlive)]
        exact ⟨h, hreserved⟩
      | cons delivery rest =>
        obtain ⟨queue, hqueue, hrest, hcap⟩ :=
          DeliveryQueue.popDelivery_cons (h.live.trans hlive)
        rw [hqueue]
        exact ⟨⟨hrest, rfl, hcap.trans h.capacity_eq⟩, hreserved⟩
  | pushBack =>
    unfold Fifo.ClearStep step pushBack Fifo.step
    rw [h.popped]
    cases hheld : fifo.popped with
    | none => exact ⟨fun _ => ⟨slot, rfl, h, hreserved⟩,
        fun hnot => absurd (fun hsome => Bool.noConfusion hsome) hnot⟩
    | some delivery =>
      dsimp only
      refine ⟨fun hclear => ?_, fun hnot => ?_⟩
      · obtain ⟨queue, hqueue, hlive, hcap⟩ := slot.queue.pushFront_ok delivery
          (by rw [h.live, h.capacity_eq]; exact hclear rfl)
        rw [hqueue]
        refine ⟨_, rfl, ⟨?_, rfl, hcap.trans h.capacity_eq⟩, hreserved⟩
        rw [← h.live]
        exact hlive
      have hfull : slot.queue.capacity ≤ slot.queue.live.length := by
        rw [h.live, h.capacity_eq]
        exact Nat.le_of_not_lt fun hlt => hnot fun _ => hlt
      rw [slot.queue.pushFront_full delivery hfull]
      rfl
  | settle =>
    exact ⟨fun _ => ⟨slot.settle, rfl, ⟨h.live, rfl, h.capacity_eq⟩, hreserved⟩,
      fun hnot => absurd trivial hnot⟩

lemma run_refines (hlim : limit ≤ capacity) (h : slot.Refines capacity fifo)
    (hreserved : slot.routeReservations = 0) (ops : List (LiveSlot.Op κ α key)) :
    (fifo.Clear limit capacity ops → ∃ after, slot.run limit ops = some after ∧
      after.Refines capacity (fifo.run limit ops)) ∧
    (¬ fifo.Clear limit capacity ops → slot.run limit ops = none) := by
  induction ops generalizing slot fifo with
  | nil => exact ⟨fun _ => ⟨slot, rfl, h⟩, fun hnot => absurd trivial hnot⟩
  | cons op rest ih =>
    obtain ⟨hok, hfail⟩ := step_refines hlim h hreserved op
    unfold Fifo.Clear run
    by_cases hclear : fifo.ClearStep capacity op
    · obtain ⟨after, hafter, hrefines, hzero⟩ := hok hclear
      obtain ⟨hrest, hnone⟩ := ih hrefines hzero
      rw [hafter]
      refine ⟨fun hboth => hrest hboth.2, fun hnot => hnone fun hlater => hnot ⟨hclear, hlater⟩⟩
    · rw [hfail hclear]
      exact ⟨fun hboth => absurd hboth.1 hclear, fun _ => rfl⟩

lemma start_refines (capacity : Nat) : (start capacity : LiveSlot α).Refines capacity {} :=
  ⟨rfl, rfl, rfl⟩

/-- **The queue is a FIFO in exactly the runs in which a delivery that is put back finds a
place**; with more capacity than the limit these are all runs. -/
theorem live_queue_fifo_iff (key : α → κ) {limit capacity : Nat} (hlimit : limit ≤ capacity)
    (ops : List (LiveSlot.Op κ α key)) :
    let fifo := Fifo.run limit ({} : Fifo α) ops
    ((∃ slot, (start capacity).run limit ops = some slot ∧ slot.queue.live = fifo.live ∧
        slot.popped = fifo.popped) ↔ Fifo.Clear limit capacity ({} : Fifo α) ops) ∧
      fifo.entered.map key = (fifo.left ++ fifo.popped.toList ++ fifo.live).map key ∧
      fifo.live.length ≤ limit + 1 ∧
      (limit < capacity → Fifo.Clear limit capacity ({} : Fifo α) ops) := by
  have hempty : ({} : Fifo α).inHand ≤ limit + 1 := Nat.zero_le _
  obtain ⟨hok, hfail⟩ := run_refines hlimit (start_refines capacity) rfl ops
  refine ⟨⟨fun hrun => ?_, fun hclear => ?_⟩, ?_, ?_, fun hroom => ?_⟩
  · obtain ⟨slot, hslot, -⟩ := hrun
    by_contra hnot
    simp [hfail hnot] at hslot
  · obtain ⟨slot, hslot, hrefines⟩ := hok hclear
    exact ⟨slot, hslot, hrefines.live, hrefines.popped⟩
  · have hledger : ({} : Fifo α).Ledger key := rfl
    exact hledger.run limit ops
  · have hroom := Fifo.inHand_run hempty ops
    unfold Fifo.inHand at hroom
    omega
  · exact Fifo.clear_of_inHand hroom hempty ops

/-- One delivery more than the limit: the second enters while the writer holds the first. -/
theorem live_queue_fifo_five :
    let ops : List (Op Nat Nat id) := [.replay 1, .pop, .replay 2, .pushBack, .pop]
    ((∃ slot, (start 2).run 1 ops = some slot ∧ slot.queue.live = (Fifo.run 1 {} ops).live ∧
        slot.popped = (Fifo.run 1 {} ops).popped) ↔ Fifo.Clear 1 2 {} ops) ∧
      (Fifo.run 1 {} ops).live = [2] ∧ (Fifo.run 1 {} ops).popped = some 1 :=
  ⟨(live_queue_fifo_iff id (by decide) _).1, by decide, by decide⟩

/-- **The last place can be taken while the writer holds a delivery**, and then the assertion of
`pushFront` fails. -/
theorem live_queue_loses_place :
    ¬ ∃ slot, (start 1).run 1 [(Op.replay 1 : Op Nat Nat id), .pop, .replay 2, .pushBack] =
      some slot := by
  have hrun : (start 1).run 1 [(Op.replay 1 : Op Nat Nat id), .pop, .replay 2, .pushBack] =
      none := by decide
  simp [hrun]

end LiveSlot

end Netz.Mqtt
