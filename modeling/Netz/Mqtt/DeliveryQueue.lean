/-
The live delivery queue of a client slot (`mqtt/broker.zig`).

An array list with a consumed prefix in front of `head`.  Two compactions reclaim the prefix, and
no operation allocates: an append without room is a failed assertion, which is `none` here.  The
state lock is held for a whole fan-out, but not between the writer's `popDelivery` and the
`pushFront` that follows a write the peer had no credit for.
-/
import Mathlib.Data.List.Basic

namespace Netz.Mqtt

open List

/-- `queue` and `queue_head` of a slot. -/
structure DeliveryQueue (α : Type) where
  items : List α := []
  head : Nat := 0
  capacity : Nat
  headed : head ≤ items.length := by simp
  stored : items.length ≤ capacity := by simp

namespace DeliveryQueue

variable {α : Type}

/-- The deliveries that have not been popped. -/
def live (queue : DeliveryQueue α) : List α := queue.items.drop queue.head

def queuedCount (queue : DeliveryQueue α) : Nat := queue.items.length - queue.head

/-- `copyForwards` of what is left, and the shorter length. -/
def compact (queue : DeliveryQueue α) : DeliveryQueue α where
  items := queue.items.drop queue.head
  head := 0
  capacity := queue.capacity
  headed := Nat.zero_le _
  stored := by
    have hstored := queue.stored
    rw [length_drop]
    omega

def popDelivery (queue : DeliveryQueue α) : Option (α × DeliveryQueue α) :=
  if h : queue.head < queue.items.length then
    let popped : DeliveryQueue α := { queue with head := queue.head + 1, headed := h }
    if 64 ≤ popped.head ∧ popped.items.length ≤ popped.head * 2 then
      some (queue.items[queue.head], popped.compact)
    else some (queue.items[queue.head], popped)
  else none

def pushFront (queue : DeliveryQueue α) (delivery : α) : Option (DeliveryQueue α) :=
  if queue.head ≠ 0 then
    some { items := queue.items.set (queue.head - 1) delivery
           head := queue.head - 1
           capacity := queue.capacity
           headed := by
             have hheaded := queue.headed
             rw [length_set]
             omega
           stored := by
             rw [length_set]
             exact queue.stored }
  else if h : queue.items.length < queue.capacity then
    some { items := delivery :: queue.items, head := 0, capacity := queue.capacity, stored := h }
  else none

/-- `queue.appendAssumeCapacity`, behind its assertion. -/
def appendAssumeCapacity (queue : DeliveryQueue α) (delivery : α) : Option (DeliveryQueue α) :=
  if h : queue.items.length < queue.capacity then
    some { items := queue.items ++ [delivery]
           head := queue.head
           capacity := queue.capacity
           headed := by
             have hheaded := queue.headed
             rw [length_append]
             omega
           stored := by
             rw [length_append]
             exact h }
  else none

def appendDeliveryAssumeCapacity (queue : DeliveryQueue α) (delivery : α) :
    Option (DeliveryQueue α) :=
  if queue.items.length = queue.capacity ∧ queue.head ≠ 0 then
    queue.compact.appendAssumeCapacity delivery
  else queue.appendAssumeCapacity delivery

end DeliveryQueue

/-- What a match of a fan-out brings: a publication, the delivery of it, and how the match is
merged with a delivery of the same publication that is queued already. -/
structure Placing (κ α : Type) (key : α → κ) where
  publication : κ
  fresh : α
  merge : α → α
  fresh_key : key fresh = publication
  merge_key : ∀ delivery, key (merge delivery) = key delivery

/-- The first delivery of `publication` is updated; `none` when there is no such delivery. -/
def mergeFirst {κ α : Type} [DecidableEq κ] (key : α → κ) (publication : κ) (merge : α → α) :
    List α → Option (List α)
  | [] => none
  | delivery :: rest =>
    if key delivery = publication then some (merge delivery :: rest)
    else (mergeFirst key publication merge rest).map (delivery :: ·)

lemma length_mergeFirst {κ α : Type} [DecidableEq κ] {key : α → κ} {publication : κ}
    {merge : α → α} {deliveries merged : List α}
    (h : mergeFirst key publication merge deliveries = some merged) :
    merged.length = deliveries.length := by
  induction deliveries generalizing merged with
  | nil => cases h
  | cons delivery rest ih =>
    unfold mergeFirst at h
    by_cases hkey : key delivery = publication
    · rw [if_pos hkey] at h
      cases h
      rfl
    rw [if_neg hkey, Option.map_eq_some_iff] at h
    obtain ⟨later, hlater, rfl⟩ := h
    rw [length_cons, length_cons, ih hlater]

/-- A client slot as its queue sees it: `popped` is what the writer holds between `popDelivery`
and the end of its network write. -/
structure LiveSlot (α : Type) where
  queue : DeliveryQueue α
  routeReservations : Nat := 0
  popped : Option α := none

namespace LiveSlot

variable {κ α : Type} [DecidableEq κ] {key : α → κ}

/-- The first pass of a fan-out: a match takes a place, or is dropped by a full queue. -/
def reservePlaces (limit : Nat) (slot : LiveSlot α) :
    List (Placing κ α key) → List (Placing κ α key) × LiveSlot α
  | [] => ([], slot)
  | placing :: rest =>
    if limit ≤ slot.queue.queuedCount + slot.routeReservations then
      reservePlaces limit slot rest
    else
      let later := reservePlaces limit
        { slot with routeReservations := slot.routeReservations + 1 } rest
      (placing :: later.1, later.2)

/-- A delivery of the same publication is updated where it stands. -/
def mergeQueued (slot : LiveSlot α) (placing : Placing κ α key) : Option (LiveSlot α) :=
  match h : mergeFirst key placing.publication placing.merge slot.queue.live with
  | none => none
  | some merged =>
    some { slot with queue := {
      items := slot.queue.items.take slot.queue.head ++ merged
      head := slot.queue.head
      capacity := slot.queue.capacity
      headed := by
        have hheaded := slot.queue.headed
        rw [length_append, length_take]
        omega
      stored := by
        have hstored := slot.queue.stored
        have hheaded := slot.queue.headed
        have hlength := length_mergeFirst h
        unfold DeliveryQueue.live at hlength
        rw [length_drop] at hlength
        rw [length_append, length_take]
        omega } }

/-- A planned match in the second pass. -/
def enqueueMatch (slot : LiveSlot α) (placing : Placing κ α key) : Option (LiveSlot α) :=
  match slot.mergeQueued placing with
  | some merged => some merged
  | none => do
    let queue ← slot.queue.appendDeliveryAssumeCapacity placing.fresh
    return { slot with queue := queue }

def enqueueMatches (slot : LiveSlot α) : List (Placing κ α key) → Option (LiveSlot α)
  | [] => some slot
  | placing :: rest => do
    let placed ← slot.enqueueMatch placing
    placed.enqueueMatches rest

/-- What a fan-out does to the slot, under the state lock. -/
def enqueueLive (limit : Nat) (slot : LiveSlot α) (matched : List (Placing κ α key)) :
    Option (LiveSlot α) := do
  let (plan, reserved) := slot.reservePlaces limit matched
  let placed ← reserved.enqueueMatches plan
  return { placed with routeReservations := placed.routeReservations - plan.length }

/-- The replay of a retained message, under the state lock. -/
def enqueueRetained (limit : Nat) (slot : LiveSlot α) (delivery : α) : Option (LiveSlot α) :=
  if limit ≤ slot.queue.queuedCount then some slot
  else do
    let queue ← slot.queue.appendDeliveryAssumeCapacity delivery
    return { slot with queue := queue }

/-- The writer takes the next delivery; there is one writer. -/
def pop (slot : LiveSlot α) : LiveSlot α :=
  match slot.popped, slot.queue.popDelivery with
  | none, some (delivery, queue) => { slot with queue := queue, popped := some delivery }
  | _, _ => slot

/-- The peer had no credit: the writer puts back what it took. -/
def pushBack (slot : LiveSlot α) : Option (LiveSlot α) :=
  match slot.popped with
  | none => some slot
  | some delivery => do
    let queue ← slot.queue.pushFront delivery
    return { slot with queue := queue, popped := none }

/-- The delivery has been written, or is dropped. -/
def settle (slot : LiveSlot α) : LiveSlot α := { slot with popped := none }

/-- What happens to a slot between two releases of the state lock. -/
inductive Op (κ α : Type) (key : α → κ)
  | route (matched : List (Placing κ α key))
  | replay (delivery : α)
  | pop
  | pushBack
  | settle

def step (limit : Nat) (slot : LiveSlot α) : Op κ α key → Option (LiveSlot α)
  | .route matched => slot.enqueueLive limit matched
  | .replay delivery => slot.enqueueRetained limit delivery
  | .pop => some slot.pop
  | .pushBack => slot.pushBack
  | .settle => some slot.settle

def run (limit : Nat) (slot : LiveSlot α) : List (Op κ α key) → Option (LiveSlot α)
  | [] => some slot
  | op :: rest => do
    let next ← slot.step limit op
    next.run limit rest

/-- A slot whose queue has been reserved. -/
def start (capacity : Nat) : LiveSlot α := { queue := { capacity := capacity } }

end LiveSlot

end Netz.Mqtt
