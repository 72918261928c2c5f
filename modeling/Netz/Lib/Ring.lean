/-
Ring buffers of a fixed capacity.

A ring is an array with a head and a length; the element `offset` places behind the head
sits at `(head + offset) % capacity`.  The bounds are fields, so every ring that can be
built has a view `toList`, oldest element first, and the three operations are the three
operations of a bounded queue on that view.
-/
import Mathlib.Data.List.Basic
import Mathlib.Data.Vector.Defs

namespace Netz.Lib

open List hiding Vector

universe u

/-- Offsets less than one turn apart are different slots. -/
theorem wrapped_ne {head size i j : Nat} (hhead : head < size) (hi : i < j) (hj : j < size) :
    (head + i) % size ≠ (head + j) % size := by
  rcases Nat.lt_or_ge (head + j) size with hsmall | hlarge
  · rw [Nat.mod_eq_of_lt hsmall, Nat.mod_eq_of_lt (by omega)]
    omega
  rw [Nat.mod_eq_sub_mod hlarge, Nat.mod_eq_of_lt (by omega : head + j - size < size)]
  rcases Nat.lt_or_ge (head + i) size with hsmall' | hlarge'
  · rw [Nat.mod_eq_of_lt hsmall']
    omega
  · rw [Nat.mod_eq_sub_mod hlarge', Nat.mod_eq_of_lt (by omega : head + i - size < size)]
    omega

lemma filterMap_getElem?_range {α : Type u} (l : List α) :
    (range l.length).filterMap (fun i => l[i]?) = l := by
  induction l with
  | nil => rfl
  | cons a l ih =>
    rw [length_cons, range_succ_eq_map, filterMap_cons,
      filterMap_map]
    exact congrArg (a :: ·) ih

structure Ring (α : Type u) (capacity : Nat) where
  slots : Vector α capacity
  head : Nat
  len : Nat
  head_lt : head < capacity
  len_le : len ≤ capacity
deriving DecidableEq

namespace Ring

variable {α : Type u} {capacity : Nat}

def index (r : Ring α capacity) (offset : Nat) : Nat := (r.head + offset) % capacity

lemma index_lt (r : Ring α capacity) (offset : Nat) : r.index offset < capacity :=
  Nat.mod_lt _ (Nat.lt_of_le_of_lt (Nat.zero_le _) r.head_lt)

def get (r : Ring α capacity) (offset : Nat) : α :=
  getElem r.slots (r.index offset) (r.index_lt offset)

def empty (blank : α) (h : 0 < capacity) : Ring α capacity where
  slots := Vector.replicate capacity blank
  head := 0
  len := 0
  head_lt := h
  len_le := Nat.zero_le _

/-- Whether one of the live offsets holds `a`. -/
def contains [DecidableEq α] (r : Ring α capacity) (a : α) : Bool :=
  (range r.len).any (fun offset => r.get offset == a)

def push (r : Ring α capacity) (a : α) : Option (Ring α capacity) :=
  if h : r.len < capacity then
    some
      { r with
        slots := r.slots.set (r.index r.len) a (r.index_lt r.len)
        len := r.len + 1
        len_le := h }
  else none

def front (r : Ring α capacity) : Option α :=
  if r.len = 0 then none else some (r.get 0)

/-- The slot of the front is blanked, and an emptied ring starts over at the first slot. -/
def pop (r : Ring α capacity) (blank : α) : Ring α capacity :=
  if r.len = 0 then r
  else
    { slots := r.slots.set (r.index 0) blank (r.index_lt 0)
      head := if r.len - 1 = 0 then 0 else r.index 1
      len := r.len - 1
      head_lt := by
        have hhead := r.head_lt
        by_cases hone : r.len - 1 = 0
        · rw [if_pos hone]
          omega
        · rw [if_neg hone]
          exact r.index_lt 1
      len_le := Nat.le_trans (Nat.sub_le _ _) r.len_le }

/-! ### The view -/

/-- What the ring holds, oldest first. -/
def toList (r : Ring α capacity) : List α := (range r.len).map r.get

@[simp] lemma length_toList (r : Ring α capacity) : r.toList.length = r.len := by simp [toList]

@[simp] lemma toList_empty (blank : α) (h : 0 < capacity) :
    (empty blank h : Ring α capacity).toList = [] := rfl

lemma contains_iff [DecidableEq α] (r : Ring α capacity) (a : α) :
    r.contains a = true ↔ a ∈ r.toList := by simp [contains, toList]

lemma index_ne (r : Ring α capacity) {i j : Nat} (hi : i < j) (hj : j < capacity) :
    r.index i ≠ r.index j :=
  wrapped_ne r.head_lt hi hj

/-- **Pushing appends at the end of the view, and is refused exactly when it is full.** -/
theorem toList_push (r : Ring α capacity) (a : α) :
    (r.push a).map toList = if r.len < capacity then some (r.toList ++ [a]) else none := by
  unfold push
  by_cases h : r.len < capacity
  · rw [dif_pos h, if_pos h]
    simp only [Option.map_some, Option.some.injEq, toList, range_succ, map_append]
    congr 1
    · apply map_congr_left
      intro offset hoffset
      have hlt := mem_range.mp hoffset
      exact Vector.getElem_set_ne (r.index_lt _) (r.index_lt _) (Ne.symm (r.index_ne hlt h))
    · simp [get, index]
  · simp [h]

lemma front_eq (r : Ring α capacity) : r.front = r.toList.head? := by
  unfold front toList
  by_cases h : r.len = 0
  · simp [h]
  · obtain ⟨n, hn⟩ := Nat.exists_eq_succ_of_ne_zero h
    simp [hn, range_succ_eq_map]

/-- **Popping drops the front of the view.** -/
theorem toList_pop (r : Ring α capacity) (blank : α) : (r.pop blank).toList = r.toList.tail := by
  unfold pop
  by_cases h : r.len = 0
  · simp [h, toList]
  obtain ⟨n, hn⟩ := Nat.exists_eq_succ_of_ne_zero h
  rw [if_neg h]
  have hview : r.toList.tail = (range n).map (fun offset => r.get (offset + 1)) := by
    simp [toList, hn, range_succ_eq_map]
  rw [hview]
  simp only [toList, hn, Nat.succ_sub_one]
  apply map_congr_left
  intro offset hoffset
  have hlt := mem_range.mp hoffset
  have hlen := r.len_le
  have hne := r.index_ne (Nat.succ_pos offset) (by omega : offset + 1 < capacity)
  have hzero : n ≠ 0 := by omega
  have hidx : (r.index 1 + offset) % capacity = r.index (offset + 1) := by
    unfold index
    rw [Nat.mod_add_mod]
    congr 1
    omega
  simp only [get, index, if_neg hzero] at hne hidx ⊢
  simp only [hidx]
  exact Vector.getElem_set_ne _ _ hne

end Ring

end Netz.Lib
