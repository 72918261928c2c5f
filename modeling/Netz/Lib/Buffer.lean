/-
Buffers that are grown, overwritten in the middle and read in slices.

The operations are the ones an array list with `resize` and `memcpy` offers, on
plain lists.  Each is described by what it leaves at every position, which is all
that a proof about positions needs.
-/
import Mathlib.Algebra.Order.Ring.Int
import Mathlib.Data.Finset.Card
import Mathlib.Order.Interval.Finset.Nat

namespace Netz.Lib

open List
open Finset hiding map_cons

variable {α : Type}

/-- `l[start..stop]`. -/
def slice (l : List α) (start stop : Nat) : List α := (l.take stop).drop start

/-- Write `data` over the cells from `offset` on, which are all there. -/
def overwrite (l : List α) (offset : Nat) (data : List α) : List α :=
  l.take offset ++ data ++ l.drop (offset + data.length)

/-- Lengthen a list to `len` cells. -/
def resize (l : List α) (len : Nat) (fill : α) : List α :=
  l ++ replicate (len - l.length) fill

/-- How many cells are set before the first that is not. -/
def leadingTrue : List Bool → Nat
  | true :: rest => leadingTrue rest + 1
  | _ => 0

@[simp] lemma length_resize (l : List α) (len : Nat) (fill : α) :
    (resize l len fill).length = max l.length len := by
  simp only [resize, length_append, length_replicate]
  omega

lemma getElem?_resize (l : List α) (len : Nat) (fill : α) (i : Nat) :
    (resize l len fill)[i]? = if i < l.length then l[i]? else if i < len then some fill else none := by
  unfold resize
  by_cases hlt : i < l.length
  · rw [if_pos hlt, getElem?_append_left hlt]
  rw [if_neg hlt, getElem?_append_right (not_lt.mp hlt), getElem?_replicate]
  by_cases hlen : i < len
  · rw [if_pos hlen, if_pos (by omega)]
  · rw [if_neg hlen, if_neg (by omega)]

lemma getElem?_resize_false (l : List Bool) (len i : Nat) :
    (resize l len false)[i]? = some true ↔ l[i]? = some true := by
  rw [getElem?_resize]
  by_cases hlt : i < l.length
  · rw [if_pos hlt]
  · simp [hlt]

variable {l data : List α} {offset start stop : Nat} {bits : List Bool}

lemma length_overwrite (h : offset + data.length ≤ l.length) :
    (overwrite l offset data).length = l.length := by
  simp only [overwrite, length_append, length_take, length_drop]
  omega

lemma getElem?_overwrite (h : offset + data.length ≤ l.length) (i : Nat) :
    (overwrite l offset data)[i]?
      = if offset ≤ i ∧ i < offset + data.length then data[i - offset]? else l[i]? := by
  have htake : (l.take offset).length = offset := by
    rw [length_take]; omega
  unfold overwrite
  by_cases hpre : i < offset
  · rw [if_neg (by omega), append_assoc, getElem?_append_left (by omega),
      getElem?_take_of_lt hpre]
  by_cases hin : i < offset + data.length
  · rw [if_pos ⟨by omega, hin⟩,
      getElem?_append_left (by rw [length_append]; omega),
      getElem?_append_right (by omega), htake]
  rw [if_neg (by omega),
    getElem?_append_right (by rw [length_append]; omega),
    getElem?_drop, length_append]
  congr 1
  omega

lemma getElem?_slice (l : List α) (start stop i : Nat) :
    (slice l start stop)[i]? = if start + i < stop then l[start + i]? else none := by
  unfold slice
  rw [getElem?_drop, getElem?_take]

lemma length_slice (h : stop ≤ l.length) : (slice l start stop).length = stop - start := by
  simp only [slice, length_drop, length_take]
  omega

lemma sum_slice {f g : α → Nat} :
    ∀ {l : List α} {start stop : Nat},
      (∀ (j : Nat) a, l[j]? = some a → g a = if start ≤ j ∧ j < stop then f a else 0) →
      ((slice l start stop).map f).sum = (l.map g).sum := by
  intro l
  induction l with
  | nil => intro start stop _; simp [slice]
  | cons a rest ih =>
    intro start stop h
    have hfirst := h 0 a rfl
    rw [map_cons, List.sum_cons]
    cases stop with
    | zero =>
      have hrest := @ih start 0 (fun j b hj => by
        have := h (j + 1) b hj
        simp only [Nat.not_lt_zero, and_false] at this ⊢
        exact this)
      rw [← hrest, hfirst]
      simp [slice]
    | succ stop =>
      cases start with
      | zero =>
        have hrest := @ih 0 stop (fun j b hj => by
          have := h (j + 1) b hj
          simpa using this)
        simp [← hrest, hfirst, slice]
      | succ start =>
        have hrest := @ih start stop (fun j b hj => by
          have := h (j + 1) b hj
          simpa using this)
        simp [← hrest, hfirst, slice]

lemma getElem?_of_lt_leadingTrue :
    ∀ (l : List Bool) (i : Nat), i < leadingTrue l → l[i]? = some true := by
  intro l
  induction l with
  | nil => intro i hi; simp [leadingTrue] at hi
  | cons b rest ih =>
    intro i hi
    cases b with
    | false => simp [leadingTrue] at hi
    | true =>
      cases i with
      | zero => rfl
      | succ i =>
        simp only [leadingTrue] at hi
        simpa using ih i (by omega)

lemma getElem?_leadingTrue : ∀ (l : List Bool), l[leadingTrue l]? ≠ some true := by
  intro l
  induction l with
  | nil => simp [leadingTrue]
  | cons b rest ih =>
    cases b with
    | false => simp [leadingTrue]
    | true => simpa [leadingTrue] using ih

/-- The cells of a stretch that are not set. -/
def unset (bits : List Bool) (start stop : Nat) : Finset Nat :=
  (Finset.Ico start stop).filter fun i => bits[i]? ≠ some true

lemma card_unset_succ (h : start < stop) :
    (unset bits start stop).card
      = (unset bits (start + 1) stop).card + if bits[start]? = some true then 0 else 1 := by
  have hsplit : Finset.Ico start stop = insert start (Finset.Ico (start + 1) stop) := by
    ext i
    simp only [mem_Ico, mem_insert]
    omega
  unfold unset
  rw [hsplit, filter_insert]
  by_cases hset : bits[start]? = some true
  · simp [hset]
  · rw [if_pos (by simpa using hset), if_neg hset, card_insert_of_notMem (by simp)]

lemma card_unset_of_length_le (h : bits.length ≤ start) :
    (unset bits start stop).card = stop - start := by
  have hall : unset bits start stop = Finset.Ico start stop := by
    unfold unset
    refine filter_true_of_mem ?_
    intro i hi
    have := (mem_Ico.mp hi).1
    rw [getElem?_eq_none (by omega)]
    simp
  rw [hall, Nat.card_Ico]

lemma card_unset_split {mid : Nat} (h₁ : start ≤ mid) (h₂ : mid ≤ stop) :
    (unset bits start stop).card = (unset bits start mid).card + (unset bits mid stop).card := by
  have hunion : Finset.Ico start stop = Finset.Ico start mid ∪ Finset.Ico mid stop :=
    (Ico_union_Ico_eq_Ico h₁ h₂).symm
  unfold unset
  rw [hunion, filter_union, card_union_of_disjoint]
  exact disjoint_filter_filter (Ico_disjoint_Ico_consecutive start mid stop)

end Netz.Lib
