/-
Queues that give up their oldest elements until they fit.

A queue bounded by the total size of its elements is cut from the front.  Cutting twice is
cutting once to the smaller bound, so what two parties have left depends on the smallest bound
since they last agreed, not on the bounds in between.
-/
import Mathlib.Algebra.Order.Ring.Int
import Mathlib.Data.List.Basic

namespace Netz.Lib

open List

universe u

variable {α : Type u} (size : α → Nat)

def totalSize (l : List α) : Nat := (l.map size).sum

/-- What is left within `limit`. -/
def evict (limit : Nat) : List α → List α
  | [] => []
  | a :: rest => if totalSize size (a :: rest) ≤ limit then a :: rest else evict limit rest

@[simp] lemma totalSize_nil : totalSize size ([] : List α) = 0 := rfl

@[simp] lemma totalSize_cons (a : α) (l : List α) :
    totalSize size (a :: l) = size a + totalSize size l := by
  unfold totalSize
  rw [map_cons, sum_cons]

lemma totalSize_append (l more : List α) :
    totalSize size (l ++ more) = totalSize size l + totalSize size more := by
  unfold totalSize
  rw [map_append, sum_append]

lemma evict_of_le {limit : Nat} {l : List α} (h : totalSize size l ≤ limit) :
    evict size limit l = l := by
  cases l with
  | nil => rfl
  | cons a rest =>
    unfold evict
    rw [if_pos h]

lemma evict_cons_of_lt {limit : Nat} {a : α} {rest : List α}
    (h : limit < totalSize size (a :: rest)) : evict size limit (a :: rest) = evict size limit rest := by
  conv_lhs => unfold evict
  rw [if_neg (Nat.not_le_of_lt h)]

lemma evict_suffix (limit : Nat) (l : List α) : evict size limit l <:+ l := by
  induction l with
  | nil => exact suffix_refl []
  | cons a rest ih =>
    by_cases h : totalSize size (a :: rest) ≤ limit
    · simp [evict_of_le size h]
    · rw [evict_cons_of_lt size (not_le.mp h)]
      exact ih.trans (suffix_cons a rest)

lemma evict_concat_of_lt {limit : Nat} {a : α} (h : limit < size a) (l : List α) :
    evict size limit (l ++ [a]) = [] := by
  induction l with
  | nil =>
    rw [nil_append, evict_cons_of_lt size (by rw [totalSize_cons]; omega)]
    rfl
  | cons b rest ih =>
    have htotal : limit < totalSize size (b :: (rest ++ [a])) := by
      rw [totalSize_cons, totalSize_append, totalSize_cons]
      omega
    rw [cons_append, evict_cons_of_lt size htotal]
    exact ih

end Netz.Lib
