/-
The first place where a word stands in a list.

`indexOf` is a plain search.  What it finds it finds again with more behind the list, and in the
part of the list up to the end of the word.
-/
import Mathlib.Data.List.Basic
import Mathlib.Data.Nat.Find

namespace Netz.Lib

open List

universe u

variable {α : Type u} [DecidableEq α]

/-- Where the word stands first. -/
def indexOf (word : List α) : List α → Option Nat
  | [] => if word = [] then some 0 else none
  | a :: rest => if word <+: a :: rest then some 0 else (indexOf word rest).map (· + 1)

variable {word l : List α} {i : Nat}

lemma indexOf_eq_some_iff : indexOf word l = some i ↔
    i ≤ l.length ∧ word <+: l.drop i ∧ ∀ j < i, ¬word <+: l.drop j := by
  induction l generalizing i with
  | nil =>
    unfold indexOf
    by_cases hword : word = []
    · rw [if_pos hword, Option.some.injEq]
      constructor
      · rintro rfl
        exact ⟨le_rfl, by rw [hword]; exact nil_prefix, nofun⟩
      · rintro ⟨hi, -, -⟩
        exact (Nat.le_zero.mp hi).symm
    · simp [hword]
  | cons a rest ih =>
    unfold indexOf
    by_cases hhere : word <+: a :: rest
    · rw [if_pos hhere, Option.some.injEq]
      constructor
      · rintro rfl
        exact ⟨Nat.zero_le _, hhere, nofun⟩
      rintro ⟨-, -, hfirst⟩
      by_contra hne
      exact hfirst 0 (by omega) hhere
    rw [if_neg hhere]
    cases i with
    | zero =>
      refine iff_of_false ?_ (fun h => hhere h.2.1)
      simp
    | succ i =>
      rw [Option.map_eq_some_iff]
      constructor
      · rintro ⟨j, hj, hsucc⟩
        cases hsucc
        obtain ⟨hle, hfound, hfirst⟩ := ih.mp hj
        refine ⟨Nat.succ_le_succ hle, hfound, fun k hk => ?_⟩
        cases k with
        | zero => exact hhere
        | succ k => exact hfirst k (by omega)
      rintro ⟨hle, hfound, hfirst⟩
      refine ⟨i, ih.mpr ⟨Nat.le_of_succ_le_succ hle, hfound, fun k hk => ?_⟩, rfl⟩
      exact hfirst (k + 1) (by omega)

lemma indexOf_eq_none_iff (hword : word ≠ []) :
    indexOf word l = none ↔ ∀ j, ¬word <+: l.drop j := by
  constructor
  · intro h j hfound
    -- The first of the places would be found.
    have hsome : ∃ j, word <+: l.drop j := ⟨j, hfound⟩
    classical
    have hleast := Nat.find_spec hsome
    have hle : Nat.find hsome ≤ l.length := by
      by_contra hgt
      rw [drop_eq_nil_of_le (by omega)] at hleast
      exact hword (prefix_nil.mp hleast)
    have hfirst := (indexOf_eq_some_iff).mpr ⟨hle, hleast, fun k hk => Nat.find_min hsome hk⟩
    simp [h] at hfirst
  intro h
  cases hidx : indexOf word l with
  | none => rfl
  | some i => exact absurd ((indexOf_eq_some_iff).mp hidx).2.1 (h i)

lemma indexOf_le (h : indexOf word l = some i) : i + word.length ≤ l.length := by
  obtain ⟨hi, hfound, -⟩ := (indexOf_eq_some_iff).mp h
  have hlen := hfound.length_le
  rw [length_drop] at hlen
  omega

/-- What comes before the word, the word, and what comes behind it. -/
theorem eq_of_indexOf (h : indexOf word l = some i) :
    l = l.take i ++ word ++ l.drop (i + word.length) := by
  obtain ⟨back, hback⟩ := ((indexOf_eq_some_iff).mp h).2.1
  have hdrop : l.drop (i + word.length) = back := by
    rw [← drop_drop, ← hback, drop_left]
  rw [hdrop, append_assoc, hback, take_append_drop]

lemma indexOf_append (h : indexOf word l = some i) (more : List α) :
    indexOf word (l ++ more) = some i := by
  have hroom := indexOf_le h
  obtain ⟨hi, hfound, hfirst⟩ := (indexOf_eq_some_iff).mp h
  refine (indexOf_eq_some_iff).mpr ⟨by rw [length_append]; omega, ?_, fun j hj hprefix => ?_⟩
  · rw [drop_append_of_le_length hi]
    exact hfound.trans (prefix_append _ _)
  rw [drop_append_of_le_length (by omega)] at hprefix
  refine hfirst j hj (prefix_of_prefix_length_le hprefix (prefix_append _ _) ?_)
  rw [length_drop]
  omega

/-- Nothing is found in the beginning of a list unless it is found in the list. -/
theorem indexOf_of_append {more : List α} (h : indexOf word (l ++ more) = some i)
    (hroom : i + word.length ≤ l.length) : indexOf word l = some i := by
  obtain ⟨hi, hfound, hfirst⟩ := (indexOf_eq_some_iff).mp h
  rw [drop_append_of_le_length (by omega)] at hfound
  refine (indexOf_eq_some_iff).mpr ⟨by omega, ?_, fun j hj hprefix => ?_⟩
  · refine prefix_of_prefix_length_le hfound (prefix_append _ _) ?_
    rw [length_drop]
    omega
  refine hfirst j hj ?_
  rw [drop_append_of_le_length (by omega)]
  exact hprefix.trans (prefix_append _ _)

lemma indexOf_front (h : indexOf word l = some i) : indexOf word (l.take i ++ word) = some i := by
  have heq := eq_of_indexOf h
  have hroom := indexOf_le h
  rw [heq] at h
  refine indexOf_of_append h ?_
  rw [length_append, length_take_of_le (by omega)]

end Netz.Lib
