/-
Guards.

A function that refuses some inputs is a chain of `if`s.  Where its outcome is not the refusal,
the guard was passed and the outcome is that of the rest.  Looking up an index is guarded too.
-/
import Mathlib.Logic.Basic

namespace Netz.Lib

universe u

variable {α : Sort u} {c : Prop} [Decidable c] {refusal rest outcome : α}

lemma of_guard (h : (if c then refusal else rest) = outcome) (hne : refusal ≠ outcome) :
    ¬ c ∧ rest = outcome := by
  by_cases hc : c
  · rw [if_pos hc] at h
    exact absurd h hne
  · rw [if_neg hc] at h
    exact ⟨hc, h⟩

lemma lt_of_getElem? {α : Type u} {l : List α} {i : Nat} {a : α} (h : l[i]? = some a) :
    i < l.length := (List.getElem_of_getElem? h).1

end Netz.Lib
