/-
Pointers to the newest element with each key.

The elements of a queue are numbered as they come, so that `count` is the next number.  A table
holds, for each key in the queue, the number of the newest element with it.  A new element
redirects its key; the oldest element takes its key along exactly if the pointer is its own.
-/
import Mathlib.Data.List.Induction
import Netz.Lib.Table

namespace Netz.Lib

open List Option

universe u v

variable {α : Type u} {κ : Type v} [DecidableEq κ]

/-- `t` holds the number of the newest element of `l` with each key. -/
def Newest (key : α → κ) (count : Nat) (l : List α) (t : Table κ Nat) : Prop :=
  ∀ k, t.get k = (l.reverse.findIdx? (fun a => decide (key a = k))).map (fun i => count - 1 - i)

namespace Newest

variable {key : α → κ} {count : Nat} {l rest : List α} {t : Table κ Nat} {a : α} {k : κ}

lemma empty (key : α → κ) (count : Nat) : Newest key count [] [] := fun _ => rfl

lemma append (h : Newest key count l t) (a : α) :
    Newest key (count + 1) (l ++ [a]) (t.upsert (key a) count) := by
  intro k
  rw [Table.get_upsert, h k, reverse_append, reverse_singleton, singleton_append,
    findIdx?_cons]
  by_cases hk : k = key a
  · simp [hk]
  · rw [if_neg hk, if_neg (by simpa using Ne.symm hk), Option.map_map]
    congr 1
    funext i
    show count - 1 - i = count + 1 - 1 - (i + 1)
    omega

/-- A pointer reads its element, and the newer elements have other keys. -/
theorem get_some (h : Newest key count l t) (hcount : l.length ≤ count) {n : Nat}
    (hn : t.get k = some n) :
    ∃ i a, l.reverse[i]? = some a ∧ key a = k ∧ i < l.length ∧ n + i + 1 = count ∧
      ∀ (j : Nat) b, j < i → l.reverse[j]? = some b → key b ≠ k := by
  rw [h k, map_eq_some_iff] at hn
  obtain ⟨i, hi, rfl⟩ := hn
  obtain ⟨hlt, hkey, hnewer⟩ := List.findIdx?_eq_some_iff_getElem.mp hi
  have hlt' : i < l.length := by simpa using hlt
  refine ⟨i, _, List.getElem?_eq_getElem hlt, by simpa using hkey, hlt', by omega, ?_⟩
  intro j b hj hb
  obtain ⟨_, rfl⟩ := List.getElem_of_getElem? hb
  simpa using hnewer j hj

lemma get_none (h : Newest key count l t) (hnone : t.get k = none) : ∀ a ∈ l, key a ≠ k := by
  rw [h k, map_eq_none_iff, findIdx?_eq_none_iff] at hnone
  intro a ha
  simpa using hnone a (mem_reverse.mpr ha)

/-- **The oldest element leaves, and its key where the pointer is its own.** -/
theorem tail (h : Newest key count (a :: rest) t) (hcount : rest.length < count) :
    Newest key count rest (if t.get (key a) = some (count - 1 - rest.length) then
      t.remove (key a) else t) := by
  intro k
  have hget : ∀ k, t.get k = ((rest.reverse.findIdx? fun b => decide (key b = k)).or
      (if key a = k then some rest.length else none)).map (fun i => count - 1 - i) := by
    intro k
    rw [h k, reverse_cons, findIdx?_append,
      length_reverse]
    simp
  have hlt : ∀ (k : κ) (i : Nat), rest.reverse.findIdx? (fun b => decide (key b = k)) = some i →
      i < rest.length := by
    intro k i hi
    simpa using (findIdx?_eq_some_iff_getElem.mp hi).1
  by_cases hown : t.get (key a) = some (count - 1 - rest.length)
  · rw [if_pos hown, Table.get_remove]
    have hnone : rest.reverse.findIdx? (fun b => decide (key b = key a)) = none := by
      rw [hget] at hown
      cases hfound : rest.reverse.findIdx? (fun b => decide (key b = key a)) with
      | none => rfl
      | some i =>
        rw [hfound, some_or, map_some, some.injEq] at hown
        have := hlt _ _ hfound
        omega
    by_cases hk : k = key a
    · simp [hk, hnone]
    · rw [if_neg hk, hget, if_neg (Ne.symm hk), or_none]
  rw [if_neg hown, hget]
  by_cases hk : key a = k
  · subst hk
    rw [hget] at hown
    cases hfound : rest.reverse.findIdx? (fun b => decide (key b = key a)) with
    | none => simp [hfound] at hown
    | some i => simp
  · rw [if_neg hk, or_none]

lemma fold (key : α → κ) (l : List α) :
    Newest key l.length l (l.zipIdx.foldl (fun t e => t.upsert (key e.1) e.2) []) := by
  induction l using reverseRecOn with
  | nil => exact empty key 0
  | append_singleton l a ih =>
    rw [zipIdx_append, foldl_append, zipIdx_singleton, foldl_cons,
      foldl_nil, Nat.zero_add, length_append]
    exact ih.append a

end Newest

end Netz.Lib
