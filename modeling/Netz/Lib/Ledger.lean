/-
Exactly-once books for a queue in front of a window.

Elements are accepted at the end of the queue, leave it from the front for the window, and
finish out of the window; elements that lapse in the queue finish without having left it.
`Balanced` says that every accepted element is in exactly one of the three places and that
the queue is left in the order of acceptance.
-/
import Mathlib.Data.List.Perm.Basic
import Mathlib.Data.List.Basic

namespace Netz.Lib

open List

universe u v

variable {α : Type u} {φ : Type v}

structure Balanced (lapsed : φ) (waiting flying accepted departed : List α)
    (finished : List (α × φ)) : Prop where
  once : (waiting ++ flying ++ finished.map (·.1)).Perm accepted
  ordered : (departed ++ waiting).Sublist accepted
  skipped : ∀ a ∈ accepted, a ∈ waiting ∨ a ∈ departed ∨ (a, lapsed) ∈ finished

namespace Balanced

variable {lapsed : φ} {waiting flying accepted departed : List α} {finished : List (α × φ)}

lemma empty : Balanced lapsed ([] : List α) [] [] [] [] where
  once := by simp
  ordered := by simp
  skipped := by intro a ha; simp at ha

lemma reorder (h : Balanced lapsed waiting flying accepted departed finished) {flying' : List α}
    (hperm : flying'.Perm flying) : Balanced lapsed waiting flying' accepted departed finished where
  once := ((hperm.append_left waiting).append_right _).trans h.once
  ordered := h.ordered
  skipped := h.skipped

lemma accept (h : Balanced lapsed waiting flying accepted departed finished) (a : α) :
    Balanced lapsed (waiting ++ [a]) flying (accepted ++ [a]) departed finished where
  once := by
    have hmove : (waiting ++ [a] ++ flying ++ finished.map (·.1)).Perm
        (waiting ++ flying ++ finished.map (·.1) ++ [a]) := by
      simp only [append_assoc]
      apply Perm.append_left
      rw [← append_assoc flying]
      exact perm_append_comm
    exact hmove.trans (h.once.append_right [a])
  ordered := by
    rw [← append_assoc]
    exact h.ordered.append (Sublist.refl [a])
  skipped := by
    intro b hb
    rcases mem_append.mp hb with hold | hnew
    · rcases h.skipped b hold with hw | hd | hf
      · exact .inl (mem_append_left _ hw)
      · exact .inr (.inl hd)
      · exact .inr (.inr hf)
    · exact .inl (mem_append_right _ hnew)

lemma depart {a : α} (h : Balanced lapsed (a :: waiting) flying accepted departed finished) :
    Balanced lapsed waiting (a :: flying) accepted (departed ++ [a]) finished where
  once := by
    refine Perm.trans ?_ h.once
    simp
  ordered := by simpa using h.ordered
  skipped := by
    intro b hb
    rcases h.skipped b hb with hw | hd | hf
    · rcases mem_cons.mp hw with rfl | hrest
      · exact .inr (.inl (by simp))
      · exact .inl hrest
    · exact .inr (.inl (mem_append_left _ hd))
    · exact .inr (.inr hf)

lemma finish {a : α} (h : Balanced lapsed waiting (a :: flying) accepted departed finished)
    (fate : φ) : Balanced lapsed waiting flying accepted departed (finished ++ [(a, fate)]) where
  once := by
    refine Perm.trans ?_ h.once
    rw [append_assoc, append_assoc]
    apply Perm.append_left
    simp [← append_assoc]
  ordered := h.ordered
  skipped := by
    intro b hb
    rcases h.skipped b hb with hw | hd | hf
    · exact .inl hw
    · exact .inr (.inl hd)
    · exact .inr (.inr (mem_append_left _ hf))

lemma lapse (h : Balanced lapsed waiting flying accepted departed finished) (p : α → Bool) :
    Balanced lapsed (waiting.filter fun a => !p a) flying accepted departed
      (finished ++ (waiting.filter p).map (·, lapsed)) where
  once := by
    refine Perm.trans ?_ h.once
    have hsplit : (waiting.filter p ++ waiting.filter fun a => !p a).Perm waiting :=
      filter_append_perm p waiting
    have hfates : ((waiting.filter p).map (·, lapsed)).map (·.1) = waiting.filter p := by
      simp [Function.comp_def]
    rw [map_append, hfates]
    refine Perm.trans ?_ ((hsplit.append_right flying).append_right _)
    rw [← append_assoc, append_assoc (waiting.filter p), append_assoc (waiting.filter p)]
    exact perm_append_comm
  ordered := (Sublist.append (Sublist.refl _) filter_sublist).trans h.ordered
  skipped := by
    intro b hb
    rcases h.skipped b hb with hw | hd | hf
    · by_cases hp : p b = true
      · refine .inr (.inr (mem_append_right _ ?_))
        exact mem_map.mpr ⟨b, mem_filter.mpr ⟨hw, hp⟩, rfl⟩
      · exact .inl (mem_filter.mpr ⟨hw, by simpa using hp⟩)
    · exact .inr (.inl hd)
    · exact .inr (.inr (mem_append_left _ hf))

end Balanced

end Netz.Lib

/-! ### Postconditions of calls that may fail

`Delivers allowed Q x` says that `x` fails with an allowed error or returns what satisfies `Q`.
A proof about a `do` block follows its statements with `bind`. -/

namespace Netz.Lib

universe u v w

variable {ε : Type u} {α : Type v} {β : Type v} {allowed : ε → Prop}

def Delivers (allowed : ε → Prop) (Q : α → Prop) : Except ε α → Prop
  | .ok a => Q a
  | .error e => allowed e

namespace Delivers

variable {Q P : α → Prop} {a : α} {e : ε} {x : Except ε α}

lemma ok (h : Q a) : Delivers allowed Q (.ok a) := h

lemma error (h : allowed e) :
    Delivers allowed Q (.error e : Except ε α) := h

lemma mono (h : Delivers allowed P x) (hpq : ∀ a, P a → Q a) : Delivers allowed Q x := by
  cases x with
  | ok a => exact hpq a h
  | error e => exact h

lemma bind {Q : β → Prop} {f : α → Except ε β} (h : Delivers allowed P x)
    (hf : ∀ a, P a → Delivers allowed Q (f a)) : Delivers allowed Q (x >>= f) := by
  cases x with
  | ok a => exact hf a h
  | error e => exact h

lemma map {Q : β → Prop} {f : α → β} (h : Delivers allowed (fun a => Q (f a)) x) :
    Delivers allowed Q (x.map f) := by
  cases x with
  | ok | error => exact h

lemma ite {p : Prop} [Decidable p] {y : Except ε α} (hx : p → Delivers allowed Q x)
    (hy : ¬ p → Delivers allowed Q y) : Delivers allowed Q (if p then x else y) := by
  by_cases h : p
  · simp [h, hx]
  · simp [h, hy]

lemma result (h : Delivers allowed Q x) (hx : x = .ok a) : Q a := by
  rw [hx] at h
  exact h

lemma failure (h : Delivers allowed Q x) (hx : x = .error e) : allowed e := by
  rw [hx] at h
  exact h

lemma exists_ok (h : Delivers (fun _ => False) Q x) : ∃ a, x = .ok a ∧ Q a := by
  cases x with
  | ok a => exact ⟨a, rfl, h⟩
  | error e => exact h.elim

end Delivers

end Netz.Lib
