/-
Bisection.

`bisect p l` halves an index interval the way a hand-written binary search does, and
stops at the first index whose element fails `p`.  On a list that `p` splits into a
satisfying front and a failing back, that index is the number of satisfying elements.
-/
import Mathlib.Data.List.Basic

namespace Netz.Lib

open List

universe u

variable {α : Type u}

/-- The search loop on the interval from `low` to `high`; `fuel` bounds its length. -/
def bisectLoop (p : α → Bool) (l : List α) : Nat → Nat → Nat → Nat
  | 0, low, _ => low
  | fuel + 1, low, high =>
    if low < high then
      let mid := low + (high - low) / 2
      match l[mid]? with
      | some a => if p a then bisectLoop p l fuel (mid + 1) high else bisectLoop p l fuel low mid
      | none => low
    else low

def bisect (p : α → Bool) (l : List α) : Nat := bisectLoop p l l.length 0 l.length

/-- `p` holds on a front of the list and nowhere else. -/
def Partitioned (p : α → Bool) (l : List α) : Prop :=
  l.Pairwise (fun a b => p b = true → p a = true)

lemma bisectLoop_spec (p : α → Bool) (l : List α) (boundary : Nat)
    (hlow : ∀ i a, l[i]? = some a → i < boundary → p a = true)
    (hhigh : ∀ i a, l[i]? = some a → boundary ≤ i → p a = false) :
    ∀ (fuel low high : Nat), high - low ≤ fuel → low ≤ boundary → boundary ≤ high →
      high ≤ l.length → bisectLoop p l fuel low high = boundary := by
  intro fuel
  induction fuel with
  | zero =>
    intro low high hfuel h₁ h₂ _
    unfold bisectLoop
    omega
  | succ k ih =>
    intro low high hfuel h₁ h₂ h₃
    unfold bisectLoop
    by_cases hlt : low < high
    · rw [if_pos hlt]
      simp only
      have hmid : low + (high - low) / 2 < l.length := by omega
      rw [getElem?_eq_getElem hmid]
      simp only
      by_cases hp : p l[low + (high - low) / 2] = true
      · rw [if_pos hp]
        have hin : low + (high - low) / 2 < boundary := by
          by_contra hc
          have := hhigh _ _ (getElem?_eq_getElem hmid) (by omega)
          simp [this] at hp
        exact ih _ _ (by omega) (by omega) h₂ h₃
      rw [if_neg hp]
      have hout : boundary ≤ low + (high - low) / 2 := by
        by_contra hc
        exact hp (hlow _ _ (getElem?_eq_getElem hmid) (by omega))
      exact ih _ _ (by omega) h₁ hout (by omega)
    · rw [if_neg hlt]
      omega

/-- In a partitioned list the front has as many elements as satisfy `p`. -/
theorem Partitioned.boundary {p : α → Bool} :
    ∀ {l : List α}, Partitioned p l → (∀ i a, l[i]? = some a → i < l.countP p → p a = true) ∧
      (∀ i a, l[i]? = some a → l.countP p ≤ i → p a = false) := by
  intro l
  induction l with
  | nil => simp
  | cons b rest ih =>
    intro h
    obtain ⟨hfirst, hrest⟩ := pairwise_cons.mp h
    obtain ⟨ih₁, ih₂⟩ := ih hrest
    by_cases hb : p b = true
    · rw [countP_cons_of_pos hb]
      constructor
      · intro i a hi hlt
        cases i with
        | zero =>
          rw [getElem?_cons_zero, Option.some.injEq] at hi
          rwa [← hi]
        | succ k => exact ih₁ k a hi (by omega)
      intro i a hi hle
      cases i with
      | zero => omega
      | succ k => exact ih₂ k a hi (by omega)
    -- The first element fails, so every later one does.
    have hnone : ∀ a ∈ rest, p a = false := by
      intro a ha
      by_contra hc
      exact hb (hfirst a ha (by simpa using hc))
    have hzero : rest.countP p = 0 := by
      rw [countP_eq_zero]
      intro a ha
      simp [hnone a ha]
    rw [countP_cons_of_neg hb]
    refine ⟨fun i a _ hlt => by omega, ?_⟩
    intro i a hi _
    cases i with
    | zero =>
      rw [getElem?_cons_zero, Option.some.injEq] at hi
      rw [← hi]
      simpa using hb
    | succ k => exact hnone a (mem_of_getElem? hi)

/-- **Bisection counts the front.** -/
theorem bisect_eq_countP {p : α → Bool} {l : List α} (h : Partitioned p l) :
    bisect p l = l.countP p := by
  obtain ⟨h₁, h₂⟩ := h.boundary
  exact bisectLoop_spec p l (l.countP p) h₁ h₂ l.length 0 l.length (by omega) (by omega)
    countP_le_length (Nat.le_refl _)

end Netz.Lib
