/-
Cyclic search for a free identifier.

The identifiers from 1 to `n` are tried in turn, `n` being followed by 1 again.  A search of `n`
attempts tries them all, so it finds a free one as soon as fewer than `n` are used.
-/
import Mathlib.Order.Interval.Finset.Nat

namespace Netz.Lib

/-- The identifier that follows. -/
def following (n id : Nat) : Nat := id % n + 1

/-- The first free identifier of so many attempts, and where the next search starts. -/
def findFree (n : Nat) (used : Nat → Bool) : Nat → Nat → Option Nat × Nat
  | 0, next => (none, next)
  | attempts + 1, next =>
    if used next then findFree n used attempts (following n next)
    else (some next, following n next)

variable {n attempts next : Nat} {used : Nat → Bool}

lemma following_bounded (h : 1 ≤ next ∧ next ≤ n) :
    1 ≤ following n next ∧ following n next ≤ n := by
  unfold following
  have := Nat.mod_lt next (by omega : 0 < n)
  omega

lemma findFree_bounded (h : 1 ≤ next ∧ next ≤ n) :
    1 ≤ (findFree n used attempts next).2 ∧ (findFree n used attempts next).2 ≤ n := by
  induction attempts generalizing next with
  | zero => exact h
  | succ attempts ih =>
    unfold findFree
    by_cases hused : used next = true
    · rw [if_pos hused]
      exact ih (following_bounded h)
    · rw [if_neg hused]
      exact following_bounded h

lemma findFree_some (h : 1 ≤ next ∧ next ≤ n) {id : Nat}
    (hfound : (findFree n used attempts next).1 = some id) :
    (1 ≤ id ∧ id ≤ n) ∧ used id = false := by
  induction attempts generalizing next with
  | zero => simp [findFree] at hfound
  | succ attempts ih =>
    unfold findFree at hfound
    by_cases hused : used next = true
    · rw [if_pos hused] at hfound
      exact ih (following_bounded h) hfound
    rw [if_neg hused] at hfound
    cases hfound
    exact ⟨h, by simpa using hused⟩

/-- A search that finds nothing has met its start and everything behind it, cyclically. -/
theorem findFree_none (h : 1 ≤ next ∧ next ≤ n)
    (hfound : (findFree n used attempts next).1 = none) :
    ∀ k < attempts, used ((next - 1 + k) % n + 1) = true := by
  induction attempts generalizing next with
  | zero => intro k hk; omega
  | succ attempts ih =>
    unfold findFree at hfound
    by_cases hused : used next = true
    · rw [if_pos hused] at hfound
      intro k hk
      cases k with
      | zero =>
        have hself : (next - 1 + 0) % n + 1 = next := by
          rw [Nat.mod_eq_of_lt (by omega)]
          omega
        rw [hself]
        exact hused
      | succ k =>
        have hrest := ih (following_bounded h) hfound k (by omega)
        have hstep : (next % n + k) % n = (next - 1 + (k + 1)) % n := by
          rw [Nat.mod_add_mod]
          congr 1
          omega
        rw [← hstep]
        exact hrest
    · simp [hused] at hfound

/-- **Where fewer identifiers are used than there are, a free one is found.** -/
theorem findFree_room (h : 1 ≤ next ∧ next ≤ n) {held : Finset Nat}
    (hheld : ∀ id, used id = true → id ∈ held) (hroom : held.card < n) :
    ∃ id, (findFree n used n next).1 = some id := by
  rw [← Option.ne_none_iff_exists']
  intro hfound
  have hall : Finset.Icc 1 n ⊆ held := by
    intro id hid
    rw [Finset.mem_Icc] at hid
    have hmet := findFree_none h hfound ((id - 1 + (n - (next - 1))) % n)
      (Nat.mod_lt _ (by omega))
    have hvalue : (next - 1 + (id - 1 + (n - (next - 1))) % n) % n + 1 = id := by
      rw [Nat.add_mod_mod]
      have hsum : next - 1 + (id - 1 + (n - (next - 1))) = id - 1 + n := by omega
      rw [hsum, Nat.add_mod_right, Nat.mod_eq_of_lt (by omega)]
      omega
    rw [hvalue] at hmet
    exact hheld id hmet
  have hcard := Finset.card_le_card hall
  rw [Nat.card_Icc] at hcard
  omega

end Netz.Lib
