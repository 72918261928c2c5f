/-
Lists of closed intervals of naturals, newest first, that never touch.

A set of numbers kept as a list of intervals is canonical when the intervals
descend and leave a gap of at least one number between neighbours.  `Spaced` is
that condition; it is what makes membership decidable by looking at one interval
at a time, and what makes the sum of the lengths the size of the set.
-/
import Mathlib.Algebra.Order.Ring.Int
import Mathlib.Algebra.BigOperators.Group.List.Basic

namespace Netz.Lib

open List

/-- The numbers from `start` to `stop`, both included. -/
structure Range where
  start : Nat
  stop : Nat
deriving DecidableEq, Inhabited

namespace Range

/-- How many numbers the interval holds. -/
def len (r : Range) : Nat := r.stop - r.start + 1

/-- `n` is one of the interval's numbers. -/
def Holds (r : Range) (n : Nat) : Prop := r.start ≤ n ∧ n ≤ r.stop

instance (r : Range) (n : Nat) : Decidable (r.Holds n) := inferInstanceAs (Decidable (_ ∧ _))

end Range

/-- Intervals are nonempty, descend, and leave a gap between neighbours. -/
structure Spaced (rs : List Range) : Prop where
  ordered : ∀ r ∈ rs, r.start ≤ r.stop
  gaps : rs.Pairwise fun newer older => older.stop + 2 ≤ newer.start

/-- Some interval of the list holds `n`. -/
def Covers (rs : List Range) (n : Nat) : Prop := ∃ r ∈ rs, r.Holds n

/-- The sum of the lengths. -/
def total (rs : List Range) : Nat := (rs.map Range.len).sum

@[simp] lemma total_nil : total [] = 0 := rfl

@[simp] lemma total_cons (r : Range) (rs : List Range) : total (r :: rs) = r.len + total rs := by
  simp [total]

@[simp] lemma total_append (as bs : List Range) : total (as ++ bs) = total as + total bs := by
  simp [total]

@[simp] lemma total_reverse (rs : List Range) : total rs.reverse = total rs := by simp [total]

@[simp] lemma covers_reverse (rs : List Range) (n : Nat) : Covers rs.reverse n ↔ Covers rs n := by
  simp [Covers]

@[simp] lemma covers_nil (n : Nat) : ¬ Covers [] n := by simp [Covers]

@[simp] lemma covers_cons (r : Range) (rs : List Range) (n : Nat) :
    Covers (r :: rs) n ↔ r.Holds n ∨ Covers rs n := by simp [Covers]

@[simp] lemma covers_append (as bs : List Range) (n : Nat) :
    Covers (as ++ bs) n ↔ Covers as n ∨ Covers bs n := by
  simp only [Covers, mem_append, or_and_right, exists_or]

namespace Spaced

lemma nil : Spaced [] := ⟨by simp, Pairwise.nil⟩

lemma cons_iff {r : Range} {rs : List Range} :
    Spaced (r :: rs) ↔ r.start ≤ r.stop ∧ (∀ older ∈ rs, older.stop + 2 ≤ r.start) ∧ Spaced rs := by
  constructor
  · rintro ⟨hord, hgap⟩
    obtain ⟨hr, hrest⟩ := pairwise_cons.mp hgap
    exact ⟨hord r (by simp), hr, fun q hq => hord q (by simp [hq]), hrest⟩
  rintro ⟨hr, hgap, hrest⟩
  refine ⟨?_, pairwise_cons.mpr ⟨hgap, hrest.gaps⟩⟩
  intro q hq
  rcases mem_cons.mp hq with rfl | hq
  · exact hr
  · exact hrest.ordered q hq

lemma append_iff {as bs : List Range} :
    Spaced (as ++ bs) ↔
      Spaced as ∧ Spaced bs ∧ ∀ newer ∈ as, ∀ older ∈ bs, older.stop + 2 ≤ newer.start := by
  constructor
  · rintro ⟨hord, hgap⟩
    obtain ⟨ha, hb, hab⟩ := pairwise_append.mp hgap
    exact ⟨⟨fun r hr => hord r (by simp [hr]), ha⟩, ⟨fun r hr => hord r (by simp [hr]), hb⟩, hab⟩
  rintro ⟨ha, hb, hab⟩
  refine ⟨?_, pairwise_append.mpr ⟨ha.gaps, hb.gaps, hab⟩⟩
  intro r hr
  rcases mem_append.mp hr with hr | hr
  · exact ha.ordered r hr
  · exact hb.ordered r hr

/-- What a list split around one interval says about the two sides. -/
theorem middle_iff {newer older : List Range} {r : Range} :
    Spaced (newer ++ r :: older) ↔ Spaced newer ∧ r.start ≤ r.stop ∧ Spaced older ∧
      (∀ a ∈ newer, r.stop + 2 ≤ a.start) ∧ (∀ b ∈ older, b.stop + 2 ≤ r.start) ∧
      ∀ a ∈ newer, ∀ b ∈ older, b.stop + 2 ≤ a.start := by
  rw [append_iff, cons_iff]
  constructor
  · rintro ⟨hn, ⟨hr, hro, ho⟩, hno⟩
    exact ⟨hn, hr, ho, fun a ha => hno a ha r (by simp), hro,
      fun a ha b hb => hno a ha b (by simp [hb])⟩
  rintro ⟨hn, hr, ho, hnr, hro, hno⟩
  refine ⟨hn, ⟨hr, hro, ho⟩, ?_⟩
  intro a ha b hb
  rcases mem_cons.mp hb with rfl | hb
  · exact hnr a ha
  · exact hno a ha b hb

/-- A number below every interval, or in a gap, is held by none. -/
theorem not_covers_of_lt {rs : List Range} {n : Nat} (h : ∀ r ∈ rs, n < r.start) :
    ¬ Covers rs n := by
  rintro ⟨r, hr, hlo, -⟩
  have := h r hr
  omega

lemma not_covers_of_gt {rs : List Range} {n : Nat} (h : ∀ r ∈ rs, r.stop < n) :
    ¬ Covers rs n := by
  rintro ⟨r, hr, -, hhi⟩
  have := h r hr
  omega

end Spaced

lemma set_split {α : Type} (as bs : List α) (x y : α) :
    (as ++ x :: bs).set as.length y = as ++ y :: bs := by simp

lemma eraseIdx_split {α : Type} (as bs : List α) (x : α) :
    (as ++ x :: bs).eraseIdx as.length = as ++ bs := by
  rw [eraseIdx_append_of_length_le le_rfl]
  simp

lemma insertIdx_split {α : Type} (as bs : List α) (y : α) :
    (as ++ bs).insertIdx as.length y = as ++ y :: bs := by
  induction as with
  | nil => simp
  | cons a rest ih => simp [ih]

end Netz.Lib
