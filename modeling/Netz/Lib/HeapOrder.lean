/-
The order of a binary heap.

A heap is looked at through the key at each position: `k i` for `i < n`.  The sifts move one
key to where it belongs, and all pairs that its position does not touch stay in order
meanwhile; `UpOrder` and `DownOrder` are what holds around that position, in one direction
and in the other.
-/
import Mathlib.Data.Nat.Basic
import Mathlib.Data.Finset.Card
import Mathlib.Logic.Equiv.Basic
import Mathlib.Order.Basic

namespace Netz.Lib.Heap

open List

universe u

variable {κ : Type u}

/-! ### Positions -/

def parent (i : Nat) : Nat := (i - 1) / 2

lemma parent_lt {i : Nat} (h : 0 < i) : parent i < i := by
  unfold parent
  omega

variable {i j : Nat}

lemma parent_eq_iff (h : 0 < j) : parent j = i ↔ j = 2 * i + 1 ∨ j = 2 * i + 2 := by
  unfold parent
  omega

/-- The keys of two positions, exchanged. -/
def swapAt (k : Nat → κ) (a b : Nat) : Nat → κ := fun i => k (Equiv.swap a b i)

lemma swapAt_left (k : Nat → κ) (a b : Nat) : swapAt k a b a = k b :=
  congrArg k (Equiv.swap_apply_left a b)

lemma swapAt_right (k : Nat → κ) (a b : Nat) : swapAt k a b b = k a :=
  congrArg k (Equiv.swap_apply_right a b)

lemma swapAt_other (k : Nat → κ) {a b i : Nat} (ha : i ≠ a) (hb : i ≠ b) :
    swapAt k a b i = k i := congrArg k (Equiv.swap_apply_of_ne_of_ne ha hb)

/-! ### Order -/

variable [LinearOrder κ]

/-- No key comes before that of its parent. -/
def Ordered (k : Nat → κ) (n : Nat) : Prop := ∀ i, 0 < i → i < n → k (parent i) ≤ k i

/-- The pairs that `i` is not part of are in order, and its children follow its parent. -/
structure HoleOrder (k : Nat → κ) (n i : Nat) : Prop where
  except : ∀ j, 0 < j → j < n → j ≠ i → parent j ≠ i → k (parent j) ≤ k j
  grand : 0 < i → ∀ j, 0 < j → j < n → parent j = i → k (parent i) ≤ k j

/-- The key at `i` may only be too far down. -/
structure UpOrder (k : Nat → κ) (n i : Nat) : Prop extends HoleOrder k n i where
  below : ∀ j, 0 < j → j < n → parent j = i → k i ≤ k j

/-- The key at `i` may only be too far up. -/
structure DownOrder (k : Nat → κ) (n i : Nat) : Prop extends HoleOrder k n i where
  above : 0 < i → k (parent i) ≤ k i

variable {k : Nat → κ} {n i : Nat}

/-! ### Sifting up -/

/-- The key moves up past a later parent. -/
theorem UpOrder.move (h : UpOrder k n i) (hi : 0 < i) (hin : i < n) (hlt : k i < k (parent i)) :
    UpOrder (swapAt k i (parent i)) n (parent i) := by
  have hp := parent_lt hi
  -- the old parent stands in order above its other child, and below its own parent
  have hgrand : 0 < parent i → k (parent (parent i)) ≤ k (parent i) := by
    intro hp₀
    have := parent_lt hp₀
    exact h.except (parent i) hp₀ (by omega) (by omega) (by omega)
  have hsibling : ∀ j, 0 < j → j < n → parent j = parent i → j ≠ i → k (parent i) ≤ k j := by
    intro j hj hjn hpj hji
    rw [← hpj]
    exact h.except j hj hjn hji (by omega)
  refine ⟨⟨?_, ?_⟩, ?_⟩
  · intro j hj hjn hjp hpj
    have hji : j ≠ i := fun hji => hpj (by rw [hji])
    rw [swapAt_other k hji hjp]
    by_cases hpi : parent j = i
    · rw [hpi, swapAt_left]
      exact h.grand hi j hj hjn hpi
    · rw [swapAt_other k hpi hpj]
      exact h.except j hj hjn hji hpi
  · intro hp₀ j hj hjn hpj
    have := parent_lt hp₀
    rw [swapAt_other k (by omega : parent (parent i) ≠ i) (by omega)]
    by_cases hji : j = i
    · rw [hji, swapAt_left]
      exact hgrand hp₀
    have := parent_lt hj
    rw [swapAt_other k hji (by omega)]
    exact (hgrand hp₀).trans (hsibling j hj hjn hpj hji)
  intro j hj hjn hpj
  rw [swapAt_right]
  by_cases hji : j = i
  · rw [hji, swapAt_left]
    exact hlt.le
  have := parent_lt hj
  rw [swapAt_other k hji (by omega)]
  exact hlt.le.trans (hsibling j hj hjn hpj hji)

/-- It stops below a parent that does not follow it. -/
theorem UpOrder.finish (h : UpOrder k n i) (hstop : 0 < i → k (parent i) ≤ k i) : Ordered k n := by
  intro j hj hjn
  by_cases hji : j = i
  · rw [hji] at hj ⊢
    exact hstop hj
  by_cases hpj : parent j = i
  · rw [hpj]
    exact h.below j hj hjn hpj
  · exact h.except j hj hjn hji hpj

/-! ### Sifting down -/

/-- The key moves down past its earlier child. -/
theorem DownOrder.move {c : Nat} (h : DownOrder k n i) (hc : 0 < c) (hcn : c < n)
    (hpc : parent c = i) (hmin : ∀ j, 0 < j → j < n → parent j = i → k c ≤ k j)
    (hlt : k c < k i) : DownOrder (swapAt k i c) n c := by
  have hic : i < c := by
    have := parent_lt hc
    omega
  refine ⟨⟨?_, ?_⟩, ?_⟩
  · intro j hj hjn hjc hpj
    by_cases hji : j = i
    · rw [hji] at hj ⊢
      have := parent_lt hj
      rw [swapAt_left, swapAt_other k (by omega) (by omega)]
      exact h.grand hj c hc hcn hpc
    rw [swapAt_other k hji hjc]
    by_cases hpi : parent j = i
    · rw [hpi, swapAt_left]
      exact hmin j hj hjn hpi
    · rw [swapAt_other k hpi hpj]
      exact h.except j hj hjn hji hpi
  · intro _ j hj hjn hpj
    have := parent_lt hj
    rw [hpc, swapAt_left, swapAt_other k (by omega : j ≠ i) (by omega), ← hpj]
    exact h.except j hj hjn (by omega) (by omega)
  intro _
  rw [hpc, swapAt_left, swapAt_right]
  exact hlt.le

lemma DownOrder.finish (h : DownOrder k n i)
    (hstop : ∀ j, 0 < j → j < n → parent j = i → k i ≤ k j) : Ordered k n := by
  intro j hj hjn
  by_cases hji : j = i
  · rw [hji] at hj ⊢
    exact h.above hj
  by_cases hpj : parent j = i
  · rw [hpj]
    exact hstop j hj hjn hpj
  · exact h.except j hj hjn hji hpj

/-! ### Replacing a key -/

/-- Any key may be put in the place of another: only the pairs around it can be wrong. -/
theorem Ordered.hole {k' : Nat → κ} (h : Ordered k n) (hk : ∀ j, j < n → j ≠ i → k' j = k j)
    (hin : i < n) : HoleOrder k' n i := by
  constructor
  · intro j hj hjn hji hpj
    have := parent_lt hj
    rw [hk j hjn hji, hk _ (by omega) hpj]
    exact h j hj hjn
  intro hi j hj hjn hpj
  have := parent_lt hi
  have := parent_lt hj
  rw [hk j hjn (by omega), hk _ (by omega) (by omega)]
  have hij := h j hj hjn
  rw [hpj] at hij
  exact (h i hi hin).trans hij

/-- A key that precedes its parent can only be too far down. -/
theorem HoleOrder.up (h : HoleOrder k n i) (hi : 0 < i) (hlt : k i < k (parent i)) :
    UpOrder k n i :=
  ⟨h, fun j hj hjn hpj => hlt.le.trans (h.grand hi j hj hjn hpj)⟩

lemma HoleOrder.down (h : HoleOrder k n i) (hle : 0 < i → k (parent i) ≤ k i) :
    DownOrder k n i := ⟨h, hle⟩

lemma Ordered.mono {m : Nat} (h : Ordered k n) (hm : m ≤ n) : Ordered k m :=
  fun i hi him => h i hi (by omega)

/-- A new last key can only be too far down. -/
theorem Ordered.append (h : Ordered k n) : UpOrder k (n + 1) n := by
  refine ⟨⟨?_, ?_⟩, ?_⟩
  · intro j hj hjn hjne _
    exact h j hj (by omega)
  · intro _ j hj hjn hpj
    have := parent_lt hj
    omega
  intro j hj hjn hpj
  have := parent_lt hj
  omega

/-! ### The root -/

/-- **The first key of a heap is its least.** -/
theorem Ordered.root_le (h : Ordered k n) : ∀ i, i < n → k 0 ≤ k i := by
  intro i
  induction i using Nat.strong_induction_on with
  | _ i ih =>
    intro hin
    by_cases hi : i = 0
    · rw [hi]
    · have hp := parent_lt (Nat.pos_of_ne_zero hi)
      exact (ih (parent i) hp (by omega)).trans (h i (Nat.pos_of_ne_zero hi) hin)

/-! ### Counting from the root

A property that a position can only have together with its parent is counted by a walk that
turns back where it fails.
-/

/-- `j` is `i`, or below it. -/
inductive Under (i : Nat) : Nat → Prop
  | refl : Under i i
  | step {j : Nat} (hj : 0 < j) (h : Under i (parent j)) : Under i j

lemma Under.le (h : Under i j) : i ≤ j := by
  induction h with
  | refl => exact le_rfl
  | step hj _ ih => exact ih.trans (parent_lt hj).le

lemma under_zero (j : Nat) : Under 0 j := by
  induction j using Nat.strong_induction_on with
  | _ j ih =>
    by_cases hj : j = 0
    · rw [hj]
      exact .refl
    · exact .step (Nat.pos_of_ne_zero hj) (ih _ (parent_lt (Nat.pos_of_ne_zero hj)))

lemma Under.of_child {i c j : Nat} (hc : 0 < c) (hpc : parent c = i) (h : Under c j) :
    Under i j := by
  induction h with
  | refl => exact .step hc (hpc ▸ .refl)
  | step hj _ ih => exact .step hj ih

lemma under_iff : Under i j ↔ j = i ∨ Under (2 * i + 1) j ∨ Under (2 * i + 2) j := by
  constructor
  · intro h
    induction h with
    | refl => exact .inl rfl
    | step hj _ ih =>
      rcases ih with hp | h | h
      · rcases (parent_eq_iff hj).mp hp with rfl | rfl
        · exact .inr (.inl .refl)
        · exact .inr (.inr .refl)
      · exact .inr (.inl (.step hj h))
      · exact .inr (.inr (.step hj h))
  rintro (rfl | h | h)
  · exact .refl
  · exact h.of_child (by omega) ((parent_eq_iff (by omega)).mpr (.inl rfl))
  · exact h.of_child (by omega) ((parent_eq_iff (by omega)).mpr (.inr rfl))

lemma not_under_both (hl : Under (2 * i + 1) j) (hr : Under (2 * i + 2) j) : False := by
  induction hl with
  | refl =>
    have := hr.le
    omega
  | step hj hl ih =>
    cases hr with
    | refl =>
      have := hl.le
      unfold parent at this
      omega
    | step _ hr => exact ih hr

/-- The walk: where `due` fails, and past the last position, nothing below is looked at. -/
def countPruned (due : Nat → Bool) (n : Nat) : Nat → Nat → Nat
  | 0, _ => 0
  | fuel + 1, i =>
    if n ≤ i then 0
    else if due i then
      1 + countPruned due n fuel (2 * i + 1) + countPruned due n fuel (2 * i + 2)
    else 0

variable {due : Nat → Bool}

lemma due_of_under {n : Nat} (hup : ∀ j, 0 < j → j < n → due j = true → due (parent j) = true)
    (h : Under i j) (hjn : j < n) (hj : due j = true) : due i = true := by
  induction h with
  | refl => exact hj
  | step hj₀ _ ih => exact ih ((parent_lt hj₀).trans hjn) (hup _ hj₀ hjn hj)

open Classical in
/-- What the walk counts: every position below `i` that is due. -/
theorem countPruned_eq {n : Nat} (hup : ∀ j, 0 < j → j < n → due j = true → due (parent j) = true) :
    ∀ fuel i, n ≤ fuel + i →
      countPruned due n fuel i = ((Finset.range n).filter fun j => due j = true ∧ Under i j).card := by
  intro fuel
  induction fuel with
  | zero =>
    intro i hfuel
    symm
    rw [countPruned, Finset.card_eq_zero, Finset.filter_eq_empty_iff]
    rintro j hj ⟨-, hunder⟩
    have := hunder.le
    have := Finset.mem_range.mp hj
    omega
  | succ fuel ih =>
    intro i hfuel
    by_cases hin : n ≤ i
    · symm
      rw [countPruned, if_pos hin, Finset.card_eq_zero, Finset.filter_eq_empty_iff]
      rintro j hj ⟨-, hunder⟩
      have := hunder.le
      have := Finset.mem_range.mp hj
      omega
    by_cases hdue : due i = true
    · have hsplit : (Finset.range n).filter (fun j => due j = true ∧ Under i j) =
          insert i (((Finset.range n).filter fun j => due j = true ∧ Under (2 * i + 1) j) ∪
            (Finset.range n).filter fun j => due j = true ∧ Under (2 * i + 2) j) := by
        ext j
        simp only [Finset.mem_filter, Finset.mem_insert, Finset.mem_union, Finset.mem_range]
        rw [under_iff]
        constructor
        · rintro ⟨hj, hd, rfl | h | h⟩
          · exact .inl rfl
          · exact .inr (.inl ⟨hj, hd, h⟩)
          · exact .inr (.inr ⟨hj, hd, h⟩)
        rintro (rfl | ⟨hj, hd, h⟩ | ⟨hj, hd, h⟩)
        · exact ⟨by omega, hdue, .inl rfl⟩
        · exact ⟨hj, hd, .inr (.inl h)⟩
        · exact ⟨hj, hd, .inr (.inr h)⟩
      have hroot : i ∉ ((Finset.range n).filter fun j => due j = true ∧ Under (2 * i + 1) j) ∪
          (Finset.range n).filter fun j => due j = true ∧ Under (2 * i + 2) j := by
        simp only [Finset.mem_union, Finset.mem_filter]
        rintro (⟨-, -, h⟩ | ⟨-, -, h⟩)
        · have := h.le
          omega
        · have := h.le
          omega
      have hdisj : Disjoint
          ((Finset.range n).filter fun j => due j = true ∧ Under (2 * i + 1) j)
          ((Finset.range n).filter fun j => due j = true ∧ Under (2 * i + 2) j) := by
        rw [Finset.disjoint_filter]
        rintro j - ⟨-, hl⟩ ⟨-, hr⟩
        exact not_under_both hl hr
      rw [countPruned, if_neg hin, if_pos hdue, hsplit, Finset.card_insert_of_notMem hroot,
        Finset.card_union_of_disjoint hdisj, ih _ (by omega), ih _ (by omega)]
      omega
    symm
    rw [countPruned, if_neg hin, if_neg hdue, Finset.card_eq_zero,
      Finset.filter_eq_empty_iff]
    rintro j hj ⟨hd, hunder⟩
    exact hdue (due_of_under hup hunder (Finset.mem_range.mp hj) hd)

/-- **From the root, every due position is counted.** -/
theorem countPruned_root {n fuel : Nat}
    (hup : ∀ j, 0 < j → j < n → due j = true → due (parent j) = true) (hfuel : n ≤ fuel) :
    countPruned due n fuel 0 = ((range n).filter due).length := by
  classical
  have hset : ((Finset.range n).filter fun j => due j = true ∧ Under 0 j) =
      ((range n).filter due).toFinset := by
    ext j
    simp only [Finset.mem_filter, Finset.mem_range, mem_toFinset, mem_filter,
      mem_range]
    exact ⟨fun h => ⟨h.1, h.2.1⟩, fun h => ⟨h.1, h.2, under_zero j⟩⟩
  rw [countPruned_eq hup fuel 0 (by omega), hset,
    toFinset_card_of_nodup (nodup_range.filter _)]

end Netz.Lib.Heap
