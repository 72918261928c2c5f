/-
Slot lists: arrays whose entries are vacant or occupied.

Taking an element out leaves a vacant slot behind, and a new element goes to the first
vacant slot or, when there is none, to the end.  What a slot list holds is
`List.reduceOption`, its occupied entries in slot order.
-/
import Mathlib.Data.List.Perm.Basic
import Mathlib.Data.List.Perm.Subperm
import Mathlib.Data.List.ReduceOption
import Netz.Lib.Table

namespace Netz.Lib

open List

universe u

variable {α : Type u}

/-- The first vacant slot, or the length of the list. -/
def vacantSlot : List (Option α) → Nat
  | [] => 0
  | none :: _ => 0
  | some _ :: rest => vacantSlot rest + 1

/-- `a` in the first vacant slot. -/
def insertSlot (a : α) : List (Option α) → List (Option α)
  | [] => [some a]
  | none :: rest => some a :: rest
  | some b :: rest => some b :: insertSlot a rest

/-- No vacant slot stands in front of an element that satisfies `p`. -/
def Packed (p : α → Bool) (l : List (Option α)) : Prop :=
  l.Pairwise (fun a b => a.isNone = true → b.any p = false)

instance (p : α → Bool) (l : List (Option α)) : Decidable (Packed p l) :=
  inferInstanceAs (Decidable (l.Pairwise _))

attribute [local simp] vacantSlot insertSlot

lemma getElem?_vacantSlot (l : List (Option α)) (b : α) : l[vacantSlot l]? ≠ some (some b) := by
  induction l with
  | nil => simp
  | cons slot rest ih =>
    cases slot with
    | none => simp
    | some c => simpa using ih

lemma getElem?_insertSlot (a : α) (l : List (Option α)) (i : Nat) :
    (insertSlot a l)[i]? = if i = vacantSlot l then some (some a) else l[i]? := by
  induction l generalizing i with
  | nil => cases i <;> simp
  | cons slot rest ih =>
    cases slot with
    | none => cases i <;> simp
    | some b => cases i <;> simp [ih]

lemma reduceOption_insertSlot_perm (a : α) (l : List (Option α)) :
    (insertSlot a l).reduceOption.Perm (a :: l.reduceOption) := by
  induction l with
  | nil => simp
  | cons slot rest ih =>
    cases slot with
    | none => simp
    | some b => exact (ih.cons b).trans (Perm.swap a b _)

variable {p : α → Bool} {a : α} {l : List (Option α)} {i : Nat}

/-- Elements that do not satisfy `p` do not show behind a filter. -/
theorem filter_insertSlot_of_neg (ha : p a = false) (l : List (Option α)) :
    (insertSlot a l).reduceOption.filter p = l.reduceOption.filter p := by
  induction l with
  | nil => simp [ha]
  | cons slot rest ih =>
    cases slot with
    | none => simp [ha]
    | some b => simp [filter_cons, ih]

/-- In a packed list a new element goes behind every other that satisfies `p`. -/
theorem Packed.filter_insertSlot (h : Packed p l) (ha : p a = true) :
    (insertSlot a l).reduceOption.filter p = l.reduceOption.filter p ++ [a] := by
  induction l with
  | nil => simp [ha]
  | cons slot rest ih =>
    obtain ⟨hfirst, hrest⟩ := pairwise_cons.mp h
    cases slot with
    | none =>
      have hnone : rest.reduceOption.filter p = [] := by
        rw [filter_eq_nil_iff]
        intro b hb
        simpa using hfirst (some b) (reduceOption_mem_iff.mp hb) rfl
      simp [ha, hnone]
    | some b =>
      simp only [insertSlot, reduceOption_cons_of_some, filter_cons,
        ih hrest]
      split <;> rfl

lemma Packed.insertSlot (h : Packed p l) (a : α) : Packed p (insertSlot a l) := by
  induction l with
  | nil => simp [Packed]
  | cons slot rest ih =>
    obtain ⟨hfirst, hrest⟩ := pairwise_cons.mp h
    cases slot with
    | none => exact pairwise_cons.mpr ⟨by simp, hrest⟩
    | some b => exact pairwise_cons.mpr ⟨by simp, ih hrest⟩

lemma Packed.congr {l' : List (Option α)} (h : Packed p l)
    (hsame : l'.map (Option.map p) = l.map (Option.map p)) : Packed p l' := by
  have hmapped : ∀ l : List (Option α), Packed p l ↔
      (l.map (Option.map p)).Pairwise (fun a b => a.isNone = true → b ≠ some true) := by
    intro l
    rw [pairwise_map]
    refine Pairwise.iff fun a b => ?_
    cases a <;> cases b <;> simp
  rw [hmapped] at h ⊢
  rwa [hsame]

lemma reduceOption_set_none_perm (h : l[i]? = some (some a)) :
    l.reduceOption.Perm (a :: (l.set i none).reduceOption) := by
  induction l generalizing i with
  | nil => simp at h
  | cons slot rest ih =>
    cases i with
    | zero =>
      rw [getElem?_cons_zero, Option.some.injEq] at h
      simp [h]
    | succ k =>
      cases slot with
      | none => simpa using ih h
      | some b => exact ((ih h).cons b).trans (Perm.swap a b _)

lemma reduceOption_set_none_sublist (l : List (Option α)) (i : Nat) :
    (l.set i none).reduceOption.Sublist l.reduceOption := by
  induction l generalizing i with
  | nil => simp
  | cons slot rest ih =>
    cases i with
    | zero => cases slot <;> simp
    | succ k => cases slot <;> simpa using ih k

lemma filter_set_some_sublist (ha : p a = false) (l : List (Option α)) (i : Nat) :
    ((l.set i (some a)).reduceOption.filter p).Sublist (l.reduceOption.filter p) := by
  induction l generalizing i with
  | nil => simp
  | cons slot rest ih =>
    cases i with
    | zero =>
      cases slot with
      | none => simp [ha]
      | some b =>
        simp only [set_cons_zero, reduceOption_cons_of_some]
        rw [filter_cons_of_neg (by simp [ha])]
        exact (sublist_cons_self b _).filter p
    | succ k =>
      cases slot with
      | none => simpa using ih k
      | some b =>
        simp only [set_cons_succ, reduceOption_cons_of_some, filter_cons]
        split
        · exact (ih k).cons_cons b
        · exact ih k

lemma reduceOption_set_none_first (h : l[i]? = some (some a))
    (hfront : (l.take i).reduceOption = []) :
    l.reduceOption = a :: (l.set i none).reduceOption := by
  induction l generalizing i with
  | nil => simp at h
  | cons slot rest ih =>
    cases i with
    | zero =>
      rw [getElem?_cons_zero, Option.some.injEq] at h
      simp [h]
    | succ k =>
      cases slot with
      | none => simpa using ih h (by simpa using hfront)
      | some b => simp at hfront

/-- The places of the elements that satisfy `p`. -/
def places (p : α → Bool) (l : List (Option α)) : List Nat :=
  (range l.length).filter fun i => (l[i]?.join).any p

lemma mem_places : i ∈ places p l ↔ ∃ a, l[i]? = some (some a) ∧ p a = true := by
  unfold places
  rw [mem_filter, mem_range]
  constructor
  · rintro ⟨hi, hp⟩
    obtain ⟨a, ha, hpa⟩ := (Option.any_eq_true _ _).mp hp
    exact ⟨a, Option.join_eq_some_iff.mp ha, hpa⟩
  rintro ⟨a, ha, hpa⟩
  refine ⟨lt_of_getElem? ha, ?_⟩
  rw [ha]
  exact hpa

lemma nodup_places (p : α → Bool) (l : List (Option α)) : (places p l).Nodup :=
  nodup_range.filter _

lemma length_places (p : α → Bool) (l : List (Option α)) :
    (places p l).length = (l.reduceOption.filter p).length := by
  induction l with
  | nil => rfl
  | cons slot rest ih =>
    unfold places at ih ⊢
    rw [length_cons, range_succ_eq_map, filter_cons, filter_map,
      apply_ite length, length_cons, length_map]
    simp only [Function.comp_def, getElem?_cons_succ, getElem?_cons_zero]
    rw [ih]
    cases slot with
    | none => simp
    | some a => by_cases ha : p a = true <;> simp [ha]

/-- Different places that are occupied are no more than the elements. -/
theorem length_le_reduceOption {indices : List Nat} (hnodup : indices.Nodup)
    (h : ∀ i ∈ indices, ∃ a, l[i]? = some (some a)) : indices.length ≤ l.reduceOption.length := by
  have hsub : indices ⊆ places (fun _ => true) l := by
    intro i hi
    obtain ⟨a, ha⟩ := h i hi
    exact mem_places.mpr ⟨a, ha, rfl⟩
  have hle := (hnodup.subperm hsub).length_le
  rw [length_places, filter_true] at hle
  exact hle

/-! ### Rewriting one place -/

lemma filterMap_set_perm {β : Type u} {l : List α} {y : α} (h : l[i]? = some y) (x : α)
    (f : α → Option β) :
    ((f y).toList ++ (l.set i x).filterMap f).Perm ((f x).toList ++ l.filterMap f) := by
  have hcons : ∀ (z : α) (m : List α), (z :: m).filterMap f = (f z).toList ++ m.filterMap f := by
    intro z m
    cases hz : f z with
    | none => simp [filterMap_cons_none hz]
    | some b => simp [filterMap_cons_some hz]
  induction l generalizing i with
  | nil => simp at h
  | cons z rest ih =>
    cases i with
    | zero =>
      rw [getElem?_cons_zero, Option.some.injEq] at h
      rw [set_cons_zero, hcons, hcons, h, ← append_assoc, ← append_assoc]
      exact perm_append_comm.append_right _
    | succ k =>
      rw [set_cons_succ, hcons, hcons, ← append_assoc, ← append_assoc]
      have hswap : ((f y).toList ++ (f z).toList).Perm ((f z).toList ++ (f y).toList) :=
        perm_append_comm
      have hswap' : ((f z).toList ++ (f x).toList).Perm ((f x).toList ++ (f z).toList) :=
        perm_append_comm
      refine (hswap.append_right _).trans ?_
      rw [append_assoc]
      refine ((ih h).append_left _).trans ?_
      rw [← append_assoc]
      exact hswap'.append_right _

end Netz.Lib

/-! ### A slot list whose entries carry distinct keys, with an index from keys to slots

`ids` holds the key of every occupied slot.  The index and the slots are kept in step by
putting a fresh key into the first vacant slot and by clearing the slot a key is found in. -/

namespace Netz.Lib

open List

universe u v w

variable {α : Type u} {β : Type v} {κ : Type w} [DecidableEq κ]

/-! ### Rewriting slots in place -/

lemma vacantSlot_map (f : α → β) (l : List (Option α)) :
    vacantSlot (l.map (Option.map f)) = vacantSlot l := by
  induction l with
  | nil => rfl
  | cons slot rest ih => cases slot <;> simp [vacantSlot, ih]

lemma map_insertSlot (f : α → β) (a : α) (l : List (Option α)) :
    (insertSlot a l).map (Option.map f) = insertSlot (f a) (l.map (Option.map f)) := by
  induction l with
  | nil => rfl
  | cons slot rest ih => cases slot <;> simp [insertSlot, ih]

/-! ### Slots and their index -/

structure SlotIndex (ids : List (Option κ)) (index : Table κ Nat) : Prop where
  indexed : ∀ k slot, index.get k = some slot ↔ ids[slot]? = some (some k)
  keys : index.keys.Perm ids.reduceOption
  distinct : ids.reduceOption.Nodup

namespace SlotIndex

variable {ids : List (Option κ)} {index : Table κ Nat}

lemma empty : SlotIndex ([] : List (Option κ)) [] where
  indexed := by intro k slot; simp
  keys := by simp [Table.keys]
  distinct := by simp

/-- A key found in one slot is found in no other. -/
theorem slot_unique (h : SlotIndex ids index) {i j : Nat} {k : κ}
    (hi : ids[i]? = some (some k)) (hj : ids[j]? = some (some k)) : i = j := by
  have h₁ := (h.indexed k i).mpr hi
  rw [(h.indexed k j).mpr hj, Option.some.injEq] at h₁
  exact h₁.symm

lemma not_mem_iff (h : SlotIndex ids index) (k : κ) :
    index.get k = none ↔ k ∉ ids.reduceOption := by
  rw [Table.get_eq_none_iff, h.keys.mem_iff]

/-- A fresh key goes into the first vacant slot. -/
theorem insert (h : SlotIndex ids index) {k : κ} (hnew : index.get k = none) :
    SlotIndex (insertSlot k ids) (index.put k (vacantSlot ids)) where
  indexed := by
    intro j slot
    rw [Table.get_put hnew, getElem?_insertSlot]
    by_cases hj : j = k
    · subst hj
      have hold : ids[slot]? ≠ some (some j) := by
        intro hc
        simp [(h.indexed j slot).mpr hc] at hnew
      by_cases hs : slot = vacantSlot ids
      · simp [hs]
      · simpa [hs, Ne.symm hs] using hold
    have hkeep := h.indexed j slot
    by_cases hs : slot = vacantSlot ids
    · subst hs
      have hvacant : ¬ index.get j = some (vacantSlot ids) := by
        rw [hkeep]
        exact getElem?_vacantSlot ids j
      simp [hj, Ne.symm hj, hvacant]
    · simpa [hj, hs] using hkeep
  keys := by
    rw [Table.keys_put]
    refine Perm.trans ?_ (reduceOption_insertSlot_perm k ids).symm
    exact perm_append_comm.trans (h.keys.cons k)
  distinct := by
    rw [(reduceOption_insertSlot_perm k ids).nodup_iff, nodup_cons]
    exact ⟨(h.not_mem_iff k).mp hnew, h.distinct⟩

lemma clear (h : SlotIndex ids index) {k : κ} {i : Nat} (hi : ids[i]? = some (some k)) :
    SlotIndex (ids.set i none) (index.remove k) where
  indexed := by
    intro j slot
    rw [Table.get_remove]
    by_cases hj : j = k
    · subst hj
      by_cases hs : i = slot
      · subst hs
        simp [getElem?_set]
      · have : ids[slot]? ≠ some (some j) := fun hc => hs (h.slot_unique hi hc)
        simpa [getElem?_set, hs] using this
    rw [if_neg hj, h.indexed]
    by_cases hs : i = slot
    · subst hs
      simp [getElem?_set, hi, Ne.symm hj]
    · simp [hs]
  keys := by
    have hperm := reduceOption_set_none_perm hi
    have hfresh : k ∉ (ids.set i none).reduceOption :=
      (nodup_cons.mp (hperm.nodup_iff.mp h.distinct)).1
    rw [Table.keys_remove]
    refine ((h.keys.trans hperm).filter _).trans ?_
    rw [filter_cons_of_neg (by simp), filter_eq_self.mpr]
    intro j hj
    have : j ≠ k := fun hc => hfresh (hc ▸ hj)
    simpa using this
  distinct := (reduceOption_set_none_sublist ids i).nodup h.distinct

end SlotIndex

end Netz.Lib
