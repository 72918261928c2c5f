/-
Unordered removal from a list, and the index that goes with it.

`swapRemove` takes the last element into the place of the removed one.  An index from keys to
positions follows with two updates: the keys of the removed element are dropped, and those of
the element that moved are read at its new place.
-/
import Netz.Lib.Positions

namespace Netz.Lib

open List Option

universe u v

variable {α : Type u} {κ : Type v} {l : List α} {i : Nat} {a : α}

def swapRemove (l : List α) (i : Nat) : List α :=
  match l.getLast? with
  | none => l
  | some last => (l.set i last).dropLast

lemma swapRemove_eq {last : α} (hlast : l[l.length - 1]? = some last) :
    swapRemove l i = (l.set i last).dropLast := by
  unfold swapRemove
  rw [getLast?_eq_getElem?, hlast]

lemma length_swapRemove (hi : i < l.length) : (swapRemove l i).length = l.length - 1 := by
  obtain ⟨last, hlast⟩ : ∃ last, l[l.length - 1]? = some last :=
    ⟨_, getElem?_eq_getElem (by omega)⟩
  rw [swapRemove_eq hlast, length_dropLast, length_set]

/-- The last element stands in the place of the removed one, all others where they were. -/
theorem getElem?_swapRemove (hi : i < l.length) (j : Nat) :
    (swapRemove l i)[j]? =
      if j < l.length - 1 then (if j = i then l[l.length - 1]? else l[j]?) else none := by
  obtain ⟨last, hlast⟩ : ∃ last, l[l.length - 1]? = some last :=
    ⟨_, getElem?_eq_getElem (by omega)⟩
  rw [swapRemove_eq hlast, getElem?_dropLast, length_set, hlast]
  by_cases hj : j < l.length - 1
  · rw [if_pos hj, if_pos hj, getElem?_set]
    by_cases hji : j = i
    · rw [if_pos hji.symm, if_pos hji, if_pos (by omega)]
    · rw [if_neg (Ne.symm hji), if_neg hji]
  · rw [if_neg hj, if_neg hj]

lemma take_swapRemove (hi : i < l.length) : (swapRemove l i).take i = l.take i := by
  refine ext_getElem? (fun j => ?_)
  rw [getElem?_take, getElem?_take]
  by_cases hj : j < i
  · rw [if_pos hj, if_pos hj, getElem?_swapRemove hi, if_pos (by omega), if_neg (by omega)]
  · rw [if_neg hj, if_neg hj]

/-- **Removing takes out the one element.** -/
theorem swapRemove_perm (ha : l[i]? = some a) : l.Perm (a :: swapRemove l i) := by
  rcases List.eq_nil_or_concat l with rfl | ⟨front, last, rfl⟩
  · cases ha
  rw [List.concat_eq_append] at ha ⊢
  have hwhole : (front ++ [last]).Perm (last :: front) := List.perm_append_singleton last front
  unfold swapRemove
  rw [List.getLast?_concat]
  dsimp only
  by_cases hi : i < front.length
  · -- The last element moves to the place of the removed one.
    rw [List.getElem?_append_left hi] at ha
    obtain ⟨_, hvalue⟩ := List.getElem_of_getElem? ha
    have hparts : front = front.take i ++ a :: front.drop (i + 1) := by
      rw [← hvalue, List.getElem_cons_drop, List.take_append_drop]
    have hset : front.set i last = front.take i ++ last :: front.drop (i + 1) :=
      List.set_eq_take_append_cons_drop .. |>.trans (if_pos hi)
    rw [List.set_append_left _ _ hi, List.dropLast_concat, hset]
    have hfront : front.Perm (a :: (front.take i ++ front.drop (i + 1))) := by
      conv_lhs => rw [hparts]
      exact List.perm_middle
    have hback : (front.take i ++ last :: front.drop (i + 1)).Perm
        (last :: (front.take i ++ front.drop (i + 1))) := List.perm_middle
    exact (hwhole.trans (hfront.cons last)).trans ((List.Perm.swap a last _).trans (hback.symm.cons a))
  -- It is the removed one itself.
  have hlen := lt_of_getElem? ha
  rw [List.length_append, List.length_singleton] at hlen
  have hend : i = front.length := by omega
  rw [hend, List.getElem?_concat_length, some.injEq] at ha
  rw [hend, List.set_append_right _ _ (Nat.le_refl _), Nat.sub_self, List.set_cons_zero,
    List.dropLast_concat, ← ha]
  exact hwhole

lemma drop_swapRemove (ha : l[i]? = some a) : (l.drop i).Perm (a :: (swapRemove l i).drop i) := by
  have hi := lt_of_getElem? ha
  have hwhole := swapRemove_perm ha
  have hsplit : swapRemove l i = l.take i ++ (swapRemove l i).drop i := by
    conv_lhs => rw [← List.take_append_drop i (swapRemove l i), take_swapRemove hi]
  rw [hsplit] at hwhole
  have hmiddle : (a :: (l.take i ++ (swapRemove l i).drop i)).Perm
      (l.take i ++ a :: (swapRemove l i).drop i) := List.perm_middle.symm
  have hall : (l.take i ++ l.drop i).Perm (l.take i ++ a :: (swapRemove l i).drop i) := by
    rw [List.take_append_drop]
    exact hwhole.trans hmiddle
  exact (List.perm_append_left_iff _).mp hall

variable [DecidableEq κ]

/-- **The index after an unordered removal.** -/
theorem Positions.swapRemove {keys : α → List κ} {t : Table κ Nat} (h : Positions keys l t)
    (ha : l[i]? = some a) :
    Positions keys (Lib.swapRemove l i) (refreshEntry keys (Lib.swapRemove l i)
      (t.removeKeys (keys a)) i) := by
  have hi := lt_of_getElem? ha
  have hother : ∀ {k j b}, l[j]? = some b → k ∈ keys b → j ≠ i → k ∉ keys a := by
    intro k j b hb hkb hne hka
    exact hne (h.unique hb ha hkb hka)
  intro k j
  unfold refreshEntry
  rw [getElem?_swapRemove hi, getElem?_swapRemove hi, if_pos rfl]
  by_cases hend : i < l.length - 1
  · -- An element has moved to the place of the removed one.
    obtain ⟨moved, hmoved⟩ : ∃ b, l[l.length - 1]? = some b :=
      ⟨_, List.getElem?_eq_getElem (by omega)⟩
    rw [if_pos hend, hmoved, Table.get_assignKeys, Table.get_removeKeys]
    by_cases hk : k ∈ keys moved
    · have hgone : k ∉ keys a := hother hmoved hk (by omega)
      rw [if_pos hk, if_neg hgone, (h k (l.length - 1)).mpr ⟨moved, hmoved, hk⟩, map_some,
        some.injEq]
      constructor
      · intro hij
        subst hij
        exact ⟨moved, by rw [if_pos hend, if_pos rfl], hk⟩
      rintro ⟨b, hb, hkb⟩
      by_cases hj : j < l.length - 1
      · rw [if_pos hj] at hb
        by_cases hji : j = i
        · exact hji.symm
        rw [if_neg hji] at hb
        have hsame := h.unique hb hmoved hkb hk
        omega
      · rw [if_neg hj] at hb
        cases hb
    rw [if_neg hk]
    by_cases hka : k ∈ keys a
    · rw [if_pos hka]
      refine iff_of_false (by simp) ?_
      rintro ⟨b, hb, hkb⟩
      by_cases hj : j < l.length - 1
      · rw [if_pos hj] at hb
        by_cases hji : j = i
        · rw [if_pos hji, some.injEq] at hb
          exact hk (hb ▸ hkb)
        · rw [if_neg hji] at hb
          exact hother hb hkb hji hka
      · rw [if_neg hj] at hb
        cases hb
    rw [if_neg hka, h k j]
    refine exists_congr (fun b => and_congr_left (fun hkb => ?_))
    by_cases hj : j < l.length - 1
    · rw [if_pos hj]
      by_cases hji : j = i
      · rw [if_pos hji]
        refine iff_of_false ?_ ?_
        · intro hb
          rw [hji, ha, some.injEq] at hb
          exact hka (hb ▸ hkb)
        intro hb
        rw [some.injEq] at hb
        exact hk (hb ▸ hkb)
      · rw [if_neg hji]
    rw [if_neg hj]
    refine iff_of_false ?_ (by simp)
    intro hb
    have hlt := lt_of_getElem? hb
    have hjend : j = l.length - 1 := by omega
    rw [hjend, hmoved, some.injEq] at hb
    exact hk (hb ▸ hkb)
  -- The removed element was the last one.
  rw [if_neg hend, Table.get_removeKeys]
  by_cases hka : k ∈ keys a
  · rw [if_pos hka]
    refine iff_of_false (by simp) ?_
    rintro ⟨b, hb, hkb⟩
    by_cases hj : j < l.length - 1
    · rw [if_pos hj, if_neg (by omega)] at hb
      exact hother hb hkb (by omega) hka
    · rw [if_neg hj] at hb
      cases hb
  rw [if_neg hka, h k j]
  refine exists_congr (fun b => and_congr_left (fun hkb => ?_))
  by_cases hj : j < l.length - 1
  · rw [if_pos hj, if_neg (by omega)]
  rw [if_neg hj]
  refine iff_of_false ?_ (by simp)
  intro hb
  have hlt := lt_of_getElem? hb
  have hjend : j = i := by omega
  rw [hjend, ha, some.injEq] at hb
  exact hka (hb ▸ hkb)

end Netz.Lib

/-! ### Partition of a list in place, by swaps from the back

Walking backwards, an element that goes out changes places with the last of those that stay.
What stays is therefore a permutation of the elements that do, not their order: the last of
them moves to where the one that goes out stood. -/

namespace Netz.Lib

open List

universe u

variable {α : Type u}

/-- One element in front of those that stay. -/
def swapStep (out : α → Bool) (a : α) (stay : List α) : List α :=
  if out a then stay.getLast?.toList ++ stay.dropLast else a :: stay

/-- The elements that stay, in the order the swaps leave them. -/
def swapOut (out : α → Bool) (l : List α) : List α := l.foldr (swapStep out) []

lemma getLast?_append_dropLast_perm (l : List α) : (l.getLast?.toList ++ l.dropLast).Perm l := by
  cases hlast : l.getLast? with
  | none =>
    rw [getLast?_eq_none_iff] at hlast
    simp [hlast]
  | some last =>
    have hsplit := dropLast_append_getLast? last hlast
    conv_rhs => rw [← hsplit]
    exact perm_append_comm

lemma swapOut_perm (out : α → Bool) (l : List α) :
    (swapOut out l).Perm (l.filter fun a => !out a) := by
  induction l with
  | nil => exact Perm.refl _
  | cons a rest ih =>
    unfold swapOut swapStep at *
    rw [foldr_cons]
    by_cases ha : out a = true
    · rw [if_pos ha, filter_cons_of_neg (by simp [ha])]
      exact (getLast?_append_dropLast_perm _).trans ih
    · rw [if_neg ha, filter_cons_of_pos (by simpa using ha)]
      exact ih.cons a

/-- **The swap of one element**: `before` is still to be classified, `stay` and `gone` are. -/
theorem swap_last (before stay gone : List α) (a target : α) :
    ∃ last, (before ++ a :: stay ++ gone)[before.length + stay.length]? = some last ∧
      ((before ++ a :: stay ++ gone).set before.length last).set
          (before.length + stay.length) target =
        before ++ (stay.getLast?.toList ++ stay.dropLast) ++ target :: gone := by
  rcases eq_nil_or_concat stay with rfl | ⟨init, last, rfl⟩
  · simp
  · simp

end Netz.Lib

/-! ### The place of a least element, kept while a list grows and shrinks

An element at the end takes the place over where it is smaller.  An unordered removal moves the
place with the element that stands there; only where that one is removed the list is gone over. -/

namespace Netz.Lib

open List

universe u

variable {α : Type u} {f : α → Nat} {l : List α}

/-- An element with the least value stands there, and nowhere in an empty list. -/
def Least (f : α → Nat) (l : List α) : Option Nat → Prop
  | none => l = []
  | some i => ∃ a, l[i]? = some a ∧ ∀ b ∈ l, f a ≤ f b

namespace Least

lemma append {i : Nat} {a b : α} (h : Least f l (some i)) (hi : l[i]? = some b) :
    Least f (l ++ [a]) (some (if f a < f b then l.length else i)) := by
  obtain ⟨b', hi', hleast⟩ := h
  rw [hi, Option.some.injEq] at hi'
  subst hi'
  by_cases hlt : f a < f b
  · rw [if_pos hlt]
    refine ⟨a, getElem?_concat_length, fun c hc => ?_⟩
    rcases mem_append.mp hc with hold | hnew
    · exact Nat.le_of_lt (Nat.lt_of_lt_of_le hlt (hleast c hold))
    · exact Nat.le_of_eq (congrArg f (mem_singleton.mp hnew).symm)
  rw [if_neg hlt]
  refine ⟨b, ?_, fun c hc => ?_⟩
  · rw [List.getElem?_append_left (lt_of_getElem? hi), hi]
  rcases mem_append.mp hc with hold | hnew
  · exact hleast c hold
  · rw [mem_singleton.mp hnew]
    exact Nat.le_of_not_lt hlt

lemma singleton (a : α) : Least f [a] (some 0) :=
  ⟨a, rfl, fun _ hb => Nat.le_of_eq (congrArg f (mem_singleton.mp hb).symm)⟩

lemma swapRemove {i j : Nat} (h : Least f l (some i)) (hj : j < l.length) (hne : i ≠ j) :
    Least f (Lib.swapRemove l j) (some (if i = l.length - 1 then j else i)) := by
  obtain ⟨a, hi, hleast⟩ := h
  have hlt := lt_of_getElem? hi
  have hmem : ∀ b ∈ Lib.swapRemove l j, b ∈ l := fun b hb =>
    (swapRemove_perm (List.getElem?_eq_getElem hj)).mem_iff.mpr (List.mem_cons_of_mem _ hb)
  refine ⟨a, ?_, fun b hb => hleast b (hmem b hb)⟩
  rw [getElem?_swapRemove hj]
  by_cases hlast : i = l.length - 1
  · rw [if_pos hlast, if_pos (by omega), if_pos rfl, ← hlast, hi]
  · rw [if_neg hlast, if_pos (by omega), if_neg hne, hi]

end Least

end Netz.Lib
