/-
An index from keys to positions of a list.

Every element of the list carries some keys, no key twice in the list, and the index reads a
key as the position of the element that carries it.  `Positions` says so; the operations are
those a list with ordered removal needs: a new element at the end, keys of one element added
or dropped, an element erased with the later ones moved up, and the whole index rebuilt.
-/
import Mathlib.Data.List.Induction
import Mathlib.Data.List.Nodup
import Netz.Lib.Slots

namespace Netz.Lib

open List Option

universe u v

variable {α : Type u} {κ : Type v} [DecidableEq κ]

namespace Table

def removeKeys (t : Table κ Nat) (ks : List κ) : Table κ Nat := ks.foldl remove t

def assignKeys (t : Table κ Nat) (ks : List κ) (i : Nat) : Table κ Nat :=
  ks.foldl (fun t k => t.assign k i) t

def putKeys (t : Table κ Nat) (ks : List κ) (i : Nat) : Table κ Nat :=
  ks.foldl (fun t k => t.put k i) t

lemma get_removeKeys (ks : List κ) (t : Table κ Nat) (j : κ) :
    (t.removeKeys ks).get j = if j ∈ ks then none else t.get j := by
  unfold removeKeys
  induction ks generalizing t with
  | nil => simp
  | cons k rest ih =>
    rw [foldl_cons, ih, get_remove]
    by_cases hrest : j ∈ rest
    · simp [hrest]
    · simp [hrest]

lemma get_assignKeys (ks : List κ) (t : Table κ Nat) (i : Nat) (j : κ) :
    (t.assignKeys ks i).get j = if j ∈ ks then (t.get j).map (fun _ => i) else t.get j := by
  unfold assignKeys
  induction ks generalizing t with
  | nil => simp
  | cons k rest ih =>
    rw [foldl_cons, ih, get_assign]
    by_cases hj : j = k
    · subst hj
      simp [Function.comp_def]
    · simp [hj]

lemma get_putKeys (ks : List κ) (t : Table κ Nat) (i : Nat) (j : κ)
    (hfresh : ∀ k ∈ ks, t.get k = none) (hnodup : ks.Nodup) :
    (t.putKeys ks i).get j = if j ∈ ks then some i else t.get j := by
  unfold putKeys
  induction ks generalizing t with
  | nil => simp
  | cons k rest ih =>
    have hk := hfresh k mem_cons_self
    rw [nodup_cons] at hnodup
    have hrest : ∀ k' ∈ rest, (t.put k i).get k' = none := by
      intro k' hmem
      have hne : k' ≠ k := fun h => hnodup.1 (h ▸ hmem)
      rw [get_put hk, if_neg hne]
      exact hfresh k' (mem_cons_of_mem k hmem)
    rw [foldl_cons, ih (t.put k i) hrest hnodup.2, get_put hk]
    by_cases hj : j = k
    · subst hj
      simp
    · simp [hj]

end Table

/-- The index reads a key as the position of the element that carries it. -/
def Positions (keys : α → List κ) (l : List α) (t : Table κ Nat) : Prop :=
  ∀ k i, t.get k = some i ↔ ∃ a, l[i]? = some a ∧ k ∈ keys a

namespace Positions

variable {keys : α → List κ} {l : List α} {t : Table κ Nat}

lemma empty : Positions keys ([] : List α) [] := by
  intro k i
  simp

variable {k : κ}

lemma get_eq_none (h : Positions keys l t) : t.get k = none ↔ ∀ a ∈ l, k ∉ keys a := by
  constructor
  · intro hnone a hmem hk
    obtain ⟨i, hi⟩ := getElem?_of_mem hmem
    simp [(h k i).mpr ⟨a, hi, hk⟩] at hnone
  intro hall
  cases hget : t.get k with
  | none => rfl
  | some i =>
    obtain ⟨a, hi, hk⟩ := (h k i).mp hget
    exact absurd hk (hall a (mem_of_getElem? hi))

lemma unique (h : Positions keys l t) {i j : Nat} {a b : α} (hi : l[i]? = some a)
    (hj : l[j]? = some b) (ha : k ∈ keys a) (hb : k ∈ keys b) : i = j := by
  have hget := (h k i).mpr ⟨a, hi, ha⟩
  rw [(h k j).mpr ⟨b, hj, hb⟩, some.injEq] at hget
  exact hget.symm

lemma nodup (h : Positions keys l t) (hkeys : ∀ a, (keys a).Nodup) : (l.flatMap keys).Nodup := by
  refine nodup_flatMap.mpr ⟨fun a _ => hkeys a, pairwise_iff_getElem.mpr ?_⟩
  intro i j hi hj hlt k hki hkj
  have hsame := h.unique (getElem?_eq_getElem hi) (getElem?_eq_getElem hj) hki hkj
  omega

section Slots

variable {f : α → κ} {l : List (Option α)} (h : Positions (fun slot => slot.toList.map f) l t)
include h

/-- Over slots, the index finds the occupied ones. -/
theorem slots_iff (k : κ) (i : Nat) : t.get k = some i ↔ ∃ a, l[i]? = some (some a) ∧ f a = k := by
  rw [h k i]
  constructor
  · rintro ⟨_ | a, hslot, hkey⟩
    · simp at hkey
    · exact ⟨a, hslot, by simpa [eq_comm] using hkey⟩
  · rintro ⟨a, hslot, rfl⟩
    exact ⟨some a, hslot, by simp⟩

lemma nodup_slots : (l.reduceOption.map f).Nodup := by
  have hflat : l.reduceOption.map f = l.flatMap fun slot => slot.toList.map f := by
    rw [reduceOption, map_filterMap, filterMap_eq_flatMap_toList]
    simp [toList_map]
  rw [hflat]
  exact h.nodup fun slot => by cases slot <;> simp

end Slots

lemma congr (h : Positions keys l t) {l' : List α} (hkeys : l'.map keys = l.map keys) :
    Positions keys l' t := by
  intro k i
  have hat : (l'[i]?).map keys = (l[i]?).map keys := by
    rw [← getElem?_map, ← getElem?_map, hkeys]
  have hread : ∀ x : Option α,
      (∃ a, x = some a ∧ k ∈ keys a) ↔ ∃ ks, x.map keys = some ks ∧ k ∈ ks := by simp
  rw [h k i, hread, hread, hat]

lemma replace (h : Positions keys l t) {i : Nat} {a a' : α} (hi : l[i]? = some a)
    (hkeys : keys a' = keys a) : Positions keys (l.set i a') t := by
  apply h.congr
  apply ext_getElem?
  intro j
  rw [getElem?_map, getElem?_map, getElem?_set]
  by_cases hij : i = j
  · subst hij
    rw [if_pos rfl, if_pos (lt_of_getElem? hi), hi, map_some,
      map_some, hkeys]
  · rw [if_neg hij]

lemma append (h : Positions keys l t) {a : α} (hkeys : keys a = [k])
    (hnew : t.get k = none) : Positions keys (l ++ [a]) (t.put k l.length) := by
  intro j i
  rw [Table.get_put hnew]
  have hlast : ∀ b, (l ++ [a])[i]? = some b ↔ l[i]? = some b ∨ (i = l.length ∧ b = a) := by
    intro b
    rw [getElem?_append]
    rcases Nat.lt_trichotomy i l.length with hlt | heq | hgt
    · rw [if_pos hlt]
      have hne : i ≠ l.length := Nat.ne_of_lt hlt
      simp [hne]
    · rw [heq]
      simp [eq_comm]
    have hnone : l[i]? = none := getElem?_eq_none (by omega)
    have hpast : ([a] : List α)[i - l.length]? = none := getElem?_eq_none (by simp; omega)
    have hne : i ≠ l.length := by omega
    simp [hnone, hpast, hne]
  by_cases hj : j = k
  · subst hj
    rw [if_pos rfl, some.injEq]
    constructor
    · intro hi
      exact ⟨a, (hlast a).mpr (.inr ⟨hi.symm, rfl⟩), by rw [hkeys]; exact mem_singleton_self j⟩
    rintro ⟨b, hb, hjb⟩
    rcases (hlast b).mp hb with hold | ⟨hi, -⟩
    · exact absurd hjb (h.get_eq_none.mp hnew b (mem_of_getElem? hold))
    · exact hi.symm
  rw [if_neg hj, h j i]
  constructor
  · rintro ⟨b, hb, hjb⟩
    exact ⟨b, (hlast b).mpr (.inl hb), hjb⟩
  rintro ⟨b, hb, hjb⟩
  rcases (hlast b).mp hb with hold | ⟨-, hba⟩
  · exact ⟨b, hold, hjb⟩
  · rw [hba, hkeys, mem_singleton] at hjb
    exact absurd hjb hj

lemma insertSlot {keys : Option α → List κ} {l : List (Option α)} (h : Positions keys l t)
    {a : α} (hnone : keys none = []) (hkeys : keys (some a) = [k]) (hnew : t.get k = none) :
    Positions keys (Netz.Lib.insertSlot a l) (t.put k (vacantSlot l)) := by
  intro j i
  rw [Table.get_put hnew, getElem?_insertSlot]
  have hvacant : ∀ b, l[vacantSlot l]? = some b → keys b = [] := by
    intro b hb
    cases b with
    | none => exact hnone
    | some c => exact absurd hb (getElem?_vacantSlot l c)
  by_cases hi : i = vacantSlot l
  · rw [if_pos hi]
    by_cases hj : j = k
    · simp [hj, hi, hkeys]
    rw [if_neg hj, h j i]
    have hold : ¬ ∃ b, l[i]? = some b ∧ j ∈ keys b := by
      rintro ⟨b, hb, hjb⟩
      rw [hi] at hb
      simp [hvacant b hb] at hjb
    simp [hold, hkeys, hj]
  rw [if_neg hi]
  by_cases hj : j = k
  · rw [if_pos hj]
    refine iff_of_false (by simp [eq_comm, hi]) ?_
    rintro ⟨b, hb, hjb⟩
    rw [hj] at hjb
    exact h.get_eq_none.mp hnew b (mem_of_getElem? hb) hjb
  · rw [if_neg hj]
    exact h j i

lemma insertKey (h : Positions keys l t) {i : Nat} {a a' : α} (hi : l[i]? = some a)
    (hkeys : ∀ j, j ∈ keys a' ↔ j ∈ keys a ∨ j = k) (hnew : t.get k = none) :
    Positions keys (l.set i a') (t.put k i) := by
  intro j n
  have hlt : i < l.length := lt_of_getElem? hi
  rw [Table.get_put hnew, getElem?_set]
  by_cases hn : i = n
  · subst hn
    simp only [if_pos hlt, if_true, some.injEq, exists_eq_left', hkeys]
    by_cases hj : j = k
    · simp [hj]
    · simp [hj, h j i, hi]
  rw [if_neg hn]
  by_cases hj : j = k
  · subst hj
    rw [if_pos rfl, some.injEq]
    refine iff_of_false hn ?_
    rintro ⟨b, hb, hjb⟩
    exact h.get_eq_none.mp hnew b (mem_of_getElem? hb) hjb
  · rw [if_neg hj]
    exact h j n

lemma removeKey (h : Positions keys l t) {i : Nat} {a a' : α} (hi : l[i]? = some a)
    (hk : k ∈ keys a) (hkeys : ∀ j, j ∈ keys a' ↔ j ∈ keys a ∧ j ≠ k) :
    Positions keys (l.set i a') (t.remove k) := by
  intro j n
  have hlt : i < l.length := lt_of_getElem? hi
  rw [Table.get_remove, getElem?_set]
  by_cases hn : i = n
  · subst hn
    simp only [if_pos hlt, if_true, some.injEq, exists_eq_left', hkeys]
    by_cases hj : j = k
    · simp [hj]
    · simp [hj, h j i, hi]
  rw [if_neg hn]
  by_cases hj : j = k
  · subst hj
    refine iff_of_false (by simp) ?_
    rintro ⟨b, hb, hjb⟩
    exact hn (h.unique hi hb hk hjb)
  · rw [if_neg hj]
    exact h j n

end Positions

/-! ### Moving up after an erased element -/

def refreshEntry (keys : α → List κ) (l : List α) (t : Table κ Nat) (i : Nat) : Table κ Nat :=
  match l[i]? with
  | none => t
  | some a => t.assignKeys (keys a) i

def refreshFrom (keys : α → List κ) (l : List α) (t : Table κ Nat) (start : Nat) : Table κ Nat :=
  (range' start (l.length - start)).foldl (refreshEntry keys l) t

/-- The positions below `m` are right, and the others read one too many. -/
def Shifted (keys : α → List κ) (l : List α) (t : Table κ Nat) (m : Nat) : Prop :=
  ∀ k i, t.get k = some i ↔
    (i < m ∧ ∃ a, l[i]? = some a ∧ k ∈ keys a) ∨ (m < i ∧ ∃ a, l[i - 1]? = some a ∧ k ∈ keys a)

namespace Shifted

variable {keys : α → List κ} {l : List α} {t : Table κ Nat}

lemma refreshEntry {m : Nat} (h : Shifted keys l t m) (hm : m < l.length) :
    Shifted keys l (refreshEntry keys l t m) (m + 1) := by
  obtain ⟨a, ha⟩ : ∃ a, l[m]? = some a := ⟨_, getElem?_eq_getElem hm⟩
  intro k i
  unfold Lib.refreshEntry
  rw [ha, Table.get_assignKeys]
  by_cases hk : k ∈ keys a
  · have hget : t.get k = some (m + 1) :=
      (h k (m + 1)).mpr (.inr ⟨Nat.lt_succ_self m, a, ha, hk⟩)
    rw [if_pos hk, hget, map_some, some.injEq]
    constructor
    · intro hi
      subst hi
      exact .inl ⟨Nat.lt_succ_self m, a, ha, hk⟩
    rintro (⟨hlt, b, hb, hkb⟩ | ⟨hgt, b, hb, hkb⟩)
    · rcases Nat.lt_succ_iff_lt_or_eq.mp hlt with hless | heq
      · have hother := (h k i).mpr (.inl ⟨hless, b, hb, hkb⟩)
        rw [hget, some.injEq] at hother
        omega
      · exact heq.symm
    have hother := (h k i).mpr (.inr ⟨by omega, b, hb, hkb⟩)
    rw [hget, some.injEq] at hother
    omega
  rw [if_neg hk, h k i]
  constructor
  · rintro (⟨hlt, hold⟩ | ⟨hgt, b, hb, hkb⟩)
    · exact .inl ⟨Nat.lt_succ_of_lt hlt, hold⟩
    refine .inr ⟨?_, b, hb, hkb⟩
    rcases Nat.lt_or_ge (m + 1) i with hlarge | hsmall
    · exact hlarge
    have hi : i - 1 = m := by omega
    rw [hi, ha, some.injEq] at hb
    exact absurd (hb ▸ hkb) hk
  rintro (⟨hlt, b, hb, hkb⟩ | ⟨hgt, hold⟩)
  · refine .inl ⟨?_, b, hb, hkb⟩
    rcases Nat.lt_or_ge i m with hless | hge
    · exact hless
    have hi : i = m := by omega
    rw [hi, ha, some.injEq] at hb
    exact absurd (hb ▸ hkb) hk
  · exact .inr ⟨by omega, hold⟩

lemma refreshRest (n : Nat) : ∀ {t : Table κ Nat} {m : Nat}, Shifted keys l t m →
    m + n = l.length → Positions keys l ((range' m n).foldl (Lib.refreshEntry keys l) t) := by
  induction n with
  | zero =>
    intro t m h hlen k i
    rw [range'_zero, foldl_nil, h k i]
    constructor
    · rintro (⟨-, hold⟩ | ⟨hgt, a, ha, -⟩)
      · exact hold
      · rw [getElem?_eq_none (by omega)] at ha
        simp at ha
    rintro ⟨a, ha, hk⟩
    have hlt := lt_of_getElem? ha
    exact .inl ⟨by omega, a, ha, hk⟩
  | succ n ih =>
    intro t m h hlen
    exact ih (h.refreshEntry (by omega)) (by omega)

end Shifted

/-- **Erasing an element, dropping its keys and moving the later ones up keeps the index.** -/
theorem Positions.erase {keys : α → List κ} {l : List α} {t : Table κ Nat}
    (h : Positions keys l t) {i : Nat} {a : α} (hi : l[i]? = some a) :
    Positions keys (l.eraseIdx i) (refreshFrom keys (l.eraseIdx i) (t.removeKeys (keys a)) i) := by
  have hlt : i < l.length := lt_of_getElem? hi
  have hlen : (l.eraseIdx i).length = l.length - 1 := length_eraseIdx_of_lt hlt
  refine Shifted.refreshRest _ ?_ (by omega)
  intro k j
  rw [Table.get_removeKeys]
  by_cases hk : k ∈ keys a
  · rw [if_pos hk]
    refine iff_of_false (by simp) ?_
    rintro (⟨hless, b, hb, hkb⟩ | ⟨hgt, b, hb, hkb⟩)
    · rw [getElem?_eraseIdx_of_lt hless] at hb
      exact Nat.ne_of_lt hless (h.unique hb hi hkb hk)
    · rw [getElem?_eraseIdx_of_ge (by omega), Nat.sub_add_cancel (by omega)] at hb
      exact Nat.ne_of_gt hgt (h.unique hb hi hkb hk)
  rw [if_neg hk, h k j]
  constructor
  · rintro ⟨b, hb, hkb⟩
    rcases Nat.lt_trichotomy j i with hless | heq | hgt
    · exact .inl ⟨hless, b, by rw [getElem?_eraseIdx_of_lt hless]; exact hb, hkb⟩
    · rw [heq, hi, some.injEq] at hb
      exact absurd (hb ▸ hkb) hk
    refine .inr ⟨hgt, b, ?_, hkb⟩
    rw [getElem?_eraseIdx_of_ge (by omega), Nat.sub_add_cancel (by omega)]
    exact hb
  rintro (⟨hless, b, hb, hkb⟩ | ⟨hgt, b, hb, hkb⟩)
  · rw [getElem?_eraseIdx_of_lt hless] at hb
    exact ⟨b, hb, hkb⟩
  · rw [getElem?_eraseIdx_of_ge (by omega), Nat.sub_add_cancel (by omega)] at hb
    exact ⟨b, hb, hkb⟩

/-! ### Rebuilding -/

def putEntry (keys : α → List κ) (l : List α) (t : Table κ Nat) (i : Nat) : Table κ Nat :=
  match l[i]? with
  | none => t
  | some a => t.putKeys (keys a) i

def rebuild (keys : α → List κ) (l : List α) : Table κ Nat :=
  (range l.length).foldl (putEntry keys l) []

/-- **A list without a key twice is indexed from scratch.** -/
theorem positions_rebuild {keys : α → List κ} {l : List α} (hnodup : (l.flatMap keys).Nodup) :
    Positions keys l (rebuild keys l) := by
  obtain ⟨hself, hpair⟩ := List.nodup_flatMap.mp hnodup
  have hprefix : ∀ m, m ≤ l.length → ∀ k i,
      ((List.range m).foldl (putEntry keys l) []).get k = some i ↔
        i < m ∧ ∃ a, l[i]? = some a ∧ k ∈ keys a := by
    intro m
    induction m with
    | zero => intro _ k i; simp
    | succ m ih =>
      intro hm k i
      have hlt : m < l.length := hm
      obtain ⟨a, ha⟩ : ∃ a, l[m]? = some a := ⟨_, List.getElem?_eq_getElem hlt⟩
      obtain ⟨t, ht⟩ : ∃ t, (List.range m).foldl (putEntry keys l) [] = t := ⟨_, rfl⟩
      have hpre := ih (Nat.le_of_lt hlt)
      rw [ht] at hpre
      have hfresh : ∀ k ∈ keys a, t.get k = none := by
        intro k hk
        cases hget : t.get k with
        | none => rfl
        | some j =>
          obtain ⟨hj, b, hb, hkb⟩ := (hpre k j).mp hget
          obtain ⟨hjl, hbj⟩ := List.getElem_of_getElem? hb
          obtain ⟨_, ham⟩ := List.getElem_of_getElem? ha
          have hdisj := List.pairwise_iff_getElem.mp hpair j m hjl hlt hj
          rw [hbj, ham] at hdisj
          exact absurd hk (hdisj hkb)
      rw [List.range_succ, List.foldl_append, List.foldl_cons, List.foldl_nil, ht, putEntry, ha]
      rw [Table.get_putKeys (keys a) t m k hfresh (hself a (List.mem_of_getElem? ha))]
      by_cases hk : k ∈ keys a
      · rw [if_pos hk, some.injEq]
        constructor
        · intro hi
          subst hi
          exact ⟨Nat.lt_succ_self m, a, ha, hk⟩
        rintro ⟨hi, b, hb, hkb⟩
        rcases Nat.lt_succ_iff_lt_or_eq.mp hi with hless | heq
        · have hget := (hpre k i).mpr ⟨hless, b, hb, hkb⟩
          simp [hfresh k hk] at hget
        · exact heq.symm
      rw [if_neg hk, hpre k i]
      constructor
      · rintro ⟨hi, hold⟩
        exact ⟨Nat.lt_succ_of_lt hi, hold⟩
      rintro ⟨hi, b, hb, hkb⟩
      refine ⟨?_, b, hb, hkb⟩
      rcases Nat.lt_succ_iff_lt_or_eq.mp hi with hless | heq
      · exact hless
      · rw [heq, ha, some.injEq] at hb
        exact absurd (hb ▸ hkb) hk
  intro k i
  rw [rebuild, hprefix l.length (Nat.le_refl _) k i]
  constructor
  · simp
  · rintro ⟨a, ha, hk⟩
    exact ⟨lt_of_getElem? ha, a, ha, hk⟩

end Netz.Lib
