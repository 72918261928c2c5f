/-
An index from keys to the first position with them.

Elements are taken out of a list and the later ones move up.  The index is repaired from the
first place that moved: what is read there for a key is at most too large, so one pass that
lowers it, or enters it where it is missing, makes it right.
-/
import Netz.Lib.Table

namespace Netz.Lib

open List Option

universe u v

variable {α : Type u} {κ : Type v} [DecidableEq κ]

/-- The index reads a key as the first position with it. -/
def Firsts (key : α → κ) (l : List α) (t : Table κ Nat) : Prop :=
  ∀ k, t.get k = l.findIdx? fun a => key a == k

def repairEntry (key : α → κ) (l : List α) (t : Table κ Nat) (i : Nat) : Table κ Nat :=
  match l[i]? with
  | none => t
  | some a =>
    match t.get (key a) with
    | some mapped => if i < mapped then t.assign (key a) i else t
    | none => t.put (key a) i

/-- Lower what is too large, from `start` on. -/
def repairFrom (key : α → κ) (l : List α) (t : Table κ Nat) (start : Nat) : Table κ Nat :=
  (range' start (l.length - start)).foldl (repairEntry key l) t

variable {key : α → κ} {l : List α} {t : Table κ Nat}

lemma first_le {i : Nat} {a : α} (ha : l[i]? = some a) :
    ∃ first ≤ i, (l.findIdx? fun b => key b == key a) = some first := by
  cases hfirst : l.findIdx? fun b => key b == key a with
  | none =>
    have hnone := List.findIdx?_eq_none_iff.mp hfirst a (List.mem_of_getElem? ha)
    simp at hnone
  | some first =>
    refine ⟨first, ?_, rfl⟩
    obtain ⟨hi, hat⟩ := List.getElem_of_getElem? ha
    obtain ⟨_, -, hearlier⟩ := List.findIdx?_eq_some_iff_getElem.mp hfirst
    by_contra hlt
    have hother := hearlier i (Nat.lt_of_not_le hlt)
    simp [hat] at hother

lemma Firsts.getElem? (h : Firsts key l t) {k : κ} {i : Nat} (hi : t.get k = some i) :
    ∃ a, l[i]? = some a ∧ key a = k := by
  rw [h k] at hi
  obtain ⟨hlt, hkey, -⟩ := findIdx?_eq_some_iff_getElem.mp hi
  exact ⟨l[i], getElem?_eq_getElem hlt, by simpa using hkey⟩

/-- A new element at the end; only a new key gets an entry. -/
theorem Firsts.append (h : Firsts key l t) (a : α) :
    Firsts key (l ++ [a]) (if (t.get (key a)).isSome then t else t.put (key a) l.length) := by
  intro k
  rw [findIdx?_append, ← h k]
  have hlast : ([a].findIdx? fun b => key b == k) = if key a = k then some 0 else none := by simp
  rw [hlast]
  cases hget : t.get (key a) with
  | some i =>
    rw [isSome_some, if_pos rfl]
    by_cases hk : key a = k
    · rw [← hk, hget, some_or]
    · rw [if_neg hk, map_none, or_none]
  | none =>
    rw [if_neg (by simp), Table.get_put hget]
    by_cases hk : k = key a
    · rw [hk, hget]
      simp
    · rw [if_neg hk, if_neg (fun heq => hk heq.symm), map_none, or_none]

/-! ### Repairing -/

/-- Below `i` the index is right, and from there on it is at most too large. -/
structure Repairing (key : α → κ) (l : List α) (t : Table κ Nat) (i : Nat) : Prop where
  absent : ∀ k, (l.findIdx? fun a => key a == k) = none → t.get k = none
  right : ∀ k first, (l.findIdx? fun a => key a == k) = some first → first < i →
    t.get k = some first
  large : ∀ k first, (l.findIdx? fun a => key a == k) = some first → i ≤ first →
    ∀ mapped, t.get k = some mapped → first ≤ mapped

namespace Repairing

lemma get_repairEntry {i : Nat} (h : Repairing key l t i) {a : α} (ha : l[i]? = some a) (k : κ) :
    (repairEntry key l t i).get k =
      if k = key a ∧ (l.findIdx? fun b => key b == key a) = some i then some i else t.get k := by
  obtain ⟨first, hle, hfirst⟩ := @first_le α κ _ key l i a ha
  unfold repairEntry
  rw [ha, hfirst]
  dsimp only
  by_cases hi : first = i
  · subst hi
    cases hget : t.get (key a) with
    | none => simp [Table.get_put hget]
    | some mapped =>
      dsimp only
      have hge := h.large (key a) first hfirst hle mapped hget
      by_cases hlt : first < mapped
      · simp [hlt, Table.get_assign, hget]
      rw [if_neg hlt]
      have hsame : mapped = first := Nat.le_antisymm (Nat.le_of_not_lt hlt) hge
      by_cases hk : k = key a
      · rw [if_pos ⟨hk, rfl⟩, hk, hget, hsame]
      · rw [if_neg (fun hboth => hk hboth.1)]
  have hpre := h.right (key a) first hfirst (Nat.lt_of_le_of_ne hle hi)
  rw [hpre, if_neg (fun hboth => hi (some.inj hboth.2))]
  simp [Nat.not_lt_of_le hle]

lemma step {i : Nat} (h : Repairing key l t i) (hi : i < l.length) :
    Repairing key l (repairEntry key l t i) (i + 1) := by
  obtain ⟨a, ha⟩ : ∃ a, l[i]? = some a := ⟨_, List.getElem?_eq_getElem hi⟩
  refine ⟨?_, ?_, ?_⟩
  · intro k hk
    rw [h.get_repairEntry ha, if_neg]
    · exact h.absent k hk
    · rintro ⟨rfl, hfirst⟩
      simp [hk] at hfirst
  · intro k first hfirst hlt
    rw [h.get_repairEntry ha]
    by_cases hk : k = key a ∧ (l.findIdx? fun b => key b == key a) = some i
    · rw [if_pos hk]
      rw [hk.1, hk.2] at hfirst
      exact hfirst
    rw [if_neg hk]
    refine h.right k first hfirst (Nat.lt_of_le_of_ne (Nat.le_of_lt_succ hlt) ?_)
    rintro rfl
    obtain ⟨hlt', hkey, -⟩ := List.findIdx?_eq_some_iff_getElem.mp hfirst
    rw [(List.getElem_of_getElem? ha).2, beq_iff_eq] at hkey
    exact hk ⟨hkey.symm, by rw [hkey]; exact hfirst⟩
  intro k first hfirst hle mapped hget
  rw [h.get_repairEntry ha, if_neg] at hget
  · exact h.large k first hfirst (Nat.le_of_succ_le hle) mapped hget
  rintro ⟨rfl, hsame⟩
  rw [hfirst, some.injEq] at hsame
  omega

/-- **One pass makes the index right.** -/
theorem finish {start : Nat} (h : Repairing key l t start) :
    Firsts key l (repairFrom key l t start) := by
  have hpass : ∀ n t i, Repairing key l t i → i + n = l.length →
      Repairing key l ((range' i n).foldl (repairEntry key l) t) l.length := by
    intro n
    induction n with
    | zero =>
      intro t i h hlen
      rw [range'_zero, ← hlen]
      exact h
    | succ n ih =>
      intro t i h hlen
      exact ih _ _ (h.step (by omega)) (by omega)
  have hright : ∀ t, Repairing key l t l.length → Firsts key l t := by
    intro t h k
    cases hfirst : l.findIdx? fun a => key a == k with
    | none => exact h.absent k hfirst
    | some first => exact h.right k first hfirst (findIdx?_eq_some_iff_getElem.mp hfirst).1
  unfold repairFrom
  rcases Nat.le_total start l.length with hle | hge
  · exact hright _ (hpass _ t start h (by omega))
  rw [Nat.sub_eq_zero_of_le hge, range'_zero]
  refine hright t ⟨h.absent, ?_, ?_⟩
  · intro k first hfirst hlt
    exact h.right k first hfirst (by omega)
  intro k first hfirst hle
  have hlt := (findIdx?_eq_some_iff_getElem.mp hfirst).1
  omega

end Repairing

/-! ### Taking elements out -/

lemma findIdx?_parts (p : α → Bool) (front back : List α) :
    (front ++ back).findIdx? p = match front.findIdx? p with
      | some i => some i
      | none => (back.findIdx? p).map (· + front.length) := by
  rw [findIdx?_append]
  cases front.findIdx? p with
  | none | some => rfl

/-- **An element is erased; its key loses its entry where the element was the first.** -/
theorem Firsts.erase (h : Firsts key l t) {i : Nat} {a : α} (ha : l[i]? = some a) :
    Repairing key (l.eraseIdx i) (if t.get (key a) = some i then t.remove (key a) else t) i := by
  obtain ⟨hi, hat⟩ := List.getElem_of_getElem? ha
  have hsplit : l = l.take i ++ a :: l.drop (i + 1) := by
    conv_lhs => rw [← List.take_append_drop i l, List.drop_eq_getElem_cons hi, hat]
  have herase : l.eraseIdx i = l.take i ++ l.drop (i + 1) := List.eraseIdx_eq_take_drop_succ l i
  have hlen : (l.take i).length = i := List.length_take_of_le (Nat.le_of_lt hi)
  -- What the index reads, in terms of the two parts.
  have hold : ∀ k, t.get k = match (l.take i).findIdx? fun b => key b == k with
      | some first => some first
      | none => if key a = k then some i
        else ((l.drop (i + 1)).findIdx? fun b => key b == k).map (· + (i + 1)) := by
    intro k
    rw [h k]
    conv_lhs => rw [hsplit]
    rw [findIdx?_parts]
    cases (l.take i).findIdx? fun b => key b == k with
    | some first => rfl
    | none =>
      rw [List.findIdx?_cons, hlen]
      by_cases hk : key a = k
      · simp [hk]
      simp only [beq_iff_eq, hk, if_false, Option.map_map, Function.comp_def]
      congr 1
      funext n
      omega
  have hread : ∀ k mapped,
      (if t.get (key a) = some i then t.remove (key a) else t).get k = some mapped →
        t.get k = some mapped := by
    intro k mapped hget
    split at hget
    · rw [Table.get_remove] at hget
      split at hget
      · cases hget
      · exact hget
    · exact hget
  have hother : ∀ k, k ≠ key a →
      (if t.get (key a) = some i then t.remove (key a) else t).get k = t.get k := by
    intro k hk
    split
    · rw [Table.get_remove, if_neg hk]
    · rfl
  have hself : (l.take i).findIdx? (fun b => key b == key a) = none →
      (if t.get (key a) = some i then t.remove (key a) else t).get (key a) = none := by
    intro hnone
    have hget := hold (key a)
    simp [hnone, hget, Table.get_remove]
  rw [herase]
  refine ⟨?_, ?_, ?_⟩
  · intro k hk
    rw [findIdx?_parts] at hk
    by_cases hka : k = key a
    · subst hka
      cases hfront : (l.take i).findIdx? fun b => key b == key a with
      | some first => simp [hfront] at hk
      | none => exact hself hfront
    rw [hother k hka, hold k]
    cases hfront : (l.take i).findIdx? fun b => key b == k with
    | some first => simp [hfront] at hk
    | none =>
      rw [hfront] at hk
      rw [if_neg (fun heq => hka heq.symm), Option.map_eq_none_iff.mp hk]
      rfl
  · intro k first hfirst hlt
    rw [findIdx?_parts] at hfirst
    cases hfront : (l.take i).findIdx? fun b => key b == k with
    | none =>
      rw [hfront] at hfirst
      obtain ⟨n, -, rfl⟩ := Option.map_eq_some_iff.mp hfirst
      omega
    | some found =>
      rw [hfront] at hfirst
      cases hfirst
      have hget := hold k
      rw [hfront] at hget
      by_cases hka : k = key a
      · subst hka
        rw [if_neg, hget]
        rw [hget]
        intro heq
        exact Nat.ne_of_lt hlt (Option.some.inj heq)
      · rw [hother k hka, hget]
  intro k first hfirst hle mapped hget
  have hmapped := hread k mapped hget
  rw [findIdx?_parts] at hfirst
  cases hfront : (l.take i).findIdx? fun b => key b == k with
  | some found =>
    rw [hfront] at hfirst
    cases hfirst
    have hlt := (List.findIdx?_eq_some_iff_getElem.mp hfront).1
    omega
  | none =>
    rw [hfront] at hfirst
    obtain ⟨n, hn, rfl⟩ := Option.map_eq_some_iff.mp hfirst
    by_cases hka : k = key a
    · subst hka
      simp [hself hfront] at hget
    rw [hold k, hfront] at hmapped
    rw [if_neg (fun heq => hka heq.symm), hn, Option.map_some, Option.some.injEq] at hmapped
    omega

/-- Without the elements of another key, a first position does not grow. -/
theorem findIdx?_filter_le (p q : α → Bool) (hpq : ∀ a, p a = true → q a = true) (l : List α) :
    match l.findIdx? p with
    | none => (l.filter q).findIdx? p = none
    | some i => ∃ j ≤ i, (l.filter q).findIdx? p = some j := by
  induction l with
  | nil => rfl
  | cons a rest ih =>
    rw [findIdx?_cons]
    by_cases ha : p a = true
    · simp [ha, filter_cons_of_pos (hpq a ha), findIdx?_cons]
    rw [if_neg ha]
    have hkept : ∀ i, (rest.filter q).findIdx? p = i → ((a :: rest).filter q).findIdx? p = i ∨
          ((a :: rest).filter q).findIdx? p = i.map (· + 1) := by
      intro i hi
      by_cases hq : q a = true
      · simp [filter_cons_of_pos hq, findIdx?_cons, ha, hi]
      · rw [filter_cons_of_neg hq]
        exact .inl hi
    cases hrest : rest.findIdx? p with
    | none =>
      rw [hrest] at ih
      rcases hkept none ih with hnone | hnone
      · exact hnone
      · exact hnone
    | some i =>
      rw [hrest] at ih
      obtain ⟨j, hle, hj⟩ := ih
      rw [map_some]
      rcases hkept (some j) hj with hsame | hnext
      · exact ⟨j, by omega, hsame⟩
      · exact ⟨j + 1, by omega, hnext⟩

/-- **All elements of a key are taken out, from the first one on.** -/
theorem Firsts.filter (h : Firsts key l t) {k : κ} {start : Nat} (hstart : t.get k = some start) :
    Repairing key (l.take start ++ (l.drop start).filter fun a => !(key a == k)) (t.remove k)
      start := by
  have hfirst := h k
  rw [hstart] at hfirst
  obtain ⟨hlt, -, hpre⟩ := List.findIdx?_eq_some_iff_getElem.mp hfirst.symm
  have hlen : (l.take start).length = start := List.length_take_of_le (Nat.le_of_lt hlt)
  have hnone : (l.take start).findIdx? (fun a => key a == k) = none := by
    refine List.findIdx?_eq_none_iff.mpr ?_
    intro a hmem
    obtain ⟨j, hj⟩ := List.getElem?_of_mem hmem
    obtain ⟨hjlt, hat⟩ := List.getElem_of_getElem? hj
    rw [hlen] at hjlt
    rw [List.getElem_take] at hat
    have hother := hpre j hjlt
    rw [hat] at hother
    simpa using hother
  have hold : ∀ j, t.get j = match (l.take start).findIdx? fun a => key a == j with
      | some first => some first
      | none => ((l.drop start).findIdx? fun a => key a == j).map (· + start) := by
    intro j
    rw [h j]
    conv_lhs => rw [← List.take_append_drop start l]
    rw [findIdx?_parts, hlen]
  have hless : ∀ j, j ≠ k → match (l.drop start).findIdx? fun a => key a == j with
      | none => ((l.drop start).filter fun a => !(key a == k)).findIdx?
          (fun a => key a == j) = none
      | some i => ∃ i' ≤ i, ((l.drop start).filter fun a => !(key a == k)).findIdx?
          (fun a => key a == j) = some i' := by
    intro j hj
    refine findIdx?_filter_le _ _ ?_ _
    intro a ha
    rw [beq_iff_eq] at ha
    simp [ha, hj]
  refine ⟨?_, ?_, ?_⟩
  · intro j hj
    rw [Table.get_remove]
    by_cases hjk : j = k
    · rw [if_pos hjk]
    rw [if_neg hjk, hold j]
    rw [findIdx?_parts] at hj
    cases hfront : (l.take start).findIdx? fun a => key a == j with
    | some first =>
      rw [hfront] at hj
      cases hj
    | none =>
      rw [hfront] at hj
      have hback := hless j hjk
      cases hfound : (l.drop start).findIdx? fun a => key a == j with
      | none => rfl
      | some i =>
        rw [hfound] at hback
        obtain ⟨i', -, hi'⟩ := hback
        rw [hi'] at hj
        cases hj
  · intro j first hj hless'
    rw [findIdx?_parts] at hj
    cases hfront : (l.take start).findIdx? fun a => key a == j with
    | none =>
      rw [hfront] at hj
      obtain ⟨n, -, rfl⟩ := map_eq_some_iff.mp hj
      omega
    | some found =>
      rw [hfront] at hj
      cases hj
      have hjk : j ≠ k := by
        rintro rfl
        rw [hnone] at hfront
        cases hfront
      rw [Table.get_remove, if_neg hjk, hold j, hfront]
  intro j first hj hle mapped hget
  rw [Table.get_remove] at hget
  split at hget
  · cases hget
  rename_i hjk
  rw [findIdx?_parts] at hj
  rw [hold j] at hget
  cases hfront : (l.take start).findIdx? fun a => key a == j with
  | some found =>
    rw [hfront] at hj hget
    cases hj
    cases hget
    exact Nat.le_refl _
  | none =>
    rw [hfront] at hj hget
    obtain ⟨n, hn, rfl⟩ := map_eq_some_iff.mp hj
    obtain ⟨m, hm, rfl⟩ := map_eq_some_iff.mp hget
    have hback := hless j hjk
    rw [hm] at hback
    obtain ⟨i', hi', hfound⟩ := hback
    rw [hfound] at hn
    cases hn
    omega

end Netz.Lib
