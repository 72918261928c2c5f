/-
Tables kept as lists of entries with a key.

An entry is found by the first match of its key, changed by rewriting every entry with
that key, and added at the end.  Nothing here asks for the keys to be distinct: the first
match behaves as the entry of a map would.
-/
import Mathlib.Data.List.Basic
import Mathlib.Data.List.Count
import Netz.Lib.Guard

namespace Netz.Lib

open List

universe u v

variable {α : Type u} {κ : Type v} [DecidableEq κ] (key : α → κ)

lemma key_of_find? {l : List α} {k : κ} {a : α} (h : l.find? (fun b => key b == k) = some a) :
    key a = k := by
  have := find?_some h
  simpa using this

lemma find?_replace (l : List α) (a : α) (k : κ) :
    (l.map (fun b => if key b = key a then a else b)).find? (fun b => key b == k)
      = if k = key a then (l.find? (fun b => key b == k)).map (fun _ => a)
        else l.find? (fun b => key b == k) := by
  induction l with
  | nil => simp
  | cons b rest ih =>
    rw [map_cons, find?_cons, find?_cons]
    by_cases hb : key b = key a
    · rw [if_pos hb]
      by_cases hk : k = key a
      · subst hk
        simp [hb]
      have h₁ : (key a == k) = false := by simp [Ne.symm hk]
      have h₂ : (key b == k) = false := by simp [hb, Ne.symm hk]
      rw [h₁, h₂]
      simpa [hk] using ih
    rw [if_neg hb]
    by_cases hbk : key b = k
    · have hk : ¬ k = key a := by rw [← hbk]; exact hb
      simp [hbk, hk]
    have h₁ : (key b == k) = false := by simp [hbk]
    rw [h₁]
    simpa using ih

lemma find?_append_singleton (l : List α) (a : α) (k : κ)
    (hnew : l.find? (fun b => key b == key a) = none) :
    (l ++ [a]).find? (fun b => key b == k)
      = if k = key a then some a else l.find? (fun b => key b == k) := by
  by_cases hk : k = key a
  · subst hk
    simp [hnew]
  · simp [Ne.symm hk, hk]

lemma filter_key_eq_singleton {α : Type u} {κ : Type v} [BEq κ] [LawfulBEq κ] {key : α → κ}
    {l : List α} (hnodup : (l.map key).Nodup) {a : α} (hmem : a ∈ l) :
    l.filter (fun b => key b == key a) = [a] := by
  induction l with
  | nil => cases hmem
  | cons b rest ih =>
    obtain ⟨hfresh, hrest⟩ := nodup_cons.mp hnodup
    rcases mem_cons.mp hmem with rfl | hlater
    · have hnone : rest.filter (fun b => key b == key a) = [] := by
        rw [filter_eq_nil_iff]
        intro c hc hsame
        exact hfresh (mem_map.mpr ⟨c, hc, beq_iff_eq.mp hsame⟩)
      rw [filter_cons, if_pos (by simp), hnone]
    have hne : ¬ (key b == key a) = true := by
      intro hsame
      exact hfresh (mem_map.mpr ⟨a, hlater, (beq_iff_eq.mp hsame).symm⟩)
    rw [filter_cons, if_neg hne]
    exact ih hrest hlater

end Netz.Lib

/-! ### Maps kept as lists of key and value pairs

`get` reads the first entry of a key, `put` adds one at the end and `remove` drops every
entry of a key.  Hash maps are modelled so where only lookups matter. -/

namespace Netz.Lib

open List

universe u v

abbrev Table (κ : Type u) (α : Type v) := List (κ × α)

namespace Table

variable {κ : Type u} {α : Type v} [DecidableEq κ]

def get (t : Table κ α) (k : κ) : Option α := (t.find? (fun e => e.1 == k)).map (·.2)

/-- `putNoClobber`: the key is not in the table yet. -/
def put (t : Table κ α) (k : κ) (a : α) : Table κ α := t ++ [(k, a)]

def remove (t : Table κ α) (k : κ) : Table κ α := t.filter (fun e => !(e.1 == k))

/-- `getPtr`: the value of a key that is in the table is overwritten. -/
def assign (t : Table κ α) (k : κ) (a : α) : Table κ α :=
  t.map (fun e => if e.1 == k then (e.1, a) else e)

/-- `getOrPut`: the value of a key, in the table or not. -/
def upsert (t : Table κ α) (k : κ) (a : α) : Table κ α :=
  if (t.get k).isSome then t.assign k a else t.put k a

def keys (t : Table κ α) : List κ := t.map (·.1)

omit [DecidableEq κ] in
@[simp] lemma keys_put (t : Table κ α) (k : κ) (a : α) : (t.put k a).keys = t.keys ++ [k] := by
  simp [keys, put]

lemma keys_remove (t : Table κ α) (k : κ) :
    (t.remove k).keys = t.keys.filter (fun j => !(j == k)) := by
  simp [keys, remove, filter_map, Function.comp_def]

lemma get_eq_none_iff {t : Table κ α} {k : κ} : t.get k = none ↔ k ∉ t.keys := by
  simp [get, keys]
  grind

lemma get_isSome_iff {t : Table κ α} {k : κ} : (t.get k).isSome = true ↔ k ∈ t.keys := by
  rw [← not_iff_not, ← get_eq_none_iff]
  simp

@[simp] lemma get_nil (k : κ) : get ([] : Table κ α) k = none := rfl

lemma get_put {t : Table κ α} {k : κ} (hnew : t.get k = none) (a : α) (j : κ) :
    (t.put k a).get j = if j = k then some a else t.get j := by
  have hfind : t.find? (fun e => e.1 == k) = none := by simpa [get] using hnew
  unfold get put
  rw [find?_append_singleton (fun e : κ × α => e.1) t (k, a) j hfind]
  split <;> rfl

lemma get_remove (t : Table κ α) (k j : κ) :
    (t.remove k).get j = if j = k then none else t.get j := by
  unfold get remove
  rw [find?_filter]
  by_cases hj : j = k
  · subst hj
    simp
  rw [if_neg hj]
  congr 2
  funext e
  by_cases he : e.1 = j
  · simp [he, hj]
  · simp [he]

lemma get_assign (t : Table κ α) (k j : κ) (a : α) :
    (t.assign k a).get j = if j = k then (t.get k).map (fun _ => a) else t.get j := by
  induction t with
  | nil => simp [assign]
  | cons e rest ih =>
    unfold get assign at ih ⊢
    rw [map_cons]
    by_cases he : e.1 = k
    · by_cases hj : j = k
      · simp [he, hj]
      simp only [he, beq_self_eq_true, if_true, find?_cons, if_neg hj] at ih ⊢
      have hkj : (k == j) = false := by simp [Ne.symm hj]
      rw [hkj]
      exact ih
    have hek : (e.1 == k) = false := by simp [he]
    simp only [hek, Bool.false_eq_true, if_false, find?_cons] at ih ⊢
    by_cases hj : j = k
    · have hej : (e.1 == j) = false := by simp [hj, he]
      rw [hej]
      exact ih
    rw [if_neg hj] at ih ⊢
    by_cases hej : e.1 = j
    · simp [hej]
    have hej' : (e.1 == j) = false := by simp [hej]
    rw [hej']
    exact ih

lemma get_upsert (t : Table κ α) (k j : κ) (a : α) :
    (t.upsert k a).get j = if j = k then some a else t.get j := by
  unfold upsert
  cases hk : t.get k with
  | none => rw [if_neg (by simp), get_put hk]
  | some old => simp [get_assign, hk]

end Table

end Netz.Lib

/-! ### Counts kept in a table

The table has an entry for every key that is counted at least once, and none for the others. -/

namespace Netz.Lib

open List

universe u

variable {κ : Type u} [DecidableEq κ]

namespace Table

/-- One more of a key. -/
def bump (t : Table κ Nat) (k : κ) : Table κ Nat := t.upsert k ((t.get k).getD 0 + 1)

/-- One less of a key; its entry goes with the last one. -/
def dropOne (t : Table κ Nat) (k : κ) : Option (Table κ Nat) :=
  match t.get k with
  | none => none
  | some count => some (if count - 1 = 0 then t.remove k else t.assign k (count - 1))

def bumpAll (t : Table κ Nat) (ks : List κ) : Table κ Nat := ks.foldl bump t

def dropAll (t : Table κ Nat) : List κ → Option (Table κ Nat)
  | [] => some t
  | k :: rest => (t.dropOne k).bind fun t' => t'.dropAll rest

end Table

/-- The table has what is counted. -/
def Tally (counted : List κ) (t : Table κ Nat) : Prop :=
  ∀ k, t.get k = if counted.count k = 0 then none else some (counted.count k)

namespace Tally

variable {counted : List κ} {t : Table κ Nat}

lemma empty : Tally ([] : List κ) [] := by
  intro k
  rfl

lemma congr (h : Tally counted t) {counted' : List κ}
    (hcount : ∀ k, counted'.count k = counted.count k) : Tally counted' t := by
  intro k
  rw [hcount k]
  exact h k

lemma get_isSome (h : Tally counted t) {k : κ} : (t.get k).isSome = true ↔ k ∈ counted := by
  rw [h k]
  by_cases hzero : counted.count k = 0
  · rw [if_pos hzero]
    simpa using count_eq_zero.mp hzero
  · rw [if_neg hzero]
    simpa using count_pos_iff.mp (Nat.pos_of_ne_zero hzero)

lemma bump (h : Tally counted t) (k : κ) : Tally (k :: counted) (t.bump k) := by
  intro j
  unfold Table.bump
  rw [Table.get_upsert, h k, h j]
  by_cases hj : j = k
  · subst hj
    by_cases hzero : counted.count j = 0
    · simp [hzero]
    · simp [hzero]
  · have hne : ¬ k = j := fun heq => hj heq.symm
    simp [hj, hne]

lemma bumpAll (h : Tally counted t) (ks : List κ) : Tally (ks ++ counted) (t.bumpAll ks) := by
  unfold Table.bumpAll
  induction ks generalizing counted t with
  | nil => exact h
  | cons k rest ih =>
    refine (ih (h.bump k)).congr ?_
    intro j
    rw [cons_append, count_cons, count_append, count_append, count_cons]
    omega

lemma dropOne {k : κ} (h : Tally (k :: counted) t) :
    ∃ t', t.dropOne k = some t' ∧ Tally counted t' := by
  have hget := h k
  rw [count_cons_self, if_neg (Nat.succ_ne_zero _)] at hget
  unfold Table.dropOne
  rw [hget]
  refine ⟨_, rfl, ?_⟩
  intro j
  have hold := h j
  rw [count_cons] at hold
  rw [Nat.add_sub_cancel]
  by_cases hj : j = k
  · subst hj
    by_cases hzero : counted.count j = 0
    · rw [if_pos hzero, if_pos hzero, Table.get_remove, if_pos rfl]
    · rw [if_neg hzero, if_neg hzero, Table.get_assign, if_pos rfl, hget, Option.map_some]
  have hne : (k == j) = false := by
    simp only [beq_eq_false_iff_ne]
    exact fun heq => hj heq.symm
  simp only [hne, Bool.false_eq_true, if_false, Nat.add_zero] at hold
  by_cases hzero : counted.count k = 0
  · rw [if_pos hzero, Table.get_remove, if_neg hj, hold]
  · rw [if_neg hzero, Table.get_assign, if_neg hj, hold]

/-- **What was counted can be taken back.** -/
theorem dropAll {ks : List κ} (h : Tally (ks ++ counted) t) :
    ∃ t', t.dropAll ks = some t' ∧ Tally counted t' := by
  induction ks generalizing t with
  | nil => exact ⟨t, rfl, h⟩
  | cons k rest ih =>
    obtain ⟨t', hdrop, htally⟩ := h.dropOne
    obtain ⟨last, hlast, hdone⟩ := ih htally
    refine ⟨last, ?_, hdone⟩
    simp [hdrop, hlast, Table.dropAll]

end Tally

end Netz.Lib
