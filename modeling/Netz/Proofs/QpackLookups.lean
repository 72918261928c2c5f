/-
QPACK lookups.

The two indexes hold the newest entry under each hash: an insertion redirects them before entries
leave, and an entry that leaves takes its hash along where no newer entry has it.  So a lookup
answers what a search of the content would find, from the newest entry on, whatever the hashes are.
-/
import Mathlib.Data.List.Find
import Netz.Http.QpackBlock
import Netz.Lib.Newest
import Netz.Proofs.QpackTable

namespace Netz.Http.Qpack

open Lib List

variable [StringHash]

namespace DynamicTable

variable {maxCapacity : Nat} {history : List (Bytes × Bytes)} {table : DynamicTable}
  {name value : Bytes} {limit : Nat}

/-! ### Searches -/

def isNamed (name : Bytes) (limit : Nat) (entry : DynamicEntry) : Bool :=
  decide (entry.absoluteIndex < limit ∧ entry.name = name)

def isField (name value : Bytes) (limit : Nat) (entry : DynamicEntry) : Bool :=
  decide (entry.absoluteIndex < limit ∧ entry.name = name ∧ entry.value = value)

/-- The newest entry of the content that passes. -/
def newest (table : DynamicTable) (p : DynamicEntry → Bool) : Option Nat :=
  (table.live.reverse.find? p).map (·.absoluteIndex)

/-- The newest entry that is the field, and otherwise the newest one with its name. -/
def search (table : DynamicTable) (name value : Bytes) (limit : Nat) : Option Match :=
  ((table.newest (isField name value limit)).map fun index => ⟨index, true⟩).or
    ((table.newest (isNamed name limit)).map fun index => ⟨index, false⟩)

lemma scanMatch_eq {entries : List DynamicEntry} (nameMatch : Option Nat)
    (h : ∀ entry ∈ entries, entry.nameHash = dynamicStringHash entry.name ∧
      entry.valueHash = dynamicStringHash entry.value) :
    scanMatch name value (dynamicStringHash name) (dynamicStringHash value) limit entries nameMatch =
      ((entries.find? (isField name value limit)).map fun entry => ⟨entry.absoluteIndex, true⟩).or
        ((nameMatch.or ((entries.find? (isNamed name limit)).map (·.absoluteIndex))).map
          fun index => ⟨index, false⟩) := by
  induction entries generalizing nameMatch with
  | nil => simp [scanMatch]
  | cons entry older ih =>
    obtain ⟨⟨hname, hvalue⟩, holder⟩ := forall_mem_cons.mp h
    unfold scanMatch
    rw [find?_cons, find?_cons, hname, hvalue]
    by_cases hlim : limit ≤ entry.absoluteIndex
    · simp [hlim, ih _ holder, isField, isNamed, not_lt.mpr hlim]
    by_cases hnamed : entry.name = name
    · subst hnamed
      by_cases hfield : entry.value = value
      · subst hfield
        simp [isField, hlim, not_le.mp hlim]
      · simp [isField, isNamed, hlim, hfield, not_le.mp hlim, ih _ holder]
    · simp [isField, isNamed, hlim, hnamed, ih _ holder]

omit [StringHash] in
/-- The entry that a pointer reads is the newest one, if it passes. -/
theorem newest_of_get {κ : Type} [DecidableEq κ] {key : DynamicEntry → κ} {t : Table κ Nat} {k : κ}
    {index : Nat} {p : DynamicEntry → Bool} {entry : DynamicEntry} (hsound : table.Sound)
    (h : Newest key table.insertCount table.live t) (hget : t.get k = some index)
    (hkey : ∀ e, p e = true → e ∈ table.live → key e = k)
    (hent : table.absolute index = some entry) (hpass : p entry = true) :
    table.newest p = some index := by
  obtain ⟨hmem, hidx⟩ := hsound.absolute.mp hent
  obtain ⟨i, a, hat, -, hlt, hplace, hnewer⟩ := h.get_some hsound.numbered.length_le hget
  obtain ⟨-, hge, hthere⟩ := hsound.numbered.getElem? hmem
  have hlen := hsound.numbered.length_le
  rw [List.getElem?_reverse hlt, show table.live.length - 1 - i =
    entry.absoluteIndex - (table.insertCount - table.live.length) by omega, hthere] at hat
  cases hat
  have hread := hthere
  rw [show entry.absoluteIndex - (table.insertCount - table.live.length) =
    table.live.length - 1 - i by omega, ← List.getElem?_reverse hlt] at hread
  obtain ⟨hi, hvalue⟩ := List.getElem_of_getElem? hread
  have hfind : table.live.reverse.find? p = some entry := by
    refine List.find?_eq_some_iff_getElem.mpr ⟨hpass, i, hi, hvalue, fun j hj => ?_⟩
    have hother := hnewer j _ hj (List.getElem?_eq_getElem (Nat.lt_trans hj hi))
    by_contra hyes
    exact hother (hkey _ (by simpa using hyes) (List.mem_reverse.mp (List.getElem_mem _)))
  rw [newest, hfind, ← hidx]
  rfl

omit [StringHash] in
lemma newest_of_none {p : DynamicEntry → Bool} (h : ∀ entry ∈ table.live, ¬ p entry = true) :
    table.newest p = none := by
  rw [newest, find?_eq_none.mpr fun entry hent => h entry (mem_reverse.mp hent)]
  rfl

omit [StringHash] in
lemma newest_of_empty {p : DynamicEntry → Bool} (hempty : limit = 0 ∨ table.entryCount = 0)
    (hp : ∀ entry, p entry = true → entry.absoluteIndex < limit) : table.newest p = none := by
  refine newest_of_none fun entry hent hpass => ?_
  have hlt := hp entry hpass
  rcases hempty with hzero | hzero
  · omega
  · rw [← length_live] at hzero
    rw [length_eq_zero_iff.mp hzero] at hent
    cases hent

omit [StringHash] in
lemma lt_of_isNamed {entry : DynamicEntry} (h : isNamed name limit entry = true) :
    entry.absoluteIndex < limit := (of_decide_eq_true h).1

lemma key_of_isNamed (h : Recorded maxCapacity history table) {entry : DynamicEntry}
    (hpass : isNamed name limit entry = true) (hmem : entry ∈ table.live) :
    entry.nameHash = dynamicStringHash name := by
  rw [(h.hashed entry hmem).1, (of_decide_eq_true hpass).2]

lemma findMatchBefore_eq (h : Recorded maxCapacity history table) (name value : Bytes)
    (limit : Nat) : table.findMatchBefore name value limit = table.search name value limit := by
  have hlinear : table.findMatchBeforeLinear name value (dynamicStringHash name)
      (dynamicStringHash value) limit = table.search name value limit := by
    refine (scanMatch_eq none fun entry hent => h.hashed entry (mem_reverse.mp hent)).trans ?_
    simp [search, newest, live, Function.comp_def]
  have hkey : ∀ entry, isField name value limit entry = true → entry ∈ table.live →
      (entry.nameHash, entry.valueHash) = (dynamicStringHash name, dynamicStringHash value) := by
    intro entry hpass hmem
    obtain ⟨-, hname, hvalue⟩ := of_decide_eq_true hpass
    rw [(h.hashed entry hmem).1, (h.hashed entry hmem).2, hname, hvalue]
  have hsound := h.sound
  have hnames := hsound.names
  have hexacts := hsound.exacts
  rw [append_nil] at hnames hexacts
  unfold DynamicTable.findMatchBefore
  by_cases hempty : limit = 0 ∨ table.entryCount = 0
  · rw [if_pos hempty, search, newest_of_empty hempty fun _ hpass => (of_decide_eq_true hpass).1,
      newest_of_empty hempty fun _ => lt_of_isNamed]
    rfl
  rw [if_neg hempty]
  dsimp only
  cases hexact : table.latestExact.get (dynamicStringHash name, dynamicStringHash value) with
  | some index =>
    dsimp only
    split
    · rename_i hhit
      obtain ⟨entry, hent, hsame⟩ := (Option.any_eq_true _ _).mp hhit.2
      simp only [Bool.and_eq_true, beq_iff_eq] at hsame
      rw [search, newest_of_get hsound hexacts hexact hkey hent
        (decide_eq_true ⟨(hsound.absolute.mp hent).2 ▸ hhit.1, hsame.1.2, hsame.2⟩)]
      rfl
    · exact hlinear
  | none =>
    have hno : table.newest (isField name value limit) = none :=
      newest_of_none fun entry hent hpass =>
        hexacts.get_none hexact entry hent (hkey entry hpass hent)
    dsimp only
    cases hlast : table.latestName.get (dynamicStringHash name) with
    | some index =>
      dsimp only
      split
      · rename_i hhit
        obtain ⟨entry, hent, hsame⟩ := (Option.any_eq_true _ _).mp hhit.2
        simp only [Bool.and_eq_true, beq_iff_eq] at hsame
        rw [search, hno, newest_of_get hsound hnames hlast (fun _ => key_of_isNamed h) hent
          (decide_eq_true ⟨(hsound.absolute.mp hent).2 ▸ hhit.1, hsame.2⟩)]
        rfl
      · exact hlinear
    | none =>
      rw [search, hno, newest_of_none fun entry hent hpass =>
        hnames.get_none hlast entry hent (key_of_isNamed h hpass hent)]
      rfl

lemma findNameBefore_eq (h : Recorded maxCapacity history table) (name : Bytes) (limit : Nat) :
    table.findNameBefore name limit = table.newest (isNamed name limit) := by
  have hlinear : table.findNameBeforeLinear name (dynamicStringHash name) limit =
      table.newest (isNamed name limit) := by
    unfold findNameBeforeLinear newest
    congr 1
    refine find?_congr fun entry hent => ?_
    rw [(h.hashed entry (mem_reverse.mp hent)).1]
    by_cases hnamed : entry.name = name
    · simp [isNamed, hnamed]
    · simp [isNamed, hnamed]
  have hsound := h.sound
  have hnames := hsound.names
  rw [append_nil] at hnames
  unfold DynamicTable.findNameBefore
  by_cases hempty : limit = 0 ∨ table.entryCount = 0
  · rw [if_pos hempty, newest_of_empty hempty fun _ => lt_of_isNamed]
  rw [if_neg hempty]
  dsimp only
  cases hlast : table.latestName.get (dynamicStringHash name) with
  | some index =>
    dsimp only
    split
    · rename_i hhit
      obtain ⟨entry, hent, hsame⟩ := (Option.any_eq_true _ _).mp hhit.2
      simp only [Bool.and_eq_true, beq_iff_eq] at hsame
      rw [newest_of_get hsound hnames hlast (fun _ => key_of_isNamed h) hent
        (decide_eq_true ⟨(hsound.absolute.mp hent).2 ▸ hhit.1, hsame.2⟩)]
    · exact hlinear
  | none =>
    rw [newest_of_none fun entry hent hpass =>
      hnames.get_none hlast entry hent (key_of_isNamed h hpass hent)]

/-! ### Runs -/

inductive TableOp where
  | setCapacity (capacity : Nat)
  | insert (name value : Bytes)
  | duplicate (relativeIndex : Nat)
  | applyInstruction (instruction : EncoderInstruction)

def exec (table : DynamicTable) : TableOp → DynamicTable
  | .setCapacity capacity => (table.setCapacity capacity).toOption.getD table
  | .insert name value => (table.insert name value).2
  | .duplicate relativeIndex => (table.duplicate relativeIndex).2
  | .applyInstruction instruction => (applyDecodedEncoderInstruction false table instruction).2

lemma replays_insert (h : Replays maxCapacity history table) (name value : Bytes) :
    ∃ history', Replays maxCapacity history' (table.insert name value).2 := by
  rcases hins : table.insert name value with ⟨_ | _, _⟩
  · exact ⟨_, h.failed hins⟩
  · exact ⟨_, h.insert hins⟩

lemma replays_insertUnless (h : Replays maxCapacity history table) (name value : Bytes) :
    ∃ history', Replays maxCapacity history' (insertUnless false table name value).2 := by
  have hins := replays_insert h name value
  unfold insertUnless
  rcases hres : table.insert name value with ⟨_ | _, _⟩
  · rwa [hres] at hins
  · rwa [hres] at hins

lemma replays_exec (h : Replays maxCapacity history table) (op : TableOp) :
    ∃ history', Replays maxCapacity history' (table.exec op) := by
  cases op with
  | setCapacity capacity =>
    unfold exec
    dsimp only
    cases hset : table.setCapacity capacity with
    | error => exact ⟨history, h⟩
    | ok table' => exact ⟨history, h.setCapacity hset⟩
  | insert name value => exact replays_insert h name value
  | duplicate relativeIndex =>
    unfold exec duplicate
    dsimp only
    split
    · exact ⟨history, h⟩
    · exact replays_insert h _ _
  | applyInstruction instruction =>
    unfold exec applyDecodedEncoderInstruction
    dsimp only
    split
    · split
      · exact ⟨history, h⟩
      · rename_i hset
        exact ⟨history, h.setCapacity hset⟩
    · split
      · exact ⟨history, h⟩
      · exact replays_insertUnless h _ _
    · exact replays_insertUnless h _ _
    · split
      · exact ⟨history, h⟩
      · exact replays_insertUnless h _ _

/-- **In every run the entries are numbered up to the insert count and accounted for, and a lookup
answers what a search would.** -/
theorem lookups_search (maxCapacity : UInt64) (ops : List TableOp) :
    let table := ops.foldl exec (init maxCapacity.toNat)
    (∀ i entry, table.live[i]? = some entry →
      entry.absoluteIndex + table.live.length = table.insertCount + i) ∧
    table.currentSize =
      (table.live.map fun entry => entry.name.length + entry.value.length + 32).sum ∧
    table.currentSize ≤ table.capacity ∧
    (∀ name value limit, table.findMatchBefore name value limit = table.search name value limit) ∧
    ∀ name limit, table.findNameBefore name limit = table.newest (isNamed name limit) := by
  have hrun : ∀ {history table}, Replays maxCapacity.toNat history table →
      ∃ history', Replays maxCapacity.toNat history' (ops.foldl exec table) := by
    induction ops with
    | nil => exact fun h => ⟨_, h⟩
    | cons op rest ih =>
      intro history table h
      obtain ⟨_, hnext⟩ := replays_exec h op
      exact ih hnext
  obtain ⟨history, hreplays⟩ := hrun .init
  have h := hreplays.recorded (Nat.le_of_lt_succ maxCapacity.toNat_lt)
  have hsound := h.sound
  refine ⟨fun i entry hentry => ?_, hsound.size_eq, hsound.size_le, findMatchBefore_eq h,
    findNameBefore_eq h⟩
  have hindex := hsound.numbered.index i entry hentry
  have hlength := hsound.numbered.length_le
  omega

end DynamicTable

end Netz.Http.Qpack
