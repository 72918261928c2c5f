/-
The QPACK tables.

What is behind the head of a dynamic table is its content, numbered without gaps up to the
insert count.  Setting the capacity and inserting cut the content from the front, as far as is
needed, so the content depends on the calls and on nothing else.  A lookup answers an entry that
is there, whatever the hashes are.
-/
import Netz.Http.QpackTable
import Netz.Lib.Eviction
import Netz.Lib.Newest

namespace Netz.Http.Qpack

open Lib DynamicEntry DynamicTable List Option

/-! ### The static table -/

lemma fastStaticFields_sound :
    ∀ entry ∈ fastStaticFields,
      (∀ value ∈ entry.2.1, staticTable[value.2]? = some (entry.1, value.1)) ∧
      ∀ index ∈ entry.2.2, (staticTable[index]?).map (·.1) = some entry.1 := by
  decide +kernel

lemma staticNameIndex_sound :
    ∀ entry ∈ staticNameIndex, ∀ index ∈ entry.2,
      (staticTable[index]?).map (·.1) = some entry.1 := by
  decide +kernel

lemma staticTable_length : staticTable.length = 99 := by
  decide +kernel

lemma static_index_lt {index : Nat} {entry : Bytes × Bytes} (h : staticEntry index = some entry) :
    index < 99 := by
  rw [← staticTable_length]
  exact lt_of_getElem? h

lemma findStaticMatch_sound {name value : Bytes} {found : StaticMatch}
    (h : findStaticMatch name value = some found) :
    ∃ known, staticEntry found.index = some (name, known) ∧
      (found.fullMatch = true → known = value) := by
  have hnamed : ∀ index : Nat, (staticTable[index]?).map (·.1) = some name →
      ∃ known, staticEntry index = some (name, known) := by
    intro index hidx
    obtain ⟨entry, hent, hname⟩ := map_eq_some_iff.mp hidx
    exact ⟨entry.2, hent.trans (congrArg (fun n => some (n, entry.2)) hname)⟩
  unfold findStaticMatch at h
  cases hfast : fastPseudoHeaderMatch name value with
  | some fast =>
    rw [hfast] at h
    cases h
    obtain ⟨known, hknown, hfound⟩ := bind_eq_some_iff.mp hfast
    obtain ⟨hvalues, hother⟩ := fastStaticFields_sound _ (mem_of_lookup hknown)
    cases hvalue : lookup known.1 value with
    | some index =>
      rw [hvalue] at hfound
      cases hfound
      exact ⟨value, hvalues _ (mem_of_lookup hvalue), fun _ => rfl⟩
    | none =>
      rw [hvalue] at hfound
      obtain ⟨index, hidx, rfl⟩ := map_eq_some_iff.mp hfound
      obtain ⟨known, hent⟩ := hnamed index (hother index hidx)
      exact ⟨known, hent, fun hfull => by cases hfull⟩
  | none =>
    rw [hfast] at h
    obtain ⟨indexes, hindexes, hfound⟩ := bind_eq_some_iff.mp h
    have hall := staticNameIndex_sound _ (mem_of_lookup hindexes)
    split at hfound
    · rename_i index hfind
      cases hfound
      obtain ⟨known, hent⟩ := hnamed index (hall index (mem_of_find?_eq_some hfind))
      refine ⟨known, hent, fun _ => ?_⟩
      have hvalue := find?_some hfind
      have hat : staticTable[index]? = some (name, known) := hent
      rw [hat] at hvalue
      simpa using hvalue
    obtain ⟨index, hidx, rfl⟩ := map_eq_some_iff.mp hfound
    obtain ⟨known, hent⟩ := hnamed index (hall index (mem_of_head? hidx))
    exact ⟨known, hent, fun hfull => by cases hfull⟩

/-! ### Numbered entries -/

/-- The entries are the last ones of `count` insertions. -/
structure Numbered (count : Nat) (entries : List DynamicEntry) : Prop where
  length_le : entries.length ≤ count
  index : ∀ i entry, entries[i]? = some entry → entry.absoluteIndex = count - entries.length + i

namespace Numbered

variable {count : Nat} {entries : List DynamicEntry}

lemma nil (count : Nat) : Numbered count [] where
  length_le := Nat.zero_le count
  index := by simp

lemma suffix (h : Numbered count entries) {left : List DynamicEntry} (hleft : left <:+ entries) :
    Numbered count left := by
  obtain ⟨gone, rfl⟩ := hleft
  have hlen := h.length_le
  rw [length_append] at hlen
  refine ⟨by omega, ?_⟩
  intro i entry hent
  have hat : (gone ++ left)[gone.length + i]? = some entry := by
    rw [getElem?_append_right (Nat.le_add_right _ _), Nat.add_sub_cancel_left]
    exact hent
  have hidx := h.index _ entry hat
  rw [length_append] at hidx
  omega

lemma concat (h : Numbered count entries) {entry : DynamicEntry}
    (hent : entry.absoluteIndex = count) : Numbered (count + 1) (entries ++ [entry]) := by
  have hlen := h.length_le
  refine ⟨by rw [List.length_append]; exact Nat.succ_le_succ hlen, ?_⟩
  intro i e he
  rw [List.length_append, List.length_singleton]
  rcases Nat.lt_or_ge i entries.length with hold | hnew
  · rw [List.getElem?_append_left hold] at he
    have hidx := h.index i e he
    omega
  have hlt := lt_of_getElem? he
  rw [List.length_append, List.length_singleton] at hlt
  have hlast : i = entries.length := by omega
  rw [hlast, List.getElem?_concat_length, some.injEq] at he
  rw [← he]
  omega

lemma getElem? (h : Numbered count entries) {entry : DynamicEntry} (hmem : entry ∈ entries) :
    entry.absoluteIndex < count ∧ count - entries.length ≤ entry.absoluteIndex ∧
      entries[entry.absoluteIndex - (count - entries.length)]? = some entry := by
  obtain ⟨i, hi⟩ := List.getElem?_of_mem hmem
  have hidx := h.index i entry hi
  have hlt := lt_of_getElem? hi
  have hlen := h.length_le
  refine ⟨by omega, by omega, ?_⟩
  rw [hidx, Nat.add_sub_cancel_left]
  exact hi

end Numbered

/-! ### The content of a dynamic table -/

namespace DynamicTable

/-- The entries that have not left, oldest first. -/
def live (table : DynamicTable) : List DynamicEntry := table.entries.drop table.head

/-- The sizes of the content are accounted for, and the indexes hold the newest entry under each
hash; `coming` stands behind the content. -/
structure Indexed (coming : List DynamicEntry) (table : DynamicTable) : Prop where
  head_le : table.head ≤ table.entries.length
  size_eq : table.currentSize = totalSize size table.live
  numbered : Numbered table.insertCount table.live
  names : Newest (fun entry => entry.nameHash) (table.insertCount + coming.length)
    (table.live ++ coming) table.latestName
  exacts : Newest (fun entry => (entry.nameHash, entry.valueHash))
    (table.insertCount + coming.length) (table.live ++ coming) table.latestExact

structure Sound (table : DynamicTable) : Prop extends Indexed [] table where
  size_le : table.currentSize ≤ table.capacity
  capacity_le : table.capacity ≤ table.maxCapacity
  max_le : table.maxCapacity ≤ maxU64
  count_le : table.insertCount ≤ maxU64

lemma sound_init {maxCapacity : Nat} (h : maxCapacity ≤ maxU64) : (init maxCapacity).Sound where
  head_le := Nat.le_refl 0
  size_eq := rfl
  numbered := Numbered.nil 0
  names := Newest.empty _ 0
  exacts := Newest.empty _ 0
  size_le := Nat.le_refl 0
  capacity_le := Nat.zero_le _
  max_le := h
  count_le := Nat.zero_le _

lemma length_live (table : DynamicTable) : table.live.length = table.entryCount := by
  unfold entryCount live
  rw [length_drop]

lemma compactIfNeeded_cases (table : DynamicTable) :
    table.compactIfNeeded = table ∨
      table.compactIfNeeded = { table with entries := table.live, head := 0 } := by
  unfold compactIfNeeded
  by_cases hhead : table.head = 0
  · simp [hhead]
  rw [if_neg hhead]
  by_cases hfew : table.head < table.entries.length / 2 ∧ table.entryCount ≠ 0
  · simp [hfew]
  · rw [if_neg hfew]
    exact .inr rfl

/-- What a call may do to a table without anybody noticing. -/
structure Same (table table' : DynamicTable) : Prop where
  live : table'.live = table.live
  capacity : table'.capacity = table.capacity
  maxCapacity : table'.maxCapacity = table.maxCapacity
  insertCount : table'.insertCount = table.insertCount

lemma Indexed.compactIfNeeded {coming : List DynamicEntry} {table : DynamicTable}
    (h : table.Indexed coming) : table.compactIfNeeded.Indexed coming ∧ Same table table.compactIfNeeded ∧
      table.compactIfNeeded.currentSize = table.currentSize := by
  rcases compactIfNeeded_cases table with hsame | hdrop
  · rw [hsame]
    exact ⟨h, ⟨rfl, rfl, rfl, rfl⟩, rfl⟩
  · rw [hdrop]
    exact ⟨⟨Nat.zero_le _, h.size_eq, h.numbered, h.names, h.exacts⟩, ⟨rfl, rfl, rfl, rfl⟩, rfl⟩

lemma Indexed.evictLoop {coming : List DynamicEntry} {rounds incoming : Nat} {table : DynamicTable}
    (h : table.Indexed coming) (hfuel : table.live.length ≤ rounds)
    (hincoming : incoming ≤ table.capacity) :
    (table.evictLoop incoming rounds).Indexed coming ∧
      (table.evictLoop incoming rounds).currentSize + incoming ≤ table.capacity ∧
      (table.evictLoop incoming rounds).live = evict size (table.capacity - incoming) table.live ∧
      (table.evictLoop incoming rounds).capacity = table.capacity ∧
      (table.evictLoop incoming rounds).maxCapacity = table.maxCapacity ∧
      (table.evictLoop incoming rounds).insertCount = table.insertCount := by
  induction rounds generalizing table with
  | zero =>
    have hnil : table.live = [] := List.length_eq_zero_iff.mp (Nat.le_zero.mp hfuel)
    have hsize : table.currentSize = 0 := by
      rw [h.size_eq, hnil]
      rfl
    refine ⟨h, ?_, ?_, rfl, rfl, rfl⟩
    · show table.currentSize + incoming ≤ table.capacity
      omega
    show table.live = _
    rw [hnil]
    rfl
  | succ rounds ih =>
    unfold DynamicTable.evictLoop
    by_cases hover : table.capacity < table.currentSize ∨
        table.capacity - table.currentSize < incoming
    · rw [if_pos hover]
      have hhead : table.head < table.entries.length := by
        by_contra hend
        have hnil : table.live = [] := List.drop_eq_nil_iff.mpr (not_lt.mp hend)
        have hsize := h.size_eq
        rw [hnil, totalSize_nil] at hsize
        omega
      obtain ⟨entry, hent⟩ : ∃ entry, table.entries[table.head]? = some entry :=
        ⟨_, List.getElem?_eq_getElem hhead⟩
      have hlive : table.live = entry :: table.entries.drop (table.head + 1) := by
        rw [(List.getElem_of_getElem? hent).2.symm]
        exact List.drop_eq_getElem_cons hhead
      obtain ⟨-, hsize, hnums, hnames, hexacts⟩ := h
      rw [hlive] at hsize hnums hnames hexacts
      rw [totalSize_cons] at hsize
      have hlen := hnums.length_le
      have hidx := hnums.index 0 entry rfl
      rw [List.length_cons] at hlen hidx
      -- the number of the oldest entry is that of its place
      have hplace : table.insertCount + coming.length - 1 -
          (table.entries.drop (table.head + 1) ++ coming).length = entry.absoluteIndex := by
        rw [List.length_append]
        omega
      have hless : (table.entries.drop (table.head + 1) ++ coming).length <
          table.insertCount + coming.length := by
        rw [List.length_append]
        omega
      rw [List.cons_append] at hnames hexacts
      replace hnames := hnames.tail hless
      replace hexacts := hexacts.tail hless
      rw [hplace] at hnames hexacts
      rw [hent]
      obtain ⟨hsized, hroom, hcut, hrest⟩ :=
        @ih { table.removeLatestIndexes entry with
              currentSize := table.currentSize - entry.size, head := table.head + 1 }
          { head_le := hhead
            size_eq := by
              show table.currentSize - entry.size = totalSize size
                (table.entries.drop (table.head + 1))
              omega
            numbered := hnums.suffix (List.suffix_cons entry _)
            names := hnames
            exacts := hexacts }
          (by
            rw [hlive] at hfuel
            exact Nat.le_of_succ_le_succ hfuel) hincoming
      refine ⟨hsized, hroom, ?_, hrest⟩
      rw [hcut, hlive, evict_cons_of_lt size (by rw [totalSize_cons]; omega)]
      rfl
    rw [if_neg hover]
    have hsize := h.size_eq
    refine ⟨h, by omega, ?_, rfl, rfl, rfl⟩
    rw [evict_of_le size (by omega)]

lemma Indexed.evictToFit {coming : List DynamicEntry} {table : DynamicTable}
    (h : table.Indexed coming) {incoming : Nat} (hincoming : incoming ≤ table.capacity) :
    (table.evictToFit incoming).Indexed coming ∧
      (table.evictToFit incoming).currentSize + incoming ≤ table.capacity ∧
      (table.evictToFit incoming).live = evict size (table.capacity - incoming) table.live ∧
      (table.evictToFit incoming).capacity = table.capacity ∧
      (table.evictToFit incoming).maxCapacity = table.maxCapacity ∧
      (table.evictToFit incoming).insertCount = table.insertCount := by
  obtain ⟨hsized, hroom, hlive, hcap, hmax, hcount⟩ :=
    @Indexed.evictLoop coming table.entryCount incoming table h (Nat.le_of_eq (length_live table))
      hincoming
  obtain ⟨hsized', hsame, hsize⟩ := hsized.compactIfNeeded
  refine ⟨hsized', ?_, hsame.live.trans hlive, hsame.capacity.trans hcap,
    hsame.maxCapacity.trans hmax, hsame.insertCount.trans hcount⟩
  show (table.evictLoop incoming table.entryCount).compactIfNeeded.currentSize + incoming ≤ _
  omega

variable {table table' : DynamicTable}

/-- **Setting the capacity cuts the content to it.** -/
theorem Sound.setCapacity (h : table.Sound) {capacity : Nat}
    (hset : table.setCapacity capacity = .ok table') :
    table'.Sound ∧ capacity ≤ table.maxCapacity ∧
      table'.live = evict size capacity table.live ∧
      table'.capacity = capacity ∧ table'.maxCapacity = table.maxCapacity ∧
      table'.insertCount = table.insertCount := by
  unfold DynamicTable.setCapacity at hset
  obtain ⟨hlarge, hset⟩ := of_guard hset nofun
  cases hset
  have hle := not_lt.mp hlarge
  obtain ⟨hsized, hroom, hlive, hcap, hmax, hcount⟩ :=
    @Indexed.evictToFit [] { table with capacity := capacity }
      ⟨h.head_le, h.size_eq, h.numbered, h.names, h.exacts⟩ 0 (Nat.zero_le _)
  refine ⟨⟨hsized, ?_, ?_, ?_, ?_⟩, hle, hlive, hcap, hmax, hcount⟩
  · omega
  · rw [hcap, hmax]
    exact hle
  · rw [hmax]
    exact h.max_le
  · rw [hcount]
    exact h.count_le

/-! ### Reading entries -/

/-- **An absolute index reads the entry that has it.** -/
theorem Sound.absolute {table : DynamicTable} (h : table.Sound) {index : Nat}
    {entry : DynamicEntry} :
    table.absolute index = some entry ↔ entry ∈ table.live ∧ entry.absoluteIndex = index := by
  have hfirst : table.entries[table.head]? = table.live[0]? := by
    unfold live
    rw [getElem?_drop, Nat.add_zero]
  have hat : ∀ i, table.entries[table.head + i]? = table.live[i]? := by simp [live]
  unfold DynamicTable.absolute
  rw [hfirst, ← length_live]
  cases hlive : table.live with
  | nil => simp
  | cons oldest rest =>
    have hnums := h.numbered
    rw [hlive] at hnums
    have holdest := hnums.index 0 oldest rfl
    rw [if_neg (by simp), getElem?_cons_zero]
    dsimp only
    constructor
    · intro hread
      split at hread
      · cases hread
      · rw [hat, hlive, filter_eq_some_iff] at hread
        exact ⟨mem_of_getElem? hread.1, beq_iff_eq.mp hread.2⟩
    rintro ⟨hmem, rfl⟩
    obtain ⟨hlt, hge, hget⟩ := hnums.getElem? hmem
    rw [if_neg (by omega), hat, hlive, filter_eq_some_iff, holdest]
    exact ⟨hget, beq_self_eq_true _⟩

lemma scanMatch_sound {name value : Bytes} {nameHash valueHash limit : Nat}
    {entries : List DynamicEntry} {nameMatch : Option Nat} {found : Match}
    (h : scanMatch name value nameHash valueHash limit entries nameMatch = some found) :
    (nameMatch = some found.absoluteIndex ∧ found.fullMatch = false) ∨
      ∃ entry ∈ entries, entry.absoluteIndex = found.absoluteIndex ∧
        entry.absoluteIndex < limit ∧ entry.name = name ∧
        (found.fullMatch = true → entry.value = value) := by
  induction entries generalizing nameMatch with
  | nil =>
    obtain ⟨index, hidx, rfl⟩ := map_eq_some_iff.mp h
    exact .inl ⟨hidx, rfl⟩
  | cons entry older ih =>
    have hlater : ∀ {nameMatch'}, scanMatch name value nameHash valueHash limit older nameMatch' =
        some found → (nameMatch' = some found.absoluteIndex ∧ found.fullMatch = false) ∨
        ∃ entry' ∈ entry :: older, entry'.absoluteIndex = found.absoluteIndex ∧
          entry'.absoluteIndex < limit ∧ entry'.name = name ∧
          (found.fullMatch = true → entry'.value = value) := by
      intro nameMatch' hscan
      rcases ih hscan with hkept | ⟨entry', hmem, hent⟩
      · exact .inl hkept
      · exact .inr ⟨entry', mem_cons_of_mem entry hmem, hent⟩
    unfold scanMatch at h
    split at h
    · exact hlater h
    rename_i hname
    obtain ⟨hlim, hname⟩ := not_or.mp hname
    obtain ⟨-, hname⟩ := not_or.mp hname
    have hthis := And.intro (not_le.mp hlim) (not_not.mp hname)
    split at h
    · rename_i hvalue
      cases h
      exact .inr ⟨entry, mem_cons_self, rfl, hthis.1, hthis.2, fun _ => hvalue.2⟩
    rcases hlater h with ⟨hkept, hfull⟩ | hfound
    · cases nameMatch with
      | some index => exact .inl ⟨hkept, hfull⟩
      | none =>
        refine .inr ⟨entry, mem_cons_self, some.inj hkept, hthis.1, hthis.2, ?_⟩
        intro htrue
        rw [hfull] at htrue
        cases htrue
    · exact .inr hfound

lemma Sound.length_le {table : DynamicTable} (h : table.Sound) :
    table.live.length ≤ table.maxEntries := by
  have hsize : ∀ l : List DynamicEntry, l.length * 32 ≤ totalSize size l := by
    intro l
    induction l with
    | nil => exact Nat.zero_le _
    | cons entry rest ih =>
      have hent : 32 ≤ entry.size := Nat.le_add_left 32 _
      rw [totalSize_cons, length_cons]
      omega
  have hlive := hsize table.live
  have hsum := h.size_eq
  have hfits := h.size_le
  have hcap := h.capacity_le
  unfold maxEntries dynamicEntryOverhead
  omega

/-! ### Insertions and lookups -/

variable [StringHash]

/-- The entry that an insertion makes. -/
def entryFor (index : Nat) (name value : Bytes) : DynamicEntry where
  absoluteIndex := index
  name := name
  value := value
  nameHash := dynamicStringHash name
  valueHash := dynamicStringHash value

lemma Sound.reserve {table : DynamicTable} (h : table.Sound) (name value : Bytes) :
    (table.reserve name value).Indexed [entryFor table.insertCount name value] := by
  have hnames := h.names.append (entryFor table.insertCount name value)
  have hexacts := h.exacts.append (entryFor table.insertCount name value)
  rw [append_nil] at hnames hexacts
  unfold DynamicTable.reserve
  rcases compactIfNeeded_cases table with hsame | hdrop
  · rw [hsame]
    exact ⟨h.head_le, h.size_eq, h.numbered, hnames, hexacts⟩
  · rw [hdrop]
    exact ⟨Nat.zero_le _, h.size_eq, h.numbered, hnames, hexacts⟩

lemma Sound.push {table : DynamicTable} (h : table.Sound) {name value : Bytes}
    (hfits : (entryFor table.insertCount name value).size ≤ table.capacity)
    (hcount : table.insertCount < maxU64) :
    (table.push name value (entryFor table.insertCount name value).size).Sound ∧
      (table.push name value (entryFor table.insertCount name value).size).live = evict size
            (table.capacity - (entryFor table.insertCount name value).size) table.live ++
          [entryFor table.insertCount name value] ∧
      (table.push name value (entryFor table.insertCount name value).size).capacity =
        table.capacity ∧
      (table.push name value (entryFor table.insertCount name value).size).maxCapacity =
        table.maxCapacity ∧
      (table.push name value (entryFor table.insertCount name value).size).insertCount =
        table.insertCount + 1 := by
  obtain ⟨-, hsame, -⟩ := h.toIndexed.compactIfNeeded
  have hfits' : (entryFor table.insertCount name value).size ≤
      (table.reserve name value).capacity := by
    exact hfits.trans (Nat.le_of_eq hsame.capacity.symm)
  obtain ⟨hsized, hroom, hlive, hcap, hmax, hcount'⟩ :=
    (h.reserve name value).evictToFit hfits'
  replace hroom := hroom.trans (Nat.le_of_eq hsame.capacity)
  replace hlive : ((table.reserve name value).evictToFit
      (entryFor table.insertCount name value).size).live = evict size
        (table.capacity - (entryFor table.insertCount name value).size) table.live := by
    rw [hlive, ← hsame.live, ← hsame.capacity]
    rfl
  replace hcap := hcap.trans hsame.capacity
  replace hmax := hmax.trans hsame.maxCapacity
  replace hcount' := hcount'.trans hsame.insertCount
  unfold DynamicTable.push
  generalize (table.reserve name value).evictToFit (entryFor table.insertCount name value).size =
    evicted at hsized hroom hlive hcap hmax hcount'
  have hcontent : (evicted.entries ++ [entryFor table.insertCount name value]).drop evicted.head =
      evicted.live ++ [entryFor table.insertCount name value] :=
    drop_append_of_le_length hsized.head_le
  obtain ⟨hhead, -, hnums, hnames, hexacts⟩ := id hsized
  rw [← hcontent, hcount', ← append_nil ((evicted.entries ++ _).drop _)] at hnames hexacts
  refine ⟨⟨⟨?_, ?_, ?_, hnames, hexacts⟩, ?_, ?_, ?_, hcount⟩, ?_, hcap, hmax, rfl⟩
  · show evicted.head ≤ (evicted.entries ++ [entryFor table.insertCount name value]).length
    rw [length_append]
    omega
  · refine (congrArg (· + _) hsized.size_eq).trans ?_
    refine Eq.trans ?_ (congrArg (totalSize size) hcontent).symm
    rw [totalSize_append, totalSize_cons, totalSize_nil, Nat.add_zero]
  · rw [hcount'] at hnums
    have hnext := @Numbered.concat _ _ hnums (entryFor table.insertCount name value) rfl
    rw [← hcontent] at hnext
    exact hnext
  · exact hroom.trans (Nat.le_of_eq hcap.symm)
  · show evicted.capacity ≤ evicted.maxCapacity
    rw [hcap, hmax]
    exact h.capacity_le
  · show evicted.maxCapacity ≤ maxU64
    rw [hmax]
    exact h.max_le
  · rw [← hlive]
    exact hcontent

/-- **An insertion makes room in front and adds its entry at the end.** -/
theorem Sound.insert (h : table.Sound) {name value : Bytes}
    {index : Nat} (hins : table.insert name value = (.ok index, table')) :
    table'.Sound ∧ index = table.insertCount ∧ table.insertCount < maxU64 ∧
      (entryFor index name value).size ≤ table.capacity ∧
      table'.live = evict size (table.capacity - (entryFor index name value).size) table.live ++
          [entryFor index name value] ∧
      table'.capacity = table.capacity ∧ table'.maxCapacity = table.maxCapacity ∧
      table'.insertCount = table.insertCount + 1 := by
  unfold DynamicTable.insert dynamicEntrySize at hins
  dsimp only at hins
  by_cases hsize : name.length + value.length + dynamicEntryOverhead ≤ maxU64
  · rw [if_pos hsize] at hins
    dsimp only at hins
    obtain ⟨hlarge, hins⟩ := of_guard hins nofun
    obtain ⟨hfull, hins⟩ := of_guard hins nofun
    cases hins
    obtain ⟨hsound, hrest⟩ := @Sound.push _ table h name value (not_lt.mp hlarge)
      (not_le.mp hfull)
    exact ⟨hsound, rfl, not_le.mp hfull, not_lt.mp hlarge, hrest⟩
  · simp [hsize] at hins

lemma Sound.insert_error (h : table.Sound) {name value : Bytes}
    {e : Error} (hins : table.insert name value = (.error e, table')) :
    table'.Sound ∧ (table'.live = table.live ∨ table'.live = []) ∧
      table'.capacity = table.capacity ∧ table'.maxCapacity = table.maxCapacity ∧
      table'.insertCount = table.insertCount := by
  have hclear : table.clearEntries.Sound :=
    ⟨⟨Nat.le_refl 0, rfl, Numbered.nil _, Newest.empty _ _, Newest.empty _ _⟩, Nat.zero_le _,
      h.capacity_le, h.max_le, h.count_le⟩
  unfold DynamicTable.insert at hins
  split at hins
  · cases hins
    exact ⟨h, .inl rfl, rfl, rfl, rfl⟩
  split at hins
  · cases hins
    exact ⟨hclear, .inr rfl, rfl, rfl, rfl⟩
  split at hins
  · cases hins
    exact ⟨h, .inl rfl, rfl, rfl, rfl⟩
  · cases hins

/-- **A match is an entry of the table with the name, below the limit, and with the value where
it says so.** -/
theorem Sound.findMatchBefore {table : DynamicTable} (h : table.Sound) {name value : Bytes}
    {limit : Nat} {found : Match} (hfind : table.findMatchBefore name value limit = some found) :
    found.absoluteIndex < limit ∧
      ∃ entry, table.absolute found.absoluteIndex = some entry ∧ entry.name = name ∧
        (found.fullMatch = true → entry.value = value) := by
  have hlinear : table.findMatchBeforeLinear name value (dynamicStringHash name)
      (dynamicStringHash value) limit = some found → found.absoluteIndex < limit ∧
      ∃ entry, table.absolute found.absoluteIndex = some entry ∧ entry.name = name ∧
        (found.fullMatch = true → entry.value = value) := by
    intro hscan
    rcases scanMatch_sound hscan with ⟨hnone, -⟩ | ⟨entry, hmem, hidx, hlim, hname, hvalue⟩
    · cases hnone
    · rw [← hidx]
      exact ⟨hlim, entry, h.absolute.mpr ⟨mem_reverse.mp hmem, rfl⟩, hname, hvalue⟩
  unfold DynamicTable.findMatchBefore at hfind
  split at hfind
  · cases hfind
  dsimp only at hfind
  split at hfind
  · split at hfind
    · rename_i hexact
      cases hfind
      obtain ⟨entry, hent, hkeys⟩ := (any_eq_true _ _).mp hexact.2
      simp only [Bool.and_eq_true, beq_iff_eq] at hkeys
      exact ⟨hexact.1, entry, hent, hkeys.1.2, fun _ => hkeys.2⟩
    · exact hlinear hfind
  split at hfind
  · split at hfind
    · rename_i hname
      cases hfind
      obtain ⟨entry, hent, hkeys⟩ := (any_eq_true _ _).mp hname.2
      simp only [Bool.and_eq_true, beq_iff_eq] at hkeys
      exact ⟨hname.1, entry, hent, hkeys.2, fun hfull => by cases hfull⟩
    · exact hlinear hfind
  · cases hfind

end DynamicTable

/-! ### Histories -/

variable [StringHash]

/-- What a history says about a table: the entries are insertions of it. -/
structure Recorded (maxCapacity : Nat) (history : List (Bytes × Bytes)) (table : DynamicTable) :
    Prop where
  sound : table.Sound
  maxCapacity : table.maxCapacity = maxCapacity
  insertCount : table.insertCount = history.length
  recorded : ∀ entry ∈ table.live, history[entry.absoluteIndex]? = some (entry.name, entry.value)
  hashed : ∀ entry ∈ table.live,
    entry.nameHash = dynamicStringHash entry.name ∧ entry.valueHash = dynamicStringHash entry.value

lemma Recorded.cut {maxCapacity : Nat} {history : List (Bytes × Bytes)}
    {table table' : DynamicTable} (h : Recorded maxCapacity history table) (hsound : table'.Sound)
    (hlive : ∀ entry ∈ table'.live, entry ∈ table.live)
    (hmax : table'.maxCapacity = table.maxCapacity)
    (hcount : table'.insertCount = table.insertCount) : Recorded maxCapacity history table' where
  sound := hsound
  maxCapacity := hmax.trans h.maxCapacity
  insertCount := hcount.trans h.insertCount
  recorded := fun entry hmem => h.recorded entry (hlive entry hmem)
  hashed := fun entry hmem => h.hashed entry (hlive entry hmem)

/-- A table of the given size after the insertions of a history. -/
inductive Replays (maxCapacity : Nat) : List (Bytes × Bytes) → DynamicTable → Prop where
  | init : Replays maxCapacity [] (init maxCapacity)
  | setCapacity {history : List (Bytes × Bytes)} {table table' : DynamicTable} {capacity : Nat}
      (h : Replays maxCapacity history table) (hset : table.setCapacity capacity = .ok table') :
      Replays maxCapacity history table'
  | insert {history : List (Bytes × Bytes)} {table table' : DynamicTable} {name value : Bytes}
      {index : Nat} (h : Replays maxCapacity history table)
      (hinsert : table.insert name value = (.ok index, table')) :
      Replays maxCapacity (history ++ [(name, value)]) table'
  | failed {history : List (Bytes × Bytes)} {table table' : DynamicTable} {name value : Bytes}
      {e : Error} (h : Replays maxCapacity history table)
      (hinsert : table.insert name value = (.error e, table')) :
      Replays maxCapacity history table'

/-- **A table holds what its history inserted.** -/
theorem Replays.recorded {maxCapacity : Nat} (hmax : maxCapacity ≤ maxU64)
    {history : List (Bytes × Bytes)} {table : DynamicTable}
    (h : Replays maxCapacity history table) : Recorded maxCapacity history table := by
  induction h with
  | init =>
    exact ⟨sound_init hmax, rfl, rfl, nofun, nofun⟩
  | setCapacity _ hset ih =>
    obtain ⟨hsound, -, hlive, -, hmax', hcount⟩ := ih.sound.setCapacity hset
    refine ih.cut hsound ?_ hmax' hcount
    intro entry hmem
    rw [hlive] at hmem
    exact (evict_suffix _ _ _).subset hmem
  | @insert history table table' name value index _ hins ih =>
    obtain ⟨hsound, hidx, -, -, hlive, -, hmax', hcount⟩ := ih.sound.insert hins
    have hcases : ∀ entry ∈ table'.live, entry ∈ table.live ∨
        entry = entryFor index name value := by
      intro entry hmem
      rw [hlive] at hmem
      exact (mem_append.mp hmem).imp ((evict_suffix _ _ _).subset ·) mem_singleton.mp
    refine ⟨hsound, hmax'.trans ih.maxCapacity, ?_, fun entry hmem => ?_, fun entry hmem => ?_⟩
    · rw [hcount, ih.insertCount, length_append]
      rfl
    · rcases hcases entry hmem with hold | hnew
      · have hpre := ih.recorded entry hold
        rw [List.getElem?_append_left (lt_of_getElem? hpre)]
        exact hpre
      rw [hnew, hidx]
      show (history ++ [(name, value)])[table.insertCount]? = some (name, value)
      simp [ih.insertCount]
    · rcases hcases entry hmem with hold | hnew
      · exact ih.hashed entry hold
      · rw [hnew]
        exact ⟨rfl, rfl⟩
  | failed _ hins ih =>
    obtain ⟨hsound, hlive, -, hmax', hcount⟩ := ih.sound.insert_error hins
    refine ih.cut hsound ?_ hmax' hcount
    intro entry hmem
    rcases hlive with hsame | hnil
    · rw [hsame] at hmem
      exact hmem
    · simp [hnil] at hmem

end Netz.Http.Qpack
