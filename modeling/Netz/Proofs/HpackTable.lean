/-
The HPACK tables.

What is behind the head of a dynamic table is its content: a queue that is cut from the front
to the limit.  The indexes hold the newest entry with each name and with each field, so what the
encoder finds is what a search of the content would find.
-/
import Netz.Http.Hpack
import Netz.Lib.Eviction
import Netz.Lib.Newest

namespace Netz.Http.Hpack

open Lib List Option

/-! ### The static table -/

lemma staticTable_length : staticTable.length = 61 := rfl

lemma fastStaticFields_sound :
    ∀ entry ∈ fastStaticFields, ∀ value ∈ entry.2,
      0 < value.2 ∧ staticTable[value.2 - 1]? = some (entry.1, value.1) := by
  decide +kernel

lemma fastStaticNames_sound :
    ∀ entry ∈ fastStaticNames,
      0 < entry.2 ∧ (staticTable[entry.2 - 1]?).map (·.1) = some entry.1 := by
  decide +kernel

lemma staticNameIndex_sound :
    ∀ entry ∈ staticNameIndex, ∀ index ∈ entry.2,
      0 < index ∧ (staticTable[index - 1]?).map (·.1) = some entry.1 := by
  decide +kernel

lemma findStaticIndex_sound {name value : Bytes} {index : Nat}
    (h : findStaticIndex name value = some index) :
    0 < index ∧ staticTable[index - 1]? = some (name, value) := by
  unfold findStaticIndex at h
  cases hfast : fastStaticPseudoIndex name value with
  | some fast =>
    rw [hfast] at h
    cases h
    obtain ⟨values, hvalues, hvalue⟩ := bind_eq_some_iff.mp hfast
    exact fastStaticFields_sound _ (mem_of_lookup hvalues) _ (mem_of_lookup hvalue)
  | none =>
    rw [hfast] at h
    obtain ⟨indexes, hindexes, hfind⟩ := bind_eq_some_iff.mp h
    obtain ⟨hpos, hname⟩ := staticNameIndex_sound _ (mem_of_lookup hindexes) index
      (mem_of_find?_eq_some hfind)
    refine ⟨hpos, ?_⟩
    have hvalue := find?_some hfind
    unfold staticEntryAt at hvalue
    rw [if_neg hpos.ne'] at hvalue
    obtain ⟨entry, hent, hsame⟩ := map_eq_some_iff.mp hname
    rw [hent, any_some, beq_iff_eq] at hvalue
    rw [hent, ← hvalue]
    exact congrArg (fun name => some (name, entry.2)) hsame

lemma findStaticNameIndex_sound {name : Bytes} {index : Nat}
    (h : findStaticNameIndex name = some index) :
    0 < index ∧ (staticTable[index - 1]?).map (·.1) = some name := by
  unfold findStaticNameIndex at h
  cases hfast : lookup fastStaticNames name with
  | some fast =>
    rw [hfast] at h
    cases h
    exact fastStaticNames_sound _ (mem_of_lookup hfast)
  | none =>
    rw [hfast] at h
    obtain ⟨indexes, hindexes, hhead⟩ := bind_eq_some_iff.mp h
    exact staticNameIndex_sound _ (mem_of_lookup hindexes) index (mem_of_head? hhead)

/-! ### The content of a dynamic table -/

namespace DynamicTable

/-- The entries that have not left, oldest first. -/
def live (table : DynamicTable) : List HeaderField := table.entries.drop table.head

/-- What holds of a table at every moment. -/
structure Indexed (table : DynamicTable) : Prop where
  head_le : table.head ≤ table.entries.length
  used_eq : table.used = totalSize entrySize table.live
  names : Newest (fun field => field.name) table.entries.length table.live table.latestName
  fields : Newest (fun field => (field.name, field.value)) table.entries.length table.live
    table.latestExact

/-- What holds of a table between the calls. -/
structure Sound (table : DynamicTable) : Prop extends Indexed table where
  used_le : table.used ≤ table.sizeLimit

lemma sound_empty : Sound {} where
  head_le := Nat.le_refl 0
  used_eq := rfl
  names := Newest.empty _ 0
  fields := Newest.empty _ 0
  used_le := Nat.zero_le _

lemma entryCount_eq (table : DynamicTable) : table.entryCount = table.live.length := by
  unfold entryCount live
  rw [length_drop]

variable {table : DynamicTable} {index : Nat} {name : Bytes}

lemma Indexed.compactIfNeeded (h : table.Indexed) :
    table.compactIfNeeded.Indexed ∧ table.compactIfNeeded.live = table.live ∧
      table.compactIfNeeded.used = table.used ∧
      table.compactIfNeeded.sizeLimit = table.sizeLimit := by
  unfold DynamicTable.compactIfNeeded
  by_cases hhead : table.head = 0
  · rw [if_pos hhead]
    exact ⟨h, rfl, rfl, rfl⟩
  rw [if_neg hhead]
  by_cases hfew : table.head < table.entries.length / 2 ∧ table.entryCount ≠ 0
  · rw [if_pos hfew]
    exact ⟨h, rfl, rfl, rfl⟩
  rw [if_neg hfew]
  exact ⟨⟨Nat.zero_le _, h.used_eq, Newest.fold _ table.live, Newest.fold _ table.live⟩, rfl, rfl,
    rfl⟩

lemma Indexed.evictLoop {rounds : Nat} {table : DynamicTable} (h : table.Indexed)
    (hfuel : table.live.length ≤ rounds) :
    (table.evictLoop rounds).Sound ∧
      (table.evictLoop rounds).live = evict entrySize table.sizeLimit table.live ∧
      (table.evictLoop rounds).sizeLimit = table.sizeLimit := by
  induction rounds generalizing table with
  | zero =>
    have hnil : table.live = [] := List.length_eq_zero_iff.mp (Nat.le_zero.mp hfuel)
    have hused : table.used = 0 := by
      rw [h.used_eq, hnil]
      rfl
    refine ⟨⟨h, ?_⟩, ?_, rfl⟩
    · show table.used ≤ table.sizeLimit
      omega
    show table.live = _
    rw [hnil]
    rfl
  | succ rounds ih =>
    unfold DynamicTable.evictLoop
    by_cases hover : table.sizeLimit < table.used
    · rw [if_pos hover]
      have hhead : table.head < table.entries.length := by
        by_contra hend
        have hnil : table.live = [] := List.drop_eq_nil_iff.mpr (not_lt.mp hend)
        have hused := h.used_eq
        rw [hnil] at hused
        simp only [totalSize_nil] at hused
        omega
      obtain ⟨removed, hremoved⟩ : ∃ removed, table.entries[table.head]? = some removed :=
        ⟨_, List.getElem?_eq_getElem hhead⟩
      have hlive : table.live = removed :: table.entries.drop (table.head + 1) := by
        rw [(List.getElem_of_getElem? hremoved).2.symm]
        exact List.drop_eq_getElem_cons hhead
      have hused := h.used_eq
      rw [hlive, totalSize_cons] at hused
      rw [hremoved]
      have hlast : table.entries.length - 1 - (table.entries.drop (table.head + 1)).length =
          table.head := by
        rw [List.length_drop]
        omega
      have hless : (table.entries.drop (table.head + 1)).length < table.entries.length := by
        rw [List.length_drop]
        omega
      have hnames := h.names
      have hfields := h.fields
      rw [hlive] at hnames hfields
      have hnames := hnames.tail hless
      have hfields := hfields.tail hless
      rw [hlast] at hnames hfields
      obtain ⟨hsound, hcut, hlim⟩ :=
        @ih { table.removeLatestIndexes removed table.head with
              used := table.used - entrySize removed, head := table.head + 1 }
          { head_le := hhead
            used_eq := by
              show table.used - entrySize removed = totalSize entrySize
                (table.entries.drop (table.head + 1))
              omega
            names := hnames
            fields := hfields }
          (by
            rw [hlive] at hfuel
            exact Nat.le_of_succ_le_succ hfuel)
      refine ⟨hsound, ?_, hlim⟩
      rw [hcut, hlive, evict_cons_of_lt entrySize (by rw [totalSize_cons]; omega)]
      rfl
    rw [if_neg hover]
    have hfits := not_lt.mp hover
    refine ⟨⟨h, hfits⟩, ?_, rfl⟩
    rw [evict_of_le entrySize (by rw [← h.used_eq]; exact hfits)]

/-- **Eviction cuts the table to its limit.** -/
theorem Indexed.evictToLimit {table : DynamicTable} (h : table.Indexed) :
    table.evictToLimit.Sound ∧
      table.evictToLimit.live = evict entrySize table.sizeLimit table.live ∧
      table.evictToLimit.sizeLimit = table.sizeLimit := by
  obtain ⟨hsound, hlive, hlimit⟩ :=
    @Indexed.evictLoop table.entryCount table h (by rw [entryCount_eq])
  obtain ⟨hidx, hlive', hused', hlimit'⟩ := hsound.toIndexed.compactIfNeeded
  refine ⟨⟨hidx, ?_⟩, hlive'.trans hlive, hlimit'.trans hlimit⟩
  show (table.evictLoop table.entryCount).compactIfNeeded.used ≤
    (table.evictLoop table.entryCount).compactIfNeeded.sizeLimit
  rw [hused', hlimit']
  exact hsound.used_le

lemma Sound.setLimit (h : table.Sound) (limit : Nat) :
    (table.setLimit limit).Sound ∧
      (table.setLimit limit).live = evict entrySize limit table.live ∧
      (table.setLimit limit).sizeLimit = limit :=
  @Indexed.evictToLimit { table with sizeLimit := limit }
    ⟨h.head_le, h.used_eq, h.names, h.fields⟩

lemma Indexed.append (h : table.Indexed) (field : HeaderField) :
    (table.append field).Indexed ∧ (table.append field).live = table.live ++ [field] := by
  have hlive : (table.append field).live = table.live ++ [field] :=
    drop_append_of_le_length h.head_le
  have hhead := h.head_le
  refine ⟨⟨?_, ?_, ?_, ?_⟩, hlive⟩
  · show table.head ≤ (table.entries ++ [field]).length
    rw [length_append]
    omega
  · rw [hlive, totalSize_append, totalSize_cons, totalSize_nil, ← h.used_eq]
    rfl
  · rw [hlive]
    show Newest _ (table.entries ++ [field]).length _ _
    rw [length_append]
    exact h.names.append field
  · rw [hlive]
    show Newest _ (table.entries ++ [field]).length _ _
    rw [length_append]
    exact h.fields.append field

/-- **A field is added at the end, and the table is cut to its limit.** -/
theorem Sound.add (h : table.Sound) (name value : Bytes) :
    (table.add name value).Sound ∧
      (table.add name value).live =
        evict entrySize table.sizeLimit (table.live ++ [{ name := name, value := value }]) ∧
      (table.add name value).sizeLimit = table.sizeLimit := by
  unfold DynamicTable.add
  by_cases hlarge : table.sizeLimit < entrySize { name := name, value := value }
  · rw [if_pos hlarge, evict_concat_of_lt entrySize hlarge]
    exact ⟨⟨⟨Nat.le_refl 0, rfl, Newest.empty _ 0, Newest.empty _ 0⟩, Nat.zero_le _⟩, rfl, rfl⟩
  rw [if_neg hlarge]
  obtain ⟨hindexed, hlive, -, hlimit⟩ := h.toIndexed.compactIfNeeded
  obtain ⟨hindexed', hlive'⟩ := hindexed.append { name := name, value := value }
  obtain ⟨hsound, hcut, hlimit'⟩ := hindexed'.evictToLimit
  refine ⟨hsound, ?_, hlimit'.trans hlimit⟩
  rw [hcut, hlive', hlive]
  show evict entrySize table.compactIfNeeded.sizeLimit _ = _
  rw [hlimit]

lemma Sound.setLimit_of_le {table : DynamicTable} (h : table.Sound) {limit : Nat}
    (hlim : totalSize entrySize table.live ≤ limit) :
    (table.setLimit limit).Sound ∧ (table.setLimit limit).live = table.live ∧
      (table.setLimit limit).sizeLimit = limit := by
  obtain ⟨hsound, hlive, hnew⟩ := h.setLimit limit
  rw [evict_of_le entrySize hlim] at hlive
  exact ⟨hsound, hlive, hnew⟩

/-! ### Indexes on the wire -/

lemma Indexed.get_eq (_ : table.Indexed) (index : Nat) :
    table.get index = table.live.reverse[index]? := by
  unfold get entryCount
  by_cases hout : table.entries.length - table.head ≤ index
  · simp [hout, live]
  have hlen : table.live.length = table.entries.length - table.head := by
    unfold live
    rw [length_drop]
  rw [if_neg hout, getElem?_reverse (by omega), hlen]
  unfold live
  rw [getElem?_drop]
  congr 1
  omega

/-- A pointer is sent as the number of newer entries behind the static table. -/
theorem Indexed.wireIndex {κ : Type} [DecidableEq κ] {key : HeaderField → κ} {t : Table κ Nat}
    (_ : table.Indexed) (hnew : Newest key table.entries.length table.live t) (k : κ) :
    table.wireIndex (t.get k) = (table.live.reverse.findIdx? fun entry => decide (key entry = k)).map
      (staticTable.length + 1 + ·) := by
  have hlen := table.entryCount_eq
  unfold entryCount at hlen
  unfold DynamicTable.wireIndex entryCount
  by_cases hempty : table.entries.length - table.head = 0
  · rw [if_pos hempty, length_eq_zero_iff.mp (hlen.symm.trans hempty)]
    rfl
  rw [if_neg hempty, hnew k]
  cases hfound : table.live.reverse.findIdx? fun entry => decide (key entry = k) with
  | none => rfl
  | some i =>
    have hi := (findIdx?_eq_some_iff_getElem.mp hfound).1
    rw [length_reverse] at hi
    simp only [map_some]
    rw [if_pos (by omega), some.injEq]
    omega

lemma Indexed.findIndex_eq (h : table.Indexed) (name value : Bytes) :
    table.findIndex name value = (table.live.reverse.findIdx? fun entry =>
      decide ((entry.name, entry.value) = (name, value))).map (staticTable.length + 1 + ·) :=
  h.wireIndex h.fields (name, value)

lemma Indexed.findNameIndex_eq (h : table.Indexed) (name : Bytes) :
    table.findNameIndex name = (table.live.reverse.findIdx? fun entry =>
      decide (entry.name = name)).map (staticTable.length + 1 + ·) :=
  h.wireIndex h.names name

lemma found_entry {p : HeaderField → Bool} (hidx :
    (table.live.reverse.findIdx? p).map (staticTable.length + 1 + ·) = some index) :
    staticTable.length < index ∧ index ≤ staticTable.length + table.live.length ∧
      ∃ entry, table.live.reverse[index - staticTable.length - 1]? = some entry ∧ p entry = true := by
  obtain ⟨i, hi, rfl⟩ := map_eq_some_iff.mp hidx
  obtain ⟨hlt, hent, -⟩ := findIdx?_eq_some_iff_getElem.mp hi
  have hsame : staticTable.length + 1 + i - staticTable.length - 1 = i := by omega
  rw [hsame]
  exact ⟨by omega, by rw [length_reverse] at hlt; omega, _, getElem?_eq_getElem hlt, hent⟩

lemma Indexed.findIndex (h : table.Indexed) {value : Bytes}
    (hidx : table.findIndex name value = some index) :
    staticTable.length < index ∧ index ≤ staticTable.length + table.live.length ∧
      ∃ entry, table.live.reverse[index - staticTable.length - 1]? = some entry ∧
        entry.name = name ∧ entry.value = value := by
  rw [h.findIndex_eq] at hidx
  simpa using found_entry hidx

lemma Indexed.findNameIndex (h : table.Indexed) (hidx : table.findNameIndex name = some index) :
    staticTable.length < index ∧ index ≤ staticTable.length + table.live.length ∧
      ∃ entry, table.live.reverse[index - staticTable.length - 1]? = some entry ∧
        entry.name = name := by
  rw [h.findNameIndex_eq] at hidx
  simpa using found_entry hidx

lemma Sound.length_le (h : table.Sound) : table.live.length * 32 ≤ table.sizeLimit := by
  have hsize : ∀ l : List HeaderField, l.length * 32 ≤ totalSize entrySize l := by
    intro l
    induction l with
    | nil => exact Nat.zero_le _
    | cons field rest ih =>
      have hfield : 32 ≤ entrySize field := Nat.le_add_left 32 _
      rw [totalSize_cons, length_cons]
      omega
  have hused := h.used_eq
  have hlim := h.used_le
  have hlive := hsize table.live
  omega

/-! ### Runs -/

/-- A field as a table keeps it. -/
def Plain (field : HeaderField) : Prop :=
  field = { name := field.name, value := field.value }

lemma Sound.clone (h : table.Sound) (hplain : ∀ entry ∈ table.live, Plain entry) :
    table.clone.Sound ∧ table.clone.live = table.live ∧
      table.clone.sizeLimit = table.sizeLimit := by
  have hfold : ∀ (rest : List HeaderField) (copy : DynamicTable), copy.Sound →
      copy.sizeLimit = table.sizeLimit → copy.live ++ rest = table.live →
      (rest.foldl (fun copy entry => copy.add entry.name entry.value) copy).Sound ∧
        (rest.foldl (fun copy entry => copy.add entry.name entry.value) copy).live = table.live ∧
        (rest.foldl (fun copy entry => copy.add entry.name entry.value) copy).sizeLimit =
          table.sizeLimit := by
    intro rest
    induction rest with
    | nil =>
      intro copy hcopy hlimit hlive
      exact ⟨hcopy, by simpa using hlive, hlimit⟩
    | cons entry rest ih =>
      intro copy hcopy hlimit hlive
      obtain ⟨hadded, hcut, hlimit'⟩ := hcopy.add entry.name entry.value
      refine ih _ hadded (hlimit'.trans hlimit) ?_
      have hent := hplain entry (by rw [← hlive]; simp)
      have htotal := h.used_le
      rw [h.used_eq, ← hlive, ← singleton_append, ← append_assoc,
        totalSize_append] at htotal
      rw [hcut, ← hent, hlimit, evict_of_le entrySize (Nat.le_of_add_right_le htotal), ← hlive,
        append_assoc, singleton_append]
  exact hfold table.live { sizeLimit := table.sizeLimit }
    ⟨⟨Nat.le_refl 0, rfl, Newest.empty _ 0, Newest.empty _ 0⟩, Nat.zero_le _⟩ rfl rfl

inductive TableOp where
  | add (name value : Bytes)
  | setLimit (limit : Nat)
  | clear
  | clone

def exec (table : DynamicTable) : TableOp → DynamicTable
  | .add name value => table.add name value
  | .setLimit limit => table.setLimit limit
  | .clear => table.clear
  | .clone => table.clone

lemma Sound.exec (h : table.Sound) (hplain : ∀ entry ∈ table.live, Plain entry) (op : TableOp) :
    (table.exec op).Sound ∧ ∀ entry ∈ (table.exec op).live, Plain entry := by
  cases op with
  | add name value =>
    obtain ⟨hsound, hlive, -⟩ := h.add name value
    refine ⟨hsound, fun entry hmem => ?_⟩
    have hin := (evict_suffix entrySize _ _).subset (hlive ▸ hmem)
    rcases mem_append.mp hin with hold | hnew
    · exact hplain entry hold
    · rw [mem_singleton.mp hnew]
      rfl
  | setLimit limit =>
    obtain ⟨hsound, hlive, -⟩ := h.setLimit limit
    exact ⟨hsound, fun entry hmem =>
      hplain entry ((evict_suffix entrySize _ _).subset (hlive ▸ hmem))⟩
  | clear =>
    exact ⟨⟨⟨Nat.le_refl 0, rfl, Newest.empty _ 0, Newest.empty _ 0⟩, Nat.zero_le _⟩, nofun⟩
  | clone =>
    obtain ⟨hsound, hlive, -⟩ := h.clone hplain
    exact ⟨hsound, fun entry hmem => hplain entry (hlive ▸ hmem)⟩

lemma Sound.run (h : table.Sound) (hplain : ∀ entry ∈ table.live, Plain entry)
    (ops : List TableOp) :
    (ops.foldl DynamicTable.exec table).Sound ∧
      ∀ entry ∈ (ops.foldl DynamicTable.exec table).live, Plain entry := by
  induction ops generalizing table with
  | nil => exact ⟨h, hplain⟩
  | cons op rest ih =>
    obtain ⟨hnext, hplain'⟩ := h.exec hplain op
    exact ih hnext hplain'

/-- What a table answers, read off its content. -/
structure LooksUp (table : DynamicTable) : Prop where
  used_eq : table.used =
    (table.live.map fun entry => entry.name.length + entry.value.length + 32).sum
  used_le : table.used ≤ table.sizeLimit
  get : ∀ index, table.get index = table.live.reverse[index]?
  findIndex : ∀ name value, table.findIndex name value = (table.live.reverse.findIdx? fun entry =>
      decide ((entry.name, entry.value) = (name, value))).map (62 + ·)
  findNameIndex : ∀ name, table.findNameIndex name =
    (table.live.reverse.findIdx? fun entry => decide (entry.name = name)).map (62 + ·)

lemma Sound.looksUp (h : table.Sound) : LooksUp table where
  used_eq := h.used_eq
  used_le := h.used_le
  get := h.get_eq
  findIndex := h.findIndex_eq
  findNameIndex := h.findNameIndex_eq

end DynamicTable

end Netz.Http.Hpack
