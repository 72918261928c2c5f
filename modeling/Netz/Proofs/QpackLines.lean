/-
What field lines refer to.

A line reads nothing of the dynamic table but the entry that it refers to.  So a section is read
in the same way by two tables that agree on those entries, and a Required Insert Count that
covers them is all that a reader has to wait for.
-/
import Mathlib.Data.List.Forall2
import Netz.Proofs.QpackBlock

namespace Netz.Http.Qpack

open Lib Reader List DynamicTable

/-! ### References -/

/-- The absolute index that a line looks up, read as far as the lookup. -/
def lineReference (base : Nat) : Cursor Nat := do
  let first ← Cursor.readByte
  if first &&& 0x80 ≠ 0 then
    let index ← decodePrefixedInteger 6 first
    if first &&& 0x40 ≠ 0 ∨ base ≤ index then throw .qpackDecompressionFailed
    else return base - index - 1
  else if first &&& 0xf0 = 0x10 then
    let index ← decodePrefixedInteger 4 first
    if maxU64 < base + index then throw .qpackDecompressionFailed else return base + index
  else if first &&& 0xc0 = 0x40 then
    let index ← decodePrefixedInteger 4 first
    let _ ← decodePrefixedString
    if first &&& 0x10 ≠ 0 ∨ base ≤ index then throw .qpackDecompressionFailed
    else return base - index - 1
  else if first &&& 0xf0 = 0x00 then
    let index ← decodePrefixedInteger 3 first
    if maxU64 < base + index then throw .qpackDecompressionFailed else return base + index
  else throw .qpackDecompressionFailed

/-- The index that a line looks up. -/
def referenceOf (base : Nat) (input : Bytes) : Option Nat :=
  match lineReference base input with
  | .ok (index, _) => some index
  | .error _ => none

/-- The index of the entry that a line finds. -/
def foundReference (table : DynamicTable) (base : Nat) (input : Bytes) : Option Nat :=
  (referenceOf base input).filter fun index => (table.absolute index).isSome

/-- The indexes of the entries that the lines of a section find, as far as they are read. -/
def foundReferences (table : DynamicTable) (base : Nat) : Nat → Bytes → List Nat
  | 0, _ => []
  | rounds + 1, input =>
    if input = [] then []
    else
      (foundReference table base input).toList ++
        match decodeFieldLine table base input with
        | .error _ => []
        | .ok (_, rest) => foundReferences table base rounds rest

/-! ### Two tables -/

section Agreement

variable {table table' : DynamicTable} {base : Nat} {input : Bytes}

lemma bind_congr_ok {α β : Type} {r : Cursor α} {f g : α → Cursor β}
    (h : ∀ a rest, r input = .ok (a, rest) → f a rest = g a rest) :
    (r >>= f) input = (r >>= g) input := by
  rw [bind_run, bind_run]
  cases hr : r input with
  | error e => rfl
  | ok pair => exact h pair.1 pair.2 hr

lemma relative_congr {index : Nat}
    (h : index < base → table.absolute (base - index - 1) = table'.absolute (base - index - 1)) :
    table.fieldRelativeToBase base index = table'.fieldRelativeToBase base index := by
  unfold fieldRelativeToBase
  by_cases hlt : base ≤ index
  · rw [if_pos hlt, if_pos hlt]
  · rw [if_neg hlt, if_neg hlt, h (not_le.mp hlt)]

lemma postBase_congr {index : Nat} (h : base + index ≤ maxU64 →
    table.absolute (base + index) = table'.absolute (base + index)) :
    table.fieldPostBase base index = table'.fieldPostBase base index := by
  unfold fieldPostBase
  by_cases hlarge : maxU64 < base + index
  · rw [if_pos hlarge, if_pos hlarge]
  · rw [if_neg hlarge, if_neg hlarge, h (not_lt.mp hlarge)]

/-- **A line is read in the same way by tables that agree on the entry it looks up.** -/
theorem decodeFieldLine_congr (h : ∀ index, referenceOf base input = some index →
      table.absolute index = table'.absolute index) :
    decodeFieldLine table base input = decodeFieldLine table' base input := by
  have hlook : ∀ index rest, lineReference base input = .ok (index, rest) →
      table.absolute index = table'.absolute index := by
    intro index rest hread
    exact h index (by unfold referenceOf; rw [hread])
  refine bind_congr_ok ?_
  intro first rest hfirst
  unfold lineReference at hlook
  rw [bind_run, hfirst] at hlook
  dsimp only at hlook
  by_cases hidx : first &&& 0x80 ≠ 0
  · rw [if_pos hidx, if_pos hidx]
    rw [if_pos hidx] at hlook
    refine bind_congr_ok ?_
    intro index rest' hindex
    by_cases hstatic : first &&& 0x40 ≠ 0
    · rw [if_pos hstatic, if_pos hstatic]
    rw [if_neg hstatic, if_neg hstatic, relative_congr]
    intro hlt
    refine hlook _ rest' (bind_ok_iff.mpr ⟨index, rest', hindex, ?_⟩)
    rw [if_neg (by simp [hstatic, hlt])]
    rfl
  rw [if_neg hidx, if_neg hidx]
  rw [if_neg hidx] at hlook
  by_cases hpost : first &&& 0xf0 = 0x10
  · rw [if_pos hpost, if_pos hpost]
    rw [if_pos hpost] at hlook
    refine bind_congr_ok ?_
    intro index rest' hindex
    rw [postBase_congr]
    intro hle
    refine hlook _ rest' (bind_ok_iff.mpr ⟨index, rest', hindex, ?_⟩)
    rw [if_neg (not_lt.mpr hle)]
    rfl
  rw [if_neg hpost, if_neg hpost]
  rw [if_neg hpost] at hlook
  by_cases hnamed : first &&& 0xc0 = 0x40
  · rw [if_pos hnamed, if_pos hnamed]
    rw [if_pos hnamed] at hlook
    refine bind_congr_ok ?_
    intro index rest' hindex
    refine bind_congr_ok ?_
    intro value rest'' hvalue
    by_cases hstatic : first &&& 0x10 ≠ 0
    · rw [if_pos hstatic, if_pos hstatic]
    rw [if_neg hstatic, if_neg hstatic, relative_congr]
    intro hlt
    refine hlook _ rest'' (bind_ok_iff.mpr ⟨index, rest', hindex,
      bind_ok_iff.mpr ⟨value, rest'', hvalue, ?_⟩⟩)
    rw [if_neg (by simp [hstatic, hlt])]
    rfl
  rw [if_neg hnamed, if_neg hnamed]
  rw [if_neg hnamed] at hlook
  by_cases hpostName : first &&& 0xf0 = 0x00
  · rw [if_pos hpostName, if_pos hpostName]
    rw [if_pos hpostName] at hlook
    refine bind_congr_ok ?_
    intro index rest' hindex
    rw [postBase_congr]
    intro hle
    refine hlook _ rest' (bind_ok_iff.mpr ⟨index, rest', hindex, ?_⟩)
    rw [if_neg (not_lt.mpr hle)]
    rfl
  · rw [if_neg hpostName, if_neg hpostName]

/-- A section is read in the same way by tables that agree on what it finds. -/
theorem decodeFieldLines_congr {rounds bound : Nat}
    (hagree : ∀ index < bound, table.absolute index = table'.absolute index)
    (hmore : ∀ index, table'.absolute index = none → table.absolute index = none)
    (hfound : ∀ index ∈ foundReferences table' base rounds input, index < bound) :
    decodeFieldLines table base rounds input = decodeFieldLines table' base rounds input ∧
      foundReferences table base rounds input = foundReferences table' base rounds input := by
  induction rounds generalizing input with
  | zero => exact ⟨rfl, rfl⟩
  | succ rounds ih =>
    unfold decodeFieldLines
    unfold foundReferences at hfound ⊢
    by_cases hend : input = []
    · simp [hend]
    rw [if_neg hend] at hfound
    have hheld : ∀ index, referenceOf base input = some index →
        table.absolute index = table'.absolute index := by
      intro index hidx
      cases hheld : table'.absolute index with
      | none => exact hmore index hheld
      | some entry =>
        rw [← hheld]
        refine hagree index (hfound index (mem_append_left _ ?_))
        rw [foundReference, hidx]
        simp [hheld]
    have href : foundReference table base input = foundReference table' base input := by
      unfold foundReference
      cases hidx : referenceOf base input with
      | none => rfl
      | some index => simp [Option.filter, hheld index hidx]
    rw [if_neg hend, if_neg hend, if_neg hend, if_neg hend, href, decodeFieldLine_congr hheld]
    cases hline : decodeFieldLine table' base input with
    | error e => exact ⟨rfl, rfl⟩
    | ok read =>
      dsimp only
      obtain ⟨hfields, hrefs⟩ := @ih read.2 (by
        intro index hidx
        refine hfound index (mem_append_right _ ?_)
        rw [hline]
        exact hidx)
      rw [hfields, hrefs]
      exact ⟨rfl, rfl⟩

end Agreement

/-! ### Insertions that evict nothing -/

section Growth

variable [StringHash]

/-- A table after insertions that all entries have stayed through. -/
inductive Grown (table : DynamicTable) : DynamicTable → Prop where
  | refl : Grown table table
  | insert {grown grown' : DynamicTable} {name value : Bytes} {index : Nat}
      (h : Grown table grown) (hinsert : grown.insert name value = (.ok index, grown'))
      (hkeep : ∀ entry ∈ grown.live, entry ∈ grown'.live) : Grown table grown'

lemma Grown.keeps {table grown : DynamicTable} (hsound : table.Sound) (h : Grown table grown) :
    grown.Sound ∧ table.insertCount ≤ grown.insertCount ∧
      (∀ entry ∈ table.live, entry ∈ grown.live) ∧
      ∀ entry ∈ grown.live, entry ∈ table.live ∨ table.insertCount ≤ entry.absoluteIndex := by
  induction h with
  | refl => exact ⟨hsound, le_rfl, fun _ => id, fun _ => .inl⟩
  | @insert grown grown' name value index _ hins hkeep ih =>
    obtain ⟨hgrown, hcount, hold, hnew⟩ := ih
    obtain ⟨hgrown', hidx, -, -, hlive, -, -, hcount'⟩ := hgrown.insert hins
    refine ⟨hgrown', by omega, fun entry hmem => hkeep entry (hold entry hmem), ?_⟩
    intro entry hmem
    rw [hlive, mem_append, mem_singleton] at hmem
    rcases hmem with hmem | rfl
    · exact hnew entry ((evict_suffix _ _ _).subset hmem)
    · exact .inr (by rw [← hidx] at hcount; exact hcount)

lemma Grown.absolute {table grown : DynamicTable} (hsound : table.Sound) (h : Grown table grown) :
    (∀ index < table.insertCount, table.absolute index = grown.absolute index) ∧
      ∀ index, grown.absolute index = none → table.absolute index = none := by
  obtain ⟨hgrown, -, hold, hnew⟩ := h.keeps hsound
  constructor
  · intro index hlt
    ext entry
    rw [hsound.absolute, hgrown.absolute]
    refine and_congr_left ?_
    rintro rfl
    refine ⟨hold entry, fun hmem => (hnew entry hmem).resolve_right (not_le.mpr hlt)⟩
  intro index hnone
  rw [Option.eq_none_iff_forall_not_mem] at hnone ⊢
  intro entry hent
  obtain ⟨hmem, hidx⟩ := hsound.absolute.mp hent
  exact hnone entry (hgrown.absolute.mpr ⟨hold entry hmem, hidx⟩)

/-- The lines of a block find nothing at or behind its Required Insert Count. -/
def CountCovers (table grown : DynamicTable) (block : Bytes) : Prop :=
  ∀ counts lines, decodeFieldSectionPrefix table block = .ok (counts, lines) →
    ∀ index ∈ foundReferences grown counts.base (lines.length + 1) lines,
      index < counts.requiredInsertCount

/-- **What a block decodes to does not depend on insertions to come** exactly if its Required
Insert Count covers what its lines find then. -/
theorem decodeDynamicBlock_steady_iff {maxCapacity : Nat} (hmax : maxCapacity ≤ maxU64)
    {history : List (Bytes × Bytes)} {table grown : DynamicTable}
    (htable : Replays maxCapacity history table) (hgrown : Grown table grown) {block : Bytes}
    (hcounts : decodeFieldSectionPrefix table block = decodeFieldSectionPrefix grown block)
    (hready : decodeDynamicBlock table block ≠ .error .qpackBlocked) :
    (decodeDynamicBlock table block = decodeDynamicBlock grown block ∧
        CountCovers table table block ∧ CountCovers table grown block) ↔
      CountCovers table grown block := by
  have hsound := (htable.recorded hmax).sound
  obtain ⟨hagree, hmore⟩ := hgrown.absolute hsound
  have hcount := (hgrown.keeps hsound).2.1
  refine ⟨fun h => h.2.2, ?_⟩
  intro hcovers
  have hlines : ∀ counts lines, decodeFieldSectionPrefix table block = .ok (counts, lines) →
      counts.requiredInsertCount ≤ table.insertCount ∧
        decodeFieldLines table counts.base (lines.length + 1) lines =
          decodeFieldLines grown counts.base (lines.length + 1) lines ∧
        foundReferences table counts.base (lines.length + 1) lines =
          foundReferences grown counts.base (lines.length + 1) lines := by
    intro counts lines hread
    have hle : counts.requiredInsertCount ≤ table.insertCount := by
      unfold decodeDynamicBlock at hready
      rw [hread] at hready
      by_contra hlt
      exact hready (if_pos (not_le.mp hlt))
    refine ⟨hle, decodeFieldLines_congr hagree hmore ?_⟩
    intro index hindex
    exact Nat.lt_of_lt_of_le (hcovers counts lines hread index hindex) hle
  refine ⟨?_, ?_, hcovers⟩
  · unfold decodeDynamicBlock
    rw [← hcounts]
    cases hread : decodeFieldSectionPrefix table block with
    | error e => rfl
    | ok read =>
      obtain ⟨hle, hfields, -⟩ := hlines read.1 read.2 hread
      dsimp only
      rw [if_neg (not_lt.mpr hle), if_neg (not_lt.mpr (hle.trans hcount)), hfields]
  intro counts lines hread
  rw [(hlines counts lines hread).2.2]
  exact hcovers counts lines hread

end Growth

/-- A table of one entry that none has been inserted into. -/
def emptyTable : DynamicTable := { maxCapacity := 32, capacity := 32 }

lemma grown_emptyTable :
    @Replays lengthHash 32 [] emptyTable ∧ @Grown lengthHash emptyTable (lastOf 1) := by
  let _ := lengthHash
  have hset : (init 32).setCapacity 32 = .ok emptyTable := by decide
  exact ⟨.setCapacity .init hset, .insert .refl (show @insert lengthHash _ [] [] =
    (.ok 0, lastOf 1) by decide) nofun⟩

/-- A table with room for two entries, after `count` insertions of the empty field. -/
def pairOf : Nat → DynamicTable
  | 0 => { maxCapacity := 64, capacity := 64 }
  | count + 1 => (@insert lengthHash (pairOf count) [] []).2

lemma grown_pairOf :
    @Replays lengthHash 64 [([], [])] (pairOf 1) ∧ @Grown lengthHash (pairOf 1) (pairOf 2) := by
  let _ := lengthHash
  have hset : (init 64).setCapacity 64 = .ok (pairOf 0) := by decide
  exact ⟨.insert (.setCapacity .init hset) (show insert (pairOf 0) [] [] = (.ok 0, pairOf 1) by
    decide), .insert .refl (show insert (pairOf 1) [] [] = (.ok 1, pairOf 2) by decide) (by decide)⟩

/-- A section of one line, which refers to the first insertion and counts it. -/
theorem decodeDynamicBlock_steady_iff_indexed :
    decodeDynamicBlock (pairOf 1) [0x02, 0x00, 0x80] =
        decodeDynamicBlock (pairOf 2) [0x02, 0x00, 0x80] ∧
      CountCovers (pairOf 1) (pairOf 1) [0x02, 0x00, 0x80] ∧
      CountCovers (pairOf 1) (pairOf 2) [0x02, 0x00, 0x80] := by
  refine (@decodeDynamicBlock_steady_iff lengthHash 64 (by decide) [([], [])] _ _ grown_pairOf.1
    grown_pairOf.2 [0x02, 0x00, 0x80] (by decide) (by decide)).mpr ?_
  intro counts lines hread
  have hcounts : decodeFieldSectionPrefix (pairOf 1) [0x02, 0x00, 0x80] = .ok (⟨1, 1⟩, [0x80]) := by
    decide
  cases hcounts.symm.trans hread
  decide

/-- A section with no Required Insert Count that refers to the first insertion. -/
theorem section_not_steady :
    @Replays lengthHash 32 [] emptyTable ∧ @Grown lengthHash emptyTable (lastOf 1) ∧
    decodeFieldSectionPrefix emptyTable [0x00, 0x00, 0x10] =
      decodeFieldSectionPrefix (lastOf 1) [0x00, 0x00, 0x10] ∧
    decodeDynamicBlock emptyTable [0x00, 0x00, 0x10] = .error .qpackDecompressionFailed ∧
    decodeDynamicBlock (lastOf 1) [0x00, 0x00, 0x10] = .ok
      { fields := [{ name := [], value := [] }], requiredInsertCount := 0, base := 0 } :=
  ⟨grown_emptyTable.1, grown_emptyTable.2, by decide, by decide, by decide⟩

/-! ### The references of an encoder -/

section Encoder

variable {base : Nat}

lemma referenceOf_indexed {static : Bool} {index : Nat} (hindex : index ≤ maxU64) :
    referenceOf base (encodeInteger 6 (if static then 0xc0 else 0x80) index) =
      if static ∨ base ≤ index then none else some (base - index - 1) := by
  obtain ⟨low, rest, hlow, hbytes, hreads⟩ :=
    @reads_decodePrefixedInteger 6 index (if static then 0xc0 else 0x80) (by omega) (by omega)
      (by cases static <;> rfl) hindex
  have hread := hreads []
  rw [append_nil] at hread
  have hform : firstByte (if static then 0xc0 else 0x80) low &&& 0x80 ≠ 0 ∧
      (firstByte (if static then 0xc0 else 0x80) low &&& 0x40 ≠ 0 ↔ static = true) := by
    cases static with
    | true =>
      obtain ⟨hidx, hstatic⟩ := firstByte_indexedStatic hlow
      exact ⟨hidx, iff_of_true hstatic rfl⟩
    | false =>
      obtain ⟨hidx, hdynamic⟩ := firstByte_indexedDynamic hlow
      exact ⟨hidx, iff_of_false (not_not.mpr hdynamic) Bool.false_ne_true⟩
  have hnext : Cursor.readByte (encodeInteger 6 (if static then 0xc0 else 0x80) index) =
      .ok (firstByte (if static then 0xc0 else 0x80) low, rest) := by
    rw [hbytes]
    rfl
  unfold referenceOf lineReference
  rw [bind_run, hnext]
  dsimp only
  rw [if_pos hform.1, bind_run, hread]
  simp only [hform.2]
  by_cases hnone : static = true ∨ base ≤ index
  · rw [if_pos hnone, if_pos hnone]
    rfl
  · rw [if_neg hnone, if_neg hnone]
    rfl

lemma referenceOf_nameReference {static neverIndexed : Bool} {index : Nat}
    (hindex : index ≤ maxU64) {value : Bytes} (hvalue : value.length ≤ maxU64) :
    referenceOf base
        (encodeInteger 4 (nameReferenceByte static neverIndexed) index ++ encodeString value) =
      if static ∨ base ≤ index then none else some (base - index - 1) := by
  obtain ⟨low, rest, hlow, hbytes, hreads⟩ :=
    @reads_decodePrefixedInteger 4 index (nameReferenceByte static neverIndexed) (by omega)
      (by omega) (nameReferenceByte_high static neverIndexed) hindex
  obtain ⟨hidx, hpost, href, hstatic, -⟩ :=
    firstByte_nameReference hlow static neverIndexed
  have hstring := reads_decodePrefixedString hvalue []
  rw [append_nil] at hstring
  unfold referenceOf lineReference
  rw [hbytes, bind_run]
  show (match (if _ then _ else _ : Cursor Nat) (rest ++ encodeString value) with
    | .ok (index, _) => some index
    | .error _ => none) = _
  rw [if_neg (not_not.mpr hidx), if_neg hpost, if_pos href, bind_run, hreads]
  dsimp only
  rw [bind_run, hstring]
  simp only [hstatic]
  by_cases hnone : static = true ∨ base ≤ index
  · rw [if_pos hnone, if_pos hnone]
    rfl
  · rw [if_neg hnone, if_neg hnone]
    rfl

lemma referenceOf_literal {neverIndexed : Bool} {length : Nat} (hlen : length ≤ maxU64)
    (more : Bytes) :
    referenceOf base (encodeInteger 3 (literalByte neverIndexed) length ++ more) = none := by
  obtain ⟨low, rest, hlow, hbytes, -⟩ :=
    @reads_decodePrefixedInteger 3 length (literalByte neverIndexed) (by omega) (by omega)
      (literalByte_high neverIndexed) hlen
  obtain ⟨hidx, hpost, href, hpostName, -⟩ := firstByte_literal hlow neverIndexed
  unfold referenceOf lineReference
  rw [hbytes, bind_run]
  show (match (if _ then _ else _ : Cursor Nat) (rest ++ more) with
    | .ok (index, _) => some index
    | .error _ => none) = _
  rw [if_neg (not_not.mpr hidx), if_neg hpost, if_neg href, if_neg hpostName]
  rfl

/-- **The bytes of a line refer to what the encoder notes.** -/
theorem referenceOf_encodeFieldLine {field : HeaderField} {dynamicMatch : Option Match}
    (hbase : base ≤ maxU64) (hfield : field.Sized)
    (hmatch : ∀ found, dynamicMatch = some found → found.absoluteIndex < base) :
    referenceOf base (encodeFieldLine base field dynamicMatch).1 =
      (encodeFieldLine base field dynamicMatch).2 := by
  have hrelative : ∀ {index : Nat}, index < base →
      (if (false : Bool) ∨ base ≤ base - index - 1 then none
        else some (base - (base - index - 1) - 1)) = some index := by
    intro index hlt
    rw [if_neg (by simp; omega), Option.some.injEq]
    omega
  unfold encodeFieldLine
  cases hfull : dynamicMatch.filter fun found => !field.neverIndexed && found.fullMatch with
  | some found =>
    have hlt := hmatch found (Option.filter_eq_some_iff.mp hfull).1
    dsimp only
    rw [if_pos hlt]
    exact (@referenceOf_indexed base false _ (by omega)).trans (hrelative hlt)
  | none =>
    cases hstatic : findStaticMatch field.name field.value with
    | some found =>
      obtain ⟨known, hent, -⟩ := findStaticMatch_sound hstatic
      have hidx : found.index ≤ maxU64 :=
        Nat.le_trans (Nat.le_of_lt (static_index_lt hent)) (by decide)
      dsimp only
      by_cases hwhole : (found.fullMatch && !field.neverIndexed) = true
      · rw [if_pos hwhole]
        exact (@referenceOf_indexed base true _ hidx).trans (if_pos (.inl rfl))
      rw [if_neg hwhole]
      exact (@referenceOf_nameReference base true field.neverIndexed _ hidx _
        hfield.2).trans (if_pos (.inl rfl))
    | none =>
      cases dynamicMatch with
      | some found =>
        have hlt := hmatch found rfl
        dsimp only
        rw [if_pos hlt]
        exact (@referenceOf_nameReference base false field.neverIndexed _ (by omega) _
          hfield.2).trans (hrelative hlt)
      | none => exact referenceOf_literal hfield.1 _

lemma lt_foldl_max {α : Type} (f : α → Nat) (as : List α) (start n : Nat) :
    n < as.foldl (fun count a => max count (f a)) start ↔ n < start ∨ ∃ a ∈ as, n < f a := by
  induction as generalizing start with
  | nil => simp
  | cons a as ih => simp [ih, or_assoc]

/-- The bytes of the lines, one after the other. -/
def linesOf (base : Nat) (matched : List (HeaderField × Option Match)) : List Bytes :=
  matched.map fun line => (encodeFieldLine base line.1 line.2).1

lemma encodeFieldLines_flatten (matched : List (HeaderField × Option Match))
    (references : List Nat) :
    (encodeFieldLines base matched references).1 = (linesOf base matched).flatten := by
  induction matched generalizing references with
  | nil => rfl
  | cons line rest ih => exact congrArg _ (ih _)

/-- One more than the largest index. -/
def countOf (indexes : List Nat) : Nat := indexes.foldl (fun count index => max count (index + 1)) 0

variable [StringHash]

/-- The newest match of all fields is one that a line refers to. -/
def NewestUsed (table : DynamicTable) (fields : List HeaderField) (limit : Nat) : Prop :=
  ∀ line ∈ dynamicMatches table fields limit, ∀ found, line.2 = some found →
    ∃ other ∈ dynamicMatches table fields limit, ∃ used, other.2 = some used ∧
      Used other.1 used ∧ found.absoluteIndex ≤ used.absoluteIndex

/-- What is asked of an encoder: the count that it writes covers what its lines refer to and no
more, and that is what it notes. -/
structure CountExact (required : Nat) (lines : List Bytes) (base : Nat) (references : List Nat) :
    Prop where
  required_eq : required = countOf (lines.filterMap (referenceOf base))
  references_iff : ∀ index, index ∈ references ↔ index ∈ lines.filterMap (referenceOf base)

/-- **The Required Insert Count is exact** exactly if the newest match is used; what is noted is
always what the lines refer to. -/
theorem requiredInsertCount_exact_iff {maxCapacity : Nat} (hmax : maxCapacity ≤ maxU64)
    {history : List (Bytes × Bytes)} {table : DynamicTable}
    (htable : Replays maxCapacity history table) {fields : List HeaderField}
    (hfields : ∀ field ∈ fields, field.Sized) (limit : Nat) :
    ∃ required encoded lines references,
      encodeRequiredInsertCount required table.maxEntries = .ok encoded ∧
      encodeDynamicBlockWithReferenceLimit table fields limit = .ok (encodeInteger 8 0x00 encoded ++
          (encodeInteger 7 0x00 (table.insertCount - required) ++ lines.flatten), references) ∧
      required ≤ table.insertCount ∧
      Forall₂ (Reader.Reads (decodeFieldLine table table.insertCount)) lines fields ∧
      (CountExact required lines table.insertCount references ↔ NewestUsed table fields limit) := by
  have hsound := (htable.recorded hmax).sound
  have hbase := hsound.count_le
  obtain ⟨encoded, -, hencoded, -, -⟩ := encodeRequiredInsertCount_ok hsound fields limit
  obtain ⟨hall, hmatched⟩ := dynamicMatches_sound hsound fields limit
  unfold encodeDynamicBlockWithReferenceLimit NewestUsed
  generalize dynamicMatches table fields limit = matched at *
  have hheld : ∀ line ∈ matched, ∀ found, line.2 = some found →
      MatchHeld table table.insertCount line.1 found := by
    intro line hline found hfound
    obtain ⟨-, entry, hentry, hsame⟩ := (hmatched line hline).2 found hfound
    obtain ⟨hmem, hindex⟩ := hsound.absolute.mp hentry
    have hlt := (hsound.numbered.getElem? hmem).1
    exact ⟨by omega, entry, hentry, hsame⟩
  have hsized : ∀ line ∈ matched, line.1.Sized := fun line hline => hfields _ (hmatched line hline).1
  have hlt : ∀ n, n < requiredInsertCountOf matched ↔
      ∃ line ∈ matched, ∃ found, line.2 = some found ∧ n ≤ found.absoluteIndex := by
    intro n
    unfold requiredInsertCountOf
    rw [lt_foldl_max fun line : HeaderField × Option Match =>
      (line.2.map fun found => found.absoluteIndex + 1).getD 0]
    constructor
    · rintro (hlt | ⟨line, hline, hlt⟩)
      · omega
      cases hfound : line.2 with
      | none => simp [hfound] at hlt
      | some found =>
        rw [hfound] at hlt
        exact ⟨line, hline, found, hfound, Nat.le_of_lt_succ hlt⟩
    · rintro ⟨line, hline, found, hfound, hle⟩
      exact .inr ⟨line, hline, by rw [hfound]; exact Nat.lt_succ_of_le hle⟩
  have hreferences : ∀ index,
      index ∈ (linesOf table.insertCount matched).filterMap (referenceOf table.insertCount) ↔
        ∃ line ∈ matched, (encodeFieldLine table.insertCount line.1 line.2).2 = some index := by
    intro index
    unfold linesOf
    rw [mem_filterMap]
    constructor
    · rintro ⟨bytes, hbytes, hreference⟩
      obtain ⟨line, hline, rfl⟩ := mem_map.mp hbytes
      rw [referenceOf_encodeFieldLine hbase (hsized line hline) fun found hfound =>
        (hheld line hline found hfound).1] at hreference
      exact ⟨line, hline, hreference⟩
    rintro ⟨line, hline, hreference⟩
    refine ⟨_, mem_map_of_mem hline, ?_⟩
    rw [referenceOf_encodeFieldLine hbase (hsized line hline) fun found hfound =>
      (hheld line hline found hfound).1]
    exact hreference
  have hcount : ∀ n, n < countOf ((linesOf table.insertCount matched).filterMap
      (referenceOf table.insertCount)) ↔ ∃ line ∈ matched, ∃ used, line.2 = some used ∧
        Used line.1 used ∧ n ≤ used.absoluteIndex := by
    intro n
    unfold countOf
    rw [lt_foldl_max fun index => index + 1]
    constructor
    · rintro (hlt | ⟨index, hindex, hlt⟩)
      · omega
      obtain ⟨line, hline, hreference⟩ := (hreferences index).mp hindex
      obtain ⟨used, hused, huse, rfl⟩ := encodeFieldLine_reference.mp hreference
      exact ⟨line, hline, used, hused, huse, Nat.le_of_lt_succ hlt⟩
    rintro ⟨line, hline, used, hused, huse, hle⟩
    exact .inr ⟨used.absoluteIndex, (hreferences _).mpr ⟨line, hline,
      encodeFieldLine_reference.mpr ⟨used, hused, huse, rfl⟩⟩, Nat.lt_succ_of_le hle⟩
  refine ⟨requiredInsertCountOf matched, encoded, linesOf table.insertCount matched,
    (encodeFieldLines table.insertCount matched []).2, hencoded, ?_, ?_, ?_, ?_⟩
  · dsimp only
    rw [hencoded, ← encodeFieldLines_flatten matched []]
  · rw [← not_lt, hlt]
    rintro ⟨line, hline, found, hfound, hle⟩
    exact absurd (hheld line hline found hfound).1 (not_lt.mpr hle)
  · unfold linesOf
    rw [← hall, forall₂_map_left_iff, forall₂_map_right_iff, forall₂_same]
    intro line hline
    exact reads_encodeFieldLine hbase (hsized line hline).1 (hsized line hline).2
      fun found hfound => ⟨(hheld line hline found hfound).1, fun _ => hheld line hline found hfound⟩
  constructor
  · intro h line hline found hfound
    have hnew : found.absoluteIndex < requiredInsertCountOf matched :=
      (hlt _).mpr ⟨line, hline, found, hfound, le_rfl⟩
    rw [h.required_eq] at hnew
    exact (hcount _).mp hnew
  intro h
  refine ⟨Nat.le_antisymm ?_ ?_, ?_⟩
  · refine not_lt.mp fun hless => ?_
    obtain ⟨line, hline, found, hfound, hle⟩ := (hlt _).mp hless
    obtain ⟨other, hother, used, hused, huse, hnewer⟩ := h line hline found hfound
    exact Nat.lt_irrefl _ ((hcount _).mpr ⟨other, hother, used, hused, huse, hle.trans hnewer⟩)
  · refine not_lt.mp fun hless => ?_
    obtain ⟨line, hline, used, hused, -, hle⟩ := (hcount _).mp hless
    exact Nat.lt_irrefl _ ((hlt _).mpr ⟨line, hline, used, hused, hle⟩)
  intro index
  rw [mem_references, hreferences]
  simp

end Encoder

/-- A table that one field with a name of the static table has been inserted into. -/
def oneMethod : DynamicTable :=
  { emptyTable with
    entries := [@entryFor lengthHash 0 (ascii ":method") []]
    latestName := [(7, 0)], latestExact := [((7, 0), 0)]
    currentSize := 39, capacity := 64, maxCapacity := 64, insertCount := 1 }

lemma replays_oneMethod : @Replays lengthHash 64 [(ascii ":method", [])] oneMethod := by
  let _ := lengthHash
  have hset : (init 64).setCapacity 64 =
      .ok { init 64 with capacity := 64 } := by decide
  exact .insert (.setCapacity .init hset) (show @insert lengthHash _
    (ascii ":method") [] = (.ok 0, oneMethod) by decide)

/-- A match by name that a field of the static table leaves unused. -/
theorem requiredInsertCount_not_exact :
    @encodeDynamicBlockWithReferenceLimit lengthHash oneMethod
        [{ name := ascii ":method", value := ascii "GET" }] 1 =
      .ok (encodeInteger 8 0x00 2 ++ (encodeInteger 7 0x00 (1 - 1) ++ [[0xd1]].flatten), []) ∧
    encodeRequiredInsertCount 1 oneMethod.maxEntries = .ok 2 ∧ ¬ CountExact 1 [[0xd1]] 1 [] := by
  refine ⟨by decide, by decide, ?_⟩
  intro h
  exact absurd h.required_eq (by decide)

theorem requiredInsertCount_exact_iff_method :
    ∃ required encoded lines references,
      encodeRequiredInsertCount required oneMethod.maxEntries = .ok encoded ∧
      @encodeDynamicBlockWithReferenceLimit lengthHash oneMethod
          [{ name := ascii ":method", value := [] }] 1 = .ok (encodeInteger 8 0x00 encoded ++
          (encodeInteger 7 0x00 (1 - required) ++ lines.flatten), references) ∧
      required ≤ 1 ∧
      Forall₂ (Reader.Reads (decodeFieldLine oneMethod 1)) lines
        [{ name := ascii ":method", value := [] }] ∧
      (CountExact required lines 1 references ↔
        @NewestUsed lengthHash oneMethod [{ name := ascii ":method", value := [] }] 1) :=
  @requiredInsertCount_exact_iff lengthHash 64 (by decide) _ _ replays_oneMethod
    [{ name := ascii ":method", value := [] }] (by decide) 1

end Netz.Http.Qpack
