/-
QPACK field sections are read back.

The Required Insert Count is written modulo twice the number of entries that fit, and the decoder
takes the count of that remainder next to its own.  Every line is read back by a table that holds
the entry the line refers to, so a section is read back by every table with the same history that
has come far enough.
-/
import Netz.Http.QpackBlock
import Netz.Proofs.Huffman
import Netz.Proofs.QpackTable

namespace Netz.Http.Qpack

open Lib List

/-! ### The Required Insert Count -/

lemma nearest_count {range low high : Nat} (hle : low ≤ high) (hnear : high < low + range) :
    high / range * range + low % range = low ∨
      (high < high / range * range + low % range ∧
        high / range * range + low % range = low + range) := by
  have hrange : 0 < range := by omega
  have hlow : low / range * range + low % range = low := Nat.div_add_mod' low range
  have hhigh : high / range * range + high % range = high := Nat.div_add_mod' high range
  have hless := Nat.mod_lt low hrange
  have hsteps : low / range = high / range ∨ low / range + 1 = high / range := by
    have hup : low / range ≤ high / range := Nat.div_le_div_right hle
    rcases Nat.lt_or_ge (low / range + 1) (high / range) with hfar | hclose
    · have hmul := Nat.mul_le_mul_right range hfar
      rw [Nat.succ_mul, Nat.succ_mul] at hmul
      omega
    · omega
  rcases hsteps with hsame | hnext
  · rw [← hsame]
    exact .inl hlow
  · rw [← hnext, Nat.succ_mul] at hhigh ⊢
    exact .inr ⟨by omega, by omega⟩

/-- The additions of `decodeRequiredInsertCount` stay within 64 bits. -/
def CountFits (required maxEntries inserted : Nat) : Prop :=
  required = 0 ∨
    (inserted + maxEntries ≤ maxU64 ∧
      (inserted + maxEntries) / (2 * maxEntries) * (2 * maxEntries) +
        required % (2 * maxEntries) ≤ maxU64)

instance (required maxEntries inserted : Nat) :
    Decidable (CountFits required maxEntries inserted) :=
  inferInstanceAs (Decidable (_ ∨ _))

/-- The count is read back by whoever is less than the entries that fit away from it, as long as the
additions do not overflow. -/
theorem decodeRequiredInsertCount_encoded {required maxEntries inserted encoded : Nat}
    (henc : encodeRequiredInsertCount required maxEntries = .ok encoded)
    (hle : required ≤ inserted + maxEntries) (hnear : required ≠ 0 → inserted < required + maxEntries) :
    decodeRequiredInsertCount encoded maxEntries inserted =
      if CountFits required maxEntries inserted then .ok required
      else .error .qpackDecompressionFailed := by
  unfold encodeRequiredInsertCount at henc
  by_cases hzero : required = 0
  · rw [if_pos hzero] at henc
    cases henc
    rw [hzero]
    rfl
  rw [if_neg hzero] at henc
  by_cases hnone : maxEntries = 0
  · omega
  rw [if_neg hnone] at henc
  obtain ⟨hlarge, henc⟩ := of_guard henc nofun
  cases henc
  have hclose := hnear hzero
  have hless := Nat.mod_lt required (show 0 < 2 * maxEntries by omega)
  have hcount := @nearest_count (2 * maxEntries) required (inserted + maxEntries) hle (by omega)
  have hcondition : CountFits required maxEntries inserted ↔
      ¬(maxU64 < inserted + maxEntries ∨ maxU64 < (inserted + maxEntries) / (2 * maxEntries) *
        (2 * maxEntries) + required % (2 * maxEntries)) := by
    unfold CountFits
    omega
  unfold decodeRequiredInsertCount
  rw [if_neg (Nat.succ_ne_zero _), if_neg hnone, Nat.add_sub_cancel,
    if_neg (show ¬(maxU64 < 2 * maxEntries ∨ 2 * maxEntries < required % (2 * maxEntries) + 1) by
      omega)]
  by_cases hfits : CountFits required maxEntries inserted
  · rw [if_pos hfits, if_neg (hcondition.mp hfits)]
    rcases hcount with hsame | ⟨habove, hnext⟩
    · rw [hsame, if_neg (by omega), if_neg hzero]
    · rw [if_pos habove, hnext, Nat.add_sub_cancel, if_neg (by omega), if_neg hzero]
  · rw [if_neg hfits, if_pos (not_not.mp (fun h => hfits (hcondition.mpr h)))]

/-- A decoded count lies in the window, and is the one that was written. -/
theorem decodeRequiredInsertCount_ok {required maxEntries inserted encoded : Nat}
    (h : decodeRequiredInsertCount encoded maxEntries inserted = .ok required) :
    encoded = 0 ∧ required = 0 ∨
      0 < required ∧ inserted < required + maxEntries ∧ required ≤ inserted + maxEntries ∧
        encodeRequiredInsertCount required maxEntries = .ok encoded := by
  unfold decodeRequiredInsertCount at h
  by_cases hzero : encoded = 0
  · rw [if_pos hzero] at h
    cases h
    exact .inl ⟨hzero, rfl⟩
  rw [if_neg hzero] at h
  obtain ⟨hnone, h⟩ := of_guard h nofun
  dsimp only at h
  obtain ⟨hrange, h⟩ := of_guard h nofun
  obtain ⟨-, h⟩ := of_guard h nofun
  have hhigh := Nat.div_add_mod' (inserted + maxEntries) (2 * maxEntries)
  have hless := Nat.mod_lt (inserted + maxEntries) (show 0 < 2 * maxEntries by omega)
  have hlow : (encoded - 1) % (2 * maxEntries) + 1 = encoded := by
    rw [Nat.mod_eq_of_lt (by omega), Nat.sub_add_cancel (Nat.pos_of_ne_zero hzero)]
  unfold encodeRequiredInsertCount
  by_cases habove : inserted + maxEntries < (inserted + maxEntries) / (2 * maxEntries) *
      (2 * maxEntries) + (encoded - 1)
  · rw [if_pos habove] at h
    obtain ⟨hbeyond, h⟩ := of_guard h nofun
    obtain ⟨hpos, h⟩ := of_guard h nofun
    cases h
    refine .inr ⟨Nat.pos_of_ne_zero hpos, by omega, by omega, ?_⟩
    rw [if_neg hpos, if_neg hnone, if_neg (by omega), ← Nat.mod_eq_sub_mod (by omega),
      Nat.mul_add_mod', hlow]
  · rw [if_neg habove] at h
    obtain ⟨hpos, h⟩ := of_guard h nofun
    cases h
    refine .inr ⟨Nat.pos_of_ne_zero hpos, by omega, by omega, ?_⟩
    rw [if_neg hpos, if_neg hnone, if_neg (by omega), Nat.mul_add_mod', hlow]

/-- **Between the entries that fit behind the decoder and those ahead of it, every count whose
additions do not overflow is read back, and nothing else is read.** -/
theorem insert_counts_in_window {maxEntries inserted : Nat} (hpos : 0 < maxEntries)
    (hrange : 2 * maxEntries ≤ maxU64) :
    (∀ required, 0 < required → inserted < required + maxEntries →
      required ≤ inserted + maxEntries →
      ∃ encoded, encodeRequiredInsertCount required maxEntries = .ok encoded ∧
        decodeRequiredInsertCount encoded maxEntries inserted =
          if CountFits required maxEntries inserted then .ok required
          else .error .qpackDecompressionFailed) ∧
    ∀ encoded required, decodeRequiredInsertCount encoded maxEntries inserted = .ok required →
      encoded = 0 ∧ required = 0 ∨
        0 < required ∧ inserted < required + maxEntries ∧ required ≤ inserted + maxEntries ∧
          encodeRequiredInsertCount required maxEntries = .ok encoded := by
  refine ⟨fun required hsome hbehind hahead => ?_, fun _ _ => decodeRequiredInsertCount_ok⟩
  have hencoded : encodeRequiredInsertCount required maxEntries =
      .ok (required % (2 * maxEntries) + 1) := by
    unfold encodeRequiredInsertCount
    rw [if_neg (by omega), if_neg (by omega), if_neg (by omega)]
  exact ⟨_, hencoded, decodeRequiredInsertCount_encoded hencoded hahead fun _ => hbehind⟩

/-- The window around the largest count is not read back whole. -/
theorem count_not_read :
    maxU64 - 3 < maxU64 - 5 + 3 ∧ maxU64 - 5 ≤ maxU64 - 3 + 3 ∧
      encodeRequiredInsertCount (maxU64 - 5) 3 = .ok 5 ∧
      decodeRequiredInsertCount 5 3 (maxU64 - 3) = .error .qpackDecompressionFailed := by decide

theorem insert_counts_in_window_of_three :
    (∃ encoded, encodeRequiredInsertCount 7 3 = .ok encoded ∧
      decodeRequiredInsertCount encoded 3 5 =
        if CountFits 7 3 5 then .ok 7 else .error .qpackDecompressionFailed) ∧
    ∀ encoded required, decodeRequiredInsertCount encoded 3 5 = .ok required →
      encoded = 0 ∧ required = 0 ∨
        0 < required ∧ 5 < required + 3 ∧ required ≤ 5 + 3 ∧
          encodeRequiredInsertCount required 3 = .ok encoded :=
  have h := @insert_counts_in_window 3 5 (by decide) (by decide)
  ⟨h.1 7 (by decide) (by decide) (by decide), h.2⟩

/-! ### Lines -/

lemma firstByte_indexedDynamic {low : Nat} (h : low < 2 ^ 6) :
    firstByte 0x80 low &&& 0x80 ≠ 0 ∧ firstByte 0x80 low &&& 0x40 = 0 := by
  have hall : ∀ low < 64, firstByte 0x80 low &&& 0x80 ≠ 0 ∧ firstByte 0x80 low &&& 0x40 = 0 := by
    decide
  exact hall low h

lemma firstByte_indexedStatic {low : Nat} (h : low < 2 ^ 6) :
    firstByte 0xc0 low &&& 0x80 ≠ 0 ∧ firstByte 0xc0 low &&& 0x40 ≠ 0 := by
  have hall : ∀ low < 64, firstByte 0xc0 low &&& 0x80 ≠ 0 ∧ firstByte 0xc0 low &&& 0x40 ≠ 0 := by
    decide
  exact hall low h

/-- The first byte of a line with a name reference. -/
def nameReferenceByte (static neverIndexed : Bool) : UInt8 :=
  if static then (if neverIndexed then 0x70 else 0x50) else if neverIndexed then 0x60 else 0x40

lemma nameReferenceByte_high (static neverIndexed : Bool) :
    nameReferenceByte static neverIndexed &&& UInt8.ofNat (2 ^ 4 - 1) = 0 := by
  cases static <;> cases neverIndexed <;> rfl

lemma firstByte_nameReference {low : Nat} (h : low < 2 ^ 4) (static neverIndexed : Bool) :
    firstByte (nameReferenceByte static neverIndexed) low &&& 0x80 = 0 ∧
      firstByte (nameReferenceByte static neverIndexed) low &&& 0xf0 ≠ 0x10 ∧
      firstByte (nameReferenceByte static neverIndexed) low &&& 0xc0 = 0x40 ∧
      (firstByte (nameReferenceByte static neverIndexed) low &&& 0x10 ≠ 0 ↔ static = true) ∧
      (firstByte (nameReferenceByte static neverIndexed) low &&& 0x20 != 0) = neverIndexed := by
  have hall : ∀ static neverIndexed, ∀ low < 16,
      firstByte (nameReferenceByte static neverIndexed) low &&& 0x80 = 0 ∧
      firstByte (nameReferenceByte static neverIndexed) low &&& 0xf0 ≠ 0x10 ∧
      firstByte (nameReferenceByte static neverIndexed) low &&& 0xc0 = 0x40 ∧
      (firstByte (nameReferenceByte static neverIndexed) low &&& 0x10 ≠ 0 ↔ static = true) ∧
      (firstByte (nameReferenceByte static neverIndexed) low &&& 0x20 != 0) = neverIndexed := by
    decide
  exact hall static neverIndexed low h

/-- The first byte of a line with a literal name. -/
def literalByte (neverIndexed : Bool) : UInt8 := if neverIndexed then 0x30 else 0x20

lemma literalByte_high (neverIndexed : Bool) :
    literalByte neverIndexed &&& UInt8.ofNat (2 ^ 3 - 1) = 0 := by
  cases neverIndexed <;> rfl

lemma firstByte_literal {low : Nat} (h : low < 2 ^ 3) (neverIndexed : Bool) :
    firstByte (literalByte neverIndexed) low &&& 0x80 = 0 ∧
      firstByte (literalByte neverIndexed) low &&& 0xf0 ≠ 0x10 ∧
      firstByte (literalByte neverIndexed) low &&& 0xc0 ≠ 0x40 ∧
      firstByte (literalByte neverIndexed) low &&& 0xf0 ≠ 0x00 ∧
      firstByte (literalByte neverIndexed) low &&& 0xe0 = 0x20 ∧
      (firstByte (literalByte neverIndexed) low &&& 0x08 != 0) = false ∧
      (firstByte (literalByte neverIndexed) low &&& 0x10 != 0) = neverIndexed := by
  have hall : ∀ neverIndexed, ∀ low < 8, firstByte (literalByte neverIndexed) low &&& 0x80 = 0 ∧
      firstByte (literalByte neverIndexed) low &&& 0xf0 ≠ 0x10 ∧
      firstByte (literalByte neverIndexed) low &&& 0xc0 ≠ 0x40 ∧
      firstByte (literalByte neverIndexed) low &&& 0xf0 ≠ 0x00 ∧
      firstByte (literalByte neverIndexed) low &&& 0xe0 = 0x20 ∧
      (firstByte (literalByte neverIndexed) low &&& 0x08 != 0) = false ∧
      (firstByte (literalByte neverIndexed) low &&& 0x10 != 0) = neverIndexed := by decide
  exact hall neverIndexed low h

section Lines

variable {table : DynamicTable} {base : Nat}

lemma reads_indexedDynamic {index : Nat} (hindex : index ≤ maxU64) {entry : DynamicEntry}
    (hent : table.fieldRelativeToBase base index = some entry) :
    Reader.Reads (decodeFieldLine table base) (encodeInteger 6 0x80 index)
      { name := entry.name, value := entry.value } := by
  obtain ⟨low, rest, hlow, hbytes, hreads⟩ :=
    @reads_decodePrefixedInteger 6 index 0x80 (by omega) (by omega) rfl hindex
  obtain ⟨hidx, hdynamic⟩ := firstByte_indexedDynamic hlow
  rw [hbytes]
  refine (Reader.reads_next Error.bufferTooShort _).bind ?_
  rw [if_pos hidx]
  refine hreads.map ?_
  rw [if_neg (by simpa using hdynamic), hent]
  rfl

lemma reads_indexedStatic {index : Nat} {entry : Bytes × Bytes}
    (hent : staticEntry index = some entry) :
    Reader.Reads (decodeFieldLine table base) (encodeInteger 6 0xc0 index)
      { name := entry.1, value := entry.2 } := by
  have hindex := static_index_lt hent
  obtain ⟨low, rest, hlow, hbytes, hreads⟩ :=
    @reads_decodePrefixedInteger 6 index 0xc0 (by omega) (by omega) rfl
      (Nat.le_trans hindex.le (by decide))
  obtain ⟨hidx, hstatic⟩ := firstByte_indexedStatic hlow
  rw [hbytes]
  refine (Reader.reads_next Error.bufferTooShort _).bind ?_
  rw [if_pos hidx]
  refine hreads.map ?_
  rw [if_pos hstatic, hent]
  rfl

lemma reads_nameReference {static neverIndexed : Bool} {index : Nat} (hindex : index ≤ maxU64)
    {name value : Bytes} (hvalue : value.length ≤ maxU64)
    (hname : if static then ∃ known, staticEntry index = some (name, known)
      else ∃ entry, table.fieldRelativeToBase base index = some entry ∧ entry.name = name) :
    Reader.Reads (decodeFieldLine table base)
      (encodeInteger 4 (nameReferenceByte static neverIndexed) index ++ encodeString value)
      { name := name, value := value, neverIndexed := neverIndexed } := by
  obtain ⟨low, rest, hlow, hbytes, hreads⟩ :=
    @reads_decodePrefixedInteger 4 index (nameReferenceByte static neverIndexed) (by omega)
      (by omega) (nameReferenceByte_high static neverIndexed) hindex
  obtain ⟨hidx, hpost, href, hstatic, hnever⟩ :=
    firstByte_nameReference hlow static neverIndexed
  rw [hbytes]
  refine (Reader.reads_next Error.bufferTooShort _).bind ?_
  rw [if_neg (by simpa using hidx), if_neg hpost, if_pos href]
  refine hreads.bind ((reads_decodePrefixedString hvalue).map ?_)
  cases static with
  | true =>
    obtain ⟨known, hent⟩ := hname
    rw [if_pos (hstatic.mpr rfl), hent, hnever]
    rfl
  | false =>
    obtain ⟨entry, hent, rfl⟩ := hname
    rw [if_neg (fun h => Bool.noConfusion (hstatic.mp h)), hent, hnever]
    rfl

lemma reads_literal {neverIndexed : Bool} {name value : Bytes} (hname : name.length ≤ maxU64)
    (hvalue : value.length ≤ maxU64) :
    Reader.Reads (decodeFieldLine table base)
      (encodeInteger 3 (literalByte neverIndexed) name.length ++ (name ++ encodeString value))
      { name := name, value := value, neverIndexed := neverIndexed } := by
  obtain ⟨low, rest, hlow, hbytes, hreads⟩ :=
    @reads_decodePrefixedInteger 3 name.length (literalByte neverIndexed) (by omega) (by omega)
      (literalByte_high neverIndexed) hname
  obtain ⟨hidx, hpost, href, hpostName, hliteral, hraw, hnever⟩ :=
    firstByte_literal hlow neverIndexed
  rw [hbytes]
  refine (Reader.reads_next Error.bufferTooShort _).bind ?_
  rw [if_neg (by simpa using hidx), if_neg hpost, if_neg href, if_neg hpostName, if_pos hliteral]
  refine hreads.bind ((Reader.reads_take Error.bufferTooShort name).bind ?_)
  rw [hraw, hnever]
  exact Reader.Reads.check rfl ((reads_decodePrefixedString hvalue).map rfl)

/-- A match that is one of the table's: an entry below the base with the name, and with the value
where it says so. -/
def MatchHeld (table : DynamicTable) (base : Nat) (field : HeaderField) (found : Match) : Prop :=
  found.absoluteIndex < base ∧ ∃ entry, table.absolute found.absoluteIndex = some entry ∧
    entry.name = field.name ∧ (found.fullMatch = true → entry.value = field.value)

lemma MatchHeld.relative {field : HeaderField} {found : Match}
    (h : MatchHeld table base field found) :
    ∃ entry, table.fieldRelativeToBase base (base - found.absoluteIndex - 1) = some entry ∧
      entry.name = field.name ∧ (found.fullMatch = true → entry.value = field.value) := by
  obtain ⟨hlt, entry, hent, hsame⟩ := h
  refine ⟨entry, ?_, hsame⟩
  unfold DynamicTable.fieldRelativeToBase
  rw [if_neg (by omega), show base - (base - found.absoluteIndex - 1) - 1 = found.absoluteIndex by
    omega]
  exact hent

/-- **A line is read back by a table that holds the entry it refers to.** -/
theorem reads_encodeFieldLine {field : HeaderField} {dynamicMatch : Option Match}
    (hbase : base ≤ maxU64) (hname : field.name.length ≤ maxU64)
    (hvalue : field.value.length ≤ maxU64)
    (hmatch : ∀ found, dynamicMatch = some found → found.absoluteIndex < base ∧
      ((encodeFieldLine base field dynamicMatch).2 = some found.absoluteIndex →
        MatchHeld table base field found)) :
    Reader.Reads (decodeFieldLine table base) (encodeFieldLine base field dynamicMatch).1 field := by
  unfold encodeFieldLine at hmatch ⊢
  cases hfull : dynamicMatch.filter fun found => !field.neverIndexed && found.fullMatch with
  | some found =>
    rw [hfull] at hmatch
    obtain ⟨hsome, hflags⟩ := Option.filter_eq_some_iff.mp hfull
    rw [Bool.and_eq_true, Bool.not_eq_true'] at hflags
    obtain ⟨hlt, hheld⟩ := hmatch found hsome
    obtain ⟨entry, hent, hnamed, hvalued⟩ := (hheld rfl).relative
    dsimp only
    rw [if_pos hlt]
    have hreads := @reads_indexedDynamic table base _ (by omega) entry hent
    rw [hnamed, hvalued hflags.2] at hreads
    have hfield : field = { name := field.name, value := field.value } := by
      rw [← hflags.1]
    rw [hfield]
    exact hreads
  | none =>
    rw [hfull] at hmatch
    cases hstatic : findStaticMatch field.name field.value with
    | some found =>
      obtain ⟨known, hent, hvalued⟩ := findStaticMatch_sound hstatic
      dsimp only
      by_cases hwhole : (found.fullMatch && !field.neverIndexed) = true
      · rw [if_pos hwhole]
        rw [Bool.and_eq_true, Bool.not_eq_true'] at hwhole
        have hreads := @reads_indexedStatic table base _ _ hent
        rw [hvalued hwhole.1] at hreads
        have hfield : field = { name := field.name, value := field.value } := by
          rw [← hwhole.2]
        rw [hfield]
        exact hreads
      rw [if_neg hwhole]
      exact @reads_nameReference table base true field.neverIndexed found.index
        (Nat.le_trans (Nat.le_of_lt (static_index_lt hent)) (by decide)) field.name
        field.value hvalue ⟨known, hent⟩
    | none =>
      rw [hstatic] at hmatch
      cases dynamicMatch with
      | some found =>
        obtain ⟨hlt, hheld⟩ := hmatch found rfl
        obtain ⟨entry, hent, hnamed, -⟩ := (hheld rfl).relative
        dsimp only
        rw [if_pos hlt]
        exact @reads_nameReference table base false field.neverIndexed _ (by omega)
          field.name field.value hvalue ⟨entry, hent, hnamed⟩
      | none => exact reads_literal hname hvalue

end Lines

/-! ### Sections -/

/-- Where a field's match is what its line refers to. -/
def Used (field : HeaderField) (found : Match) : Prop :=
  (found.fullMatch = true ∧ field.neverIndexed = false) ∨
    findStaticMatch field.name field.value = none

lemma encodeFieldLine_reference {base index : Nat} {field : HeaderField}
    {dynamicMatch : Option Match} : (encodeFieldLine base field dynamicMatch).2 = some index ↔
      ∃ found, dynamicMatch = some found ∧ Used field found ∧ found.absoluteIndex = index := by
  unfold encodeFieldLine Used
  cases dynamicMatch with
  | none => cases hstatic : findStaticMatch field.name field.value <;> simp
  | some found =>
    cases hstatic : findStaticMatch field.name field.value <;>
      cases hfull : found.fullMatch <;> cases hnever : field.neverIndexed <;>
        simp [Option.filter, hfull]

lemma mem_noteReference {references : List Nat} {reference : Option Nat} {index : Nat} :
    index ∈ noteReference references reference ↔ index ∈ references ∨ reference = some index := by
  cases reference with
  | none => simp [noteReference]
  | some absoluteIndex =>
    unfold noteReference appendReferenceUnique
    dsimp only
    by_cases hmem : absoluteIndex ∈ references
    · rw [if_pos hmem, Option.some.injEq]
      exact ⟨.inl, fun h => h.elim id fun heq => heq ▸ hmem⟩
    · rw [if_neg hmem, mem_append, mem_singleton, Option.some.injEq]
      exact or_congr_right eq_comm

lemma mem_references {base : Nat} {matched : List (HeaderField × Option Match)}
    {references : List Nat} {index : Nat} :
    index ∈ (encodeFieldLines base matched references).2 ↔ index ∈ references ∨
        ∃ line ∈ matched, (encodeFieldLine base line.1 line.2).2 = some index := by
  induction matched generalizing references with
  | nil => simp [encodeFieldLines]
  | cons line rest ih =>
    have hcons : (encodeFieldLines base (line :: rest) references).2 = (encodeFieldLines base rest
          (noteReference references (encodeFieldLine base line.1 line.2).2)).2 := rfl
    rw [hcons, ih, mem_noteReference]
    simp [or_assoc]

lemma decodeFieldLines_encodeFieldLines {table : DynamicTable} {base : Nat} (hbase : base ≤ maxU64)
    {matched : List (HeaderField × Option Match)} {references : List Nat} {rounds : Nat}
    (hfields : ∀ line ∈ matched, line.1.name.length ≤ maxU64 ∧ line.1.value.length ≤ maxU64)
    (hmatch : ∀ line ∈ matched, ∀ found, line.2 = some found → found.absoluteIndex < base ∧
      (found.absoluteIndex ∈ (encodeFieldLines base matched references).2 →
        MatchHeld table base line.1 found))
    (hfuel : (encodeFieldLines base matched references).1.length < rounds) :
    decodeFieldLines table base rounds (encodeFieldLines base matched references).1 =
      .ok (matched.map (·.1)) := by
  induction matched generalizing references rounds with
  | nil =>
    cases rounds with
    | zero => cases hfuel
    | succ rounds => rfl
  | cons line rest ih =>
    obtain ⟨hname, hvalue⟩ := hfields line mem_cons_self
    have hreads := @reads_encodeFieldLine table base line.1 line.2 hbase hname hvalue (by
      intro found hfound
      obtain ⟨hlt, hheld⟩ := hmatch line mem_cons_self found hfound
      refine ⟨hlt, fun href => hheld ?_⟩
      exact mem_references.mpr (.inr ⟨line, mem_cons_self, href⟩))
    have hword : (encodeFieldLine base line.1 line.2).1 ≠ [] := by
      intro hnil
      have hnone := hreads []
      rw [hnil] at hnone
      cases hnone
    have hpos := length_pos_iff.mpr hword
    unfold encodeFieldLines at hfuel ⊢
    rw [length_append] at hfuel
    cases rounds with
    | zero => cases hfuel
    | succ rounds =>
      unfold decodeFieldLines
      rw [if_neg (by simp [hword]), hreads]
      dsimp only
      rw [ih (fun other hother => hfields other (mem_cons_of_mem line hother)) ?_
        (by omega)]
      · rfl
      · intro other hother found hfound
        exact hmatch other (mem_cons_of_mem line hother) found hfound

lemma requiredInsertCountOf_cases (matched : List (HeaderField × Option Match)) :
    (requiredInsertCountOf matched = 0 ∨ ∃ line ∈ matched, ∃ found, line.2 = some found ∧
      requiredInsertCountOf matched = found.absoluteIndex + 1) := by
  have hall : ∀ start, matched.foldl (fun required line =>
        max required ((line.2.map fun found => found.absoluteIndex + 1).getD 0)) start = start ∨
      ∃ line ∈ matched, ∃ found, line.2 = some found ∧ matched.foldl (fun required line =>
        max required ((line.2.map fun found => found.absoluteIndex + 1).getD 0)) start =
          found.absoluteIndex + 1 := by
    induction matched with
    | nil => exact fun start => .inl rfl
    | cons line rest ih =>
      intro start
      rw [foldl_cons]
      rcases ih (max start ((line.2.map fun found => found.absoluteIndex + 1).getD 0)) with
        hkept | ⟨other, hother, found, hfound, heq⟩
      · rw [hkept]
        rcases Nat.le_total ((line.2.map fun found => found.absoluteIndex + 1).getD 0) start with
          hle | hge
        · exact .inl (Nat.max_eq_left hle)
        rw [Nat.max_eq_right hge]
        cases hline : line.2 with
        | none =>
          rw [hline] at hge
          exact .inl (Nat.le_antisymm (Nat.zero_le _) hge)
        | some found => exact .inr ⟨line, mem_cons_self, found, hline, rfl⟩
      · exact .inr ⟨other, mem_cons_of_mem line hother, found, hfound, heq⟩
  exact hall 0

lemma reads_fieldSectionPrefix {table : DynamicTable} {required encoded base : Nat}
    (henc : encoded ≤ maxU64) (hbase : base ≤ maxU64) (hreq : required ≤ base)
    (hdec : decodeRequiredInsertCount encoded table.maxEntries table.insertCount = .ok required) :
    Reader.Reads (decodeFieldSectionPrefix table)
      (encodeInteger 8 0x00 encoded ++ encodeInteger 7 0x00 (base - required))
      { requiredInsertCount := required, base := base } := by
  obtain ⟨low, rest, hlow, hbytes, hreads⟩ :=
    @reads_decodePrefixedInteger 8 encoded 0x00 (by omega) (by omega) rfl henc
  obtain ⟨low', rest', hlow', hbytes', hreads'⟩ :=
    @reads_decodePrefixedInteger 7 (base - required) 0x00 (by omega) (by omega) rfl (by omega)
  have hpos : (firstByte 0x00 low' &&& 0x80 != 0) = false := (firstByte_form hlow').1
  rw [hbytes, hbytes']
  refine (Reader.reads_next Error.bufferTooShort _).bind (hreads.bind ?_)
  rw [hdec]
  refine Reader.Reads.check rfl ?_
  refine (Reader.reads_next Error.bufferTooShort _).bind (hreads'.map ?_)
  rw [hpos]
  unfold decodeBase
  rw [if_neg (by decide), if_neg (by omega), Nat.add_sub_cancel' hreq]
  rfl

end Netz.Http.Qpack

/-! ### QPACK field sections between two tables with one history

The encoder refers to entries that the decoder has acknowledged.  A decoder that has come as far,
and still holds what is referred to, reads the section back, unless the numbers of insertions are
so large that the arithmetic of the Required Insert Count leaves 64 bits. -/

namespace Netz.Http.Qpack

open Lib List

/-- Name and value lengths are `usize`. -/
def HeaderField.Sized (field : HeaderField) : Prop :=
  field.name.length ≤ maxU64 ∧ field.value.length ≤ maxU64

instance (field : HeaderField) : Decidable field.Sized :=
  inferInstanceAs (Decidable (_ ∧ _))

section RoundTrip

variable [StringHash]

lemma dynamicMatches_sound {table : DynamicTable} (h : table.Sound) (fields : List HeaderField)
    (limit : Nat) :
    (dynamicMatches table fields limit).map (·.1) = fields ∧
      ∀ line ∈ dynamicMatches table fields limit, line.1 ∈ fields ∧
        ∀ found, line.2 = some found → found.absoluteIndex < limit ∧
          ∃ entry, table.absolute found.absoluteIndex = some entry ∧ entry.name = line.1.name ∧
            (found.fullMatch = true → entry.value = line.1.value) := by
  unfold dynamicMatches
  constructor
  · rw [map_map]
    exact map_id fields
  intro line hline
  obtain ⟨field, hfield, rfl⟩ := mem_map.mp hline
  refine ⟨hfield, ?_⟩
  intro found hfound
  rw [Option.ite_none_right_eq_some] at hfound
  exact h.findMatchBefore hfound.2

lemma encodeRequiredInsertCount_ok {table : DynamicTable} (h : table.Sound)
    (fields : List HeaderField) (limit : Nat) :
    ∃ encoded ≤ maxU64, encodeRequiredInsertCount
        (requiredInsertCountOf (dynamicMatches table fields limit)) table.maxEntries = .ok encoded ∧
      requiredInsertCountOf (dynamicMatches table fields limit) ≤ limit ∧
      (requiredInsertCountOf (dynamicMatches table fields limit) ≠ 0 → table.insertCount <
          requiredInsertCountOf (dynamicMatches table fields limit) + table.maxEntries) := by
  have hmax : 2 * table.maxEntries ≤ maxU64 := by
    have hle := h.max_le
    unfold DynamicTable.maxEntries dynamicEntryOverhead
    omega
  unfold encodeRequiredInsertCount
  rcases requiredInsertCountOf_cases (dynamicMatches table fields limit) with
    hzero | ⟨line, hline, found, hfound, hcount⟩
  · simp [hzero]
  obtain ⟨hlim, entry, hent, -⟩ :=
    ((dynamicMatches_sound h fields limit).2 line hline).2 found hfound
  obtain ⟨hmem, hidx⟩ := h.absolute.mp hent
  obtain ⟨hlt, hge, -⟩ := h.numbered.getElem? hmem
  have hpos := length_pos_of_mem hmem
  have hroom := h.length_le
  have hrange := Nat.mod_lt (requiredInsertCountOf (dynamicMatches table fields limit))
    (show 0 < 2 * table.maxEntries by omega)
  rw [if_neg (by omega), if_neg (by omega), if_neg (by omega)]
  exact ⟨_, by omega, rfl, by omega, fun _ => by omega⟩

/-- **A section is read back by every table with the same history that has come as far as the
acknowledged insertions and holds what is referred to, where the arithmetic of its count fits.** -/
theorem field_sections_round_trip {maxCapacity : Nat} (hmax : maxCapacity ≤ maxU64)
    {history : List (Bytes × Bytes)} {encoder decoder : DynamicTable} {inserted known : Nat}
    (hencoder : Replays maxCapacity history encoder) (hinserted : inserted ≤ history.length)
    (hdecoder : Replays maxCapacity (history.take inserted) decoder) (hknown : known ≤ inserted)
    {fields : List HeaderField} (hfields : ∀ field ∈ fields, field.Sized) :
    ∃ block references,
      encodeDynamicBlockKnownReceived encoder fields known = .ok (block, references) ∧
      ((∀ index ∈ references, (decoder.absolute index).isSome) → decodeDynamicBlock decoder block =
          if CountFits (requiredInsertCountOf (dynamicMatches encoder fields known))
              (maxCapacity / dynamicEntryOverhead) inserted then
            .ok
              { fields := fields
                requiredInsertCount := requiredInsertCountOf (dynamicMatches encoder fields known)
                base := history.length }
          else .error .qpackDecompressionFailed) := by
  have hE := hencoder.recorded hmax
  have hD := hdecoder.recorded hmax
  have hcountE := hE.insertCount
  have hcountD := hD.insertCount
  rw [length_take, Nat.min_eq_left hinserted] at hcountD
  have hentriesE : encoder.maxEntries = maxCapacity / dynamicEntryOverhead :=
    congrArg (· / dynamicEntryOverhead) hE.maxCapacity
  have hentriesD : decoder.maxEntries = maxCapacity / dynamicEntryOverhead :=
    congrArg (· / dynamicEntryOverhead) hD.maxCapacity
  obtain ⟨encoded, hbound, hencoded, hrequired, hnear⟩ :=
    encodeRequiredInsertCount_ok hE.sound fields known
  obtain ⟨hall, hmatched⟩ := dynamicMatches_sound hE.sound fields known
  have hbase : encoder.insertCount ≤ maxU64 := hE.sound.count_le
  unfold encodeDynamicBlockKnownReceived encodeDynamicBlockWithReferenceLimit
  rw [if_neg (by omega)]
  dsimp only
  rw [hencoded]
  refine ⟨_, _, rfl, ?_⟩
  intro hheld
  -- Both tables have the entries under their indexes from the one history.
  have hsame : ∀ line ∈ dynamicMatches encoder fields known, ∀ found, line.2 = some found →
      found.absoluteIndex < encoder.insertCount ∧
        (found.absoluteIndex ∈ (encodeFieldLines encoder.insertCount
            (dynamicMatches encoder fields known) []).2 →
          MatchHeld decoder encoder.insertCount line.1 found) := by
    intro line hline found hfound
    obtain ⟨hlt, entry, hentry, hname, hvalue⟩ := (hmatched line hline).2 found hfound
    have hbelow : found.absoluteIndex < encoder.insertCount := by omega
    refine ⟨hbelow, fun hreference => ⟨hbelow, ?_⟩⟩
    obtain ⟨other, hother⟩ := Option.isSome_iff_exists.mp (hheld _ hreference)
    obtain ⟨hmem, hindex⟩ := hE.sound.absolute.mp hentry
    obtain ⟨hmem', hindex'⟩ := hD.sound.absolute.mp hother
    have hrecord := hE.recorded entry hmem
    have hrecord' := hD.recorded other hmem'
    rw [getElem?_take, hindex', if_pos (by omega), ← hindex, hrecord, Option.some.injEq]
      at hrecord'
    obtain ⟨hnames, hvalues⟩ := Prod.mk.inj hrecord'
    exact ⟨other, hother, hnames.symm.trans hname, fun hfull => hvalues.symm.trans (hvalue hfull)⟩
  have hdecoded := decodeRequiredInsertCount_encoded hencoded
    (Nat.le_add_right_of_le (hrequired.trans hknown)) (fun hne => Nat.lt_of_le_of_lt (by omega) (hnear hne))
  rw [hentriesE] at hdecoded
  by_cases hfits : CountFits (requiredInsertCountOf (dynamicMatches encoder fields known))
      (maxCapacity / dynamicEntryOverhead) inserted
  · rw [if_pos hfits] at hdecoded ⊢
    have hcounted := @reads_fieldSectionPrefix decoder
      (requiredInsertCountOf (dynamicMatches encoder fields known)) encoded encoder.insertCount hbound hbase
      (by omega) (by rw [hentriesD, hcountD]; exact hdecoded)
    have hlines := @decodeFieldLines_encodeFieldLines decoder encoder.insertCount hbase
      (dynamicMatches encoder fields known) [] _
      (fun line hline => hfields line.1 (hmatched line hline).1) hsame (Nat.lt_succ_self _)
    unfold decodeDynamicBlock
    rw [← append_assoc, hcounted]
    dsimp only
    rw [if_neg (by omega), hlines, hall, hcountE]
    rfl
  rw [if_neg hfits] at hdecoded ⊢
  obtain ⟨low, rest, hlow, hbytes, hreads⟩ :=
    @reads_decodePrefixedInteger 8 encoded 0x00 (by omega) (by omega) rfl hbound
  unfold decodeDynamicBlock
  have hcounted : ∀ more, decodeFieldSectionPrefix decoder
      (encodeInteger 8 0x00 encoded ++ more) = .error .qpackDecompressionFailed := by
    intro more
    rw [hbytes]
    refine Reader.bind_error_iff.mpr (.inr ⟨_, _, rfl, ?_⟩)
    refine Reader.bind_error_iff.mpr (.inr ⟨_, _, hreads more, ?_⟩)
    refine Reader.bind_error_iff.mpr (.inl ?_)
    rw [hentriesD, hcountD, hdecoded]
    rfl
  rw [hcounted]

end RoundTrip

/-! ### A count that does not fit -/

/-- Strings hashed to their lengths. -/
@[reducible] def lengthHash : StringHash := ⟨length⟩

/-- A table of one entry, which the last of `count` insertions of the empty field has made. -/
def lastOf (count : Nat) : DynamicTable where
  entries := [@DynamicTable.entryFor lengthHash (count - 1) [] []]
  latestName := [(0, count - 1)]
  latestExact := [((0, 0), count - 1)]
  currentSize := 32
  capacity := 32
  maxCapacity := 32
  insertCount := count

lemma insert_lastOf {count : Nat} (hpos : 0 < count) (h : count < maxU64) :
    @DynamicTable.insert lengthHash (lastOf count) [] [] = (.ok count, lastOf (count + 1)) := by
  have hlast : ∀ {κ : Type} [DecidableEq κ] (key : κ),
      Table.upsert [(key, count - 1)] key count = [(key, count)] := by
    simp [Table.upsert, Table.get, Table.assign]
  have hkeep : ∀ {κ : Type} [DecidableEq κ] (key : κ),
      Table.get [(key, count)] key ≠ some (count - 1) := by
    intro κ _ key hsame
    simp only [Table.get, find?_cons, beq_self_eq_true, Option.map_some,
      Option.some.injEq] at hsame
    omega
  unfold DynamicTable.insert dynamicEntrySize
  refine (if_neg (Nat.lt_irrefl 32)).trans ((if_neg (Nat.not_le_of_lt h)).trans ?_)
  have hhash : @dynamicStringHash lengthHash [] = 0 := rfl
  unfold DynamicTable.push DynamicTable.reserve
  simp [lastOf, DynamicTable.compactIfNeeded, DynamicTable.evictToFit, DynamicTable.evictLoop,
    DynamicTable.entryCount, DynamicTable.removeLatestIndexes, hlast, hkeep, hhash,
    DynamicTable.entryFor, dynamicEntryOverhead, DynamicEntry.size]

/-- The empty field may be inserted as often as there are indexes. -/
theorem replays_lastOf {count : Nat} (hpos : 0 < count) (h : count ≤ maxU64) :
    @Replays lengthHash 32 (replicate count ([], [])) (lastOf count) := by
  let _ := lengthHash
  induction count with
  | zero => cases hpos
  | succ count ih =>
    rw [replicate_succ']
    by_cases hzero : count = 0
    · rw [hzero]
      have hset : (DynamicTable.init 32).setCapacity 32 =
          .ok { DynamicTable.init 32 with capacity := 32 } := by decide
      exact .insert (.setCapacity .init hset) (show @DynamicTable.insert lengthHash _ [] [] =
        (.ok 0, lastOf 1) by decide)
    · have hlt : 0 < count := Nat.pos_of_ne_zero hzero
      exact .insert (ih hlt (Nat.le_of_succ_le h)) (insert_lastOf hlt h)

/-- One field with the name of the only entry, and one that is the entry. -/
def twoFields : List HeaderField := [{ name := [], value := [7] }, { name := [], value := [] }]

theorem field_sections_round_trip_once :
    ∃ block references,
      @encodeDynamicBlockKnownReceived lengthHash (lastOf 1) twoFields 1 = .ok (block, references) ∧
      ((∀ index ∈ references, ((lastOf 1).absolute index).isSome) →
        decodeDynamicBlock (lastOf 1) block =
          if CountFits (requiredInsertCountOf (@dynamicMatches lengthHash (lastOf 1) twoFields 1))
              (32 / dynamicEntryOverhead) 1 then
            .ok
              { fields := twoFields
                requiredInsertCount :=
                  requiredInsertCountOf (@dynamicMatches lengthHash (lastOf 1) twoFields 1)
                base := 1 }
          else .error .qpackDecompressionFailed) :=
  @field_sections_round_trip lengthHash 32 (by decide) [([], [])] (lastOf 1) (lastOf 1) 1 1
    (@replays_lastOf 1 (by decide) (by decide)) (by decide)
    (@replays_lastOf 1 (by decide) (by decide)) (by decide) twoFields (by decide)

/-- A section that the very table that wrote it does not read. -/
theorem section_not_read :
    ∃ history table block references, @Replays lengthHash 32 history table ∧
      @encodeDynamicBlockKnownReceived lengthHash table [{ name := [], value := [] }]
          history.length = .ok (block, references) ∧
      (∀ index ∈ references, (table.absolute index).isSome) ∧
      decodeDynamicBlock table block = .error .qpackDecompressionFailed := by
  refine ⟨replicate maxU64 ([], []), lastOf maxU64, [0x02, 0x00, 0x80], [maxU64 - 1],
    replays_lastOf (by decide) le_rfl, ?_, by decide +kernel, by decide +kernel⟩
  rw [length_replicate]
  decide +kernel

end Netz.Http.Qpack
