/-
HPACK blocks are read back, and both tables stay the same.

Encoder and decoder agree when their tables have the same content and the same limit.  One field
is read back by a decoder that agrees, and leaves the two in agreement, so a whole block does.
Between the blocks only the limits differ, by what the size updates will tell.
-/
import Netz.Lib.Machine
import Netz.Proofs.HpackTable
import Netz.Proofs.Huffman

namespace Netz.Http.Hpack

open Lib List
open DynamicTable

/-- Integers up to here are read back where five bits are in the first byte. -/
def maxReadSize : Nat := 2 ^ 63 + 30

/-- Two tables with the same content and the same limit. -/
structure Agrees (encoder decoder : DynamicTable) : Prop where
  encoderSound : encoder.Sound
  decoderSound : decoder.Sound
  live : encoder.live = decoder.live
  limit : encoder.sizeLimit = decoder.sizeLimit

variable {encoder decoder table : DynamicTable} {index low maxSize rounds : Nat}
  {name value : Bytes} {field : HeaderField} {sawHeader : Bool} {fields : List HeaderField}
  {link : Link}

lemma Agrees.add (h : Agrees encoder decoder) (name value : Bytes) :
    Agrees (encoder.add name value) (decoder.add name value) := by
  obtain ⟨henc, hencoderLive, hencoderLimit⟩ := h.encoderSound.add name value
  obtain ⟨hdec, hdecoderLive, hdecoderLimit⟩ := h.decoderSound.add name value
  refine ⟨henc, hdec, ?_, ?_⟩
  · rw [hencoderLive, hdecoderLive, h.live, h.limit]
  · rw [hencoderLimit, hdecoderLimit, h.limit]

/-! ### Indexes -/

lemma indexedHeader_static (hpos : 0 < index)
    (hent : staticTable[index - 1]? = some (name, value)) :
    indexedHeader table index = .ok { name := name, value := value } := by
  simp [Nat.ne_of_gt hpos, hent, indexedHeader]

lemma indexedHeader_dynamic (h : table.Indexed) {entry : HeaderField}
    (hlow : staticTable.length < index)
    (hent : table.live.reverse[index - staticTable.length - 1]? = some entry) :
    indexedHeader table index = .ok { name := entry.name, value := entry.value } := by
  unfold indexedHeader
  rw [if_neg (by omega), getElem?_eq_none (by omega), h.get_eq, hent]

lemma static_bound {entry : Bytes × Bytes} (hent : staticTable[index - 1]? = some entry) :
    index ≤ 61 := by
  have hlt := lt_of_getElem? hent
  rw [staticTable_length] at hlt
  omega

lemma dynamic_bound (h : table.Sound) (hlim : table.sizeLimit ≤ maxReadSize)
    (hidx : index ≤ staticTable.length + table.live.length) : index < 2 ^ 63 := by
  have hlen := h.length_le
  rw [staticTable_length] at hidx
  unfold maxReadSize at hlim
  omega

lemma Agrees.indexedHeader (h : Agrees encoder decoder) (hlim : encoder.sizeLimit ≤ maxReadSize)
    (hidx : (match findStaticIndex name value with
      | some index => some index
      | none => encoder.findIndex name value) = some index) :
    index < 2 ^ 63 ∧ Hpack.indexedHeader decoder index = .ok { name := name, value := value } := by
  cases hstatic : findStaticIndex name value with
  | some static =>
    rw [hstatic] at hidx
    cases hidx
    obtain ⟨hpos, hent⟩ := findStaticIndex_sound hstatic
    have hbound := static_bound hent
    exact ⟨by omega, indexedHeader_static hpos hent⟩
  | none =>
    rw [hstatic] at hidx
    obtain ⟨hlow, hhigh, entry, hent, rfl, rfl⟩ := h.encoderSound.findIndex hidx
    rw [h.live] at hent
    exact ⟨dynamic_bound h.encoderSound hlim hhigh,
      indexedHeader_dynamic h.decoderSound.toIndexed hlow hent⟩

lemma Agrees.indexedName (h : Agrees encoder decoder) (hlim : encoder.sizeLimit ≤ maxReadSize)
    (hidx : (match findStaticNameIndex name with
      | some index => some index
      | none => encoder.findNameIndex name) = some index) :
    0 < index ∧ index < 2 ^ 63 ∧ Hpack.indexedName decoder index = .ok name := by
  unfold Hpack.indexedName
  cases hstatic : findStaticNameIndex name with
  | some static =>
    rw [hstatic] at hidx
    cases hidx
    obtain ⟨hpos, hname⟩ := findStaticNameIndex_sound hstatic
    obtain ⟨entry, hent, rfl⟩ := Option.map_eq_some_iff.mp hname
    have hbound := static_bound hent
    refine ⟨hpos, by omega, ?_⟩
    rw [indexedHeader_static hpos hent]
    rfl
  | none =>
    rw [hstatic] at hidx
    obtain ⟨hlow, hhigh, entry, hent, rfl⟩ := h.encoderSound.findNameIndex hidx
    rw [h.live] at hent
    refine ⟨by omega, dynamic_bound h.encoderSound hlim hhigh, ?_⟩
    rw [indexedHeader_dynamic h.decoderSound.toIndexed hlow hent]
    rfl

/-! ### One instruction -/

lemma firstByte_indexed (h : low < 2 ^ 7) : firstByte 0x80 low &&& 0x80 ≠ 0 := by
  have hall : ∀ low < 128, firstByte 0x80 low &&& 0x80 ≠ 0 := by decide
  exact hall low h

lemma firstByte_sizeUpdate (h : low < 2 ^ 5) :
    firstByte 0x20 low &&& 0x80 = 0 ∧ firstByte 0x20 low &&& 0xe0 = 0x20 := by
  have hall : ∀ low < 32, firstByte 0x20 low &&& 0x80 = 0 ∧ firstByte 0x20 low &&& 0xe0 = 0x20 := by
    decide
  exact hall low h

/-- The first byte of a literal with `prefixBits` below its pattern. -/
def LiteralForm (indexedLiteral : Bool) (prefixBits : Nat) (highBits : UInt8) : Prop :=
  prefixBits = (if indexedLiteral then 6 else 4) ∧
    highBits &&& UInt8.ofNat (2 ^ prefixBits - 1) = 0 ∧
    ∀ low < 2 ^ prefixBits,
      firstByte highBits low &&& 0x80 = 0 ∧ firstByte highBits low &&& 0xe0 ≠ 0x20 ∧
        (firstByte highBits low &&& 0x40 != 0) = indexedLiteral

lemma incremental_form : LiteralForm true 6 0x40 := by
  refine ⟨rfl, rfl, ?_⟩
  have hall : ∀ low < 64, firstByte 0x40 low &&& 0x80 = 0 ∧ firstByte 0x40 low &&& 0xe0 ≠ 0x20 ∧
      (firstByte 0x40 low &&& 0x40 != 0) = true := by decide
  exact hall

lemma plain_form (neverIndex : Bool) :
    LiteralForm false 4 (if neverIndex then 0x10 else 0x00) := by
  have hall : ∀ low < 16, ∀ highBits ∈ [(0x10 : UInt8), 0x00],
      firstByte highBits low &&& 0x80 = 0 ∧ firstByte highBits low &&& 0xe0 ≠ 0x20 ∧
        (firstByte highBits low &&& 0x40 != 0) = false := by
    decide +kernel
  cases neverIndex with
  | true | false => exact ⟨rfl, rfl, fun low hlow => hall low hlow _ (by simp)⟩

lemma reads_indexed (hidx : index < 2 ^ 63) (hfield : indexedHeader table index = .ok field)
    (maxSize : Nat) (sawHeader : Bool) :
    Reader.Reads (decodeOne table maxSize sawHeader) (encodeInteger 7 0x80 index)
      { field := some field, table := table } := by
  obtain ⟨low, rest, hlow, hbytes, hreads⟩ :=
    @reads_decodeInteger 7 index 0x80 (by omega) (by omega) rfl (by omega)
  rw [hbytes]
  refine (Reader.reads_next Error.bufferTooShort _).bind ?_
  rw [if_pos (firstByte_indexed hlow)]
  refine hreads.map ?_
  rw [hfield]
  rfl

lemma reads_sizeUpdate {table : DynamicTable} {size maxSize : Nat} (hsize : size ≤ maxReadSize)
    (hmax : size ≤ maxSize) :
    Reader.Reads (decodeOne table maxSize false) (encodeInteger 5 0x20 size)
      { field := none, table := table.setLimit size } := by
  unfold maxReadSize at hsize
  obtain ⟨low, rest, hlow, hbytes, hreads⟩ :=
    @reads_decodeInteger 5 size 0x20 (by omega) (by omega) rfl (by omega)
  obtain ⟨hidx, hupdate⟩ := firstByte_sizeUpdate hlow
  rw [hbytes]
  refine (Reader.reads_next Error.bufferTooShort _).bind ?_
  rw [if_neg (by simpa using hidx), if_pos hupdate]
  refine hreads.map ?_
  rw [if_neg (Nat.not_lt_of_le hmax)]

lemma reads_literal {indexedLiteral : Bool} {prefixBits : Nat} {highBits : UInt8}
    (hform : LiteralForm indexedLiteral prefixBits highBits) {nameIndex : Option Nat}
    (hindex : ∀ index, nameIndex = some index →
      0 < index ∧ index < 2 ^ 63 ∧ indexedName table index = .ok name)
    (hname : name.length < 2 ^ 63) (hvalue : value.length < 2 ^ 63) (maxSize : Nat)
    (sawHeader : Bool) :
    ∃ neverIndex, Reader.Reads (decodeOne table maxSize sawHeader)
      (encodeInteger prefixBits highBits (nameIndex.getD 0) ++
        ((if nameIndex.isNone then encodeString name else []) ++ encodeString value))
      { field := some { name := name, value := value, neverIndex := neverIndex }
        table := if indexedLiteral then table.add name value else table } := by
  obtain ⟨hbits, hhigh, hfirst⟩ := hform
  have hwidth : 0 < prefixBits ∧ prefixBits ≤ 8 := by
    rw [hbits]
    cases indexedLiteral with
    | true | false => exact ⟨by decide, by decide⟩
  have hsmall : nameIndex.getD 0 < 2 ^ 63 := by
    cases nameIndex with
    | none => exact Nat.two_pow_pos 63
    | some index => exact (hindex index rfl).2.1
  obtain ⟨low, rest, hlow, hbytes, hreads⟩ :=
    reads_decodeInteger hwidth.2 hwidth.1 hhigh (Nat.lt_add_right _ hsmall)
  obtain ⟨hidx, hupdate, hliteral⟩ := hfirst low hlow
  have hreadName : Reader.Reads (decodeName table (nameIndex.getD 0))
      (if nameIndex.isNone then encodeString name else []) name := by
    unfold decodeName
    cases nameIndex with
    | none => exact reads_decodeString hname
    | some index =>
      obtain ⟨hpos, -, hfound⟩ := hindex index rfl
      rw [Option.getD_some, if_neg hpos.ne', hfound]
      exact Reader.Reads.done name
  refine ⟨firstByte highBits low &&& 0x10 != 0, ?_⟩
  rw [hbytes]
  refine (Reader.reads_next Error.bufferTooShort _).bind ?_
  rw [if_neg (by simpa using hidx), if_neg hupdate]
  unfold decodeLiteral
  dsimp only
  rw [hliteral, ← hbits]
  refine hreads.bind (hreadName.bind ((reads_decodeString hvalue).map ?_))
  rfl

/-- Name and value of a field. -/
def content (field : HeaderField) : Bytes × Bytes := (field.name, field.value)

def shortField (field : HeaderField) : Prop :=
  field.name.length < 2 ^ 63 ∧ field.value.length < 2 ^ 63

instance (field : HeaderField) : Decidable (shortField field) :=
  inferInstanceAs (Decidable (_ ∧ _))

/-- **A field is read back, and the tables agree behind it.** -/
theorem reads_encodeField (h : Agrees encoder decoder) (hlim : encoder.sizeLimit ≤ maxReadSize)
    (hshort : shortField field) (maxSize : Nat) (sawHeader : Bool) :
    ∃ decoded table, Reader.Reads (decodeOne decoder maxSize sawHeader) (encodeField encoder field).1
        { field := some decoded, table := table } ∧
      content decoded = content field ∧ Agrees (encodeField encoder field).2 table ∧
      (encodeField encoder field).2.sizeLimit = encoder.sizeLimit := by
  unfold encodeField
  dsimp only
  generalize (field.neverIndex || sensitiveHeaderName field.name) = neverIndex
  generalize hidx : (if neverIndex = true then none else _) = indexed
  cases indexed with
  | some index =>
    rw [Option.ite_none_left_eq_some] at hidx
    obtain ⟨hbound, hhdr⟩ := h.indexedHeader hlim hidx.2
    exact ⟨_, decoder, reads_indexed hbound hhdr maxSize sawHeader, rfl, h, rfl⟩
  | none =>
    have hfound : ∀ index, (match findStaticNameIndex field.name with
        | some index => some index
        | none => encoder.findNameIndex field.name) = some index →
        0 < index ∧ index < 2 ^ 63 ∧ indexedName decoder index = .ok field.name :=
      fun index hindex => h.indexedName hlim hindex
    generalize (!neverIndex && !skipValueIndex field.name &&
      shouldIndexField field encoder.sizeLimit) = canIndex
    cases canIndex with
    | true =>
      obtain ⟨never, hreads⟩ := reads_literal incremental_form hfound hshort.1 hshort.2 maxSize
        sawHeader
      exact ⟨_, _, hreads, rfl, h.add _ _, (h.encoderSound.add _ _).2.2⟩
    | false =>
      obtain ⟨never, hreads⟩ := reads_literal (plain_form neverIndex) hfound hshort.1 hshort.2
        maxSize sawHeader
      exact ⟨_, _, hreads, rfl, h, rfl⟩

/-! ### A block -/

lemma decodeLoop_reads {word rest : Bytes} {decoded : Decoded}
    (hreads : Reader.Reads (decodeOne table maxSize sawHeader) word decoded)
    (hfuel : (word ++ rest).length < rounds) (fields : List HeaderField) :
    ∃ left, rest.length < left ∧
      decodeLoop maxSize rounds table sawHeader fields (word ++ rest) =
        decodeLoop maxSize left decoded.table (sawHeader || decoded.field.isSome)
          (fields ++ decoded.field.toList) rest := by
  have hword : word ≠ [] := by
    intro hnil
    have hnone := hreads []
    rw [hnil] at hnone
    cases hnone
  have hpos := length_pos_iff.mpr hword
  cases rounds with
  | zero => omega
  | succ rounds =>
    refine ⟨rounds, ?_, ?_⟩
    · rw [length_append] at hfuel
      omega
    · simp [hreads rest, hword, decodeLoop]

lemma decodeLoop_encodeFields (h : Agrees encoder decoder)
    (hlim : encoder.sizeLimit ≤ maxReadSize) (hshort : ∀ field ∈ fields, shortField field)
    (hfuel : (encodeFields encoder fields).1.length < rounds) (before : List HeaderField) :
    ∃ decoded table,
      decodeLoop maxSize rounds decoder sawHeader before (encodeFields encoder fields).1 =
        (.ok (before ++ decoded), table) ∧
      decoded.map content = fields.map content ∧ Agrees (encodeFields encoder fields).2 table ∧
      (encodeFields encoder fields).2.sizeLimit = encoder.sizeLimit := by
  induction fields generalizing encoder decoder rounds sawHeader before with
  | nil =>
    refine ⟨[], decoder, ?_, rfl, h, rfl⟩
    cases rounds with
    | zero => cases hfuel
    | succ rounds => rw [append_nil]; rfl
  | cons field rest ih =>
    obtain ⟨first, table, hreads, hcontent, hagrees, hsame⟩ :=
      reads_encodeField h hlim (hshort field mem_cons_self) maxSize sawHeader
    obtain ⟨left, hleft, hloop⟩ := decodeLoop_reads hreads hfuel before
    obtain ⟨decoded, last, hrest, hcontents, hlast, hlimits⟩ := ih hagrees (by rw [hsame]; exact hlim)
      (fun f hf => hshort f (mem_cons_of_mem field hf)) hleft (before ++ [first])
    refine ⟨first :: decoded, last, ?_, ?_, hlast, hlimits.trans hsame⟩
    · refine (hloop.trans hrest).trans ?_
      simp
    · rw [map_cons, map_cons, hcontent, hcontents]

/-! ### Both ends -/

/-- How the limits differ while an update is pending. -/
def Pending (last encoderLimit decoderLimit : Nat) : Option SizeUpdate → Prop
  | none => encoderLimit = last ∧ decoderLimit = last
  | some (.one size) => encoderLimit = size ∧ decoderLimit = min last size
  | some (.two least size) =>
    encoderLimit = size ∧ decoderLimit = least ∧ least ≤ size ∧ least ≤ last

/-- What holds between two steps. -/
structure Sync (link : Link) : Prop where
  encoderSound : link.encoder.dynamicTable.Sound
  decoderSound : link.decoder.dynamicTable.Sound
  live : link.encoder.dynamicTable.live = link.decoder.dynamicTable.live
  maxSize : link.decoder.maxDynamicTableSize = link.encoder.dynamicTable.sizeLimit
  limit_le : link.encoder.dynamicTable.sizeLimit ≤ maxReadSize
  pending : Pending link.encoder.lastEmittedDynamicTableSize link.encoder.dynamicTable.sizeLimit
    link.decoder.dynamicTable.sizeLimit link.encoder.pendingSizeUpdate

lemma sync_start : Sync {} where
  encoderSound := sound_empty
  decoderSound := sound_empty
  live := rfl
  maxSize := rfl
  limit_le := by decide
  pending := ⟨rfl, rfl⟩

/-- The updates that are queued tell of the least size since the last block, and of the size
now. -/
theorem pending_queueSizeUpdate {encoder : Encoder} {encoderLimit decoderLimit : Nat}
    (h : Pending encoder.lastEmittedDynamicTableSize encoderLimit decoderLimit
      encoder.pendingSizeUpdate) (maxSize : Nat) :
    Pending encoder.lastEmittedDynamicTableSize maxSize (min decoderLimit maxSize)
      (encoder.queueSizeUpdate maxSize) := by
  unfold Encoder.queueSizeUpdate
  cases hpend : encoder.pendingSizeUpdate with
  | none =>
    rw [hpend] at h
    obtain ⟨-, hdec⟩ := h
    by_cases hnew : maxSize ≠ encoder.lastEmittedDynamicTableSize
    · rw [if_pos hnew, hdec]
      exact ⟨rfl, rfl⟩
    rw [if_neg hnew]
    have hsame := not_not.mp hnew
    exact ⟨hsame, by omega⟩
  | some update =>
    rw [hpend] at h
    cases update with
    | one old =>
      obtain ⟨-, hdec⟩ := h
      dsimp only
      by_cases hraised : old < maxSize
      · rw [if_pos hraised]
        by_cases habove : encoder.lastEmittedDynamicTableSize < old
        · rw [if_pos habove]
          exact ⟨rfl, by omega⟩
        · rw [if_neg habove]
          exact ⟨rfl, by omega, by omega, by omega⟩
      · rw [if_neg hraised]
        exact ⟨rfl, by omega⟩
    | two least size =>
      obtain ⟨-, hdec, hle, hlast⟩ := h
      dsimp only
      by_cases hlower : maxSize < least
      · rw [if_pos hlower]
        exact ⟨rfl, by omega⟩
      · rw [if_neg hlower]
        exact ⟨rfl, by omega, by omega, hlast⟩

/-- A table is cut where the new size is below its limit, and has nothing to give up where it
is not. -/
theorem setMax_decoder {decoder : Decoder} (h : decoder.dynamicTable.Sound) (maxSize : Nat) :
    (decoder.setMaxDynamicTableSize maxSize).dynamicTable.Sound ∧
      (decoder.setMaxDynamicTableSize maxSize).dynamicTable.live =
        evict entrySize maxSize decoder.dynamicTable.live ∧
      (decoder.setMaxDynamicTableSize maxSize).dynamicTable.sizeLimit =
        min decoder.dynamicTable.sizeLimit maxSize := by
  unfold Decoder.setMaxDynamicTableSize
  dsimp only
  by_cases hlower : maxSize < decoder.dynamicTable.sizeLimit
  · rw [if_pos hlower]
    obtain ⟨hsound, hlive, hlim⟩ := h.setLimit maxSize
    exact ⟨hsound, hlive, by omega⟩
  rw [if_neg hlower]
  have hused := h.used_eq
  have hfits := h.used_le
  exact ⟨h, (evict_of_le entrySize (by omega)).symm, by omega⟩

lemma Sync.setMax (h : Sync link) (hsize : maxSize ≤ maxReadSize) :
    Sync (link.step (.setMaxDynamicTableSize maxSize)).2 := by
  obtain ⟨henc, hencoderLive, hencoderLimit⟩ := h.encoderSound.setLimit maxSize
  obtain ⟨hdec, hdecoderLive, hdecoderLimit⟩ := setMax_decoder h.decoderSound maxSize
  refine ⟨henc, hdec, ?_, hencoderLimit.symm, ?_, ?_⟩
  · rw [← h.live] at hdecoderLive
    exact hencoderLive.trans hdecoderLive.symm
  · exact hencoderLimit.le.trans hsize
  have hpend := pending_queueSizeUpdate h.pending maxSize
  rw [← hdecoderLimit] at hpend
  show Pending _ (link.encoder.dynamicTable.setLimit maxSize).sizeLimit _ _
  rw [hencoderLimit]
  exact hpend

/-- The updates in front of a block bring the limits together. -/
theorem Sync.updates {link : Link} (h : Sync link) {update : SizeUpdate}
    (hupdate : link.encoder.pendingSizeUpdate = some update) {bytes : Bytes} {rounds : Nat}
    (hfuel : (update.encode ++ bytes).length < rounds) :
    ∃ table left, bytes.length < left ∧ Agrees link.encoder.dynamicTable table ∧
      link.encoder.dynamicTable.sizeLimit = update.last ∧
      decodeLoop link.decoder.maxDynamicTableSize rounds link.decoder.dynamicTable false []
          (update.encode ++ bytes) =
        decodeLoop link.decoder.maxDynamicTableSize left table false [] bytes := by
  have hpend := h.pending
  have hmax := h.maxSize
  have hlim := h.limit_le
  have hfits : totalSize entrySize link.decoder.dynamicTable.live ≤
      link.encoder.dynamicTable.sizeLimit := by
    rw [← h.live, ← h.encoderSound.used_eq]
    exact h.encoderSound.used_le
  rw [hupdate] at hpend
  cases update with
  | one size =>
    obtain ⟨henc, -⟩ := hpend
    have hreads := @reads_sizeUpdate link.decoder.dynamicTable size
      link.decoder.maxDynamicTableSize (by omega) (by omega)
    obtain ⟨left, hleft, hloop⟩ := decodeLoop_reads hreads hfuel []
    obtain ⟨hsound, hlive, hnew⟩ := @Sound.setLimit_of_le _ h.decoderSound size (by omega)
    exact ⟨_, left, hleft, ⟨h.encoderSound, hsound, h.live.trans hlive.symm, by omega⟩, henc, hloop⟩
  | two least size =>
    obtain ⟨henc, hdec, hle, -⟩ := hpend
    have hused := h.decoderSound.used_eq
    have hwithin := h.decoderSound.used_le
    unfold SizeUpdate.encode at hfuel ⊢
    rw [append_assoc] at hfuel ⊢
    have hreads := @reads_sizeUpdate link.decoder.dynamicTable least
      link.decoder.maxDynamicTableSize (by omega) (by omega)
    obtain ⟨left, hleft, hloop⟩ := decodeLoop_reads hreads hfuel []
    obtain ⟨hsound, hlive, -⟩ := @Sound.setLimit_of_le _ h.decoderSound least (by omega)
    have hreads' := @reads_sizeUpdate (link.decoder.dynamicTable.setLimit least) size
      link.decoder.maxDynamicTableSize (by omega) (by omega)
    obtain ⟨left', hleft', hloop'⟩ := decodeLoop_reads hreads' hleft []
    obtain ⟨hsound', hlive', hnew⟩ := @Sound.setLimit_of_le _ hsound size (by rw [hlive]; omega)
    exact ⟨_, left', hleft',
      ⟨h.encoderSound, hsound', (h.live.trans hlive.symm).trans hlive'.symm, by omega⟩, henc,
      hloop.trans hloop'⟩

/-- **One block is read back, and the tables agree behind it.** -/
theorem Sync.block (h : Sync link) (hshort : ∀ field ∈ fields, shortField field) :
    Sync (link.step (.block fields)).2 ∧
      Agrees (link.step (.block fields)).2.encoder.dynamicTable
        (link.step (.block fields)).2.decoder.dynamicTable ∧
      ∃ decoded, (link.step (.block fields)).1 = some (.ok decoded) ∧
        decoded.map content = fields.map content := by
  -- What is left of the decoder's loop once the size updates are behind it.
  have hbody : ∀ table left, Agrees link.encoder.dynamicTable table →
      (encodeFields link.encoder.dynamicTable fields).1.length < left → ∃ decoded last,
        decodeLoop link.decoder.maxDynamicTableSize left table false []
            (encodeFields link.encoder.dynamicTable fields).1 = (.ok decoded, last) ∧
          decoded.map content = fields.map content ∧
          Agrees (encodeFields link.encoder.dynamicTable fields).2 last ∧
          (encodeFields link.encoder.dynamicTable fields).2.sizeLimit =
            link.encoder.dynamicTable.sizeLimit :=
    fun table left hagrees hleft => decodeLoop_encodeFields hagrees h.limit_le hshort hleft []
  have hpend := h.pending
  unfold Link.step Encoder.encodeBlock Decoder.decodeBlock
  cases hupdate : link.encoder.pendingSizeUpdate with
  | none =>
    rw [hupdate] at hpend
    obtain ⟨henc, hdec⟩ := hpend
    obtain ⟨decoded, last, hloop, hcontents, hagrees, hlim⟩ := hbody link.decoder.dynamicTable _
      ⟨h.encoderSound, h.decoderSound, h.live, henc.trans hdec.symm⟩ (Nat.lt_succ_self _)
    dsimp only
    rw [hloop]
    refine ⟨⟨hagrees.encoderSound, hagrees.decoderSound, hagrees.live, ?_, ?_, ?_⟩, hagrees,
      decoded, rfl, hcontents⟩
    · exact h.maxSize.trans hlim.symm
    · exact hlim.le.trans h.limit_le
    · exact ⟨hlim.trans henc, hagrees.limit.symm.trans (hlim.trans henc)⟩
  | some update =>
    obtain ⟨table, left, hleft, hagree, hlast, hupdates⟩ := @Sync.updates link h update hupdate
      (encodeFields link.encoder.dynamicTable fields).1 _ (Nat.lt_succ_self _)
    obtain ⟨decoded, last, hloop, hcontents, hagrees, hlim⟩ := hbody table left hagree hleft
    dsimp only
    rw [hupdates, hloop]
    refine ⟨⟨hagrees.encoderSound, hagrees.decoderSound, hagrees.live, ?_, ?_, ?_⟩, hagrees,
      decoded, rfl, hcontents⟩
    · exact h.maxSize.trans hlim.symm
    · exact hlim.le.trans h.limit_le
    · exact ⟨hlim.trans hlast, hagrees.limit.symm.trans (hlim.trans hlast)⟩

/-- Sizes and strings whose integers the decoder reads. -/
def Op.Readable : Op → Prop
  | .setMaxDynamicTableSize maxSize => maxSize ≤ maxReadSize
  | .block fields => ∀ field ∈ fields, shortField field

instance : ∀ op : Op, Decidable op.Readable
  | .setMaxDynamicTableSize maxSize => inferInstanceAs (Decidable (maxSize ≤ maxReadSize))
  | .block fields => inferInstanceAs (Decidable (∀ field ∈ fields, shortField field))

/-- A field that gets an entry, a size that evicts it, a size above it, and the field again. -/
def raisedAgain : List Op :=
  [.block [{ name := ascii "x-trace", value := ascii "on" }],
    .setMaxDynamicTableSize 40,
    .setMaxDynamicTableSize 4096,
    .block [{ name := ascii "x-trace", value := ascii "on" }]]

end Netz.Http.Hpack
