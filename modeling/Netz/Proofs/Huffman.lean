/-
Huffman strings are read back.

The register of the encoder stands for a bit string: what it has written, followed by what it
still holds.  The decoder, on the other side, reads that bit string one code word at a time, and
what is left at the end is padding.
-/
import Netz.Http.Huffman
import Netz.Proofs.PrefixedInteger

namespace Netz.Http.Huffman

open Lib Progress List

/-! ### The table -/

/-- Neither code word begins the other, as numbers. -/
def apart (a b : Entry) : Bool :=
  if Nat.ble a.bits b.bits then
    !(Nat.beq (Nat.div b.code (Nat.pow 2 (Nat.sub b.bits a.bits))) a.code)
  else !(Nat.beq (Nat.div a.code (Nat.pow 2 (Nat.sub a.bits b.bits))) b.code)

def allApart : List Entry → Bool
  | [] => true
  | entry :: rest => rest.all (apart entry) && allApart rest

lemma pairwise_of_allApart {entries : List Entry} (h : allApart entries = true) :
    entries.Pairwise fun a b => apart a b = true := by
  induction entries with
  | nil => exact .nil
  | cons entry rest ih =>
    unfold allApart at h
    rw [Bool.and_eq_true, all_eq_true] at h
    exact .cons h.1 (ih h.2)

set_option maxRecDepth 4000 in
lemma allApart_encodeTable : allApart encodeTable = true := by decide +kernel

set_option maxRecDepth 4000 in
lemma encodeTable_bounds : ∀ entry ∈ encodeTable,
    0 < entry.bits ∧ entry.bits ≤ maxCodeBits ∧ entry.code < 2 ^ entry.bits := by
  decide +kernel

set_option maxRecDepth 4000 in
lemma length_encodeTable : encodeTable.length = 257 := rfl

set_option maxRecDepth 4000 in
lemma encodeTable_eos : encodeTable[eosSymbol]? = some ⟨30, 2 ^ 30 - 1⟩ := rfl

/-- The code word of an entry. -/
def Entry.word (entry : Entry) : List Bool := bitsOf entry.bits entry.code

lemma not_begins_of_apart {a b : Entry} (ha : a.code < 2 ^ a.bits) (hb : b.code < 2 ^ b.bits)
    (h : apart a b = true) : ¬ a.word <+: b.word ∧ ¬ b.word <+: a.word := by
  have hkey : ∀ {c d : Entry}, c.code < 2 ^ c.bits → d.code < 2 ^ d.bits → c.word <+: d.word →
      c.bits ≤ d.bits ∧ d.code / 2 ^ (d.bits - c.bits) = c.code := by
    intro c d hc hd hbegin
    obtain ⟨hle, hfront⟩ := eq_of_bitsOf_begins hc hbegin
    refine ⟨hle, ?_⟩
    rw [Nat.mod_eq_of_lt] at hfront
    · exact hfront
    · rw [Nat.div_lt_iff_lt_mul (Nat.two_pow_pos _), ← Nat.pow_add, Nat.add_sub_cancel' hle]
      exact hd
  unfold apart at h
  constructor
  · intro hbegin
    obtain ⟨hle, hfront⟩ := hkey ha hb hbegin
    rw [if_pos (Nat.ble_eq.mpr hle)] at h
    have hsame : Nat.beq (b.code / 2 ^ (b.bits - a.bits)) a.code = true := Nat.beq_eq.mpr hfront
    exact absurd (h.symm.trans (congrArg not hsame)) (by simp)
  intro hbegin
  obtain ⟨hle, hfront⟩ := hkey hb ha hbegin
  by_cases hle' : a.bits ≤ b.bits
  · have hbits : a.bits = b.bits := Nat.le_antisymm hle' hle
    rw [if_pos (Nat.ble_eq.mpr hle')] at h
    have hsame : Nat.beq (b.code / 2 ^ (b.bits - a.bits)) a.code = true := by
      rw [Nat.beq_eq]
      rw [hbits, Nat.sub_self, Nat.pow_zero, Nat.div_one] at hfront ⊢
      exact hfront.symm
    exact absurd (h.symm.trans (congrArg not hsame)) (by simp)
  rw [if_neg (fun hble => hle' (Nat.ble_eq.mp hble))] at h
  have hsame : Nat.beq (a.code / 2 ^ (a.bits - b.bits)) b.code = true := Nat.beq_eq.mpr hfront
  exact absurd (h.symm.trans (congrArg not hsame)) (by simp)

/-- **The code is prefix-free.** -/
theorem prefixFree_codeWords : PrefixFree codeWords := by
  have hwords : codeWords.map Prod.fst = encodeTable.map Entry.word := by
    unfold codeWords
    rw [map_map]
    conv_rhs => rw [← zipIdx_map_fst 0 encodeTable, map_map]
    rfl
  have hpairs : (encodeTable.map Entry.word).Pairwise fun a b => ¬ a <+: b ∧ ¬ b <+: a := by
    rw [pairwise_map]
    refine (pairwise_of_allApart allApart_encodeTable).imp_of_mem fun ha hb h => ?_
    exact not_begins_of_apart (encodeTable_bounds _ ha).2.2 (encodeTable_bounds _ hb).2.2 h
  unfold PrefixFree
  rw [← hwords, pairwise_map] at hpairs
  exact hpairs

lemma mem_codeWords {symbol : Nat} {entry : Entry} (h : encodeTable[symbol]? = some entry) :
    (entry.word, symbol) ∈ codeWords := by
  unfold codeWords
  exact mem_map.mpr ⟨(entry, symbol), mk_mem_zipIdx_iff_getElem?.mpr h, rfl⟩

lemma getElem?_entryOf (byte : UInt8) : encodeTable[byte.toNat]? = some (entryOf byte) := by
  have hlt : byte.toNat < encodeTable.length := by
    have hbyte := byte.toNat_lt
    rw [length_encodeTable]
    omega
  unfold entryOf
  rw [getD_eq_getElem?_getD, getElem?_eq_getElem hlt]
  rfl

lemma entryOf_bounds (byte : UInt8) : 0 < (entryOf byte).bits ∧ (entryOf byte).bits ≤ 30 ∧
    (entryOf byte).code < 2 ^ (entryOf byte).bits :=
  encodeTable_bounds _ (mem_of_getElem? (getElem?_entryOf byte))

/-- The bits of a string. -/
def wordsOf (value : Bytes) : List Bool := value.flatMap fun byte => (entryOf byte).word

lemma length_wordsOf (value : Bytes) : (wordsOf value).length = bitLength value := by
  induction value with
  | nil => rfl
  | cons byte rest ih =>
    unfold wordsOf bitLength at ih ⊢
    rw [flatMap_cons, length_append, ih, map_cons, sum_cons]
    unfold Entry.word
    rw [length_bitsOf]

/-! ### The register -/

namespace BitWriter

/-- **The register stands for these bits**: those written, and those it holds. -/
structure Writes (writer : BitWriter) (bits : List Bool) : Prop where
  left_le : writer.bitsLeft ≤ 40
  aligned : 2 ^ writer.bitsLeft ∣ writer.bits
  held : bitsOfBytes writer.out ++
    bitsOf (40 - writer.bitsLeft) (writer.bits / 2 ^ writer.bitsLeft) = bits

lemma writes_empty : ({} : BitWriter).Writes [] := ⟨le_rfl, Nat.dvd_zero _, rfl⟩

variable {writer : BitWriter} {bits : List Bool}

lemma Writes.byte (h : writer.Writes bits) (hleft : writer.bitsLeft ≤ 32) :
    ({ bits := writer.bits * 2 ^ 8 % 2 ^ 64
       bitsLeft := writer.bitsLeft + 8
       out := writer.out ++ [writer.topByte] } : BitWriter).Writes bits := by
  obtain ⟨high, hhigh⟩ := h.aligned
  have hpos := Nat.two_pow_pos writer.bitsLeft
  have hwidth : 2 ^ writer.bitsLeft * 2 ^ 8 * 2 ^ (56 - writer.bitsLeft) = 2 ^ 64 := by
    rw [← Nat.pow_add, ← Nat.pow_add]
    congr 1
    omega
  have hshifted : writer.bits * 2 ^ 8 % 2 ^ 64 =
      2 ^ (writer.bitsLeft + 8) * (high % 2 ^ (56 - writer.bitsLeft)) := by
    rw [hhigh, ← hwidth, Nat.pow_add, ← Nat.mul_mod_mul_left]
    congr 1
    ring
  refine ⟨by show writer.bitsLeft + 8 ≤ 40; omega, ⟨_, hshifted⟩, ?_⟩
  rw [← h.held, bitsOfBytes_append, hshifted, Nat.mul_div_cancel_left _ (Nat.two_pow_pos _),
    append_assoc]
  congr 1
  have hheld : writer.bits / 2 ^ writer.bitsLeft = high := by
    rw [hhigh, Nat.mul_div_cancel_left _ hpos]
  have htop : writer.bits / 2 ^ 32 = high / 2 ^ (32 - writer.bitsLeft) := by
    rw [← hheld, Nat.div_div_eq_div_mul, ← Nat.pow_add, Nat.add_sub_cancel' hleft]
  unfold topByte
  rw [bitsOfBytes_singleton, hheld, htop,
    show 40 - writer.bitsLeft = 8 + (32 - writer.bitsLeft) by omega,
    bitsOf_split 8 (32 - writer.bitsLeft) high,
    show 40 - (writer.bitsLeft + 8) = 32 - writer.bitsLeft by omega]
  congr 1
  apply bitsOf_congr
  rw [Nat.mod_mod, Nat.mod_mod_of_dvd _ (Nat.pow_dvd_pow 2 (by omega))]

lemma Writes.flush (rounds : Nat) (h : writer.Writes bits)
    (hfuel : 32 < writer.bitsLeft + 8 * rounds) :
    (writer.flush rounds).Writes bits ∧ 32 < (writer.flush rounds).bitsLeft := by
  induction rounds generalizing writer with
  | zero => exact ⟨h, hfuel⟩
  | succ rounds ih =>
    unfold BitWriter.flush
    by_cases hleft : writer.bitsLeft ≤ 32
    · rw [if_pos hleft]
      exact ih (h.byte hleft) (by dsimp only; omega)
    · rw [if_neg hleft]
      exact ⟨h, not_le.mp hleft⟩

/-- **A code word goes behind the bits there are.** -/
theorem Writes.put {writer : BitWriter} {bits : List Bool} (h : writer.Writes bits)
    (hroom : 32 < writer.bitsLeft) {entry : Entry}
    (hent : 0 < entry.bits ∧ entry.bits ≤ 30 ∧ entry.code < 2 ^ entry.bits) :
    (writer.put entry).Writes (bits ++ entry.word) ∧ 32 < (writer.put entry).bitsLeft := by
  obtain ⟨-, hbits, hcode⟩ := hent
  obtain ⟨high, hhigh⟩ := h.aligned
  have hle : entry.bits ≤ writer.bitsLeft := by omega
  have hwidth : 2 ^ writer.bitsLeft = 2 ^ (writer.bitsLeft - entry.bits) * 2 ^ entry.bits := by
    rw [← Nat.pow_add, Nat.sub_add_cancel hle]
  have hsmall : entry.code * 2 ^ (writer.bitsLeft - entry.bits) < 2 ^ writer.bitsLeft := by
    rw [hwidth, Nat.mul_comm]
    exact Nat.mul_lt_mul_of_pos_left hcode (Nat.two_pow_pos _)
  have hor : writer.bits ||| entry.code * 2 ^ (writer.bitsLeft - entry.bits) =
      2 ^ (writer.bitsLeft - entry.bits) * (high * 2 ^ entry.bits + entry.code) := by
    rw [hhigh, ← Nat.two_pow_add_eq_or_of_lt hsmall, hwidth]
    ring
  refine Writes.flush 5 ⟨?_, ⟨_, hor⟩, ?_⟩ ?_
  · show writer.bitsLeft - entry.bits ≤ 40
    have hleft := h.left_le
    omega
  · show bitsOfBytes writer.out ++ bitsOf (40 - (writer.bitsLeft - entry.bits))
      ((writer.bits ||| entry.code * 2 ^ (writer.bitsLeft - entry.bits)) /
        2 ^ (writer.bitsLeft - entry.bits)) = bits ++ entry.word
    have hleft := h.left_le
    have hheld : writer.bits / 2 ^ writer.bitsLeft = high := by
      rw [hhigh, Nat.mul_div_cancel_left _ (Nat.two_pow_pos _)]
    rw [hor, Nat.mul_div_cancel_left _ (Nat.two_pow_pos _), ← h.held, hheld, append_assoc,
      show 40 - (writer.bitsLeft - entry.bits) = (40 - writer.bitsLeft) + entry.bits by omega,
      bitsOf_append _ _ _ _ hcode]
    rfl
  · omega

lemma writes_foldl (value : Bytes) (h : writer.Writes bits) (hroom : 32 < writer.bitsLeft) :
    (value.foldl (fun writer byte => writer.put (entryOf byte)) writer).Writes
        (bits ++ wordsOf value) ∧
      32 < (value.foldl (fun writer byte => writer.put (entryOf byte)) writer).bitsLeft := by
  induction value generalizing writer bits with
  | nil =>
    rw [show wordsOf [] = [] from rfl, append_nil]
    exact ⟨h, hroom⟩
  | cons byte rest ih =>
    obtain ⟨hput, hroom'⟩ := h.put hroom (entryOf_bounds byte)
    rw [foldl_cons, show wordsOf (byte :: rest) = (entryOf byte).word ++ wordsOf rest from
      flatMap_cons, ← append_assoc]
    exact ih hput hroom'

lemma Writes.finish (h : writer.Writes bits) (hroom : 32 < writer.bitsLeft) :
    ∃ padding, padding < 8 ∧ bitsOfBytes writer.finish = bits ++ replicate padding true := by
  unfold BitWriter.finish
  have hleft := h.left_le
  by_cases hfull : writer.bitsLeft = 40
  · simp [hfull, ← h.held, bitsOf]
  refine ⟨writer.bitsLeft - 32, by omega, ?_⟩
  obtain ⟨high, hhigh⟩ := h.aligned
  have hpos := Nat.two_pow_pos writer.bitsLeft
  have hheld : writer.bits / 2 ^ writer.bitsLeft = high := by
    rw [hhigh, Nat.mul_div_cancel_left _ hpos]
  have hor : writer.bits ||| (2 ^ writer.bitsLeft - 1) =
      2 ^ writer.bitsLeft * high + (2 ^ writer.bitsLeft - 1) := by
    rw [hhigh, Nat.two_pow_add_eq_or_of_lt (by omega)]
  have hwidth : 2 ^ writer.bitsLeft = 2 ^ 32 * 2 ^ (writer.bitsLeft - 32) := by
    rw [← Nat.pow_add, Nat.add_sub_cancel' hroom.le]
  have hpad := Nat.two_pow_pos (writer.bitsLeft - 32)
  have hquot : (2 ^ writer.bitsLeft * high + (2 ^ writer.bitsLeft - 1)) / 2 ^ 32 =
      high * 2 ^ (writer.bitsLeft - 32) + (2 ^ (writer.bitsLeft - 32) - 1) := by
    rw [Nat.div_eq_of_lt_le]
    · rw [hwidth]
      generalize 2 ^ (writer.bitsLeft - 32) = p at hpad
      obtain ⟨p, rfl⟩ := Nat.exists_eq_add_of_lt hpad
      simp only [Nat.add_sub_cancel]
      ring_nf
      omega
    rw [hwidth]
    generalize 2 ^ (writer.bitsLeft - 32) = p at hpad
    obtain ⟨p, rfl⟩ := Nat.exists_eq_add_of_lt hpad
    simp only [Nat.add_sub_cancel]
    ring_nf
    omega
  rw [if_neg hfull, bitsOfBytes_append, ← h.held, append_assoc, hheld]
  unfold topByte
  rw [bitsOfBytes_singleton, hor, hquot,
    show 8 = (40 - writer.bitsLeft) + (writer.bitsLeft - 32) by omega,
    bitsOf_append _ _ _ _ (by omega), bitsOf_ones]

end BitWriter

/-- **What a Huffman string spells**: the code words of its bytes, and padding. -/
theorem bitsOfBytes_encodeHuffman (value : Bytes) :
    ∃ padding, padding < 8 ∧
      bitsOfBytes (encodeHuffman value) = wordsOf value ++ replicate padding true := by
  obtain ⟨hwrites, hroom⟩ :=
    BitWriter.writes_foldl value BitWriter.writes_empty (by show 32 < 40; omega)
  exact hwrites.finish hroom

lemma length_encodeHuffman (value : Bytes) :
    (encodeHuffman value).length = huffmanEncodedLen value := by
  obtain ⟨padding, hpadding, hbits⟩ := bitsOfBytes_encodeHuffman value
  have hlen := congrArg length hbits
  rw [length_bitsOfBytes, length_append, length_wordsOf, length_replicate] at hlen
  unfold huffmanEncodedLen
  omega

/-! ### The decoder -/

lemma step_inside {word bits : List Bool} {symbol : Nat} (hmem : (word, symbol) ∈ codeWords)
    (hlen : word.length ≤ maxCodeBits) (hbegin : bits <+: word) (hne : bits ≠ word) (out : Bytes) :
    bits.foldlM step { out := out } = .ok
      { node := decodeTrie.walk bits, pendingCode := ofBits bits, pendingBits := bits.length,
        out := out } := by
  induction bits using reverseRecOn with
  | nil =>
    rw [Trie.walk_nil]
    rfl
  | append_singleton bits bit ih =>
    have hshorter : bits <+: word := (prefix_append bits [bit]).trans hbegin
    have hlt : bits.length + 1 ≤ word.length := by
      have hle := hbegin.length_le
      rwa [length_append, length_singleton] at hle
    have hstrict : bits ≠ word := by
      rintro rfl
      omega
    rw [foldlM_append, ih hshorter hstrict]
    have hnode : (decodeTrie.walk bits).child bit = decodeTrie.walk (bits ++ [bit]) :=
      (Trie.walk_concat decodeTrie bits bit).symm
    have hcode : (2 * ofBits bits + bit.toNat) % 2 ^ 32 = ofBits (bits ++ [bit]) := by
      rw [← ofBits_concat, Nat.mod_eq_of_lt]
      refine (ofBits_lt _).trans_le (Nat.pow_le_pow_right (by omega) ?_)
      rw [length_append, length_singleton]
      unfold maxCodeBits at hlen
      omega
    have hnonempty : (decodeTrie.walk (bits ++ [bit])).isEmpty = false :=
      Trie.isEmpty_walk_build hmem hbegin
    have hsymbol : (decodeTrie.walk (bits ++ [bit])).symbol = none :=
      prefixFree_codeWords.symbol_walk_before hmem hbegin hne
    show step _ bit >>= pure = _
    unfold step
    dsimp only
    rw [if_neg (by omega), hnode, hnonempty, hsymbol, hcode, length_append]
    rfl

/-- **A code word is one byte of the output.** -/
theorem step_word (byte : UInt8) (out : Bytes) :
    (entryOf byte).word.foldlM step { out := out } = .ok { out := out ++ [byte] } := by
  have hmem := mem_codeWords (getElem?_entryOf byte)
  obtain ⟨hpos, hbits, -⟩ := entryOf_bounds byte
  have hlen : (entryOf byte).word.length = (entryOf byte).bits := length_bitsOf _ _
  obtain ⟨bits, bit, hword⟩ : ∃ bits bit, (entryOf byte).word = bits ++ [bit] := by
    rcases eq_nil_or_concat (entryOf byte).word with hnil | ⟨bits, bit, hword⟩
    · rw [hnil] at hlen
      exact absurd hlen.symm hpos.ne'
    · exact ⟨bits, bit, by rw [hword, concat_eq_append]⟩
  have hlt : bits.length + 1 = (entryOf byte).bits := by
    rw [← hlen, hword, length_append, length_singleton]
  have hbegin : bits <+: (entryOf byte).word := by simp [hword]
  have hstrict : bits ≠ (entryOf byte).word := by simp [hword]
  have hnode : (decodeTrie.walk bits).child bit = decodeTrie.walk (entryOf byte).word := by
    rw [hword]
    exact (Trie.walk_concat decodeTrie bits bit).symm
  have hinside := step_inside hmem (by rw [hlen]; exact hbits) hbegin hstrict out
  have hsymbol : (decodeTrie.walk (entryOf byte).word).symbol = some byte.toNat :=
    prefixFree_codeWords.symbol_walk hmem
  have hne : (decodeTrie.walk (entryOf byte).word).isEmpty = false :=
    Trie.isEmpty_walk_build hmem (prefix_refl _)
  have hbyte : byte.toNat ≠ eosSymbol := by
    have hlt := byte.toNat_lt
    unfold eosSymbol
    omega
  conv_lhs => rw [hword]
  rw [foldlM_append, hinside]
  show step _ bit >>= pure = _
  unfold step
  dsimp only
  rw [if_neg (by unfold maxCodeBits; omega), hnode, hne, hsymbol]
  simp [hbyte]

lemma step_words (value out : Bytes) :
    (wordsOf value).foldlM step { out := out } = .ok { out := out ++ value } := by
  induction value generalizing out with
  | nil =>
    rw [append_nil]
    rfl
  | cons byte rest ih =>
    rw [show wordsOf (byte :: rest) = (entryOf byte).word ++ wordsOf rest from
      flatMap_cons, foldlM_append, step_word]
    show (wordsOf rest).foldlM step { out := out ++ [byte] } = _
    rw [ih, append_assoc, singleton_append]

lemma eos_word : (Entry.mk 30 (2 ^ 30 - 1)).word = replicate 30 true := bitsOf_ones 30

/-- **A Huffman string is read back.** -/
theorem decodeHuffman_encodeHuffman (value : Bytes) :
    decodeHuffman (encodeHuffman value) = .ok value := by
  obtain ⟨padding, hpadding, hbits⟩ := bitsOfBytes_encodeHuffman value
  have hbegin : replicate padding true <+: replicate 30 true := by
    refine ⟨replicate (30 - padding) true, ?_⟩
    rw [replicate_append_replicate]
    congr 1
    omega
  have hstrict : replicate padding true ≠ replicate 30 true := by
    intro hsame
    have hlen := congrArg length hsame
    rw [length_replicate, length_replicate] at hlen
    omega
  have hmem := mem_codeWords encodeTable_eos
  rw [eos_word] at hmem
  have hend := step_inside hmem (by rw [length_replicate]; exact Nat.le_refl 30) hbegin
    hstrict value
  unfold decodeHuffman
  rw [hbits, foldlM_append, step_words]
  show ((replicate padding true).foldlM step { out := value } >>= finish) = _
  rw [hend, length_replicate, ofBits_ones]
  show finish _ = _
  unfold finish
  dsimp only
  by_cases hzero : padding = 0
  · rw [if_pos hzero]
  · rw [if_neg hzero, if_neg (by omega), if_neg (by simp)]

/-! ### Lengths -/

lemma BitWriter.length_flush (rounds : Nat) (writer : BitWriter) :
    writer.out.length ≤ (writer.flush rounds).out.length := by
  induction rounds generalizing writer with
  | zero => exact le_rfl
  | succ rounds ih =>
    unfold flush
    split
    · refine Nat.le_trans ?_ (ih _)
      rw [length_append]
      exact Nat.le_add_right _ _
    · exact le_rfl

lemma BitWriter.length_finish (writer : BitWriter) :
    writer.out.length ≤ writer.finish.length := by
  unfold finish
  split
  · exact le_rfl
  · rw [length_append]
    exact Nat.le_add_right _ _

/-- Room for the whole string is room for each byte of it. -/
theorem foldlM_within {len : Nat} (value : Bytes) (writer : BitWriter)
    (h : (value.foldl (fun writer byte => writer.put (entryOf byte)) writer).finish.length ≤ len) :
    value.foldlM (fun writer byte => (writer.put (entryOf byte)).within len) writer =
        some (value.foldl (fun writer byte => writer.put (entryOf byte)) writer) ∧
      writer.out.length ≤ len := by
  induction value generalizing writer with
  | nil => exact ⟨rfl, Nat.le_trans writer.length_finish h⟩
  | cons byte rest ih =>
    obtain ⟨hrest, hroom⟩ := ih (writer.put (entryOf byte)) h
    have hgrown : writer.out.length ≤ (writer.put (entryOf byte)).out.length :=
      BitWriter.length_flush 5 { writer with
        bits := writer.bits ||| (entryOf byte).code * 2 ^ (writer.bitsLeft - (entryOf byte).bits)
        bitsLeft := writer.bitsLeft - (entryOf byte).bits }
    refine ⟨?_, hgrown.trans hroom⟩
    rw [foldlM_cons, BitWriter.within, if_pos hroom]
    exact hrest

def Progress.measure (progress : Progress) : Measure where
  node := progress.node
  pendingCode := progress.pendingCode
  pendingBits := progress.pendingBits
  len := progress.out.length

lemma measure_step (progress : Progress) (bit : Bool) :
    progress.measure.step bit = (progress.step bit).map Progress.measure := by
  unfold Measure.step Progress.step
  dsimp only [Progress.measure]
  by_cases hmax : maxCodeBits < progress.pendingBits + 1
  · rw [if_pos hmax, if_pos hmax]
    rfl
  rw [if_neg hmax, if_neg hmax]
  by_cases hempty : (progress.node.child bit).isEmpty = true
  · rw [if_pos hempty, if_pos hempty]
    rfl
  rw [if_neg hempty, if_neg hempty]
  cases (progress.node.child bit).symbol with
  | none => rfl
  | some symbol =>
    by_cases heos : symbol = eosSymbol
    · simp [heos, Except.map]
    · simp [heos, Except.map, Progress.measure]

lemma foldlM_measure (bits : List Bool) (progress : Progress) :
    bits.foldlM Measure.step progress.measure = (bits.foldlM step progress).map measure := by
  induction bits generalizing progress with
  | nil => rfl
  | cons bit rest ih =>
    rw [foldlM_cons, foldlM_cons, measure_step]
    cases progress.step bit with
    | error e => rfl
    | ok next => exact ih next

/-- The count is the length of what is decoded, or the walks fail alike. -/
theorem huffmanDecodedLen_eq (encoded : Bytes) :
    huffmanDecodedLen encoded = (decodeHuffman encoded).map length := by
  unfold huffmanDecodedLen decodeHuffman
  have hstart : ({} : Progress).measure = {} := by simp only [Progress.measure, length_nil]
  rw [← hstart, foldlM_measure]
  cases (bitsOfBytes encoded).foldlM step {} with
  | error e => rfl
  | ok progress =>
    show progress.measure.finish = progress.finish.map length
    unfold Measure.finish Progress.finish Progress.measure
    dsimp only
    split
    · rfl
    split
    · rfl
    split <;> rfl

/-! ### What is decoded was encoded -/

/-- **What the walk has read**: the words of some bytes, and the beginning of another word. -/
structure Spells (bits : List Bool) (progress : Progress) (rest : List Bool) : Prop where
  bits_eq : bits = wordsOf progress.out ++ rest
  node_eq : progress.node = decodeTrie.walk rest
  pendingBits_eq : progress.pendingBits = rest.length
  pendingCode_eq : progress.pendingCode = ofBits rest
  rest_le : rest.length ≤ maxCodeBits

variable {bits rest : List Bool} {progress next : Progress}

lemma Spells.step (h : Spells bits progress rest) {bit : Bool}
    (hstep : progress.step bit = .ok next) : ∃ rest, Spells (bits ++ [bit]) next rest := by
  unfold Progress.step at hstep
  dsimp only at hstep
  rw [h.pendingBits_eq, h.pendingCode_eq, h.node_eq, ← Trie.walk_concat] at hstep
  by_cases hmax : maxCodeBits < rest.length + 1
  · rw [if_pos hmax] at hstep
    cases hstep
  rw [if_neg hmax] at hstep
  by_cases hempty : (decodeTrie.walk (rest ++ [bit])).isEmpty = true
  · rw [if_pos hempty] at hstep
    cases hstep
  rw [if_neg hempty] at hstep
  have hlen : (rest ++ [bit]).length = rest.length + 1 := by simp
  cases hsymbol : (decodeTrie.walk (rest ++ [bit])).symbol with
  | none =>
    rw [hsymbol] at hstep
    cases hstep
    refine ⟨rest ++ [bit], by rw [h.bits_eq, append_assoc], rfl, hlen.symm, ?_, by omega⟩
    show (2 * ofBits rest + bit.toNat) % 2 ^ 32 = _
    rw [← ofBits_concat, Nat.mod_eq_of_lt]
    unfold maxCodeBits at hmax
    exact (ofBits_lt _).trans_le (Nat.pow_le_pow_right (by omega) (by omega))
  | some symbol =>
    rw [hsymbol] at hstep
    dsimp only at hstep
    by_cases heos : symbol = eosSymbol
    · rw [if_pos heos] at hstep
      cases hstep
    rw [if_neg heos] at hstep
    cases hstep
    obtain ⟨⟨entry, number⟩, hmem, hword⟩ :=
      mem_map.mp (prefixFree_codeWords.mem_of_symbol hsymbol)
    obtain ⟨hword, hsame⟩ := Prod.mk.inj hword
    rw [show number = symbol from hsame] at hmem
    have hentry := mk_mem_zipIdx_iff_getElem?.mp hmem
    have hlt : symbol < 256 := by
      have hbound := lt_of_getElem? hentry
      rw [length_encodeTable] at hbound
      unfold eosSymbol at heos
      omega
    have hbyte : entryOf (UInt8.ofNat symbol) = entry := by
      have hsame := getElem?_entryOf (UInt8.ofNat symbol)
      rw [UInt8.toNat_ofNat_of_lt' hlt, hentry] at hsame
      exact (Option.some.inj hsame).symm
    refine ⟨[], ?_, by rw [Trie.walk_nil], rfl, rfl, Nat.zero_le _⟩
    rw [h.bits_eq, append_nil, append_assoc]
    have hlast : wordsOf (progress.out ++ [UInt8.ofNat symbol]) =
        wordsOf progress.out ++ (entryOf (UInt8.ofNat symbol)).word := by simp [wordsOf]
    rw [hlast, hbyte, Entry.word, hword]

lemma spells_foldlM (h : bits.foldlM step {} = .ok progress) :
    ∃ rest, Spells bits progress rest := by
  induction bits using reverseRecOn generalizing progress with
  | nil =>
    cases h
    exact ⟨[], rfl, by rw [Trie.walk_nil], rfl, rfl, Nat.zero_le _⟩
  | append_singleton bits bit ih =>
    rw [foldlM_append] at h
    cases hbits : bits.foldlM step {} with
    | error e =>
      rw [hbits] at h
      cases h
    | ok before =>
      rw [hbits] at h
      obtain ⟨rest, hspells⟩ := ih hbits
      refine hspells.step (?_ : before.step bit = .ok progress)
      show before.step bit = _
      have hstep : ([bit].foldlM step before) = .ok progress := h
      rw [foldlM_cons] at hstep
      cases hnext : before.step bit with
      | error e =>
        rw [hnext] at hstep
        cases hstep
      | ok next =>
        rw [hnext] at hstep
        exact hstep

lemma Spells.finish (h : Spells bits progress rest) {value : Bytes}
    (hfinish : progress.finish = .ok value) :
    progress.out = value ∧ ∃ padding < 8, rest = replicate padding true := by
  unfold Progress.finish at hfinish
  rw [h.pendingBits_eq, h.pendingCode_eq] at hfinish
  by_cases hzero : rest.length = 0
  · rw [if_pos hzero] at hfinish
    cases hfinish
    exact ⟨rfl, 0, by omega, eq_nil_of_length_eq_zero hzero⟩
  rw [if_neg hzero] at hfinish
  by_cases hlong : 7 < rest.length
  · rw [if_pos hlong] at hfinish
    cases hfinish
  rw [if_neg hlong] at hfinish
  by_cases hones : ofBits rest = 2 ^ rest.length - 1
  · rw [if_neg (not_not.mpr hones)] at hfinish
    cases hfinish
    exact ⟨rfl, rest.length, by omega, by rw [← bitsOf_ones, ← hones, bitsOf_ofBits]⟩
  · rw [if_pos hones] at hfinish
    cases hfinish

lemma encodeHuffman_of_decode {encoded value : Bytes} (h : decodeHuffman encoded = .ok value) :
    encodeHuffman value = encoded := by
  unfold decodeHuffman at h
  cases hbits : (bitsOfBytes encoded).foldlM step {} with
  | error e =>
    rw [hbits] at h
    cases h
  | ok progress =>
    rw [hbits] at h
    obtain ⟨rest, hspells⟩ := spells_foldlM hbits
    obtain ⟨rfl, padding, hsmall, rfl⟩ := hspells.finish h
    obtain ⟨padding', hsmall', hwritten⟩ := bitsOfBytes_encodeHuffman progress.out
    have hlen := congrArg length hspells.bits_eq
    have hlen' := congrArg length hwritten
    rw [length_bitsOfBytes, length_append, length_replicate] at hlen hlen'
    apply bitsOfBytes_injective
    rw [hwritten, hspells.bits_eq, show padding' = padding by omega]

/-- **Huffman strings and byte strings are in bijection**: what is encoded is read back, at the
length that was predicted and with either encoder, and nothing else is decoded. -/
theorem huffman_canonical :
    (∀ value, decodeHuffman (encodeHuffman value) = .ok value ∧
      encodeHuffmanWithLen value (huffmanEncodedLen value) = some (encodeHuffman value) ∧
      encodeHuffmanInto (huffmanEncodedLen value) value = some (encodeHuffman value)) ∧
    (∀ encoded value, decodeHuffman encoded = .ok value ↔ encodeHuffman value = encoded) ∧
    ∀ encoded, huffmanDecodedLen encoded = (decodeHuffman encoded).map length := by
  refine ⟨fun value => ⟨decodeHuffman_encodeHuffman value, ?_, ?_⟩, fun encoded value =>
    ⟨encodeHuffman_of_decode, ?_⟩, huffmanDecodedLen_eq⟩
  · exact if_pos (length_encodeHuffman value)
  · have hlen := length_encodeHuffman value
    unfold encodeHuffmanInto
    rw [(foldlM_within value {} hlen.le).1]
    exact if_pos hlen
  · rintro rfl
    exact decodeHuffman_encodeHuffman value

end Netz.Http.Huffman

namespace Netz.Http

open Lib

/-! ### Strings -/

lemma encodeString_form (value : Bytes) :
    encodeString value = encodeInteger 7 0x00 value.length ++ value ∨
      ((Huffman.encodeHuffman value).length ≤ value.length ∧
        encodeString value = encodeInteger 7 0x80 (Huffman.encodeHuffman value).length ++
            Huffman.encodeHuffman value) := by
  unfold encodeString
  have hshort : ∀ n, n ≤ 2 → encodeInteger 7 0x00 n = [UInt8.ofNat n] := by
    intro n hn
    unfold encodeInteger
    rw [if_pos (by omega), UInt8.zero_or]
  by_cases hempty : value.length = 0
  · left
    rw [hempty, List.length_eq_zero_iff.mp hempty]
    rfl
  rw [if_neg hempty]
  by_cases htwo : value.length ≤ 2
  · simp [htwo, hshort _ htwo]
  rw [if_neg htwo]
  by_cases hraw : value.length ≤ Huffman.huffmanEncodedLen value
  · simp [hraw]
  right
  rw [if_neg hraw, Huffman.length_encodeHuffman]
  exact ⟨Nat.le_of_not_le hraw, rfl⟩

lemma firstByte_form {low : Nat} (h : low < 128) :
    (firstByte 0x00 low &&& 0x80 != 0) = false ∧ (firstByte 0x80 low &&& 0x80 != 0) = true := by
  have hall : ∀ low < 128, (firstByte 0x00 low &&& 0x80 != 0) = false ∧
      (firstByte 0x80 low &&& 0x80 != 0) = true := by decide
  exact hall low h

lemma reads_string {integer : UInt8 → Cursor Nat} {bound : Nat}
    (hint : ∀ highBits : UInt8, highBits &&& 0x7f = 0 → ∀ n ≤ bound, ∃ low rest, low < 2 ^ 7 ∧
      encodeInteger 7 highBits n = firstByte highBits low :: rest ∧
      Reader.Reads (integer (firstByte highBits low)) rest n)
    {value : Bytes} (hvalue : value.length ≤ bound) :
    Reader.Reads (do
      let first ← Cursor.readByte
      let len ← integer first
      let raw ← Cursor.readSlice len
      Cursor.check (decodeMaybeHuffman raw (first &&& 0x80 != 0))) (encodeString value) value := by
  rcases encodeString_form value with hform | ⟨hshorter, hform⟩
  · obtain ⟨low, rest, hlow, henc, hreads⟩ := hint 0x00 (by decide) value.length hvalue
    rw [hform, henc, ← List.singleton_append]
    refine (Reader.reads_next _ (firstByte 0x00 low)).bind (hreads.bind ?_)
    refine (Reader.reads_take _ value).map ?_
    rw [(firstByte_form hlow).1]
    rfl
  obtain ⟨low, rest, hlow, henc, hreads⟩ := hint 0x80 (by decide)
    (Huffman.encodeHuffman value).length (hshorter.trans hvalue)
  rw [hform, henc, ← List.singleton_append]
  refine (Reader.reads_next _ (firstByte 0x80 low)).bind (hreads.bind ?_)
  refine (Reader.reads_take _ (Huffman.encodeHuffman value)).map ?_
  rw [(firstByte_form hlow).2]
  unfold decodeMaybeHuffman
  rw [Huffman.decodeHuffman_encodeHuffman]
  rfl

/-- **HPACK reads back a string.** -/
theorem reads_decodeString {value : Bytes} (hvalue : value.length < 2 ^ 63) :
    Reader.Reads decodeString (encodeString value) value :=
  @reads_string (decodeInteger 7) (2 ^ 63 - 1)
    (fun _ hhigh n hn => reads_decodeInteger (by omega) (by omega) hhigh (by omega)) value
    (by omega)

/-- **QPACK reads back a string.** -/
theorem reads_decodePrefixedString {value : Bytes} (hvalue : value.length ≤ maxU64) :
    Reader.Reads decodePrefixedString (encodeString value) value :=
  reads_string (fun _ hhigh _ hn => reads_decodePrefixedInteger (by omega) (by omega) hhigh hn)
    hvalue

end Netz.Http
