/-
WebSocket frames are read back.

A mask is a function of the position alone, so vectors and the scalar rest agree on it, and masking
twice changes nothing.  The writer's header is read back as it was written, and the parser takes no
other header than a writer could have written: its length is in the shortest form.
-/
import Netz.WebSocket.Frame

namespace Netz.WebSocket

open Lib List

/-! ### Masks -/

lemma mapIdx_congr_mod {data : Bytes} {maskKey : MaskKey} {shift : Nat} (h : 4 ∣ shift) :
    (data.mapIdx fun i byte => byte ^^^ maskKey[(i + shift) % 4]) = applyMaskScalar data maskKey := by
  unfold applyMaskScalar
  apply ext_getElem?
  intro i
  rw [getElem?_mapIdx, getElem?_mapIdx]
  have hmod : (i + shift) % 4 = i % 4 := by omega
  simp only [hmod]

lemma applyMaskScalar_append (first rest : Bytes) (maskKey : MaskKey) (h : 4 ∣ first.length) :
    applyMaskScalar (first ++ rest) maskKey =
      applyMaskScalar first maskKey ++ applyMaskScalar rest maskKey := by
  unfold applyMaskScalar
  rw [mapIdx_append]
  congr 1
  exact mapIdx_congr_mod h

lemma xorVector_maskVector {data : Bytes} {size : Nat} (h : data.length = size)
    (rotated : MaskKey) : xorVector data (maskVector size rotated) = applyMaskScalar data rotated := by
  unfold xorVector maskVector applyMaskScalar
  apply ext_getElem?
  intro i
  rw [getElem?_zipWith, getElem?_mapIdx, getElem?_map]
  rcases Nat.lt_or_ge i size with hlt | hge
  · rw [getElem?_range hlt]
    cases data[i]? <;> rfl
  · rw [getElem?_eq_none (by omega)]
    rfl

/-- **The vectors and the scalar rest mask as the scalar loop does.** -/
theorem applyMaskLoop_eq {size : Nat} (h : 4 ∣ size) (rotated : MaskKey) (rounds : Nat)
    (data : Bytes) : applyMaskLoop size rotated rounds data = applyMaskScalar data rotated := by
  induction rounds generalizing data with
  | zero => rfl
  | succ rounds ih =>
    unfold applyMaskLoop
    by_cases hsize : size ≤ data.length
    · rw [if_pos hsize, ih, xorVector_maskVector (length_take_of_le hsize)]
      have hfirst : 4 ∣ (data.take size).length := by
        rw [length_take_of_le hsize]
        exact h
      rw [← applyMaskScalar_append _ _ _ hfirst, take_append_drop]
    · rw [if_neg hsize]

section Masking

variable [VectorBackend]

/-- **Masking is a function of the position**, whatever the vectors of the machine are. -/
theorem applyMask_eq (payload : Bytes) (maskKey : MaskKey) (offset : Nat) :
    applyMask payload maskKey offset = applyMaskScalar payload (rotatedMask maskKey offset) := by
  unfold applyMask
  by_cases hnil : payload.length = 0
  · rw [if_pos hnil, length_eq_zero_iff.mp hnil]
    rfl
  rw [if_neg hnil]
  cases hsize : VectorBackend.vectorSize with
  | none => rfl
  | some size => exact applyMaskLoop_eq (VectorBackend.lanes size hsize).2 _ _ _

lemma applyMaskCopyAssumeCapacity_eq (payload : Bytes) (maskKey : MaskKey) (offset : Nat) :
    applyMaskCopyAssumeCapacity payload maskKey offset = applyMask payload maskKey offset := by
  unfold applyMaskCopyAssumeCapacity applyMask
  by_cases hnil : payload.length = 0
  · rw [if_pos hnil, if_pos hnil, length_eq_zero_iff.mp hnil]
  rw [if_neg hnil, if_neg hnil]
  cases hsize : VectorBackend.vectorSize with
  | none => rfl
  | some size =>
    have hlanes := (VectorBackend.lanes size hsize).2
    dsimp only
    rw [if_pos (by omega)]

lemma length_applyMask (payload : Bytes) (maskKey : MaskKey) (offset : Nat) :
    (applyMask payload maskKey offset).length = payload.length := by
  rw [applyMask_eq, applyMaskScalar, length_mapIdx]

/-- **Masking twice changes nothing.** -/
theorem applyMask_applyMask (payload : Bytes) (maskKey : MaskKey) (offset : Nat) :
    applyMask (applyMask payload maskKey offset) maskKey offset = payload := by
  rw [applyMask_eq, applyMask_eq]
  unfold applyMaskScalar
  apply ext_getElem?
  intro i
  rw [getElem?_mapIdx, getElem?_mapIdx]
  cases payload[i]? with
  | none => rfl
  | some byte => simp only [Option.map_some, UInt8.xor_assoc, UInt8.xor_self, UInt8.xor_zero]

lemma length_encodedPayload (payload : Bytes) (maskKey : Option MaskKey) :
    (encodedPayload payload maskKey).length = payload.length := by
  cases maskKey with
  | none => rfl
  | some maskKey =>
    show (applyMaskCopyAssumeCapacity payload maskKey 0).length = payload.length
    rw [applyMaskCopyAssumeCapacity_eq, length_applyMask]

lemma decodedPayload_encodedPayload (payload : Bytes) (maskKey : Option MaskKey) :
    decodedPayload (encodedPayload payload maskKey) maskKey = payload := by
  cases maskKey with
  | none => rfl
  | some maskKey =>
    show applyMask (applyMaskCopyAssumeCapacity payload maskKey 0) maskKey 0 = payload
    rw [applyMaskCopyAssumeCapacity_eq, applyMask_applyMask]

/-- The copying parser unmasks as the other does, as its output has the length of the payload. -/
theorem copiedPayload_eq {encoded : Bytes} {outputLen : Nat} (h : encoded.length = outputLen)
    (maskKey : Option MaskKey) :
    copiedPayload outputLen encoded maskKey = .ok (decodedPayload encoded maskKey) := by
  cases maskKey with
  | none => rfl
  | some maskKey =>
    show applyMaskCopy outputLen encoded maskKey 0 = .ok (applyMask encoded maskKey 0)
    unfold applyMaskCopy
    rw [if_neg (by omega), applyMaskCopyAssumeCapacity_eq]

end Masking

/-! ### Headers -/

lemma firstByte_bits (opcode : Opcode) (options : WriteFrameOptions) :
    (firstByte opcode options &&& 0x80 != 0) = options.fin ∧
      (firstByte opcode options &&& 0x40 != 0) = options.rsv1 ∧
      (firstByte opcode options &&& 0x20 != 0) = options.rsv2 ∧
      (firstByte opcode options &&& 0x10 != 0) = options.rsv3 ∧
      (firstByte opcode options &&& 0x0f).toNat = opcode.value.val := by
  have hall : ∀ (fin rsv1 rsv2 rsv3 : Bool) (value : Fin 16),
      let byte := flag fin 0x80 ||| flag rsv1 0x40 ||| flag rsv2 0x20 ||| flag rsv3 0x10 |||
        UInt8.ofNat value.val
      (byte &&& 0x80 != 0) = fin ∧ (byte &&& 0x40 != 0) = rsv1 ∧ (byte &&& 0x20 != 0) = rsv2 ∧
        (byte &&& 0x10 != 0) = rsv3 ∧ (byte &&& 0x0f).toNat = value.val := by
    decide +kernel
  exact hall options.fin options.rsv1 options.rsv2 options.rsv3 opcode.value

variable {len : Nat} {opcode : Opcode} {payload header : Bytes} {options : WriteFrameOptions}

lemma secondByte_bits (masked : Bool) (h : len < 128) :
    ((flag masked 0x80 ||| UInt8.ofNat len) &&& 0x7f).toNat = len ∧
      ((flag masked 0x80 ||| UInt8.ofNat len) &&& 0x80 != 0) = masked := by
  have hall : ∀ (masked : Bool), ∀ len < 128,
      ((flag masked 0x80 ||| UInt8.ofNat len) &&& 0x7f).toNat = len ∧
        ((flag masked 0x80 ||| UInt8.ofNat len) &&& 0x80 != 0) = masked := by
    decide +kernel
  exact hall masked len h

lemma reads_readInt {n value : Nat} (h : value < 256 ^ n) :
    Reader.Reads (Cursor.readInt n) (bigEndian n value) value := by
  have htake := Reader.reads_take Error.bufferTooShort (bigEndian n value)
  rw [length_bigEndian] at htake
  refine htake.map ?_
  rw [ofBigEndian_bigEndian, Nat.mod_eq_of_lt h]

/-- How many bytes the extended length takes in the shortest form. -/
def extendedLen (len : Nat) : Nat := if len ≤ 125 then 0 else if len ≤ 65535 then 2 else 8

lemma reads_encodePayloadLen (h : len < 2 ^ 63) :
    ∃ low : Nat, low < 128 ∧ (encodePayloadLen len).1 = UInt8.ofNat low ∧
      (encodePayloadLen len).2.length = extendedLen len ∧
      Reader.Reads (readExtendedLen low) (encodePayloadLen len).2 (len, extendedLen len) := by
  unfold encodePayloadLen extendedLen
  by_cases hsmall : len ≤ 125
  · rw [if_pos hsmall, if_pos hsmall]
    refine ⟨len, by omega, rfl, rfl, ?_⟩
    unfold readExtendedLen
    rw [if_neg (by omega), if_neg (by omega)]
    exact Reader.Reads.done _
  rw [if_neg hsmall, if_neg hsmall]
  by_cases hmedium : len ≤ 65535
  · rw [if_pos hmedium, if_pos hmedium]
    refine ⟨126, by omega, rfl, length_bigEndian 2 len, ?_⟩
    exact (reads_readInt (by omega)).map rfl
  rw [if_neg hmedium, if_neg hmedium]
  refine ⟨127, by omega, rfl, length_bigEndian 8 len, ?_⟩
  refine (reads_readInt (by omega)).map ?_
  rw [if_neg (by omega)]

lemma reads_maskBytes (maskKey : Option MaskKey) :
    Reader.Reads (readMaskKey maskKey.isSome) (maskBytes maskKey) maskKey := by
  cases maskKey with
  | none => exact Reader.Reads.done _
  | some maskKey => exact (Reader.reads_takeVector Error.bufferTooShort maskKey).map rfl

lemma length_maskBytes (maskKey : Option MaskKey) :
    (maskBytes maskKey).length = if maskKey.isSome then 4 else 0 := by
  cases maskKey with
  | none => rfl
  | some maskKey => exact maskKey.length_toList

/-- What the header of a frame says. -/
def headerOf (opcode : Opcode) (payload : Bytes) (options : WriteFrameOptions) : FrameHeader where
  fin := options.fin
  rsv1 := options.rsv1
  rsv2 := options.rsv2
  rsv3 := options.rsv3
  opcode := opcode
  masked := options.maskKey.isSome
  payloadLen := payload.length
  maskKey := options.maskKey
  headerLen := 2 + extendedLen payload.length + if options.maskKey.isSome then 4 else 0

/-! ### What a writer accepts -/

/-- The frames that a writer takes. -/
structure Writable (opcode : Opcode) (payload : Bytes) (options : WriteFrameOptions) : Prop where
  defined : opcode ∈ Opcode.defined
  control : opcode.isControl = true → options.fin = true ∧ payload.length ≤ 125
  noRsv : opcode.isControl = true ∨ opcode = .continuation →
    (options.rsv1 || options.rsv2 || options.rsv3) = false
  text : opcode = .text → options.fin = true → options.rsv1 = false →
    utf8ValidateSlice payload = true
  close : opcode = .close → validateClosePayload payload = .ok ()

lemma validateOutgoingControl_ok {opcode : Opcode} {payload : Bytes}
    {options : WriteFrameOptions} (h : validateOutgoingControl opcode payload options = .ok ())
    (hctl : opcode.isControl = true) :
    options.fin = true ∧ payload.length ≤ 125 ∧
      (options.rsv1 || options.rsv2 || options.rsv3) = false := by
  unfold validateOutgoingControl at h
  rw [if_neg (by simp [hctl])] at h
  obtain ⟨hlong, h⟩ := of_guard h nofun
  obtain ⟨hrsv, h⟩ := of_guard h nofun
  simp only [Bool.or_eq_true, not_or, Bool.not_eq_true', Bool.not_eq_false, decide_eq_true_eq,
    not_lt] at hlong
  exact ⟨hlong.1, hlong.2, by simpa using hrsv⟩

lemma writable_of_validate (h : validateOutgoingFrame opcode payload options = .ok ()) :
    Writable opcode payload options := by
  unfold validateOutgoingFrame at h
  obtain ⟨hdefined, h⟩ := of_guard h nofun
  obtain ⟨_, hctl, h⟩ := bind_eq_ok h
  replace hctl := @validateOutgoingControl_ok opcode payload options hctl
  obtain ⟨hcont, h⟩ := of_guard h nofun
  obtain ⟨htext, h⟩ := of_guard h nofun
  refine ⟨not_not.mp hdefined, fun hc => ⟨(hctl hc).1, (hctl hc).2.1⟩, ?_, ?_, ?_⟩
  · rintro (hc | hc)
    · exact (hctl hc).2.2
    · simpa [hc] using hcont
  · intro hopcode hfin hrsv
    simpa [hopcode, hfin, hrsv] using htext
  intro hclose
  rw [if_pos hclose] at h
  exact h

lemma writeFrameHeaderInto_ok (h : writeFrameHeaderInto opcode payload options = .ok header) :
    Writable opcode payload options ∧
      header = firstByte opcode options ::
        (flag options.maskKey.isSome 0x80 ||| (encodePayloadLen payload.length).1) ::
          ((encodePayloadLen payload.length).2 ++ maskBytes options.maskKey) := by
  obtain ⟨_, hvalid, hhdr⟩ := bind_eq_ok h
  cases hhdr
  exact ⟨writable_of_validate hvalid, rfl⟩

lemma defined_of_mem (h : opcode ∈ Opcode.defined) :
    ¬((0x3 ≤ opcode.value.val ∧ opcode.value.val ≤ 0x7) ∨ 0xb ≤ opcode.value.val) := by
  simp only [Opcode.defined, mem_cons, not_mem_nil, or_false] at h
  rcases h with rfl | rfl | rfl | rfl | rfl | rfl <;> decide

lemma mem_defined
    (h : ¬((0x3 ≤ opcode.value.val ∧ opcode.value.val ≤ 0x7) ∨ 0xb ≤ opcode.value.val)) :
    opcode ∈ Opcode.defined := by
  have hall : ∀ value : Fin 16, ¬((0x3 ≤ value.val ∧ value.val ≤ 0x7) ∨ 0xb ≤ value.val) →
      (⟨value⟩ : Opcode) ∈ Opcode.defined := by decide
  exact hall opcode.value h

/-- **The header of a frame is read back**, as long as its length has a parser's range. -/
theorem reads_header (hlen : payload.length < 2 ^ 63)
    (h : writeFrameHeaderInto opcode payload options = .ok header) :
    Reader.Reads FrameHeader.parse header (headerOf opcode payload options) ∧
      header.length = (headerOf opcode payload options).headerLen := by
  obtain ⟨hwritable, rfl⟩ := writeFrameHeaderInto_ok h
  obtain ⟨low, hlow, hbyte, hextended, hreads⟩ := reads_encodePayloadLen hlen
  obtain ⟨hfin, hrsv1, hrsv2, hrsv3, hopcode⟩ := firstByte_bits opcode options
  obtain ⟨hlength, hmasked⟩ := secondByte_bits options.maskKey.isSome hlow
  constructor
  · rw [hbyte]
    refine (Reader.reads_next Error.bufferTooShort _).bind
      ((Reader.reads_next Error.bufferTooShort _).bind ?_)
    rw [hopcode, if_neg (defined_of_mem hwritable.defined), Fin.ofNat_val_eq_self]
    unfold FrameHeader.parseRest
    rw [hlength]
    refine hreads.bind ?_
    rw [hmasked]
    refine (reads_maskBytes options.maskKey).map ?_
    rw [hfin, hrsv1, hrsv2, hrsv3, if_neg]
    · rfl
    rintro ⟨hctl, hbad⟩
    obtain ⟨hfinal, hshort⟩ := hwritable.control hctl
    rcases hbad with hfragment | hlong
    · simp [hfinal] at hfragment
    · omega
  rw [length_cons, length_cons, length_append, length_maskBytes]
  show _ = 2 + extendedLen payload.length + _
  omega

/-! ### What a parser checks -/

/-- The options take what was set on the other side. -/
structure ParseFrameOptions.Allows (parse : ParseFrameOptions) (write : WriteFrameOptions) :
    Prop where
  rsv1 : write.rsv1 = true → parse.allowRsv1 = true
  rsv2 : write.rsv2 = true → parse.allowRsv2 = true
  rsv3 : write.rsv3 = true → parse.allowRsv3 = true
  mask : validateExpectMask write.maskKey.isSome parse.expectMask = .ok ()

instance (parse : ParseFrameOptions) (write : WriteFrameOptions) : Decidable (parse.Allows write) :=
  decidable_of_iff ((write.rsv1 = true → parse.allowRsv1 = true) ∧
      (write.rsv2 = true → parse.allowRsv2 = true) ∧
      (write.rsv3 = true → parse.allowRsv3 = true) ∧
      validateExpectMask write.maskKey.isSome parse.expectMask = .ok ())
    ⟨fun h => ⟨h.1, h.2.1, h.2.2.1, h.2.2.2⟩, fun h => ⟨h.rsv1, h.rsv2, h.rsv3, h.mask⟩⟩

lemma extendedLen_cases (len : Nat) :
    (len ≤ 125 ∧ extendedLen len = 0) ∨ (125 < len ∧ len ≤ 65535 ∧ extendedLen len = 2) ∨
      (65535 < len ∧ extendedLen len = 8) := by
  unfold extendedLen
  by_cases hsmall : len ≤ 125
  · exact .inl ⟨hsmall, if_pos hsmall⟩
  rw [if_neg hsmall]
  by_cases hmedium : len ≤ 65535
  · exact .inr (.inl ⟨by omega, hmedium, if_pos hmedium⟩)
  · exact .inr (.inr ⟨by omega, if_neg hmedium⟩)

/-- How long a header is, by what its second byte says. -/
structure LengthForm (header : FrameHeader) (extended : Nat) : Prop where
  headerLen : header.headerLen = 2 + extended + if header.maskKey.isSome then 4 else 0
  form : (extended = 0 ∧ header.payloadLen ≤ 125) ∨
    (extended = 2 ∧ header.payloadLen ≤ 65535) ∨ extended = 8

/-- **The checks on the length of the header find the shortest form.** -/
theorem LengthForm.minimal_iff {header : FrameHeader} {extended : Nat}
    (h : LengthForm header extended) :
    validateMinimalLength header = .ok () ↔ extended = extendedLen header.payloadLen := by
  obtain ⟨hlen, hform⟩ := h
  have hcases := extendedLen_cases header.payloadLen
  unfold validateMinimalLength
  cases hmask : header.maskKey with
  | none =>
    rw [hmask] at hlen
    replace hlen : header.headerLen = 2 + extended := hlen
    simp only [ne_eq, not_true_eq_false, and_true, and_false, if_true]
    by_cases hshort : header.payloadLen ≤ 125 ∧ 4 ≤ header.headerLen
    · rw [if_pos hshort]
      exact ⟨nofun, fun heq => by omega⟩
    rw [if_neg hshort]
    by_cases hmedium : 126 ≤ header.payloadLen ∧ header.payloadLen ≤ 65535 ∧
        header.headerLen - 2 = 8
    · rw [if_pos hmedium]
      exact ⟨nofun, fun heq => by omega⟩
    · rw [if_neg hmedium]
      exact ⟨fun _ => by omega, fun _ => rfl⟩
  | some maskKey =>
    rw [hmask] at hlen
    replace hlen : header.headerLen = 2 + extended + 4 := hlen
    simp only [reduceCtorEq, ne_eq, not_false_eq_true, and_true, and_false, if_false]
    by_cases hshort : header.payloadLen ≤ 125 ∧ 8 ≤ header.headerLen
    · rw [if_pos hshort]
      exact ⟨nofun, fun heq => by omega⟩
    rw [if_neg hshort]
    by_cases hmedium : 126 ≤ header.payloadLen ∧ header.payloadLen ≤ 65535 ∧
        header.headerLen - 6 = 8
    · rw [if_pos hmedium]
      exact ⟨nofun, fun heq => by omega⟩
    · rw [if_neg hmedium]
      exact ⟨fun _ => by omega, fun _ => rfl⟩

lemma lengthForm_headerOf (opcode : Opcode) (payload : Bytes) (options : WriteFrameOptions) :
    LengthForm (headerOf opcode payload options) (extendedLen payload.length) where
  headerLen := rfl
  form := by
    show (_ ∧ payload.length ≤ 125) ∨ (_ ∧ payload.length ≤ 65535) ∨ _
    have hcases := extendedLen_cases payload.length
    omega

lemma validateFrameHeader_headerOf (h : Writable opcode payload options)
    {parse : ParseFrameOptions} (hallows : parse.Allows options) :
    validateFrameHeader (headerOf opcode payload options) parse = .ok () := by
  obtain ⟨hrsv1, hrsv2, hrsv3, hmask⟩ := hallows
  have hnone := h.noRsv
  unfold validateFrameHeader
  show (if (opcode.isControl && (options.rsv1 || options.rsv2 || options.rsv3)) = true then _
    else _) = _
  rw [if_neg ?control, if_neg ?continuation, if_neg ?allowed]
  · show (validateExpectMask options.maskKey.isSome parse.expectMask >>= fun _ =>
      validateMinimalLength (headerOf opcode payload options)) = .ok ()
    rw [hmask]
    exact (lengthForm_headerOf opcode payload options).minimal_iff.mpr rfl
  case control =>
    intro hboth
    rw [Bool.and_eq_true, hnone (.inl hboth.1)] at hboth
    cases hboth.2
  case continuation =>
    rintro ⟨hopcode, hrsv⟩
    have hclear : (options.rsv1 || options.rsv2 || options.rsv3) = false := hnone (.inr hopcode)
    exact Bool.noConfusion (hclear.symm.trans hrsv)
  case allowed =>
    simp only [Bool.or_eq_true, Bool.and_eq_true]
    rintro ((⟨hset, hclear⟩ | ⟨hset, hclear⟩) | ⟨hset, hclear⟩)
    · simp [hrsv1 hset] at hclear
    · simp [hrsv2 hset] at hclear
    · simp [hrsv3 hset] at hclear

lemma validatePayload_headerOf (h : Writable opcode payload options) (parse : ParseFrameOptions) :
    validatePayload (headerOf opcode payload options) payload parse = .ok () := by
  unfold validatePayload headerOf
  by_cases htext : opcode = .text
  · rw [if_pos htext, if_neg]
    intro hbad
    simp only [Bool.and_eq_true, Bool.not_eq_true'] at hbad
    obtain ⟨⟨⟨-, hfin⟩, hrsv⟩, hinvalid⟩ := hbad
    simp [h.text htext hfin hrsv] at hinvalid
  rw [if_neg htext]
  by_cases hclose : opcode = .close
  · rw [if_pos hclose]
    exact h.close hclose
  · rw [if_neg hclose]

/-! ### Round trip -/

section RoundTrip

variable [VectorBackend]

variable {opcode : Opcode} {payload : Bytes} {options : WriteFrameOptions}
  {parse : ParseFrameOptions}

lemma writeFrameExtended_ok {list : Bytes} {written : Bytes}
    (h : writeFrameExtended list opcode payload options = .ok written) :
    ∃ header, writeFrameHeaderInto opcode payload options = .ok header ∧
      written = list ++ header ++ encodedPayload payload options.maskKey := by
  obtain ⟨header, hhdr, h⟩ := bind_eq_ok h
  obtain ⟨-, h⟩ := of_guard h nofun
  cases h
  exact ⟨header, hhdr, rfl⟩

/-- A frame whose header and payload pass the checks is parsed, by both parsers. -/
theorem parse_of_header {bytes rest : Bytes} {header : FrameHeader}
    (hhdr : FrameHeader.parse bytes = .ok (header, rest))
    (hvalid : validateFrameHeader header parse = .ok ())
    (hfits : header.headerLen + header.payloadLen ≤ maxUsize)
    (hlong : header.headerLen + header.payloadLen ≤ bytes.length)
    (hdec : decodedPayload ((bytes.drop header.headerLen).take header.payloadLen)
      header.maskKey = payload) (hpay : validatePayload header payload parse = .ok ()) :
    parseFrameOptions bytes parse =
        .ok { header := header, payload := payload
              consumed := header.headerLen + header.payloadLen } ∧
      ∀ outLen, header.payloadLen ≤ outLen → parseFrameInto outLen bytes parse =
        .ok { header := header, payload := payload
              consumed := header.headerLen + header.payloadLen } := by
  have hlen : ((bytes.drop header.headerLen).take header.payloadLen).length =
      header.payloadLen := by
    rw [length_take, length_drop]
    omega
  constructor
  · unfold parseFrameOptions
    rw [hhdr]
    show (validateFrameHeader header parse >>= fun _ => _) = _
    rw [hvalid]
    show (if maxUsize < header.payloadLen then _ else _) = _
    rw [if_neg (by omega), if_neg (by omega), hdec]
    simp [hpay]
  intro outLen hout
  unfold parseFrameInto
  rw [hhdr]
  show (validateFrameHeader header parse >>= fun _ => _) = _
  rw [hvalid, if_neg (by omega), if_neg (by omega), if_neg (by omega)]
  show (copiedPayload header.payloadLen _ header.maskKey >>= fun _ => _) = _
  rw [copiedPayload_eq hlen, hdec]
  show (validatePayload header payload parse >>= fun _ => _) = _
  rw [hpay]
  rfl

/-- **A written frame is parsed back**, by both parsers, and nothing behind it is taken. -/
theorem parse_written {header : Bytes} (hlen : payload.length < 2 ^ 63)
    (hhdr : writeFrameHeaderInto opcode payload options = .ok header)
    (hallows : parse.Allows options) (trailing : Bytes) :
    parseFrameOptions (header ++ encodedPayload payload options.maskKey ++ trailing) parse =
        .ok { header := headerOf opcode payload options
              payload := payload
              consumed := header.length + payload.length } ∧
      ∀ outLen, payload.length ≤ outLen →
        parseFrameInto outLen (header ++ encodedPayload payload options.maskKey ++ trailing) parse =
          .ok { header := headerOf opcode payload options
                payload := payload
                consumed := header.length + payload.length } := by
  obtain ⟨hreads, hlength⟩ := reads_header hlen hhdr
  obtain ⟨hwritable, -⟩ := writeFrameHeaderInto_ok hhdr
  have hparsed := hreads (encodedPayload payload options.maskKey ++ trailing)
  rw [← append_assoc] at hparsed
  have henc : ((header ++ encodedPayload payload options.maskKey ++ trailing).drop
      (headerOf opcode payload options).headerLen).take payload.length =
        encodedPayload payload options.maskKey := by
    rw [← hlength, append_assoc, drop_left,
      take_left' (length_encodedPayload payload options.maskKey)]
  have hshort : (headerOf opcode payload options).headerLen ≤ 14 := by
    have hcases := extendedLen_cases payload.length
    show 2 + extendedLen payload.length + (if options.maskKey.isSome then 4 else 0) ≤ 14
    split <;> omega
  rw [hlength]
  refine parse_of_header hparsed (validateFrameHeader_headerOf hwritable hallows) ?_ ?_ ?_
    (validatePayload_headerOf hwritable parse)
  · show (headerOf opcode payload options).headerLen + payload.length ≤ maxUsize
    unfold maxUsize
    omega
  · show (headerOf opcode payload options).headerLen + payload.length ≤ _
    simp [length_encodedPayload, hlength]
  · show decodedPayload (take payload.length _) options.maskKey = payload
    rw [henc, decodedPayload_encodedPayload]

end RoundTrip

/-! ### What a parser accepts -/

lemma yields_readInt (n : Nat) :
    Reader.Yields (Cursor.readInt n) fun value => value < 256 ^ n := by
  refine (Reader.yields_take Error.bufferTooShort n).bind fun bytes hbytes => Reader.Yields.done ?_
  have hlt := ofBigEndian_lt bytes
  rw [hbytes] at hlt
  exact hlt

/-- What a length and its extension can be. -/
def LengthRead (read : Nat × Nat) : Prop :=
  read.1 < 2 ^ 63 ∧
    ((read.2 = 0 ∧ read.1 ≤ 125) ∨ (read.2 = 2 ∧ read.1 ≤ 65535) ∨ read.2 = 8)

lemma yields_readExtendedLen {len : Nat} (h : len < 128) :
    Reader.Yields (readExtendedLen len) LengthRead := by
  unfold readExtendedLen LengthRead
  refine Reader.Yields.ite (fun _ => ?_) fun hmedium => Reader.Yields.ite (fun _ => ?_) fun hlarge => ?_
  · exact (yields_readInt 2).bind fun value hvalue => Reader.Yields.done (by omega)
  · refine (yields_readInt 8).bind fun value hvalue => ?_
    exact Reader.Yields.ite (fun _ => Reader.Yields.fail _ _) fun hsmall =>
      Reader.Yields.done (by omega)
  · exact Reader.Yields.done (by omega)

lemma yields_readMaskKey (masked : Bool) :
    Reader.Yields (readMaskKey masked) fun maskKey => maskKey.isSome = masked := by
  unfold readMaskKey
  cases masked with
  | true =>
    exact (Reader.yields_takeVector Error.bufferTooShort 4).bind fun _ _ => Reader.Yields.done rfl
  | false => exact Reader.Yields.done rfl

/-- What the header of a parsed frame satisfies. -/
structure FrameHeader.Parsed (header : FrameHeader) : Prop where
  defined : header.opcode ∈ Opcode.defined
  length : header.payloadLen < 2 ^ 63
  control : header.opcode.isControl = true → header.fin = true ∧ header.payloadLen ≤ 125
  masked : header.masked = header.maskKey.isSome
  form : ∃ extended, LengthForm header extended

lemma yields_parse : Reader.Yields FrameHeader.parse FrameHeader.Parsed := by
  refine (Reader.yields_next Error.bufferTooShort).bind fun b0 _ =>
    (Reader.yields_next Error.bufferTooShort).bind fun b1 _ => ?_
  refine Reader.Yields.ite (fun _ => Reader.Yields.fail _ _) fun hdefined => ?_
  have hlow : ∀ byte : UInt8, (byte &&& 0x0f).toNat < 16 ∧ (byte &&& 0x7f).toNat < 128 := by
    intro byte
    exact ⟨Nat.lt_of_le_of_lt Nat.and_le_right (by decide),
      Nat.lt_of_le_of_lt Nat.and_le_right (by decide)⟩
  unfold FrameHeader.parseRest
  refine (yields_readExtendedLen (hlow b1).2).bind fun read hread =>
    (yields_readMaskKey _).bind fun maskKey hmask => ?_
  refine Reader.Yields.ite (fun _ => Reader.Yields.fail _ _) fun hctl => Reader.Yields.done ?_
  refine ⟨mem_defined ?_, hread.1, ?_, hmask.symm, read.2, ?_, hread.2⟩
  · show ¬((0x3 ≤ (b0 &&& 0x0f).toNat % 16 ∧ (b0 &&& 0x0f).toNat % 16 ≤ 0x7) ∨
      0xb ≤ (b0 &&& 0x0f).toNat % 16)
    omega
  · intro hc
    constructor
    · by_contra hfin
      exact hctl ⟨hc, .inl (by simpa using hfin)⟩
    · exact not_lt.mp fun hlong => hctl ⟨hc, .inr hlong⟩
  · simp [← hmask]

variable {header : FrameHeader} {parse : ParseFrameOptions}

lemma validateFrameHeader_minimal (h : validateFrameHeader header parse = .ok ()) :
    validateMinimalLength header = .ok () := by
  unfold validateFrameHeader at h
  dsimp only at h
  split at h
  · cases h
  split at h
  · cases h
  split at h
  · cases h
  obtain ⟨_, -, hminimal⟩ := bind_eq_ok h
  exact hminimal

/-- A header in its shortest form, of a frame that may be. -/
structure FrameHeader.WellFormed (header : FrameHeader) : Prop where
  defined : header.opcode ∈ Opcode.defined
  control : header.opcode.isControl = true → header.fin = true ∧ header.payloadLen ≤ 125
  topBit : header.payloadLen < 2 ^ 63
  masked : header.masked = header.maskKey.isSome
  minimal : header.headerLen = 2 + extendedLen header.payloadLen + if header.masked then 4 else 0

/-- **A header that is parsed and passes the checks is well formed.** -/
theorem wellFormed_of_validate {bytes rest : Bytes}
    (hparse : FrameHeader.parse bytes = .ok (header, rest))
    (hvalid : validateFrameHeader header parse = .ok ()) : header.WellFormed := by
  obtain ⟨-, hparsed⟩ := yields_parse _ _ _ hparse
  obtain ⟨extended, hform⟩ := hparsed.form
  have hminimal := hform.minimal_iff.mp (validateFrameHeader_minimal hvalid)
  refine ⟨hparsed.defined, hparsed.control, hparsed.length, hparsed.masked, ?_⟩
  rw [hform.headerLen, hminimal, hparsed.masked]

section Accepted

variable [VectorBackend]

variable {bytes : Bytes} {parse : ParseFrameOptions} {frame : Frame}

lemma wellFormed_of_parseFrameOptions (h : parseFrameOptions bytes parse = .ok frame) :
    frame.header.WellFormed := by
  obtain ⟨⟨header, rest⟩, hparse, h⟩ := bind_eq_ok h
  obtain ⟨_, hvalid, h⟩ := bind_eq_ok h
  split at h
  · cases h
  split at h
  · cases h
  obtain ⟨_, -, h⟩ := bind_eq_ok h
  cases h
  exact wellFormed_of_validate hparse hvalid

lemma wellFormed_of_parseFrameInto {outLen : Nat}
    (h : parseFrameInto outLen bytes parse = .ok frame) : frame.header.WellFormed := by
  obtain ⟨⟨header, rest⟩, hparse, h⟩ := bind_eq_ok h
  obtain ⟨_, hvalid, h⟩ := bind_eq_ok h
  dsimp only at h
  split at h
  · cases h
  split at h
  · cases h
  split at h
  · cases h
  obtain ⟨payload, -, h⟩ := bind_eq_ok h
  obtain ⟨_, -, h⟩ := bind_eq_ok h
  cases h
  exact wellFormed_of_validate hparse hvalid

end Accepted

/-! ### The two writers -/

section Writers

variable [VectorBackend]

/-- **The two writers write the same bytes**, one where they are appended and the other where they
have room. -/
theorem writers_agree (opcode : Opcode) (payload : Bytes) (options : WriteFrameOptions) :
    (∀ list, writeFrameExtended list opcode payload options =
      (writeFrameExtended [] opcode payload options).map (list ++ ·)) ∧
    ∀ storageLen written, writeFrameInto storageLen opcode payload options = .ok written ↔
      writeFrameExtended [] opcode payload options = .ok written ∧ written.length ≤ storageLen := by
  unfold writeFrameExtended writeFrameInto
  cases hhdr : writeFrameHeaderInto opcode payload options with
  | error e => exact ⟨fun list => rfl, fun storageLen written => ⟨nofun, fun h => nomatch h.1⟩⟩
  | ok header =>
    dsimp only [bind, Except.bind]
    by_cases hlarge : maxUsize < header.length + payload.length
    · rw [if_pos hlarge]
      refine ⟨fun list => ?_, fun storageLen written => ?_⟩
      · rw [if_pos hlarge]
        rfl
      · simp [hlarge]
    rw [if_neg hlarge]
    have hlen : (header ++ encodedPayload payload options.maskKey).length =
        header.length + payload.length := by
      rw [length_append, length_encodedPayload]
    refine ⟨fun list => ?_, fun storageLen written => ?_⟩
    · rw [if_neg hlarge, append_assoc]
      rfl
    rw [if_neg hlarge, Except.ok.injEq, nil_append]
    by_cases hroom : storageLen < header.length + payload.length
    · rw [if_pos hroom]
      refine ⟨nofun, fun h => ?_⟩
      rw [← h.1, hlen] at h
      exact absurd h.2 (not_le.mpr hroom)
    rw [if_neg hroom, Except.ok.injEq]
    refine ⟨fun h => ⟨h, ?_⟩, fun h => h.1⟩
    rw [← h, hlen]
    exact not_lt.mp hroom

end Writers

/--
**The frame codec.**  A frame that a writer takes is parsed back by both parsers, with its header,
its payload without the mask, and its length; the writers write the same bytes; and a parser takes
no header that is not well formed.  No payload in memory has 2^63 bytes.
-/
theorem frame_codec [VectorBackend] :
    (∀ (opcode : Opcode) (payload written trailing : Bytes) (options : WriteFrameOptions)
      (parse : ParseFrameOptions), payload.length < 2 ^ 63 → parse.Allows options →
      writeFrameExtended [] opcode payload options = .ok written →
      parseFrameOptions (written ++ trailing) parse =
          .ok { header := headerOf opcode payload options
                payload := payload
                consumed := written.length } ∧
        ∀ outLen, payload.length ≤ outLen → parseFrameInto outLen (written ++ trailing) parse =
            .ok { header := headerOf opcode payload options
                  payload := payload
                  consumed := written.length }) ∧
    (∀ (opcode : Opcode) (payload : Bytes) (options : WriteFrameOptions),
      (∀ list, writeFrameExtended list opcode payload options =
        (writeFrameExtended [] opcode payload options).map (list ++ ·)) ∧
      ∀ storageLen written, writeFrameInto storageLen opcode payload options = .ok written ↔
        writeFrameExtended [] opcode payload options = .ok written ∧
          written.length ≤ storageLen) ∧
    ∀ (bytes : Bytes) (parse : ParseFrameOptions) (frame : Frame),
      (parseFrameOptions bytes parse = .ok frame ∨
        ∃ outLen, parseFrameInto outLen bytes parse = .ok frame) → frame.header.WellFormed := by
  refine ⟨?_, writers_agree, ?_⟩
  · intro opcode payload written trailing options parse hlen hallows hwrite
    obtain ⟨header, hheader, rfl⟩ := writeFrameExtended_ok hwrite
    rw [length_append, length_encodedPayload]
    exact parse_written hlen hheader hallows trailing
  rintro bytes parse frame (h | ⟨outLen, h⟩)
  · exact wellFormed_of_parseFrameOptions h
  · exact wellFormed_of_parseFrameInto h

/-- A machine with vectors of sixteen bytes. -/
@[reducible] def sixteenLanes : VectorBackend where
  vectorSize := some 16
  lanes := by
    intro size h
    cases h
    decide

theorem frame_codec_ping :
    @parseFrameOptions sixteenLanes
        [0x89, 0x83, 1, 2, 3, 4, 0x61 ^^^ 1, 0x62 ^^^ 2, 0x63 ^^^ 3, 0xff] {} =
      .ok { header := headerOf .ping [0x61, 0x62, 0x63] { maskKey := some #v[1, 2, 3, 4] }
            payload := [0x61, 0x62, 0x63]
            consumed := 9 } :=
  ((@frame_codec sixteenLanes).1 .ping [0x61, 0x62, 0x63]
    [0x89, 0x83, 1, 2, 3, 4, 0x61 ^^^ 1, 0x62 ^^^ 2, 0x63 ^^^ 3] [0xff]
    { maskKey := some #v[1, 2, 3, 4] } {} (by decide) (by decide) (by decide +kernel)).1

end Netz.WebSocket
