/-
Which frame types the parser takes.

A frame type is a varint of up to 62 bits.  All types but STREAM are compared by value, and
what is left over is `unsupportedFrameType`; STREAM is recognised by `value & 0xf8 == 0x08`,
which looks at the low byte only.  `typeGrammar_iff` says that this is the one way in which
the grammar of the library is left.
-/
import Netz.Proofs.FrameFields

namespace Netz.Quic

open Lib Lib.Reader List Varint FrameType

/-! ### The type field -/

variable {bytes rest : Bytes} {value : Nat}

lemma decode_ok (h : decode bytes = .ok (value, rest)) :
    ∃ first tail, bytes = first :: tail ∧ encodedLen first = bytes.length - rest.length := by
  obtain ⟨first, mid, hfirst, h⟩ := bind_ok_iff.mp h
  obtain ⟨word, last, hword, h⟩ := bind_ok_iff.mp h
  cases h
  cases bytes with
  | nil => cases hfirst
  | cons b tail =>
    cases hfirst
    refine ⟨first, tail, rfl, ?_⟩
    unfold Cursor.readSlice Reader.take at hword
    split at hword
    · cases hword
      rw [length_drop]
      omega
    · cases hword

/-- `bytes` starts with the type `value`, in its shortest form. -/
def LeadingType (bytes : Bytes) (value : Nat) : Prop :=
  ∃ rest, decode bytes = .ok (value, rest) ∧
    Varint.length value = .ok (bytes.length - rest.length)

/-- Every type has such a form, and anything may follow it. -/
theorem leadingType_append {n : Nat} (h : Varint.length value = .ok n) (rest : Bytes) :
    LeadingType (encodeWithLen value n ++ rest) value := by
  refine ⟨rest, reads_encodeWithLen h rest, ?_⟩
  rw [length_append, length_encodeWithLen h, Nat.add_sub_cancel]
  exact h

lemma validateFrameTypeEncoding_ok_iff {frameType encodedLen : Nat} :
    validateFrameTypeEncoding frameType encodedLen = .ok () ↔
      Varint.length frameType = .ok encodedLen := by
  unfold validateFrameTypeEncoding
  cases h : Varint.length frameType with
  | error e => simp
  | ok shortest =>
    by_cases hlen : encodedLen = shortest
    · simp [hlen]
    · simp [hlen, Ne.symm hlen]

lemma parseFrameType_ok_iff :
    parseFrameType bytes = .ok (value, rest) ↔ decode bytes = .ok (value, rest) ∧
        Varint.length value = .ok (bytes.length - rest.length) := by
  constructor
  · intro h
    obtain ⟨first, mid, hfirst, h⟩ := bind_ok_iff.mp h
    obtain ⟨value', mid', hdec, h⟩ := bind_ok_iff.mp h
    obtain ⟨u, mid'', hcheck, h⟩ := bind_ok_iff.mp h
    cases h
    cases bytes with
    | nil => cases hfirst
    | cons b tail =>
      cases hfirst
      obtain ⟨first', tail', hbytes, hlen⟩ := decode_ok hdec
      cases hbytes
      cases hvalid : validateFrameTypeEncoding value (encodedLen first) with
      | error e =>
        rw [hvalid] at hcheck
        cases hcheck
      | ok _ =>
        rw [hvalid] at hcheck
        cases hcheck
        rw [validateFrameTypeEncoding_ok_iff, hlen] at hvalid
        exact ⟨hdec, hvalid⟩
  rintro ⟨hdec, hlen⟩
  obtain ⟨first, tail, rfl, hfirst⟩ := decode_ok hdec
  rw [← hfirst] at hlen
  refine bind_ok_iff.mpr ⟨first, first :: tail, rfl, bind_ok_iff.mpr ⟨value, rest, hdec, ?_⟩⟩
  rw [check_ok (validateFrameTypeEncoding_ok_iff.mpr hlen)]
  rfl

/-! ### Types by value, and by mask -/

/-- The types that the library defines: the listed ones, and STREAM with any of its flags. -/
def FrameType.Defined (value : Nat) : Prop :=
  (∃ frameType : FrameType, frameType.toInt = value) ∨ (0x08 ≤ value ∧ value ≤ 0x0f)

/-- The mask looks at the low byte only. -/
theorem FrameType.isStream_iff (value : Nat) :
    isStream value = true ↔ value % 256 / 8 = 1 := by
  have hlow : value &&& 0xf8 = (value % 256) &&& 0xf8 := by
    have h := Nat.and_mod_two_pow (a := value) (b := 0xf8) (n := 8)
    have hlt : value &&& 0xf8 < 2 ^ 8 := Nat.lt_of_le_of_lt Nat.and_le_right (by decide)
    rw [Nat.mod_eq_of_lt hlt] at h
    exact h
  have hbyte : ∀ b < 256, b &&& 0xf8 = 0x08 ↔ b / 8 = 1 := by decide +kernel
  unfold isStream
  rw [beq_iff_eq, hlow]
  exact hbyte _ (Nat.mod_lt _ (by decide))

/-- A value that the mask takes for STREAM is one of the library's up to `0x0f`. -/
theorem FrameType.defined_of_isStream (h : value % 256 / 8 = 1) :
    Defined value ↔ value ≤ 0x0f := by
  constructor
  · rintro (⟨frameType, rfl⟩ | ⟨-, hle⟩)
    · cases frameType <;> revert h <;> decide
    · exact hle
  · intro hle
    exact .inr ⟨by omega, hle⟩

/-- What is not listed is STREAM or unsupported, as the mask says. -/
theorem parseFrameAfterType_of_not_defined (h : ∀ frameType : FrameType, frameType.toInt ≠ value) :
    parseFrameAfterType true value =
      if isStream value then parseStream value else throw .unsupportedFrameType := by
  have hne : ∀ frameType : FrameType, (value = frameType.toInt) = False :=
    fun frameType => eq_false (fun he => h frameType he.symm)
  simp only [parseFrameAfterType, hne, or_self, if_false]

/-! ### Errors of the STREAM branch -/

lemma avoids_decode : Avoids .unsupportedFrameType decode :=
  (avoids_peek (by decide)).bind (fun _ => (avoids_take (by decide) _).bind
    (fun _ => Avoids.done _ _))

lemma validateEndOffset_ne (offset len : Nat) :
    validateEndOffset offset len ≠ .error .unsupportedFrameType := by
  unfold validateEndOffset
  split
  · simp
  · split <;> simp

lemma avoids_parseStream (value : Nat) : Avoids .unsupportedFrameType (parseStream value) := by
  have hsize : Avoids .unsupportedFrameType decodeUsize := by
    refine avoids_decode.bind (fun v => avoids_check ?_)
    unfold usizeFromVarint
    split <;> simp
  refine avoids_decode.bind (fun streamId => (Avoids.ite avoids_decode (Avoids.done _ 0)).bind
    (fun offset => (Avoids.ite hsize (avoids_remaining _)).bind (fun len => ?_)))
  exact (avoids_check (validateEndOffset_ne offset len)).bind
    (fun _ => (avoids_take (by decide) len).bind (fun _ => Avoids.done _ _))

/-! ### The grammar -/

/--
What the parser promises about the type of `bytes`: a frame is returned only for a defined
type in its shortest form, and any other type is unsupported.
-/
def TypeGrammar (bytes : Bytes) : Prop :=
  (∀ parsed, parseFrameOwned bytes = .ok parsed →
    ∃ value, LeadingType bytes value ∧ Defined value) ∧
  (∀ value, LeadingType bytes value → ¬ Defined value →
    parseFrameOwned bytes = .error .unsupportedFrameType)

lemma frameOwned_of_leadingType (hdec : decode bytes = .ok (value, rest))
    (hlen : Varint.length value = .ok (bytes.length - rest.length)) (hdef : ¬ Defined value) :
    frameOwned true bytes = if isStream value then parseStream value rest
      else .error .unsupportedFrameType := by
  have hne : ∀ frameType : FrameType, frameType.toInt ≠ value :=
    fun frameType he => hdef (.inl ⟨frameType, he⟩)
  unfold frameOwned
  rw [bind_run, parseFrameType_ok_iff.mpr ⟨hdec, hlen⟩]
  dsimp only
  rw [if_neg (hne .padding).symm, parseFrameAfterType_of_not_defined hne]
  split <;> rfl

/--
**The parser keeps to the grammar exactly on the inputs that do not start with a type above
`0x0f` whose low byte is that of a STREAM frame.**
-/
theorem typeGrammar_iff (bytes : Bytes) :
    TypeGrammar bytes ↔ ∀ value, LeadingType bytes value → value % 256 / 8 = 1 → value ≤ 0x0f := by
  constructor
  · rintro ⟨-, hreject⟩ value hleading hmask
    by_contra hlarge
    have hdef : ¬ Defined value :=
      fun h => hlarge ((defined_of_isStream hmask).mp h)
    have herror := hreject value hleading hdef
    obtain ⟨rest, hdecode, hlen⟩ := hleading
    unfold parseFrameOwned parseWith at herror
    rw [frameOwned_of_leadingType hdecode hlen hdef,
      if_pos ((isStream_iff value).mpr hmask)] at herror
    cases hstream : parseStream value rest with
    | ok p => simp [hstream] at herror
    | error e =>
      rw [hstream] at herror
      cases herror
      exact avoids_parseStream value rest hstream
  intro hcond
  constructor
  · intro parsed hparsed
    unfold parseFrameOwned parseWith at hparsed
    split at hparsed
    · rename_i frame last hframe
      obtain ⟨value, rest, htype, -⟩ := bind_ok_iff.mp hframe
      obtain ⟨hdecode, hlen⟩ := parseFrameType_ok_iff.mp htype
      refine ⟨value, ⟨rest, hdecode, hlen⟩, ?_⟩
      by_contra hdef
      rw [frameOwned_of_leadingType hdecode hlen hdef] at hframe
      by_cases hmask : value % 256 / 8 = 1
      · exact hdef ((defined_of_isStream hmask).mpr
          (hcond value ⟨rest, hdecode, hlen⟩ hmask))
      · rw [if_neg (fun h => hmask ((isStream_iff value).mp h))] at hframe
        cases hframe
    · cases hparsed
  intro value hleading hdef
  have hmask : ¬ value % 256 / 8 = 1 := fun hmask =>
    hdef ((defined_of_isStream hmask).mpr (hcond value hleading hmask))
  obtain ⟨rest, hdecode, hlen⟩ := hleading
  unfold parseFrameOwned parseWith
  rw [frameOwned_of_leadingType hdecode hlen hdef,
    if_neg (fun h => hmask ((isStream_iff value).mp h))]

/-- Type `0x108` is taken for a STREAM frame without data, on stream 4. -/
theorem typeGrammar_fails_above_byte : ¬ TypeGrammar [0x41, 0x08, 0x04] := by
  rintro ⟨-, hreject⟩
  have hleading : LeadingType [0x41, 0x08, 0x04] 0x108 := by
    have hword : encodeWithLen 0x108 2 ++ [0x04] = [0x41, 0x08, 0x04] := by decide
    rw [← hword]
    exact leadingType_append rfl [0x04]
  have hdef : ¬ Defined 0x108 := by
    rw [defined_of_isStream (by decide)]
    decide
  have hparse : parseFrameOwned [0x41, 0x08, 0x04] =
      .ok ⟨.stream { streamId := 4, data := [] }, 3⟩ := by decide
  rw [hreject 0x108 hleading hdef] at hparse
  cases hparse

end Netz.Quic

/-! ### What the frame parser accepts is well formed

`Frame.wellFormed` is what the connection takes for granted about a frame.  Each check that it
names is made somewhere along a parser: by the width of a varint, by a validation, or by the
length of a slice.  The parser also only ever moves forward, by a byte at least. -/

namespace Netz.Quic

open Lib Lib.Reader

attribute [local simp] Frame.wellFormed

/-! ### Fields -/

lemma valueMask_le (len : Nat) : Varint.valueMask len ≤ varintMax := by
  unfold Varint.valueMask
  split <;> decide

lemma yields_decode : Yields Varint.decode (· ≤ varintMax) := by
  refine (yields_peek _).bind (fun first _ => (yields_take _ _).bind (fun word _ => ?_))
  exact Yields.done (Nat.le_trans Nat.and_le_right (valueMask_le _))

lemma yields_decodeUsize : Yields decodeUsize (· ≤ varintMax) := by
  refine (yields_decode).bind (fun value hvalue => (yields_check _).mono (fun a ha => ?_))
  unfold usizeFromVarint at ha
  split at ha
  · cases ha
    exact hvalue
  · cases ha

lemma yields_readSlice (len : Nat) :
    Yields (Cursor.readSlice len) (fun data => data.length = len) := yields_take _ len

lemma yields_lengthPrefixed : Yields readLengthPrefixed (fun _ => True) :=
  (yields_decodeUsize).bind (fun len _ => (yields_readSlice len).mono (fun _ _ => trivial))

variable {value frameType : Nat} {u : Unit} {f : Nat → Frame} {bytes : Bytes}

lemma validateQuicVarint_ok (h : validateQuicVarint value = .ok u) : value ≤ varintMax := by
  unfold validateQuicVarint at h
  split at h
  · cases h
  · omega

lemma validateEndOffset_ok {offset len : Nat} (h : validateEndOffset offset len = .ok u) :
    offset + len ≤ varintMax := by
  unfold validateEndOffset checkedAdd at h
  split at h
  · cases h
  rename_i stop hstop
  split at hstop
  · cases hstop
    split at h
    · cases h
    · omega
  · cases hstop

lemma yields_parseStreamCount : Yields parseStreamCount (· ≤ maxStreamCount) := by
  refine (yields_decode).bind (fun maximum _ => (yields_check _).bind (fun _ hcount => ?_))
  refine Yields.done ?_
  unfold validateStreamCount at hcount
  split at hcount
  · cases hcount
  · omega

/-! ### ACK frames -/

lemma validateAckRanges_ok :
    ∀ (ranges : List AckRange) {smallest : Nat} {u : Unit},
      validateAckRanges smallest ranges = .ok u →
        ∀ r ∈ ranges, r.gap ≤ varintMax ∧ r.ackRangeLength ≤ varintMax := by
  intro ranges
  induction ranges with
  | nil => simp
  | cons range rest ih =>
    intro smallest u h r hr
    obtain ⟨_, hgap, h⟩ := bind_eq_ok h
    obtain ⟨_, hlen, h⟩ := bind_eq_ok h
    split at h
    · cases h
    split at h
    · cases h
    split at h
    · cases h
    rcases List.mem_cons.mp hr with rfl | hr
    · exact ⟨validateQuicVarint_ok hgap, validateQuicVarint_ok hlen⟩
    · exact ih h r hr

lemma validateAckFrame_ok {ack : AckFrame} (h : validateAckFrame ack = .ok u) :
    (Frame.ack ack).wellFormed = true := by
  obtain ⟨_, hmax, h⟩ := bind_eq_ok h
  obtain ⟨_, hdelay, h⟩ := bind_eq_ok h
  obtain ⟨_, -, h⟩ := bind_eq_ok h
  obtain ⟨_, -, h⟩ := bind_eq_ok h
  split at h
  · cases h
  obtain ⟨_, hranges, -⟩ := bind_eq_ok h
  have hall := validateAckRanges_ok ack.ranges hranges
  have := validateQuicVarint_ok hmax
  have := validateQuicVarint_ok hdelay
  simp only [Frame.wellFormed, Bool.and_eq_true, decide_eq_true_eq, List.all_eq_true]
  exact ⟨⟨⟨by omega, by omega⟩, by omega⟩, hall⟩

lemma yields_parseAckRange : Yields parseAckRange (fun _ => True) :=
  (yields_decode).bind (fun _ _ => (yields_decode).bind (fun _ _ => Yields.done trivial))

/-- Wherever the ranges are put, there was room for them. -/
theorem yields_parseAckFrameWith (storage : Nat → Except Error Unit) (hasEcn : Bool) :
    Yields (parseAckFrameWith storage hasEcn) (fun ack =>
      (Frame.ack ack).wellFormed = true ∧ storage ack.ranges.length = .ok ()) := by
  refine (yields_decode).bind (fun largest _ => (yields_decode).bind (fun delay _ =>
    (yields_decodeUsize).bind (fun count _ => (yields_decode).bind (fun first _ =>
      yields_remaining.bind (fun remaining _ => (yields_check _).bind (fun _ _ =>
        (yields_check _).bind (fun _ hstorage => ?_)))))))
  have hecn : Yields (parseEcnCounts hasEcn) (fun _ => True) :=
    Yields.ite (fun _ => (yields_decode).bind (fun _ _ => (yields_decode).bind (fun _ _ =>
      (yields_decode).bind (fun _ _ => Yields.done trivial)))) (fun _ => Yields.done trivial)
  refine (yields_parseAckRange.times count).bind (fun ranges hranges => hecn.bind (fun ecn _ =>
    (yields_check _).bind (fun _ hvalid => Yields.done ⟨validateAckFrame_ok hvalid, ?_⟩)))
  simp [hranges.1, hstorage]

/-! ### Other frames -/

/-- Well formed, and without ranges. -/
def Frame.Plain (frame : Frame) : Prop := frame.wellFormed = true ∧ frame.ackRangeCount = 0

lemma yields_parseNewToken : Yields parseNewToken Frame.Plain := by
  refine (yields_decodeUsize).bind (fun len _ => Yields.ite (fun _ => Yields.fail _ _) (fun hlen =>
    (yields_readSlice len).bind (fun token htoken => Yields.done ⟨?_, rfl⟩)))
  simp only [Frame.wellFormed, decide_eq_true_eq]
  omega

lemma yields_parseCrypto : Yields parseCrypto Frame.Plain := by
  refine (yields_decode).bind (fun offset _ => (yields_decodeUsize).bind (fun len _ =>
    (yields_check _).bind (fun _ hend => (yields_readSlice len).bind (fun data hdata =>
      Yields.done ⟨?_, rfl⟩))))
  have := validateEndOffset_ok hend
  simp only [Frame.wellFormed, decide_eq_true_eq]
  omega

lemma yields_parseNewConnectionId : Yields parseNewConnectionId Frame.Plain := by
  refine (yields_decode).bind (fun sequenceNumber hseq => (yields_decode).bind (fun retire _ =>
    Yields.ite (fun _ => Yields.fail _ _) (fun hretire => (yields_next _).bind (fun len _ =>
      (yields_check _).bind (fun _ hlen => (yields_readSlice _).bind (fun cid hcid =>
        (yields_takeVector _ 16).bind (fun token _ => Yields.done ⟨?_, rfl⟩)))))))
  unfold validateConnectionIdLen at hlen
  split at hlen
  · cases hlen
  · simp only [Frame.wellFormed, Bool.and_eq_true, decide_eq_true_eq]
    omega

lemma yields_parseStream (value : Nat) : Yields (parseStream value) Frame.Plain := by
  have hoffset : Yields (if value &&& 0x04 ≠ 0 then Varint.decode else pure 0) (fun _ => True) :=
    Yields.ite (fun _ => (yields_decode).mono (fun _ _ => trivial)) (fun _ => Yields.done trivial)
  have hlen : Yields (if value &&& 0x02 ≠ 0 then decodeUsize else Cursor.remaining)
      (fun _ => True) :=
    Yields.ite (fun _ => (yields_decodeUsize).mono (fun _ _ => trivial)) (fun _ => yields_remaining)
  refine (yields_decode).bind (fun streamId hid => hoffset.bind (fun offset _ =>
    hlen.bind (fun len _ => (yields_check _).bind (fun _ hend =>
      (yields_readSlice len).bind (fun data hdata => Yields.done ⟨?_, rfl⟩)))))
  have := validateEndOffset_ok hend
  simp only [Frame.wellFormed, Bool.and_eq_true, decide_eq_true_eq]
  omega

lemma yields_parseAckFrequency : Yields parseAckFrequency Frame.Plain := by
  refine (yields_decode).bind (fun sequenceNumber h₁ => (yields_decode).bind (fun threshold h₂ =>
    (yields_decode).bind (fun delay h₃ => (yields_decode).bind (fun reordering h₄ =>
      (yields_check _).bind (fun _ hvalid => Yields.done ⟨?_, rfl⟩)))))
  obtain ⟨_, -, hvalid⟩ := bind_eq_ok hvalid
  obtain ⟨_, -, hvalid⟩ := bind_eq_ok hvalid
  obtain ⟨_, -, hvalid⟩ := bind_eq_ok hvalid
  obtain ⟨_, -, hvalid⟩ := bind_eq_ok hvalid
  split at hvalid
  · cases hvalid
  simp only [Frame.wellFormed, Bool.and_eq_true, decide_eq_true_eq]
  dsimp only at *
  omega

lemma yields_varint
    (hf : ∀ n, (f n).wellFormed = decide (n ≤ varintMax) ∧ (f n).ackRangeCount = 0) :
    Yields (Varint.decode >>= fun n => pure (f n)) Frame.Plain :=
  (yields_decode).bind (fun n hn => Yields.done ⟨(hf n).1.trans (decide_eq_true hn), (hf n).2⟩)

lemma yields_varints {f : Nat → Nat → Frame}
    (hf : ∀ a b, (f a b).wellFormed = (decide (a ≤ varintMax) && decide (b ≤ varintMax)) ∧
      (f a b).ackRangeCount = 0) :
    Yields (Varint.decode >>= fun a => Varint.decode >>= fun b => pure (f a b)) Frame.Plain := by
  refine (yields_decode).bind (fun a ha => (yields_decode).bind (fun b hb =>
    Yields.done ⟨?_, (hf a b).2⟩))
  rw [(hf a b).1, decide_eq_true ha, decide_eq_true hb]
  rfl

lemma yields_streamCount
    (hf : ∀ n, (f n).wellFormed = decide (n ≤ maxStreamCount) ∧ (f n).ackRangeCount = 0) :
    Yields (parseStreamCount >>= fun n => pure (f n)) Frame.Plain :=
  yields_parseStreamCount.bind
    (fun n hn => Yields.done ⟨(hf n).1.trans (decide_eq_true hn), (hf n).2⟩)

lemma yields_parseFrameAfterType (allocator : Bool)
    (hack : ¬ (frameType = FrameType.ack.toInt ∨ frameType = FrameType.ackEcn.toInt)) :
    Yields (parseFrameAfterType allocator frameType) Frame.Plain := by
  unfold parseFrameAfterType
  refine Yields.ite (fun _ => Yields.done ⟨rfl, rfl⟩) (fun _ => ?_)
  rw [if_neg hack]
  refine Yields.ite (fun _ => ?resetStream) (fun _ =>
    Yields.ite (fun _ => yields_varints fun _ _ => ⟨rfl, rfl⟩) (fun _ =>
    Yields.ite (fun _ => yields_parseNewToken) (fun _ =>
    Yields.ite (fun _ => yields_parseCrypto) (fun _ =>
    Yields.ite (fun _ => yields_varint fun _ => ⟨rfl, rfl⟩) (fun _ =>
    Yields.ite (fun _ => yields_varints fun _ _ => ⟨rfl, rfl⟩) (fun _ =>
    Yields.ite (fun _ => yields_streamCount fun _ => ⟨rfl, rfl⟩) (fun _ =>
    Yields.ite (fun _ => yields_streamCount fun _ => ⟨rfl, rfl⟩) (fun _ => ?_))))))))
  case resetStream =>
    refine (yields_decode).bind (fun streamId h₁ => (yields_decode).bind (fun code h₂ =>
      (yields_decode).bind (fun size h₃ => Yields.done ⟨?_, rfl⟩)))
    simp only [Frame.wellFormed, Bool.and_eq_true, decide_eq_true_eq]
    exact ⟨⟨h₁, h₂⟩, h₃⟩
  refine Yields.ite (fun _ => yields_varint fun _ => ⟨rfl, rfl⟩) (fun _ =>
    Yields.ite (fun _ => yields_varints fun _ _ => ⟨rfl, rfl⟩) (fun _ =>
    Yields.ite (fun _ => yields_streamCount fun _ => ⟨rfl, rfl⟩) (fun _ =>
    Yields.ite (fun _ => yields_streamCount fun _ => ⟨rfl, rfl⟩) (fun _ =>
    Yields.ite (fun _ => yields_parseNewConnectionId) (fun _ =>
    Yields.ite (fun _ => yields_varint fun _ => ⟨rfl, rfl⟩) (fun _ =>
    Yields.ite (fun _ => (yields_takeVector _ 8).bind (fun _ _ => Yields.done ⟨rfl, rfl⟩)) (fun _ =>
    Yields.ite (fun _ => (yields_takeVector _ 8).bind (fun _ _ => Yields.done ⟨rfl, rfl⟩)) (fun _ =>
    Yields.ite (fun _ => yields_parseStream _) (fun _ => ?_)))))))))
  refine Yields.ite (fun _ => ?connectionClose) (fun _ => Yields.ite (fun _ => ?applicationClose)
    (fun _ => Yields.ite (fun _ => Yields.done ⟨rfl, rfl⟩) (fun _ =>
    Yields.ite (fun _ => Yields.done ⟨rfl, rfl⟩) (fun _ =>
    Yields.ite (fun _ => yields_takeRest.bind (fun _ _ => Yields.done ⟨rfl, rfl⟩)) (fun _ =>
    Yields.ite (fun _ => yields_lengthPrefixed.bind (fun _ _ => Yields.done ⟨rfl, rfl⟩)) (fun _ =>
    Yields.ite (fun _ => yields_parseAckFrequency) (fun _ => Yields.fail _ _)))))))
  case connectionClose =>
    refine (yields_decode).bind (fun code h₁ => (yields_decode).bind (fun frameType h₂ =>
      yields_lengthPrefixed.bind (fun _ _ => Yields.done ⟨?_, rfl⟩)))
    simp only [Frame.wellFormed, Bool.and_eq_true, decide_eq_true_eq]
    exact ⟨h₁, h₂⟩
  case applicationClose =>
    exact (yields_decode).bind (fun code h₁ => yields_lengthPrefixed.bind (fun _ _ =>
      Yields.done ⟨decide_eq_true h₁, rfl⟩))

/-! ### Whole frames -/

lemma yields_parsePadding : Yields parsePadding Frame.Plain := by
  intro input frame rest h
  cases h
  exact ⟨List.dropWhile_suffix _, rfl, rfl⟩

lemma parseFrameAfterType_ack {allocator : Bool}
    (hack : frameType = FrameType.ack.toInt ∨ frameType = FrameType.ackEcn.toInt) :
    parseFrameAfterType allocator frameType =
      parseAckFrame allocator (frameType == FrameType.ackEcn.toInt) >>= fun ack =>
        pure (.ack ack) := by
  rcases hack with rfl | rfl <;> rfl

end Netz.Quic
