/-
QUIC varints read back.

`Varint.length` picks one of four widths, `encodeWithLen` puts the width into the top two
bits of the first byte, and `decode` reads the width there and masks it off again.
`encode_reads` is the one fact about varints that the frame codec rests on.
-/
import Netz.Quic.FrameParse

namespace Netz.Quic

open Lib Lib.Reader

namespace Varint

/-! ### Widths -/

lemma length_ok {value n : Nat} (h : length value = .ok n) :
    value ≤ varintMax ∧
      ((n = 1 ∧ value < 2 ^ 6) ∨ (n = 2 ∧ value < 2 ^ 14) ∨ (n = 4 ∧ value < 2 ^ 30) ∨
        (n = 8 ∧ value < 2 ^ 62)) := by
  unfold length at h
  unfold varintMax at h ⊢
  split at h
  · cases h
    omega
  split at h
  · cases h
    omega
  split at h
  · cases h
    omega
  split at h
  · cases h
    omega
  · cases h

lemma length_of_le {value : Nat} (h : value ≤ varintMax) : ∃ n, length value = .ok n := by
  unfold length
  by_cases h₁ : value ≤ 63
  · exact ⟨1, by rw [if_pos h₁]⟩
  by_cases h₂ : value ≤ 16383
  · exact ⟨2, by rw [if_neg h₁, if_pos h₂]⟩
  by_cases h₃ : value ≤ 1073741823
  · exact ⟨4, by rw [if_neg h₁, if_neg h₂, if_pos h₃]⟩
  · exact ⟨8, by rw [if_neg h₁, if_neg h₂, if_neg h₃, if_pos h]⟩

lemma length_encodeWithLen {value n : Nat} (h : length value = .ok n) :
    (encodeWithLen value n).length = n := by
  obtain ⟨-, ⟨rfl, -⟩ | ⟨rfl, -⟩ | ⟨rfl, -⟩ | ⟨rfl, -⟩⟩ := length_ok h <;>
    exact length_bigEndian _ _

/-! ### Decoding -/

lemma or_tag {value k : Nat} (h : value < 2 ^ k) (tag : Nat) :
    value ||| (tag * 2 ^ k) = tag * 2 ^ k + value := by
  rw [Nat.or_comm, Nat.mul_comm]
  exact (Nat.two_pow_add_eq_or_of_lt h tag).symm

/-- What is decoded from a word whose first byte announces its length. -/
theorem decode_word (word rest : Bytes) (first : UInt8) (hfirst : word.head? = some first)
    (hlen : encodedLen first = word.length) :
    decode (word ++ rest) = .ok (ofBigEndian word &&& valueMask word.length, rest) := by
  cases word with
  | nil => cases hfirst
  | cons b tail =>
    cases hfirst
    unfold decode
    rw [bind_run]
    show (Cursor.readSlice (encodedLen first) >>= fun bytes =>
      pure (ofBigEndian bytes &&& valueMask (encodedLen first))) (first :: tail ++ rest) = _
    rw [hlen, bind_run]
    unfold Cursor.readSlice
    rw [reads_take]
    rfl

section Tagged

-- One width: `m + 1` bytes, of whose `k + 2` bits the tag takes the top two.
variable (m tag k : Nat) {value : Nat} (hk : k + 2 = 8 * (m + 1)) (htag : tag < 4)
  (hvalue : value < 2 ^ k)

include hk in
private lemma two_pow_eq : 2 ^ k = 2 ^ 6 * 256 ^ m := by
  rw [show (256 : Nat) = 2 ^ 8 from rfl, ← Nat.pow_mul, ← Nat.pow_add]
  congr 1
  omega

include hk htag hvalue in
lemma shiftRight_head_tagged :
    (UInt8.ofNat ((value ||| (tag * 2 ^ k)) / 256 ^ m)).toNat >>> 6 = tag := by
  have hpos : 0 < 256 ^ m := Nat.pow_pos (by omega)
  have htop : (tag * 2 ^ k + value) / 256 ^ m = tag * 2 ^ 6 + value / 256 ^ m := by
    rw [two_pow_eq m k hk, ← Nat.mul_assoc, Nat.mul_comm (tag * 2 ^ 6), Nat.mul_add_div hpos]
  have hlow : value / 256 ^ m < 2 ^ 6 := by
    rw [Nat.div_lt_iff_lt_mul hpos, ← two_pow_eq m k hk]
    exact hvalue
  rw [or_tag hvalue, htop]
  generalize value / 256 ^ m = top at hlow
  have hbyte : (UInt8.ofNat (tag * 2 ^ 6 + top)).toNat = tag * 2 ^ 6 + top := by
    rw [UInt8.toNat_ofNat']
    omega
  rw [hbyte, Nat.shiftRight_eq_div_pow]
  omega

include hk htag hvalue in
lemma mask_tagged :
    ofBigEndian (bigEndian (m + 1) (value ||| (tag * 2 ^ k))) &&& (2 ^ k - 1) = value := by
  have hspan : (256 : Nat) ^ (m + 1) = 4 * 2 ^ k := by
    rw [two_pow_eq m k hk, Nat.pow_succ]
    omega
  have hlt : tag * 2 ^ k + value < 256 ^ (m + 1) := by
    calc tag * 2 ^ k + value
        < (tag + 1) * 2 ^ k := by rw [Nat.add_mul, Nat.one_mul]; omega
      _ ≤ 4 * 2 ^ k := Nat.mul_le_mul_right _ htag
      _ = 256 ^ (m + 1) := hspan.symm
  rw [or_tag hvalue, ofBigEndian_bigEndian, Nat.mod_eq_of_lt hlt,
    Nat.and_two_pow_sub_one_eq_mod, Nat.mul_comm, Nat.mul_add_mod, Nat.mod_eq_of_lt hvalue]

include hk htag hvalue in
lemma tagged_spec (hwidth : 1 <<< tag = m + 1) (hmask : valueMask (m + 1) = 2 ^ k - 1) :
    ∃ first tail, bigEndian (m + 1) (value ||| (tag * 2 ^ k)) = first :: tail ∧
      encodedLen first = m + 1 ∧
      ofBigEndian (bigEndian (m + 1) (value ||| (tag * 2 ^ k))) &&& valueMask (m + 1) = value := by
  refine ⟨_, _, rfl, ?_, ?_⟩
  · unfold encodedLen
    rw [shiftRight_head_tagged m tag k hk htag hvalue, hwidth]
  · rw [hmask]
    exact mask_tagged m tag k hk htag hvalue

end Tagged

lemma encodeWithLen_spec {value n : Nat} (h : length value = .ok n) :
    ∃ first tail, encodeWithLen value n = first :: tail ∧ encodedLen first = n ∧
      ofBigEndian (encodeWithLen value n) &&& valueMask n = value := by
  obtain ⟨-, ⟨rfl, hv⟩ | ⟨rfl, hv⟩ | ⟨rfl, hv⟩ | ⟨rfl, hv⟩⟩ := length_ok h
  · have hspec := tagged_spec 0 0 6 rfl (by omega) hv rfl rfl
    rw [Nat.zero_mul, Nat.or_zero] at hspec
    exact hspec
  · exact tagged_spec 1 1 14 rfl (by omega) hv rfl rfl
  · exact tagged_spec 3 2 30 rfl (by omega) hv rfl rfl
  · exact tagged_spec 7 3 62 rfl (by omega) hv rfl rfl

/-- **A varint in its shortest form is read back.** -/
theorem reads_encodeWithLen {value n : Nat} (h : length value = .ok n) :
    Reads decode (encodeWithLen value n) value := by
  obtain ⟨first, tail, hword, hfirst, hmask⟩ := encodeWithLen_spec h
  have hlen := length_encodeWithLen h
  intro rest
  rw [decode_word _ rest first (by rw [hword]; rfl) (by rw [hfirst, hlen]), hlen, hmask]

end Varint

end Netz.Quic

/-! ### Frames read back

`wireLen`, `writeAssumeCapacity` and `parseFrameAfterType` lay a frame out independently.
`Coded frame n` is what they agree on: the frame is written as a type and a body of `n` bytes
together, and the parser of that type takes exactly the body and yields the frame.  It holds
of every frame that has a `wireLen`, except the two whose end is not in their own bytes:
PADDING runs on through further zeros, and a DATAGRAM without a length runs to the end. -/

namespace Netz.Quic

open Lib Lib.Reader List Varint

/-! ### What `wireLen` adds up -/

lemma addWireLen_ok {a b n : Nat} (h : addWireLen a b = .ok n) : n = a + b := by
  unfold addWireLen checkedAdd at h
  split at h
  · cases h
  rename_i len hlen
  split at hlen
  · cases hlen
    cases h
    rfl
  · cases hlen

lemma addVarintLen_ok {len value n : Nat}
    (h : (Varint.length value >>= fun k => addWireLen len k) = .ok n) :
    ∃ k, Varint.length value = .ok k ∧ n = len + k := by
  obtain ⟨k, hk, h⟩ := bind_eq_ok h
  exact ⟨k, hk, addWireLen_ok h⟩

lemma addVarintLen_bind {len value n : Nat} {f : Nat → Except Error Nat}
    (h : (Varint.length value >>= fun k => addWireLen len k >>= f) = .ok n) :
    ∃ k, Varint.length value = .ok k ∧ f (len + k) = .ok n := by
  obtain ⟨k, hk, h⟩ := bind_eq_ok h
  obtain ⟨len', hlen, h⟩ := bind_eq_ok h
  rw [addWireLen_ok hlen] at h
  exact ⟨k, hk, h⟩

lemma singleVarintFrameWireLen_ok {value n : Nat} (h : singleVarintFrameWireLen value = .ok n) :
    ∃ k, Varint.length value = .ok k ∧ n = 1 + k := addVarintLen_ok h

lemma doubleVarintFrameWireLen_ok {first second n : Nat}
    (h : doubleVarintFrameWireLen first second = .ok n) :
    ∃ k₁ k₂, Varint.length first = .ok k₁ ∧ Varint.length second = .ok k₂ ∧ n = 1 + k₁ + k₂ := by
  obtain ⟨k₁, h₁, h⟩ := addVarintLen_bind h
  obtain ⟨k₂, h₂, hn⟩ := addVarintLen_ok h
  exact ⟨k₁, k₂, h₁, h₂, hn⟩

lemma tripleVarintFrameWireLen_ok {first second third n : Nat}
    (h : tripleVarintFrameWireLen first second third = .ok n) :
    ∃ k₁ k₂ k₃, Varint.length first = .ok k₁ ∧ Varint.length second = .ok k₂ ∧
      Varint.length third = .ok k₃ ∧ n = 1 + k₁ + k₂ + k₃ := by
  obtain ⟨k₁, h₁, h⟩ := addVarintLen_bind h
  obtain ⟨k₂, h₂, h⟩ := addVarintLen_bind h
  obtain ⟨k₃, h₃, hn⟩ := addVarintLen_ok h
  exact ⟨k₁, k₂, k₃, h₁, h₂, h₃, hn⟩

/-! ### Steps of the parsers -/

lemma length_le_maxU64 {value n : Nat} (h : Varint.length value = .ok n) : value ≤ maxU64 := by
  have := (length_ok h).1
  unfold varintMax at this
  unfold maxU64
  omega

lemma reads_decodeUsize {value n : Nat} (h : Varint.length value = .ok n) :
    Reads decodeUsize (encodeWithLen value n) value := by
  refine (reads_encodeWithLen h).map (check_ok ?_)
  simp [(length_le_maxU64 h), usizeFromVarint]

lemma reads_readSlice (data : Bytes) : Reads (Cursor.readSlice data.length) data data :=
  reads_take Error.bufferTooShort data

lemma reads_lengthPrefixed {data : Bytes} {n : Nat} (h : Varint.length data.length = .ok n) :
    Reads readLengthPrefixed (encodeWithLen data.length n ++ data) data :=
  (reads_decodeUsize h).bind (reads_readSlice data)

lemma reads_frameType (frameType : Nat) {n : Nat} (h : Varint.length frameType = .ok n) :
    Reads parseFrameType (encodeWithLen frameType n) frameType := by
  obtain ⟨first, tail, hword, hfirst, -⟩ := encodeWithLen_spec h
  have hread := reads_encodeWithLen h
  intro rest
  have hcheck : validateFrameTypeEncoding frameType (encodedLen first) = .ok () := by
    simp [h, hfirst, validateFrameTypeEncoding]
  unfold parseFrameType
  refine bind_ok_iff.mpr ⟨first, encodeWithLen frameType n ++ rest, ?_, ?_⟩
  · rw [hword]
    rfl
  refine bind_ok_iff.mpr ⟨frameType, rest, hread rest, ?_⟩
  rw [check_ok hcheck]
  rfl

/-! ### Frames with their end in their own bytes -/

/-- The frame is written as a type and a body, which the parser of that type takes back. -/
def Coded (frame : Frame) (n : Nat) : Prop :=
  ∃ frameType typeLen body, Varint.length frameType = .ok typeLen ∧
    frameType ≠ FrameType.padding.toInt ∧
    frame.writeAssumeCapacity = .ok (encodeWithLen frameType typeLen ++ body) ∧
    typeLen + body.length = n ∧ Reads (parseFrameAfterType true frameType) body frame

lemma Coded.of_byte {frame : Frame} {frameType n : Nat} (body : Bytes) (hlt : frameType < 64)
    (hne : frameType ≠ FrameType.padding.toInt)
    (hwrite : frame.writeAssumeCapacity = .ok (UInt8.ofNat frameType :: body))
    (hlen : n = 1 + body.length) (hread : Reads (parseFrameAfterType true frameType) body frame) :
    Coded frame n := by
  have htype : Varint.length frameType = .ok 1 := by
    unfold Varint.length
    rw [if_pos (by omega)]
  have hbyte : encodeWithLen frameType 1 = [UInt8.ofNat frameType] := by
    simp [encodeWithLen, bigEndian]
  refine ⟨frameType, 1, body, htype, hne, ?_, hlen.symm, hread⟩
  rw [hbyte, hwrite]
  rfl

/-! #### Frames of one, two or three varints and a payload -/

section Varints

variable {frame : Frame} (frameType : FrameType) {payload : Bytes} {n : Nat}
  (hlt : frameType.toInt < 64) (hne : frameType.toInt ≠ FrameType.padding.toInt)

include hlt hne in
lemma Coded.single {value k : Nat} (h : Varint.length value = .ok k)
    (hwrite : frame.writeAssumeCapacity = writeSingleVarintPayloadFrame frameType value payload)
    (hlen : n = 1 + k + payload.length) (hread : Reads (parseFrameAfterType true frameType.toInt)
      (encodeWithLen value k ++ payload) frame) : Coded frame n := by
  refine Coded.of_byte _ hlt hne (hwrite.trans ?_) ?_ hread
  · unfold writeSingleVarintPayloadFrame
    rw [h]
    rfl
  · rw [hlen, length_append, length_encodeWithLen h, Nat.add_assoc]

include hlt hne in
lemma Coded.double {first second k₁ k₂ : Nat} (h₁ : Varint.length first = .ok k₁)
    (h₂ : Varint.length second = .ok k₂) (hwrite : frame.writeAssumeCapacity =
      writeDoubleVarintPayloadFrame frameType first second payload)
    (hlen : n = 1 + k₁ + k₂ + payload.length)
    (hread : Reads (parseFrameAfterType true frameType.toInt)
      (encodeWithLen first k₁ ++ (encodeWithLen second k₂ ++ payload)) frame) :
    Coded frame n := by
  rw [← append_assoc] at hread
  refine Coded.of_byte _ hlt hne (hwrite.trans ?_) ?_ hread
  · unfold writeDoubleVarintPayloadFrame
    rw [h₁, h₂]
    rfl
  simp only [hlen, length_append, length_encodeWithLen h₁,
    length_encodeWithLen h₂]
  omega

include hlt hne in
lemma Coded.triple {first second third k₁ k₂ k₃ : Nat} (h₁ : Varint.length first = .ok k₁)
    (h₂ : Varint.length second = .ok k₂) (h₃ : Varint.length third = .ok k₃)
    (hwrite : frame.writeAssumeCapacity =
      writeTripleVarintPayloadFrame frameType first second third payload)
    (hlen : n = 1 + k₁ + k₂ + k₃ + payload.length)
    (hread : Reads (parseFrameAfterType true frameType.toInt)
      (encodeWithLen first k₁ ++ (encodeWithLen second k₂ ++
        (encodeWithLen third k₃ ++ payload))) frame) : Coded frame n := by
  rw [← append_assoc, ← append_assoc] at hread
  refine Coded.of_byte _ hlt hne (hwrite.trans ?_) ?_ hread
  · unfold writeTripleVarintPayloadFrame
    rw [h₁, h₂, h₃]
    rfl
  simp only [hlen, length_append, length_encodeWithLen h₁,
    length_encodeWithLen h₂, length_encodeWithLen h₃]
  omega

end Varints

lemma coded_resetStream {frame : ResetStreamFrame} {n : Nat}
    (h : (Frame.resetStream frame).wireLen = .ok n) : Coded (.resetStream frame) n := by
  obtain ⟨k₁, k₂, k₃, h₁, h₂, h₃, hn⟩ := tripleVarintFrameWireLen_ok h
  refine Coded.triple .resetStream (by decide) (by decide) h₁ h₂ h₃ rfl hn ?_
  rw [append_nil]
  exact (reads_encodeWithLen h₁).bind
    ((reads_encodeWithLen h₂).bind ((reads_encodeWithLen h₃).map rfl))

lemma coded_stopSending {frame : StopSendingFrame} {n : Nat}
    (h : (Frame.stopSending frame).wireLen = .ok n) : Coded (.stopSending frame) n := by
  obtain ⟨k₁, k₂, h₁, h₂, hn⟩ := doubleVarintFrameWireLen_ok h
  refine Coded.double .stopSending (by decide) (by decide) h₁ h₂ rfl hn ?_
  rw [append_nil]
  exact (reads_encodeWithLen h₁).bind ((reads_encodeWithLen h₂).map rfl)

lemma coded_newToken {token : Bytes} {n : Nat} (h : (Frame.newToken token).wireLen = .ok n) :
    Coded (.newToken token) n := by
  by_cases hempty : token.length = 0
  · simp [Frame.wireLen, hempty] at h
  simp only [Frame.wireLen, if_neg hempty] at h
  obtain ⟨len, hlen, h⟩ := bind_eq_ok h
  obtain ⟨k, hk, rfl⟩ := singleVarintFrameWireLen_ok hlen
  refine Coded.single .newToken (by decide) (by decide) hk ?_ (addWireLen_ok h) ?_
  · show (if token.length = 0 then _ else _) = _
    rw [if_neg hempty]
  refine (reads_decodeUsize hk).bind ?_
  rw [if_neg hempty]
  exact (reads_readSlice token).map rfl

lemma coded_crypto {offset n : Nat} {data : Bytes}
    (h : (Frame.crypto offset data).wireLen = .ok n) : Coded (.crypto offset data) n := by
  obtain ⟨_, hend, h⟩ := bind_eq_ok h
  obtain ⟨len, hlen, h⟩ := bind_eq_ok h
  obtain ⟨k₁, k₂, h₁, h₂, rfl⟩ := doubleVarintFrameWireLen_ok hlen
  refine Coded.double .crypto (by decide) (by decide) h₁ h₂ ?_ (addWireLen_ok h) ?_
  · show (validateEndOffset offset data.length >>= fun _ => _) = _
    rw [hend]
    rfl
  · refine (reads_encodeWithLen h₁).bind ((reads_decodeUsize h₂).bind ?_)
    exact (Reads.check (check_ok hend) ((reads_readSlice data).map rfl))

lemma coded_connectionClose {errorCode frameType n : Nat} {reason : Bytes}
    (h : (Frame.connectionClose errorCode frameType reason).wireLen = .ok n) :
    Coded (.connectionClose errorCode frameType reason) n := by
  obtain ⟨len, hlen, h⟩ := bind_eq_ok h
  obtain ⟨k₁, k₂, k₃, h₁, h₂, h₃, rfl⟩ := tripleVarintFrameWireLen_ok hlen
  refine Coded.triple .connectionClose (by decide) (by decide) h₁ h₂ h₃ rfl (addWireLen_ok h) ?_
  exact (reads_encodeWithLen h₁).bind
    ((reads_encodeWithLen h₂).bind ((reads_lengthPrefixed h₃).map rfl))

lemma coded_applicationClose {errorCode n : Nat} {reason : Bytes}
    (h : (Frame.applicationClose errorCode reason).wireLen = .ok n) :
    Coded (.applicationClose errorCode reason) n := by
  obtain ⟨len, hlen, h⟩ := bind_eq_ok h
  obtain ⟨k₁, k₂, h₁, h₂, rfl⟩ := doubleVarintFrameWireLen_ok hlen
  refine Coded.double .connectionCloseApp (by decide) (by decide) h₁ h₂ rfl (addWireLen_ok h) ?_
  exact (reads_encodeWithLen h₁).bind ((reads_lengthPrefixed h₂).map rfl)

lemma coded_varint {frame : Frame} (frameType : FrameType) {value n : Nat}
    (hlt : frameType.toInt < 64) (hne : frameType.toInt ≠ FrameType.padding.toInt)
    (h : singleVarintFrameWireLen value = .ok n)
    (hwrite : frame.writeAssumeCapacity = writeSingleVarintFrame frameType value)
    (hread : ∀ k, Varint.length value = .ok k → Reads (parseFrameAfterType true frameType.toInt)
      (encodeWithLen value k) frame) : Coded frame n := by
  obtain ⟨k, hk, hn⟩ := singleVarintFrameWireLen_ok h
  refine Coded.single frameType hlt hne hk hwrite hn ?_
  rw [append_nil]
  exact hread k hk

variable {maximum n : Nat}

lemma coded_maxData (h : (Frame.maxData maximum).wireLen = .ok n) : Coded (.maxData maximum) n :=
  coded_varint .maxData (by decide) (by decide) h rfl
    (fun _ hk => (reads_encodeWithLen hk).map rfl)

lemma coded_dataBlocked (h : (Frame.dataBlocked maximum).wireLen = .ok n) :
    Coded (.dataBlocked maximum) n :=
  coded_varint .dataBlocked (by decide) (by decide) h rfl
    (fun _ hk => (reads_encodeWithLen hk).map rfl)

lemma coded_retireConnectionId {sequenceNumber n : Nat}
    (h : (Frame.retireConnectionId sequenceNumber).wireLen = .ok n) :
    Coded (.retireConnectionId sequenceNumber) n :=
  coded_varint .retireConnectionId (by decide) (by decide) h rfl
    (fun _ hk => (reads_encodeWithLen hk).map rfl)

lemma coded_maxStreamData {streamId maximum n : Nat}
    (h : (Frame.maxStreamData streamId maximum).wireLen = .ok n) :
    Coded (.maxStreamData streamId maximum) n := by
  obtain ⟨k₁, k₂, h₁, h₂, hn⟩ := doubleVarintFrameWireLen_ok h
  refine Coded.double .maxStreamData (by decide) (by decide) h₁ h₂ rfl hn ?_
  rw [append_nil]
  exact (reads_encodeWithLen h₁).bind ((reads_encodeWithLen h₂).map rfl)

lemma coded_streamDataBlocked {streamId maximum n : Nat}
    (h : (Frame.streamDataBlocked streamId maximum).wireLen = .ok n) :
    Coded (.streamDataBlocked streamId maximum) n := by
  obtain ⟨k₁, k₂, h₁, h₂, hn⟩ := doubleVarintFrameWireLen_ok h
  refine Coded.double .streamDataBlocked (by decide) (by decide) h₁ h₂ rfl hn ?_
  rw [append_nil]
  exact (reads_encodeWithLen h₁).bind ((reads_encodeWithLen h₂).map rfl)

lemma coded_streamCount {frame : Frame} (frameType : FrameType)
    (hlt : frameType.toInt < 64) (hne : frameType.toInt ≠ FrameType.padding.toInt)
    (h : (validateStreamCount maximum >>= fun _ => singleVarintFrameWireLen maximum) = .ok n)
    (hwrite : frame.writeAssumeCapacity =
      (validateStreamCount maximum >>= fun _ => writeSingleVarintFrame frameType maximum))
    (hread : ∀ word, Reads parseStreamCount word maximum →
      Reads (parseFrameAfterType true frameType.toInt) word frame) : Coded frame n := by
  obtain ⟨_, hcount, h⟩ := bind_eq_ok h
  rw [hcount] at hwrite
  refine coded_varint frameType hlt hne h hwrite (fun k hk => hread _ ?_)
  exact (reads_encodeWithLen hk).map (by rw [check_ok hcount]; rfl)

lemma coded_maxStreamsBidi
    (h : (Frame.maxStreamsBidi maximum).wireLen = .ok n) : Coded (.maxStreamsBidi maximum) n :=
  coded_streamCount .maxStreamsBidi (by decide) (by decide) h rfl (fun _ hr => hr.map rfl)

lemma coded_maxStreamsUni
    (h : (Frame.maxStreamsUni maximum).wireLen = .ok n) : Coded (.maxStreamsUni maximum) n :=
  coded_streamCount .maxStreamsUni (by decide) (by decide) h rfl (fun _ hr => hr.map rfl)

lemma coded_streamsBlockedBidi (h : (Frame.streamsBlockedBidi maximum).wireLen = .ok n) :
    Coded (.streamsBlockedBidi maximum) n :=
  coded_streamCount .streamsBlockedBidi (by decide) (by decide) h rfl (fun _ hr => hr.map rfl)

lemma coded_streamsBlockedUni (h : (Frame.streamsBlockedUni maximum).wireLen = .ok n) :
    Coded (.streamsBlockedUni maximum) n :=
  coded_streamCount .streamsBlockedUni (by decide) (by decide) h rfl (fun _ hr => hr.map rfl)

end Netz.Quic
