/-
What the writers write is what the readers take off.

Remaining lengths, strings, binary data, property sections and the fixed header, each read back
with whatever follows it.  A property section keeps its properties and their order.
-/
import Netz.Mqtt.Wire

namespace Netz.Mqtt

open Lib Lib.Reader List Cursor

/-! ### Checks -/

variable {bad : Bool} {e : Error} {value : Nat} {bytes : Bytes}

lemma failIf_ok {u : Unit} (h : failIf bad e = .ok u) : bad = false := by
  unfold failIf at h
  cases bad with
  | true => cases h
  | false => rfl

lemma failIf_false (h : bad = false) : failIf bad e = .ok () := by
  rw [h]
  rfl

/-! ### Integers -/

lemma reads_byte (b : UInt8) : Reads readByte [b] b := reads_next _ b

lemma reads_slice (bytes : Bytes) : Reads (readSlice bytes.length) bytes bytes :=
  reads_take _ bytes

lemma reads_int {size : Nat} (h : value < 256 ^ size) :
    Reads (readInt size) (bigEndian size value) value := by
  have hslice := reads_slice (bigEndian size value)
  rw [length_bigEndian] at hslice
  refine hslice.map ?_
  rw [ofBigEndian_bigEndian, Nat.mod_eq_of_lt h]

/-! ### Remaining length -/

lemma remainingLengthEncodedLen_eq {i : Nat} (hi : i < 4) (hlt : value < 128 ^ (i + 1))
    (hle : i = 0 ∨ 128 ^ i ≤ value) : remainingLengthEncodedLen value = i + 1 := by
  unfold remainingLengthEncodedLen
  rcases i with _ | _ | _ | _ | i
  · rw [if_pos (by omega)]
  · rw [if_neg (by omega), if_pos (by omega)]
  · rw [if_neg (by omega), if_neg (by omega), if_pos (by omega)]
  · rw [if_neg (by omega), if_neg (by omega), if_neg (by omega)]
  · omega

/-- **The loops go hand in hand**: `i` bytes are read, `x` is still to come. -/
theorem decodeRemainingLoop_encode (rest : Bytes) :
    ∀ bytes i acc x : Nat, bytes + i = 4 → x < 128 ^ bytes → (i = 0 ∨ 0 < x) → acc < 128 ^ i →
      decodeRemainingLoop (128 ^ i) acc i (encodeRemainingLoop bytes x ++ rest) =
        .ok (acc + x * 128 ^ i, i + (encodeRemainingLoop bytes x).length) := by
  intro bytes
  induction bytes with
  | zero => omega
  | succ bytes ih =>
    intro i acc x hi hx hpos hacc
    unfold encodeRemainingLoop
    by_cases hlast : x / 128 = 0
    · have hx' : x < 128 := by omega
      have hbyte : (UInt8.ofNat (x % 128)).toNat = x := by
        rw [UInt8.toNat_ofNat']
        omega
      have hbound : acc + x * 128 ^ i < 128 ^ (i + 1) := by
        have hmul : x * 128 ^ i ≤ 127 * 128 ^ i := Nat.mul_le_mul_right _ (by omega)
        omega
      have hlow : i = 0 ∨ 128 ^ i ≤ acc + x * 128 ^ i := by
        rcases hpos with hzero | hpos
        · exact .inl hzero
        · have hmul : 1 * 128 ^ i ≤ x * 128 ^ i := Nat.mul_le_mul_right _ hpos
          omega
      rw [if_pos hlast, singleton_append]
      unfold decodeRemainingLoop
      rw [hbyte, Nat.mod_eq_of_lt hx', if_pos hx',
        remainingLengthEncodedLen_eq (by omega) hbound hlow, if_neg (by omega)]
      rfl
    have hbyte : (UInt8.ofNat (x % 128 + 128)).toNat = x % 128 + 128 := by
      rw [UInt8.toNat_ofNat']
      omega
    have hmore : 1 ≤ bytes := by
      rcases bytes with _ | bytes
      · omega
      · omega
    rw [if_neg hlast, cons_append]
    unfold decodeRemainingLoop
    have hdigit : (x % 128 + 128) % 128 = x % 128 := by omega
    have hpow : 128 ^ i * 128 = 128 ^ (i + 1) := by ring
    have hsmall : ¬ 128 * 128 * 128 < 128 ^ (i + 1) := by
      have hle : 128 ^ (i + 1) ≤ 128 ^ 3 := Nat.pow_le_pow_right (by omega) (by omega)
      omega
    rw [hbyte, hdigit, if_neg (by omega), hpow, if_neg hsmall]
    have hquot : x / 128 < 128 ^ bytes := by omega
    have hacc' : acc + x % 128 * 128 ^ i < 128 ^ (i + 1) := by
      have hmul : x % 128 * 128 ^ i ≤ 127 * 128 ^ i := Nat.mul_le_mul_right _ (by omega)
      omega
    rw [ih (i + 1) _ _ (by omega) hquot (.inr (Nat.pos_of_ne_zero hlast)) hacc']
    have hvalue : acc + x % 128 * 128 ^ i + x / 128 * 128 ^ (i + 1) = acc + x * 128 ^ i := by
      conv_rhs => rw [← Nat.mod_add_div x 128]
      ring
    rw [length_cons]
    congr 2
    omega

lemma encodeRemainingLoop_ne_nil (bytes x : Nat) : encodeRemainingLoop (bytes + 1) x ≠ [] := by
  unfold encodeRemainingLoop
  split
  · exact cons_ne_nil _ _
  · exact cons_ne_nil _ _

lemma length_encodeRemainingLoop_le (bytes x : Nat) :
    (encodeRemainingLoop bytes x).length ≤ bytes := by
  induction bytes generalizing x with
  | zero => exact Nat.le_refl 0
  | succ bytes ih =>
    unfold encodeRemainingLoop
    split
    · simp
    rw [length_cons]
    have := ih (x / 128)
    omega

lemma encodeRemainingLength_bounds (h : encodeRemainingLength value = .ok bytes) :
    value ≤ maxRemainingLength ∧ bytes.length ≤ 4 := by
  unfold encodeRemainingLength at h
  obtain ⟨hlarge, h⟩ := of_guard h nofun
  cases h
  exact ⟨not_lt.mp hlarge, length_encodeRemainingLoop_le 4 value⟩

lemma decodeRemainingLength_encode (h : encodeRemainingLength value = .ok bytes) (rest : Bytes) :
    bytes ≠ [] ∧ decodeRemainingLength (bytes ++ rest) = .ok (value, bytes.length) := by
  unfold encodeRemainingLength at h
  obtain ⟨hlarge, h⟩ := of_guard h nofun
  cases h
  have hrange : value < 128 ^ 4 := by
    unfold maxRemainingLength at hlarge
    omega
  have hloop := decodeRemainingLoop_encode rest 4 0 0 value rfl hrange (.inl rfl) (by omega)
  rw [Nat.pow_zero, Nat.mul_one, Nat.zero_add, Nat.zero_add] at hloop
  exact ⟨encodeRemainingLoop_ne_nil 3 value, hloop⟩

lemma reads_remainingLength (h : encodeRemainingLength value = .ok bytes) :
    Reads readRemainingLength bytes value := by
  intro rest
  simp [(decodeRemainingLength_encode h rest).2, readRemainingLength]

/-! ### Strings and binary data -/

lemma reads_utf8 {value : Bytes} (h : writeUtf8 value = .ok bytes) :
    Reads readUtf8 bytes value := by
  obtain ⟨u, hlong, h⟩ := bind_eq_ok h
  obtain ⟨u', hvalid, h⟩ := bind_eq_ok h
  cases h
  have hlen : value.length < 256 ^ 2 := by
    have hle := failIf_ok hlong
    rw [decide_eq_false_iff_not] at hle
    unfold maxU16 at hle
    omega
  exact (reads_int hlen).bind ((reads_slice value).map (check_ok hvalid ▸ rfl))

lemma reads_binary {value : Bytes} (h : writeBinary value = .ok bytes) :
    Reads readBinary bytes value := by
  obtain ⟨u, hlong, h⟩ := bind_eq_ok h
  cases h
  have hlen : value.length < 256 ^ 2 := by
    have hle := failIf_ok hlong
    rw [decide_eq_false_iff_not] at hle
    unfold maxU16 at hle
    omega
  exact (reads_int hlen).bind (reads_slice value)

/-! ### Properties -/

lemma PropertyId.fromInt?_toInt (id : PropertyId) : PropertyId.fromInt? id.toInt = some id := by
  cases id <;> rfl

/-- A property is written in the form its identifier calls for. -/
theorem reads_propertyValue {property : Property} (hvalid : validateProperty property = .ok ())
    (h : writePropertyValue property = .ok bytes) :
    Reads (parsePropertyValue (propertyId property)) bytes property := by
  have hform : propertyHasExpectedWireType property = true := by
    unfold validateProperty at hvalid
    by_cases hboth : (propertyHasExpectedWireType property && propertyValueInRange property) = true
    · exact (Bool.and_eq_true _ _ ▸ hboth).1
    · simp [hboth] at hvalid
  unfold parsePropertyValue
  cases property with
  | byte id value =>
    rw [show propertyWireType (propertyId (.byte id value)) = .byte from eq_of_beq hform]
    cases h
    exact (reads_byte value).map rfl
  | twoByte id value =>
    rw [show propertyWireType (propertyId (.twoByte id value)) = .twoByte from eq_of_beq hform]
    cases h
    refine (reads_int value.toNat_lt).map ?_
    rw [UInt16.ofNat_toNat]
    rfl
  | fourByte id value =>
    rw [show propertyWireType (propertyId (.fourByte id value)) = .fourByte from eq_of_beq hform]
    cases h
    refine (reads_int value.toNat_lt).map ?_
    rw [UInt32.ofNat_toNat]
    rfl
  | varint id value =>
    rw [show propertyWireType (propertyId (.varint id value)) = .varint from eq_of_beq hform]
    exact (reads_remainingLength h).map rfl
  | binary id value =>
    rw [show propertyWireType (propertyId (.binary id value)) = .binary from eq_of_beq hform]
    exact (reads_binary h).map rfl
  | utf8 id value =>
    rw [show propertyWireType (propertyId (.utf8 id value)) = .utf8 from eq_of_beq hform]
    exact (reads_utf8 h).map rfl
  | utf8Pair id key value =>
    rw [show propertyWireType (propertyId (.utf8Pair id key value)) = .utf8Pair from eq_of_beq hform]
    obtain ⟨first, hfirst, h⟩ := bind_eq_ok h
    obtain ⟨second, hsecond, h⟩ := bind_eq_ok h
    cases h
    exact (reads_utf8 hfirst).bind ((reads_utf8 hsecond).map rfl)

/-- **The two property loops go hand in hand**, behind the properties in `previous`. -/
theorem parsePropertyLoop_encode (properties : List Property) :
    ∀ (previous : List Property) (bytes : Bytes) (turns : Nat),
      encodeProperties previous properties = .ok bytes → bytes.length ≤ turns →
        parsePropertyLoop turns previous bytes = .ok (previous ++ properties, []) := by
  induction properties with
  | nil =>
    intro previous bytes turns h hturns
    cases h
    rw [append_nil]
    cases turns with
    | zero | succ => rfl
  | cons property rest ih =>
    intro previous bytes turns h hturns
    obtain ⟨u, hvalid, h⟩ := bind_eq_ok h
    obtain ⟨u', hnew, h⟩ := bind_eq_ok h
    obtain ⟨value, hvalue, h⟩ := bind_eq_ok h
    obtain ⟨later, hlater, h⟩ := bind_eq_ok h
    cases h
    cases turns with
    | zero => exact absurd hturns (Nat.not_succ_le_zero _)
    | succ turns =>
      rw [length_cons, length_append] at hturns
      have hvalueRead := reads_propertyValue hvalid hvalue later
      have hrest := ih (previous ++ [property]) later turns hlater (by omega)
      unfold parsePropertyLoop
      refine bind_ok_iff.mpr ⟨false, _, rfl, ?_⟩
      refine bind_ok_iff.mpr ⟨_, _, rfl, ?_⟩
      rw [PropertyId.fromInt?_toInt]
      refine bind_ok_iff.mpr ⟨property, later, hvalueRead, ?_⟩
      simp [check_ok hvalid, check_ok hnew, hrest]

/-- **A property section is read back**, its properties in their order. -/
theorem reads_properties {properties : List Property} (h : writeProperties properties = .ok bytes) :
    Reads parseProperties bytes properties := by
  obtain ⟨encoded, henc, h⟩ := bind_eq_ok h
  obtain ⟨length, hlen, h⟩ := bind_eq_ok h
  cases h
  have hloop := parsePropertyLoop_encode properties [] encoded encoded.length henc
    le_rfl
  refine (reads_remainingLength hlen).bind ((reads_slice encoded).map (check_ok ?_))
  unfold parse
  rw [hloop]
  rfl

/-! ### The fixed header -/

lemma PacketType.fromInt?_toInt (packetType : PacketType) :
    PacketType.fromInt? packetType.toInt = some packetType := by
  cases packetType <;> rfl

lemma PacketType.toInt_lt (packetType : PacketType) : packetType.toInt < 16 := by
  cases packetType <;> decide

/-- What a parser finds of a packet that a writer framed. -/
structure Framed (packetType : PacketType) (flags : Nat) (content packet : Bytes)
    (fixed : FixedHeader) : Prop where
  parsed : FixedHeader.parse packet = .ok fixed
  packetType : fixed.packetType = packetType
  flags : fixed.flags = flags
  remaining : fixed.remainingLen = content.length
  bounds : validatePacketBounds packet fixed = .ok ()
  body : body packet fixed = content

lemma framed_ok {packetType : PacketType} {flags : Nat} {content packet : Bytes}
    (hflags : flags < 16) (h : framed packetType flags content = .ok packet) :
    ∃ fixed, Framed packetType flags content packet fixed := by
  obtain ⟨header, hhdr, h⟩ := bind_eq_ok h
  obtain ⟨length, hlength, hhdr⟩ := bind_eq_ok hhdr
  cases hhdr
  cases h
  dsimp only at hlength
  obtain ⟨hne, hdec⟩ := decodeRemainingLength_encode hlength content
  have htype := packetType.toInt_lt
  have hfirst : (UInt8.ofNat (packetType.toInt * 16 + flags)).toNat =
      packetType.toInt * 16 + flags := by
    rw [UInt8.toNat_ofNat']
    omega
  have hhigh : (packetType.toInt * 16 + flags) / 16 = packetType.toInt := by omega
  have hlow : (packetType.toInt * 16 + flags) % 16 = flags := by omega
  cases length with
  | nil => exact absurd rfl hne
  | cons second rest =>
    obtain ⟨hsmall, hshort⟩ := encodeRemainingLength_bounds hlength
    refine ⟨⟨packetType, flags, content.length, 1 + (second :: rest).length⟩, ?_, rfl, rfl, rfl,
      ?_, ?_⟩
    · unfold FixedHeader.parse
      rw [cons_append, cons_append]
      dsimp only
      rw [hfirst, hhigh, hlow, PacketType.fromInt?_toInt, ← cons_append, hdec]
    · have htotal : 1 + (second :: rest).length + content.length ≤ maxUsize := by
        unfold maxRemainingLength at hsmall
        unfold maxUsize
        omega
      have hlength' : (UInt8.ofNat (packetType.toInt * 16 + flags) :: (second :: rest) ++
          content).length = 1 + (second :: rest).length + content.length := by
        rw [length_append, length_cons]
        omega
      unfold validatePacketBounds checkedAdd
      rw [if_pos htotal]
      dsimp only
      rw [hlength', failIf_false (by simp), failIf_false (by simp)]
      rfl
    · unfold body
      rw [cons_append, Nat.add_comm, drop_succ_cons, drop_left, take_length]

end Netz.Mqtt
