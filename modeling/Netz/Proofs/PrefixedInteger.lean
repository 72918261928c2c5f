/-
Prefixed integers are read back.

The first byte carries the high bits of its instruction next to the prefix, so a reader tells
the instruction by that byte and then reads the integer that begins in it.
-/
import Mathlib.Tactic.Ring
import Netz.Http.Wire

namespace Netz.Http

open Lib List

/-! ### Bytes -/

lemma continued_group {low : Nat} (h : low < 128) :
    ((UInt8.ofNat low ||| 0x80) &&& 0x7f).toNat = low ∧
      (UInt8.ofNat low ||| 0x80) &&& 0x80 ≠ 0 := by
  have hall : ∀ low < 128, ((UInt8.ofNat low ||| 0x80) &&& 0x7f).toNat = low ∧
      (UInt8.ofNat low ||| 0x80) &&& 0x80 ≠ 0 := by decide
  exact hall low h

lemma last_group {low : Nat} (h : low < 128) :
    (UInt8.ofNat low &&& 0x7f).toNat = low ∧ UInt8.ofNat low &&& 0x80 = 0 := by
  have hall : ∀ low < 128, (UInt8.ofNat low &&& 0x7f).toNat = low ∧
      UInt8.ofNat low &&& 0x80 = 0 := by decide
  exact hall low h

/-- The high bits of a first byte leave the prefix alone. -/
theorem prefix_of_first {prefixBits low : Nat} {highBits : UInt8}
    (hhigh : highBits &&& UInt8.ofNat (2 ^ prefixBits - 1) = 0) (hbits : prefixBits ≤ 8)
    (hlow : low < 2 ^ prefixBits) :
    ((highBits ||| UInt8.ofNat low) &&& UInt8.ofNat (2 ^ prefixBits - 1)).toNat = low := by
  have hmask : 2 ^ prefixBits ≤ 2 ^ 8 := Nat.pow_le_pow_right (by omega) hbits
  have hhigh' := congrArg UInt8.toNat hhigh
  rw [UInt8.toNat_and, UInt8.toNat_ofNat_of_lt' (by show _ < 2 ^ 8; omega),
    Nat.and_two_pow_sub_one_eq_mod] at hhigh'
  rw [UInt8.toNat_and, UInt8.toNat_or, UInt8.toNat_ofNat_of_lt' (by show _ < 2 ^ 8; omega),
    UInt8.toNat_ofNat_of_lt' (by show _ < 2 ^ 8; omega), Nat.and_two_pow_sub_one_eq_mod,
    Nat.or_mod_two_pow, hhigh', Nat.mod_eq_of_lt hlow]
  exact Nat.zero_or low

/-! ### Loops -/

lemma addU64_run {a b : Nat} (h : a + b ≤ maxU64) : addU64 a b = pure (a + b) := by
  unfold addU64
  rw [if_pos h]

lemma split_group (value remaining shift : Nat) :
    value + remaining % 128 * 2 ^ shift + remaining / 128 * 2 ^ (shift + 7) =
      value + remaining * 2 ^ shift := by
  have hparts : remaining * 2 ^ shift =
      remaining % 128 * 2 ^ shift + remaining / 128 * 2 ^ (shift + 7) := by
    calc remaining * 2 ^ shift = (remaining % 128 + 128 * (remaining / 128)) * 2 ^ shift := by
          rw [Nat.mod_add_div]
      _ = remaining % 128 * 2 ^ shift + remaining / 128 * 2 ^ (shift + 7) := by
          ring
  omega

/-- What fits with all that remains fits with a part of it. -/
theorem part_fits {value remaining shift low : Nat} (hlow : low ≤ remaining)
    (hfits : value + remaining * 2 ^ shift ≤ maxU64) :
    value + low * 2 ^ shift ≤ maxU64 ∧ low * 2 ^ shift % 2 ^ 64 = low * 2 ^ shift := by
  have hle := (Nat.add_le_add_left (Nat.mul_le_mul_right (2 ^ shift) hlow) value).trans hfits
  refine ⟨hle, Nat.mod_eq_of_lt ?_⟩
  unfold maxU64 at hle
  omega

lemma quotient_lt {groups remaining : Nat} (h : remaining < 2 ^ (7 * (groups + 1 + 1))) :
    remaining / 128 < 2 ^ (7 * (groups + 1)) := by
  rw [Nat.div_lt_iff_lt_mul (by omega)]
  calc remaining < 2 ^ (7 * (groups + 1 + 1)) := h
    _ = 2 ^ (7 * (groups + 1)) * 128 := by
      rw [show 7 * (groups + 1 + 1) = 7 * (groups + 1) + 7 by ring, Nat.pow_add]

lemma encodeRest_last (groups : Nat) {remaining : Nat} (h : remaining < 128) :
    encodeRest groups remaining = [UInt8.ofNat remaining] := by
  cases groups with
  | zero => rfl
  | succ groups =>
    unfold encodeRest
    rw [if_neg (by omega)]

lemma reads_decodePrefixedLoop_last (groups more : Nat) {value remaining shift : Nat}
    (hfits : value + remaining * 2 ^ shift ≤ maxU64) (hlast : remaining < 128) :
    Reader.Reads (decodePrefixedLoop (groups + 1) value shift) (encodeRest more remaining)
      (value + remaining * 2 ^ shift) := by
  obtain ⟨hlow, hend⟩ := last_group hlast
  intro rest
  rw [encodeRest_last _ hlast]
  unfold decodePrefixedLoop
  refine Reader.bind_ok_iff.mpr ⟨UInt8.ofNat remaining, rest, rfl, ?_⟩
  rw [hlow, (part_fits le_rfl hfits).2, addU64_run hfits]
  exact Reader.bind_ok_iff.mpr ⟨_, rest, rfl, by rw [if_pos hend]; rfl⟩

/-- QPACK's loop reads every group that a `u64` has. -/
theorem reads_decodePrefixedLoop (groups value remaining shift : Nat)
    (hfits : value + remaining * 2 ^ shift ≤ maxU64) (hgroups : remaining < 2 ^ (7 * (groups + 1)))
    : Reader.Reads (decodePrefixedLoop (groups + 1) value shift) (encodeRest groups remaining)
      (value + remaining * 2 ^ shift) := by
  induction groups generalizing value remaining shift with
  | zero => exact reads_decodePrefixedLoop_last 0 0 hfits hgroups
  | succ groups ih =>
    by_cases hlast : remaining < 128
    · exact reads_decodePrefixedLoop_last (groups + 1) (groups + 1) hfits hlast
    intro rest
    unfold decodePrefixedLoop encodeRest
    rw [if_pos (not_lt.mp hlast)]
    obtain ⟨hpart, hwhole⟩ := part_fits (Nat.mod_le remaining 128) hfits
    obtain ⟨hlow, hnext⟩ := continued_group (Nat.mod_lt remaining (by omega : 0 < 128))
    refine Reader.bind_ok_iff.mpr ⟨UInt8.ofNat (remaining % 128) ||| 0x80, _, rfl, ?_⟩
    rw [hlow, hwhole, addU64_run hpart]
    refine Reader.bind_ok_iff.mpr ⟨_, _, rfl, ?_⟩
    have hshift : ¬ 63 ≤ shift := by
      intro hlarge
      have hpow : 2 ^ 63 ≤ 2 ^ shift := Nat.pow_le_pow_right (by omega) hlarge
      have hmul := Nat.mul_le_mul (not_lt.mp hlast) hpow
      unfold maxU64 at hfits
      omega
    rw [if_neg hnext, if_neg hshift, ← split_group value remaining shift]
    rw [← split_group] at hfits
    exact ih _ _ (shift + 7) hfits (quotient_lt hgroups) rest

lemma reads_decodeIntegerLoop_last (groups more : Nat) {value remaining shift : Nat}
    (hfits : value + remaining * 2 ^ shift ≤ maxU64) (hlast : remaining < 128) :
    Reader.Reads (decodeIntegerLoop (groups + 1) value shift) (encodeRest more remaining)
      (value + remaining * 2 ^ shift) := by
  obtain ⟨hlow, hend⟩ := last_group hlast
  intro rest
  rw [encodeRest_last _ hlast]
  unfold decodeIntegerLoop
  refine Reader.bind_ok_iff.mpr ⟨UInt8.ofNat remaining, rest, rfl, ?_⟩
  rw [hlow, addU64_run hfits]
  exact Reader.bind_ok_iff.mpr ⟨_, rest, rfl, by rw [if_pos hend]; rfl⟩

/-- HPACK's loop reads one group less, so the top bit of a `u64` is out of its reach. -/
theorem reads_decodeIntegerLoop (groups more value remaining shift : Nat)
    (hfits : value + remaining * 2 ^ shift ≤ maxU64) (hsmall : remaining * 2 ^ shift < 2 ^ 63)
    (hgroups : remaining < 2 ^ (7 * (groups + 1))) :
    Reader.Reads (decodeIntegerLoop (groups + 1) value shift)
      (encodeRest (groups + more) remaining) (value + remaining * 2 ^ shift) := by
  induction groups generalizing value remaining shift with
  | zero => exact reads_decodeIntegerLoop_last 0 _ hfits hgroups
  | succ groups ih =>
    by_cases hlast : remaining < 128
    · exact reads_decodeIntegerLoop_last (groups + 1) _ hfits hlast
    intro rest
    rw [show groups + 1 + more = groups + more + 1 by omega]
    unfold decodeIntegerLoop encodeRest
    rw [if_pos (not_lt.mp hlast)]
    obtain ⟨hlow, hnext⟩ := continued_group (Nat.mod_lt remaining (by omega : 0 < 128))
    refine Reader.bind_ok_iff.mpr ⟨UInt8.ofNat (remaining % 128) ||| 0x80, _, rfl, ?_⟩
    rw [hlow, addU64_run (part_fits (Nat.mod_le _ _) hfits).1]
    refine Reader.bind_ok_iff.mpr ⟨_, _, rfl, ?_⟩
    have hshift : ¬ 56 ≤ shift := by
      intro hlarge
      have hpow : 2 ^ 56 ≤ 2 ^ shift := Nat.pow_le_pow_right (by omega) hlarge
      have hmul := Nat.mul_le_mul (not_lt.mp hlast) hpow
      omega
    rw [if_neg hnext, if_neg hshift, ← split_group value remaining shift]
    rw [← split_group] at hfits
    have hpart : remaining / 128 * 2 ^ (shift + 7) ≤ remaining * 2 ^ shift := by
      have hsplit := split_group 0 remaining shift
      omega
    exact ih _ _ (shift + 7) hfits (hpart.trans_lt hsmall) (quotient_lt hgroups) rest

/-! ### Whole integers -/

/-- The first byte of an integer: its high bits over `low`. -/
def firstByte (highBits : UInt8) (low : Nat) : UInt8 := highBits ||| UInt8.ofNat low

lemma reads_prefixed {prefixBits value : Nat} {highBits : UInt8} (loop : Nat → Cursor Nat)
    (hbits : prefixBits ≤ 8) (hpos : 0 < prefixBits)
    (hhigh : highBits &&& UInt8.ofNat (2 ^ prefixBits - 1) = 0)
    (hloop : 2 ^ prefixBits - 1 ≤ value → Reader.Reads (loop (2 ^ prefixBits - 1))
      (encodeRest 9 (value - (2 ^ prefixBits - 1)))
      (2 ^ prefixBits - 1 + (value - (2 ^ prefixBits - 1)) * 2 ^ 0)) :
    ∃ low rest, low < 2 ^ prefixBits ∧
      encodeInteger prefixBits highBits value = firstByte highBits low :: rest ∧
      Reader.Reads
        (let first := (firstByte highBits low &&& UInt8.ofNat (2 ^ prefixBits - 1)).toNat
         if first < 2 ^ prefixBits - 1 then pure first else loop first) rest value := by
  have hpow : 2 ^ 1 ≤ 2 ^ prefixBits := Nat.pow_le_pow_right (by omega) hpos
  unfold encodeInteger firstByte
  dsimp only
  by_cases hsmall : value < 2 ^ prefixBits - 1
  · refine ⟨value, [], by omega, by rw [if_pos hsmall], ?_⟩
    rw [prefix_of_first hhigh hbits (by omega), if_pos hsmall]
    exact Reader.Reads.done value
  refine ⟨2 ^ prefixBits - 1, _, by omega, by rw [if_neg hsmall], ?_⟩
  rw [prefix_of_first hhigh hbits (by omega), if_neg (Nat.lt_irrefl _)]
  have hreads := hloop (by omega)
  rw [Nat.pow_zero, Nat.mul_one, Nat.add_sub_cancel' (by omega)] at hreads
  exact hreads

/-- **QPACK reads back every `u64`.** -/
theorem reads_decodePrefixedInteger {prefixBits value : Nat} {highBits : UInt8}
    (hbits : prefixBits ≤ 8) (hpos : 0 < prefixBits)
    (hhigh : highBits &&& UInt8.ofNat (2 ^ prefixBits - 1) = 0) (hvalue : value ≤ maxU64) :
    ∃ low rest, low < 2 ^ prefixBits ∧
      encodeInteger prefixBits highBits value = firstByte highBits low :: rest ∧
      Reader.Reads (decodePrefixedInteger prefixBits (firstByte highBits low)) rest value := by
  refine reads_prefixed (decodePrefixedLoop 10 · 0) hbits hpos hhigh fun hlarge =>
    reads_decodePrefixedLoop 9 _ _ 0 ?_ ?_
  · omega
  · unfold maxU64 at hvalue
    omega

/-- **HPACK reads back what is not much larger than `2 ^ 63`.** -/
theorem reads_decodeInteger {prefixBits value : Nat} {highBits : UInt8}
    (hbits : prefixBits ≤ 8) (hpos : 0 < prefixBits)
    (hhigh : highBits &&& UInt8.ofNat (2 ^ prefixBits - 1) = 0)
    (hvalue : value < 2 ^ 63 + (2 ^ prefixBits - 1)) :
    ∃ low rest, low < 2 ^ prefixBits ∧
      encodeInteger prefixBits highBits value = firstByte highBits low :: rest ∧
      Reader.Reads (decodeInteger prefixBits (firstByte highBits low)) rest value := by
  have hmax : 2 ^ prefixBits ≤ 2 ^ 8 := Nat.pow_le_pow_right (by omega) hbits
  refine reads_prefixed (decodeIntegerLoop 9 · 0) hbits hpos hhigh fun hlarge =>
    reads_decodeIntegerLoop 8 1 _ _ 0 ?_ ?_ ?_
  · unfold maxU64
    omega
  · omega
  · omega

lemma encodedLenLoop_eq (groups len remaining : Nat) :
    encodedLenLoop groups (len + 1) remaining = len + (encodeRest groups remaining).length := by
  induction groups generalizing len remaining with
  | zero => rfl
  | succ groups ih =>
    unfold encodedLenLoop encodeRest
    by_cases h : 128 ≤ remaining
    · rw [if_pos h, if_pos h, ih, length_cons]
      omega
    · rw [if_neg h, if_neg h]
      rfl

lemma encodedLen_eq (prefixBits value : Nat) (highBits : UInt8) :
    encodedLen prefixBits value = (encodeInteger prefixBits highBits value).length := by
  unfold encodedLen encodeInteger
  by_cases h : value < 2 ^ prefixBits - 1
  · rw [if_pos h, if_pos h]
    rfl
  · rw [if_neg h, if_neg h, encodedLenLoop_eq, length_cons, Nat.add_comm]

/-! ### Arbitrary bytes

Nine groups lie below `2 ^ 63`, so only the tenth can lose bits, and only after the tenth is
the shift too large for its counter.
-/

lemma payload_eq (byte : UInt8) : (byte &&& 0x7f).toNat = byte.toNat % 128 := by
  exact Nat.and_two_pow_sub_one_eq_mod _ 7

lemma last_iff (byte : UInt8) : byte &&& 0x80 = 0 ↔ byte.toNat < 128 := by
  have hall : ∀ n < 256, UInt8.ofNat n &&& 0x80 = 0 ↔ n < 128 := by
    decide +kernel
  simpa using hall byte.toNat byte.toNat_lt

/-- The number that groups stand for, and what is left behind the last one. -/
def denotedGroups : Bytes → Option (Nat × Bytes)
  | [] => none
  | byte :: input =>
    if byte.toNat < 128 then some (byte.toNat, input)
    else (denotedGroups input).map fun more => (byte.toNat % 128 + 128 * more.1, more.2)

/-- The number that an integer stands for, however large. -/
def denoted (prefixBits : Nat) (first : UInt8) (input : Bytes) : Option (Nat × Bytes) :=
  let prefixMax := 2 ^ prefixBits - 1
  let value := (first &&& UInt8.ofNat prefixMax).toNat
  if value < prefixMax then some (value, input)
  else (denotedGroups input).map fun more => (value + more.1, more.2)

/-- The shifts that the loop makes: each group with the places it moves by. -/
def shiftsMade : Nat → Nat → Nat → Bytes → List (Nat × Nat)
  | 0, _, _, _ => []
  | _ + 1, _, _, [] => []
  | groups + 1, value, shift, byte :: input =>
    let next := value + (byte &&& 0x7f).toNat * 2 ^ shift % 2 ^ 64
    ((byte &&& 0x7f).toNat, shift) ::
      if maxU64 < next ∨ byte &&& 0x80 = 0 ∨ 63 ≤ shift then []
      else shiftsMade groups next (shift + 7) input

/-- The number of groups that all continue. -/
def continuedValue (groups : Bytes) : Nat :=
  groups.foldr (fun byte more => byte.toNat % 128 + 128 * more) 0

/-- What is asked of the loop: it yields the number that the groups stand for, it never runs out
of its counter, and no shift loses a bit. -/
structure LoopExact (groups value shift : Nat) (input : Bytes) : Prop where
  value_iff : ∀ v rest, decodePrefixedLoop groups value shift input = .ok (v, rest) ↔
    ∃ n, denotedGroups input = some (n, rest) ∧ v = value + n * 2 ^ shift ∧ v ≤ maxU64
  total : decodePrefixedLoop groups value shift input ≠ .error .panic
  lossless : ∀ made ∈ shiftsMade groups value shift input, made.1 * 2 ^ made.2 < 2 ^ 64

/-- The group behind `count` that continue, if there is one, leaves nothing out. -/
def LastGroupFits (count value shift : Nat) (input : Bytes) : Prop :=
  ∀ continued byte rest, input = continued ++ byte :: rest → continued.length = count →
    (∀ other ∈ continued, 128 ≤ other.toNat) →
    byte.toNat ≤ 1 ∨ byte = 129 ∧ 2 ^ 63 ≤ value + continuedValue continued * 2 ^ shift

lemma loop_nil (groups value shift : Nat) :
    decodePrefixedLoop (groups + 1) value shift [] = .error .bufferTooShort := by
  unfold decodePrefixedLoop
  rfl

lemma loop_cons (groups value shift : Nat) (byte : UInt8) (input : Bytes) :
    decodePrefixedLoop (groups + 1) value shift (byte :: input) =
      if maxU64 < value + byte.toNat % 128 * 2 ^ shift % 2 ^ 64 then .error .integerOverflow
      else if byte.toNat < 128 then .ok (value + byte.toNat % 128 * 2 ^ shift % 2 ^ 64, input)
      else if 63 ≤ shift then .error .panic
      else decodePrefixedLoop groups (value + byte.toNat % 128 * 2 ^ shift % 2 ^ 64) (shift + 7)
        input := by
  rw [decodePrefixedLoop, Reader.bind_run]
  show (addU64 value ((byte &&& 0x7f).toNat * 2 ^ shift % 2 ^ 64) >>= _) input = _
  rw [payload_eq]
  unfold addU64
  by_cases hmax : maxU64 < value + byte.toNat % 128 * 2 ^ shift % 2 ^ 64
  · rw [if_neg (not_le.mpr hmax), if_pos hmax]
    rfl
  rw [if_pos (not_lt.mp hmax), if_neg hmax, pure_bind]
  by_cases hlast : byte.toNat < 128
  · rw [if_pos ((last_iff byte).mpr hlast), if_pos hlast]
    rfl
  rw [if_neg (mt (last_iff byte).mp hlast), if_neg hlast]
  by_cases hshift : 63 ≤ shift
  · rw [if_pos hshift, if_pos hshift]
    rfl
  · rw [if_neg hshift, if_neg hshift]

lemma shiftsMade_cons (groups value shift : Nat) (byte : UInt8) (input : Bytes) :
    shiftsMade (groups + 1) value shift (byte :: input) = (byte.toNat % 128, shift) ::
      if maxU64 < value + byte.toNat % 128 * 2 ^ shift % 2 ^ 64 ∨ byte.toNat < 128 ∨ 63 ≤ shift
      then [] else
        shiftsMade groups (value + byte.toNat % 128 * 2 ^ shift % 2 ^ 64) (shift + 7) input := by
  rw [shiftsMade, payload_eq]
  simp only [last_iff]

lemma loopExact_nil (groups value shift : Nat) : LoopExact (groups + 1) value shift [] := by
  refine ⟨?_, ?_, nofun⟩
  · simp [loop_nil, denotedGroups]
  · simp [loop_nil]

lemma lastGroupFits_nil (count value shift : Nat) : LastGroupFits count value shift [] := by
  intro continued byte rest hsplit
  simp at hsplit

/-- **The tenth group** is read right exactly if it fits. -/
theorem loopExact_last {value : Nat} (input : Bytes) (hvalue : value < 2 ^ 63 + 255) :
    LoopExact 1 value 63 input ↔ LastGroupFits 0 value 63 input := by
  cases input with
  | nil => exact iff_of_true (loopExact_nil 0 value 63) (lastGroupFits_nil 0 value 63)
  | cons byte input =>
    have hbyte := byte.toNat_lt
    have hfits : LastGroupFits 0 value 63 (byte :: input) ↔
        byte.toNat ≤ 1 ∨ byte = 129 ∧ 2 ^ 63 ≤ value := by
      constructor
      · intro h
        simpa [continuedValue] using h [] byte input rfl rfl nofun
      intro h continued byte' rest hsplit hcount hall
      rw [length_eq_zero_iff] at hcount
      subst hcount
      cases hsplit
      simpa [continuedValue] using h
    rw [hfits]
    have hbyte' : byte = 129 ↔ byte.toNat = 129 := UInt8.toNat_inj.symm
    rw [hbyte']
    constructor
    · intro h
      have hloss : (byte &&& 0x7f).toNat * 2 ^ 63 < 2 ^ 64 :=
        h.lossless (_, 63) mem_cons_self
      have htotal := h.total
      rw [payload_eq] at hloss
      rw [loop_cons] at htotal
      unfold maxU64 at htotal
      by_cases hlast : byte.toNat < 128
      · omega
      by_cases hmax : 2 ^ 64 - 1 < value + byte.toNat % 128 * 2 ^ 63 % 2 ^ 64
      · omega
      · rw [if_neg hmax, if_neg hlast] at htotal
        exact absurd rfl htotal
    intro h
    have hloss : byte.toNat % 128 * 2 ^ 63 % 2 ^ 64 = byte.toNat % 128 * 2 ^ 63 := by omega
    refine ⟨?_, ?_, ?_⟩
    · intro v rest
      rw [loop_cons, hloss]
      unfold denotedGroups maxU64
      by_cases hlast : byte.toNat < 128
      · by_cases hmax : 2 ^ 64 - 1 < value + byte.toNat % 128 * 2 ^ 63
        · rw [if_pos hmax, if_pos hlast]
          constructor
          · nofun
          rintro ⟨n, hn, hv, hle⟩
          cases hn
          omega
        rw [if_neg hmax, if_pos hlast, if_pos hlast, Nat.mod_eq_of_lt hlast]
        constructor
        · intro heq
          cases heq
          exact ⟨_, rfl, rfl, by omega⟩
        rintro ⟨n, hn, hv, hle⟩
        cases hn
        rw [hv]
      rw [if_pos (by omega), if_neg hlast]
      constructor
      · nofun
      rintro ⟨n, hn, hv, hle⟩
      obtain ⟨more, -, hmore⟩ := Option.map_eq_some_iff.mp hn
      cases hmore
      omega
    · rw [loop_cons]
      unfold maxU64
      by_cases hlast : byte.toNat < 128
      · rw [if_pos hlast]
        split <;> nofun
      · rw [if_pos (by omega)]
        nofun
    intro made hmade
    rw [shiftsMade_cons, if_pos (.inr (.inr le_rfl)), mem_singleton] at hmade
    rw [hmade]
    show byte.toNat % 128 * 2 ^ 63 < 2 ^ 64
    omega

lemma lastGroupFits_last {count value shift : Nat} {byte : UInt8} (input : Bytes)
    (hlast : byte.toNat < 128) : LastGroupFits (count + 1) value shift (byte :: input) := by
  intro continued byte' rest hsplit hcount hall
  cases continued with
  | nil => cases hcount
  | cons head continued =>
    cases hsplit
    have hhead := hall byte mem_cons_self
    omega

lemma lastGroupFits_continued {count value shift : Nat} {byte : UInt8} (input : Bytes)
    (hmore : 128 ≤ byte.toNat) :
    LastGroupFits (count + 1) value shift (byte :: input) ↔
      LastGroupFits count (value + byte.toNat % 128 * 2 ^ shift) (shift + 7) input := by
  have hvalue : ∀ continued, value + continuedValue (byte :: continued) * 2 ^ shift =
      value + byte.toNat % 128 * 2 ^ shift + continuedValue continued * 2 ^ (shift + 7) := by
    intro continued
    show value + (byte.toNat % 128 + 128 * continuedValue continued) * 2 ^ shift = _
    ring
  constructor
  · intro h continued byte' rest hsplit hcount hall
    rw [← hvalue]
    exact h (byte :: continued) byte' rest (by rw [hsplit]; rfl) (by rw [length_cons, hcount])
      (forall_mem_cons.mpr ⟨hmore, hall⟩)
  intro h continued byte' rest hsplit hcount hall
  cases continued with
  | nil => cases hcount
  | cons head continued =>
    cases hsplit
    rw [hvalue]
    exact h continued byte' rest rfl (Nat.succ.inj hcount) (forall_mem_cons.mp hall).2

/-- **The loop** reads groups right exactly if a tenth one fits. -/
theorem loopExact_iff (count : Nat) {value shift : Nat} (input : Bytes)
    (hshift : shift + 7 * count = 63) (hvalue : value < 2 ^ shift + 255) :
    LoopExact (count + 1) value shift input ↔ LastGroupFits count value shift input := by
  induction count generalizing value shift input with
  | zero =>
    obtain rfl : shift = 63 := by omega
    exact loopExact_last input hvalue
  | succ count ih =>
    cases input with
    | nil => exact iff_of_true (loopExact_nil _ _ _) (lastGroupFits_nil _ _ _)
    | cons byte input =>
      have hpow : 2 ^ (shift + 7) = 2 ^ shift * 128 := by rw [Nat.pow_add]
      have hle : 2 ^ (shift + 7) ≤ 2 ^ 63 := Nat.pow_le_pow_right (by omega) (by omega)
      have hmul : byte.toNat % 128 * 2 ^ shift ≤ 127 * 2 ^ shift :=
        Nat.mul_le_mul_right _ (by omega)
      have hloss : byte.toNat % 128 * 2 ^ shift % 2 ^ 64 = byte.toNat % 128 * 2 ^ shift :=
        Nat.mod_eq_of_lt (by omega)
      have hmax : ¬ maxU64 < value + byte.toNat % 128 * 2 ^ shift := by
        unfold maxU64
        omega
      have hloop := loop_cons (count + 1) value shift byte input
      have hmade := shiftsMade_cons (count + 1) value shift byte input
      rw [hloss, if_neg hmax] at hloop
      rw [hloss] at hmade
      by_cases hlast : byte.toNat < 128
      · refine iff_of_true ⟨?_, ?_, ?_⟩ (lastGroupFits_last input hlast)
        · intro v rest
          rw [hloop, if_pos hlast, denotedGroups, if_pos hlast, Nat.mod_eq_of_lt hlast]
          constructor
          · intro heq
            cases heq
            rw [Nat.mod_eq_of_lt hlast] at hmax
            exact ⟨_, rfl, rfl, not_lt.mp hmax⟩
          rintro ⟨n, hn, hv, hle⟩
          cases hn
          rw [hv]
        · rw [hloop, if_pos hlast]
          nofun
        intro made hmem
        rw [hmade, if_pos (.inr (.inl hlast)), mem_singleton] at hmem
        rw [hmem]
        show byte.toNat % 128 * 2 ^ shift < 2 ^ 64
        omega
      rw [lastGroupFits_continued input (not_lt.mp hlast), ← ih input (by omega) (by omega)]
      rw [if_neg hlast, if_neg (by omega : ¬ 63 ≤ shift)] at hloop
      rw [if_neg (by omega)] at hmade
      have hdenoted : ∀ v rest, (∃ n, denotedGroups (byte :: input) = some (n, rest) ∧
          v = value + n * 2 ^ shift ∧ v ≤ maxU64) ↔ ∃ n, denotedGroups input = some (n, rest) ∧
            v = value + byte.toNat % 128 * 2 ^ shift + n * 2 ^ (shift + 7) ∧ v ≤ maxU64 := by
        intro v rest
        have hsum : ∀ n, value + (byte.toNat % 128 + 128 * n) * 2 ^ shift =
            value + byte.toNat % 128 * 2 ^ shift + n * 2 ^ (shift + 7) := by
          intro n
          ring
        rw [denotedGroups, if_neg hlast]
        constructor
        · rintro ⟨n, hn, hv, hle⟩
          obtain ⟨more, hmore, heq⟩ := Option.map_eq_some_iff.mp hn
          cases heq
          exact ⟨more.1, hmore, by rw [hv, hsum], hle⟩
        · rintro ⟨n, hn, hv, hle⟩
          exact ⟨_, by rw [hn]; rfl, by rw [hv, hsum], hle⟩
      constructor
      · intro h
        refine ⟨?_, ?_, ?_⟩
        · intro v rest
          rw [← hloop, ← hdenoted]
          exact h.value_iff v rest
        · rw [← hloop]
          exact h.total
        · intro made hmem
          exact h.lossless made (by rw [hmade]; exact mem_cons_of_mem _ hmem)
      intro h
      refine ⟨?_, ?_, ?_⟩
      · intro v rest
        rw [hloop, hdenoted]
        exact h.value_iff v rest
      · rw [hloop]
        exact h.total
      intro made hmem
      rw [hmade] at hmem
      rcases mem_cons.mp hmem with rfl | hmem
      · show byte.toNat % 128 * 2 ^ shift < 2 ^ 64
        omega
      · exact h.lossless made hmem

/-- What is asked of an integer: a decoder yields the number that its bytes stand for, or an
error. -/
structure DecodesExactly (prefixBits : Nat) (first : UInt8) (input : Bytes) : Prop where
  value_iff : ∀ v rest, decodePrefixedInteger prefixBits first input = .ok (v, rest) ↔
    denoted prefixBits first input = some (v, rest) ∧ v < 2 ^ 64
  total : decodePrefixedInteger prefixBits first input ≠ .error .panic
  lossless : 2 ^ prefixBits - 1 ≤ (first &&& UInt8.ofNat (2 ^ prefixBits - 1)).toNat →
    ∀ made ∈ shiftsMade 10 (first &&& UInt8.ofNat (2 ^ prefixBits - 1)).toNat 0 input,
      made.1 * 2 ^ made.2 < 2 ^ 64

/-- **Integers are read right exactly if a tenth group fits**, and so every `u64` is read back
from the bytes it is written to. -/
theorem decodePrefixedInteger_exactly_iff {prefixBits : Nat} (hmin : 3 ≤ prefixBits)
    (hmax : prefixBits ≤ 8) :
    (∀ first input, DecodesExactly prefixBits first input ↔
      ((first &&& UInt8.ofNat (2 ^ prefixBits - 1)).toNat = 2 ^ prefixBits - 1 →
        LastGroupFits 9 (2 ^ prefixBits - 1) 0 input)) ∧
    ∀ highBits value, highBits &&& UInt8.ofNat (2 ^ prefixBits - 1) = 0 → value < 2 ^ 64 →
      ∃ first rest, encodeInteger prefixBits highBits value = first :: rest ∧
        rest.length + 1 = encodedLen prefixBits value ∧
        ∀ input, decodePrefixedInteger prefixBits first (rest ++ input) = .ok (value, input) := by
  have hpow : 2 ^ prefixBits ≤ 2 ^ 8 := Nat.pow_le_pow_right (by omega) hmax
  constructor
  · intro first input
    have hmask : (first &&& UInt8.ofNat (2 ^ prefixBits - 1)).toNat ≤ 2 ^ prefixBits - 1 := by
      exact Nat.and_le_right.trans (Nat.mod_le _ _)
    by_cases hsmall : (first &&& UInt8.ofNat (2 ^ prefixBits - 1)).toNat < 2 ^ prefixBits - 1
    · refine iff_of_true ⟨?_, ?_, by omega⟩ (by omega)
      · intro v rest
        unfold decodePrefixedInteger denoted
        rw [if_pos hsmall, if_pos hsmall]
        constructor
        · intro heq
          cases heq
          exact ⟨rfl, by omega⟩
        rintro ⟨heq, -⟩
        cases heq
        rfl
      unfold decodePrefixedInteger
      rw [if_pos hsmall]
      nofun
    have hfull : (first &&& UInt8.ofNat (2 ^ prefixBits - 1)).toNat = 2 ^ prefixBits - 1 := by omega
    have hloop : decodePrefixedInteger prefixBits first input =
        decodePrefixedLoop 10 (2 ^ prefixBits - 1) 0 input := by
      unfold decodePrefixedInteger
      rw [if_neg hsmall, hfull]
    have hdenoted : ∀ v rest, (denoted prefixBits first input = some (v, rest) ∧ v < 2 ^ 64) ↔
        ∃ n, denotedGroups input = some (n, rest) ∧ v = 2 ^ prefixBits - 1 + n * 2 ^ 0 ∧
          v ≤ maxU64 := by
      intro v rest
      unfold denoted maxU64
      rw [if_neg hsmall, hfull]
      constructor
      · rintro ⟨heq, hlt⟩
        obtain ⟨more, hmore, hpair⟩ := Option.map_eq_some_iff.mp heq
        cases hpair
        exact ⟨more.1, hmore, by omega, by omega⟩
      rintro ⟨n, hn, hv, hle⟩
      rw [hn, hv]
      exact ⟨by simp, by omega⟩
    rw [iff_comm, forall_prop_of_true hfull, iff_comm,
      ← loopExact_iff 9 input (by omega) (by omega)]
    constructor
    · intro h
      refine ⟨?_, ?_, ?_⟩
      · intro v rest
        rw [← hloop, ← hdenoted]
        exact h.value_iff v rest
      · rw [← hloop]
        exact h.total
      · rw [← hfull]
        exact h.lossless hfull.ge
    intro h
    refine ⟨?_, ?_, ?_⟩
    · intro v rest
      rw [hloop, hdenoted]
      exact h.value_iff v rest
    · rw [hloop]
      exact h.total
    · rw [hfull]
      exact fun _ => h.lossless
  intro highBits value hhigh hvalue
  obtain ⟨low, rest, -, hencode, hreads⟩ := @reads_decodePrefixedInteger prefixBits value
    highBits hmax (by omega) hhigh (Nat.le_sub_one_of_lt hvalue)
  refine ⟨_, rest, hencode, ?_, hreads⟩
  rw [encodedLen_eq _ _ highBits, hencode, length_cons]

theorem decodePrefixedInteger_exactly_iff_seven :
    ∃ first rest, encodeInteger 7 0x80 1337 = first :: rest ∧
      rest.length + 1 = encodedLen 7 1337 ∧
      ∀ input, decodePrefixedInteger 7 first (rest ++ input) = .ok (1337, input) :=
  (@decodePrefixedInteger_exactly_iff 7 (by decide) (by decide)).2 0x80 1337 (by decide) (by decide)

/-- Ten groups that all continue run out of the counter, whatever they hold; a tenth group of two
is lost. -/
theorem not_decodesExactly : ¬ DecodesExactly 8 0xff (replicate 10 0x80 ++ [0]) ∧
    ¬ DecodesExactly 8 0xff (replicate 9 0x80 ++ [2]) := by
  constructor
  · intro h
    exact h.total (by decide)
  intro h
  have hwrong : denoted 8 0xff (replicate 9 0x80 ++ [2]) = some (255, []) :=
    ((h.value_iff 255 []).mp (by decide)).1
  exact absurd hwrong (by decide)

end Netz.Http
