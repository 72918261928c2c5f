/-
UTF-8 over lists of bytes.

A list of bytes is UTF-8 where it is the encodings of some characters one after the other.  A
`Char` is a code point below 0x110000 outside the surrogates, and has one encoding, so overlong
forms, surrogates and values past the last code point are no UTF-8.

The encodings are described by the ranges of their bytes, from both sides: a character has bytes in
one of four forms, and bytes in one of these forms are those of a character.
-/
import Mathlib.Data.Nat.Basic

namespace Netz.Lib

/-- The bytes are the encodings of characters, one after the other. -/
def ValidUtf8 (bytes : List UInt8) : Prop :=
  ∃ chars : List Char, bytes = chars.flatMap String.utf8EncodeChar

lemma ValidUtf8.nil : ValidUtf8 [] := ⟨[], rfl⟩

lemma ValidUtf8.cons {c : Char} {bytes : List UInt8} (h : ValidUtf8 bytes) :
    ValidUtf8 (String.utf8EncodeChar c ++ bytes) := by
  obtain ⟨chars, rfl⟩ := h
  exact ⟨c :: chars, rfl⟩

/-! ### Continuation bytes -/

def IsTail (byte : UInt8) : Prop := 0x80 ≤ byte.toNat ∧ byte.toNat ≤ 0xbf

lemma isTail_ofNat (n : Nat) : IsTail (UInt8.ofNat (n % 0x40 + 0x80)) := by
  unfold IsTail
  rw [UInt8.toNat_ofNat']
  omega

lemma ofNat_eq {byte : UInt8} {n : Nat} (h : n = byte.toNat) : UInt8.ofNat n = byte := by
  rw [h, UInt8.ofNat_toNat]

lemma exists_char {n : Nat} (h : n < 0xd800 ∨ (0xdfff < n ∧ n < 0x110000)) :
    ∃ c : Char, c.val.toNat = n := by
  refine ⟨Char.ofNatAux n h, ?_⟩
  exact UInt32.toNat_ofNatLT

/-! ### The forms of an encoding -/

/-- The bytes of a character. -/
inductive Encodes : List UInt8 → Prop where
  | one {a : UInt8} (ha : a.toNat ≤ 0x7f) : Encodes [a]
  | two {a b : UInt8} (ha : 0xc2 ≤ a.toNat ∧ a.toNat ≤ 0xdf) (hb : IsTail b) : Encodes [a, b]
  | three {a b c : UInt8} (ha : 0xe0 ≤ a.toNat ∧ a.toNat ≤ 0xef) (hb : IsTail b)
      (hshort : a.toNat = 0xe0 → 0xa0 ≤ b.toNat) (hscalar : a.toNat = 0xed → b.toNat ≤ 0x9f)
      (hc : IsTail c) : Encodes [a, b, c]
  | four {a b c d : UInt8} (ha : 0xf0 ≤ a.toNat ∧ a.toNat ≤ 0xf4) (hb : IsTail b)
      (hshort : a.toNat = 0xf0 → 0x90 ≤ b.toNat) (hlast : a.toNat = 0xf4 → b.toNat ≤ 0x8f)
      (hc : IsTail c) (hd : IsTail d) : Encodes [a, b, c, d]

lemma encodes_utf8EncodeChar (c : Char) : Encodes (String.utf8EncodeChar c) := by
  have hvalid : c.val.toNat < 0xd800 ∨ (0xdfff < c.val.toNat ∧ c.val.toNat < 0x110000) := c.valid
  unfold String.utf8EncodeChar
  generalize c.val.toNat = v at hvalid
  by_cases hone : v ≤ 0x7f
  · rw [if_pos hone]
    refine .one ?_
    rw [UInt8.toNat_ofNat']
    omega
  rw [if_neg hone]
  by_cases htwo : v ≤ 0x7ff
  · rw [if_pos htwo]
    refine .two ?_ (isTail_ofNat v)
    rw [UInt8.toNat_ofNat']
    omega
  rw [if_neg htwo]
  by_cases hthree : v ≤ 0xffff
  · rw [if_pos hthree]
    refine .three ?_ (isTail_ofNat _) ?_ ?_ (isTail_ofNat v)
    all_goals
      simp only [UInt8.toNat_ofNat']
      omega
  rw [if_neg hthree]
  refine .four ?_ (isTail_ofNat _) ?_ ?_ (isTail_ofNat _) (isTail_ofNat v)
  all_goals
    simp only [UInt8.toNat_ofNat']
    omega

lemma Encodes.exists_char {bytes : List UInt8} (h : Encodes bytes) :
    ∃ c : Char, String.utf8EncodeChar c = bytes := by
  cases h with
  | @one a ha =>
    obtain ⟨char, hchar⟩ := Lib.exists_char (n := a.toNat) (.inl (by omega))
    refine ⟨char, ?_⟩
    simp [hchar, ha, String.utf8EncodeChar]
  | @two a b ha hb =>
    unfold IsTail at hb
    obtain ⟨char, hchar⟩ := Lib.exists_char (n := (a.toNat - 0xc0) * 64 + (b.toNat - 0x80))
      (.inl (by omega))
    refine ⟨char, ?_⟩
    unfold String.utf8EncodeChar
    rw [if_neg (by omega), if_pos (by omega), @ofNat_eq a _ (by omega),
      @ofNat_eq b _ (by omega)]
  | @three a b c ha hb hshort hscalar hc =>
    unfold IsTail at hb hc
    obtain ⟨char, hchar⟩ := Lib.exists_char
      (n := (a.toNat - 0xe0) * 4096 + (b.toNat - 0x80) * 64 + (c.toNat - 0x80)) (by omega)
    refine ⟨char, ?_⟩
    unfold String.utf8EncodeChar
    rw [if_neg (by omega), if_neg (by omega), if_pos (by omega),
      @ofNat_eq a _ (by omega), @ofNat_eq b _ (by omega),
      @ofNat_eq c _ (by omega)]
  | @four a b c d ha hb hshort hlast hc hd =>
    unfold IsTail at hb hc hd
    obtain ⟨char, hchar⟩ := Lib.exists_char
      (n := (a.toNat - 0xf0) * 262144 + (b.toNat - 0x80) * 4096 + (c.toNat - 0x80) * 64 +
        (d.toNat - 0x80)) (.inr (by omega))
    refine ⟨char, ?_⟩
    unfold String.utf8EncodeChar
    rw [if_neg (by omega), if_neg (by omega), if_neg (by omega),
      @ofNat_eq a _ (by omega), @ofNat_eq b _ (by omega),
      @ofNat_eq c _ (by omega), @ofNat_eq d _ (by omega)]

lemma Encodes.append {first rest : List UInt8} (h : Encodes first) (hrest : ValidUtf8 rest) :
    ValidUtf8 (first ++ rest) := by
  obtain ⟨c, rfl⟩ := h.exists_char
  exact hrest.cons

end Netz.Lib
